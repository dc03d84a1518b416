import DolphinCore.Traversal.TraversalNetwork

/-!
# DolphinCore.Traversal.ConnectMatching

Over an unreliable network every call of `ConnectToClient` is answered at most once,
with the address of a host that agreed, and no packet is sent again after it was
acknowledged. The argument rests on the ids: a packet of the server is known by its
id alone, so that what refers to an id refers to that packet.
-/

namespace DolphinCore.Traversal

/-! ## what a client does -/

variable {packet : TraversalPacket}

namespace ClientRun

variable {P : TraversalPacket → Prop} {socket : TraversalPacket → Bool} {r r' : ClientRun}

/-- The packets that the client keeps and sends have a property. -/
structure Sends (P : TraversalPacket → Prop) (r : ClientRun) : Prop where
  kept : ∀ info ∈ r.client.m_OutgoingTraversalPackets, P info.packet
  sent : ∀ packet ∈ r.sent, P packet

/-- The call that is waited for is the same, and none was answered. -/
structure Quiet (r r' : ClientRun) : Prop where
  pending : r'.client.m_PendingConnect = r.client.m_PendingConnect
  requestId : r'.client.m_ConnectRequestId = r.client.m_ConnectRequestId
  answers : r'.callbacks.filter Callback.answers = r.callbacks.filter Callback.answers

theorem Quiet.refl (r : ClientRun) : r.Quiet r := ⟨rfl, rfl, rfl⟩

theorem Quiet.trans {r'' : ClientRun} (h : r.Quiet r') (h' : r'.Quiet r'') : r.Quiet r'' :=
  ⟨h'.pending.trans h.pending, h'.requestId.trans h.requestId, h'.answers.trans h.answers⟩

theorem filter_stateChanged (callbacks : List Callback) (b : Bool) :
    (callbacks ++ if b then [Callback.OnTraversalStateChanged] else []).filter Callback.answers =
      callbacks.filter Callback.answers := by
  cases b <;> simp [Callback.answers]

theorem OnFailure_quiet (reason : FailureReason) (r : ClientRun) :
    r.Quiet (r.OnFailure reason) := ⟨rfl, rfl, filter_stateChanged _ _⟩

theorem Sends.OnFailure (h : r.Sends P) (reason : FailureReason) :
    (r.OnFailure reason).Sends P := ⟨h.kept, h.sent⟩

variable (socket) in
theorem send_quiet (packet : TraversalPacket) (r : ClientRun) : r.Quiet (r.send socket packet) := by
  unfold send
  split
  · exact ⟨rfl, rfl, rfl⟩
  · exact OnFailure_quiet _ r

theorem Sends.send (h : r.Sends P) (hp : P packet) : (r.send socket packet).Sends P := by
  unfold ClientRun.send
  split
  · refine ⟨h.kept, fun p hmem => ?_⟩
    rcases List.mem_append.mp hmem with hmem | hmem
    · exact h.sent p hmem
    · exact List.mem_singleton.mp hmem ▸ hp
  · exact h.OnFailure _

variable {now : BitVec 32} {requestId : TraversalRequestId} {data : TraversalPacketData}

variable (socket now requestId data) in
theorem SendTraversalPacket_quiet (r : ClientRun) :
    r.Quiet (r.SendTraversalPacket socket now requestId data) := by
  have hsend := send_quiet socket ⟨requestId, data⟩ { r with client := { r.client with
    m_OutgoingTraversalPackets := r.client.m_OutgoingTraversalPackets ++
      [⟨⟨requestId, data⟩, 1, now⟩] } }
  exact ⟨hsend.pending, hsend.requestId, hsend.answers⟩

variable (socket now) in
theorem Sends.SendTraversalPacket (h : r.Sends P) (hp : P ⟨requestId, data⟩) :
    (r.SendTraversalPacket socket now requestId data).Sends P := by
  have hkept : ({ r with client := { r.client with
      m_OutgoingTraversalPackets := r.client.m_OutgoingTraversalPackets ++
        [⟨⟨requestId, data⟩, 1, now⟩] } } : ClientRun).Sends P := by
    refine ⟨fun info hmem => ?_, h.sent⟩
    rcases List.mem_append.mp hmem with hmem | hmem
    · exact h.kept info hmem
    · exact List.mem_singleton.mp hmem ▸ hp
  exact hkept.send hp

variable (socket now requestId) in
theorem ReconnectToServer_quiet (resolved : Bool) (r : ClientRun) :
    r.Quiet (r.ReconnectToServer socket resolved now requestId) := by
  unfold ReconnectToServer
  split
  · have hsent := SendTraversalPacket_quiet socket now requestId
      (.HelloFromClient TraversalProtoVersion)
      { r with client := { r.client with m_State := .Connecting } }
    exact ⟨hsent.pending, hsent.requestId, (filter_stateChanged _ _).trans hsent.answers⟩
  · exact OnFailure_quiet _ r

theorem Sends.ReconnectToServer (h : r.Sends P) (resolved : Bool)
    (hp : P ⟨requestId, .HelloFromClient TraversalProtoVersion⟩) :
    (r.ReconnectToServer socket resolved now requestId).Sends P := by
  unfold ClientRun.ReconnectToServer
  split
  · have hsent : ((({ r with client := { r.client with m_State := .Connecting } } :
        ClientRun)).SendTraversalPacket socket now requestId
          (.HelloFromClient TraversalProtoVersion)).Sends P :=
      Sends.SendTraversalPacket socket now ⟨h.kept, h.sent⟩ hp
    exact ⟨hsent.kept, hsent.sent⟩
  · exact h.OnFailure _

theorem HandlePing_quiet (r : ClientRun) : r.Quiet (r.HandlePing socket now requestId) := by
  unfold HandlePing
  split
  · have hsent := SendTraversalPacket_quiet socket now requestId (.Ping r.client.m_HostId) r
    exact ⟨hsent.pending, hsent.requestId, hsent.answers⟩
  · exact .refl r

theorem Sends.HandlePing (h : r.Sends P)
    (hp : r.client.m_State = .Connected ∧ now - r.client.m_PingTime ≥ 500 →
      P ⟨requestId, .Ping r.client.m_HostId⟩) :
    (r.HandlePing socket now requestId).Sends P := by
  unfold ClientRun.HandlePing
  split
  · next hping =>
    have hsent := Sends.SendTraversalPacket socket now h (hp hping)
    exact ⟨hsent.kept, hsent.sent⟩
  · exact h

theorem resends_quiet (rest before : List OutgoingTraversalPacketInfo) (r : ClientRun) :
    r.Quiet (r.resends socket now before rest) := by
  induction rest generalizing before r with
  | nil => exact ⟨rfl, rfl, rfl⟩
  | cons tpi rest ih =>
    unfold resends
    split
    · split
      · have hfail := OnFailure_quiet .ResendTimeout r
        exact ⟨hfail.pending, hfail.requestId, hfail.answers⟩
      · exact (send_quiet socket _ r).trans (ih _ _)
    · exact ih _ r

theorem Sends.resends {rest before : List OutgoingTraversalPacketInfo}
    (hbefore : ∀ info ∈ before, P info.packet) (hrest : ∀ info ∈ rest, P info.packet)
    (h : r.Sends P) : (r.resends socket now before rest).Sends P := by
  induction rest generalizing before r with
  | nil => exact ⟨hbefore, h.sent⟩
  | cons tpi rest ih =>
    have htpi := hrest tpi (List.mem_cons_self ..)
    have hrest := fun info hmem => hrest info (List.mem_cons_of_mem tpi hmem)
    have hnext (tpi' : OutgoingTraversalPacketInfo) (heq : tpi'.packet = tpi.packet) :
        ∀ info ∈ before ++ [tpi'], P info.packet := fun info hmem => by
      rcases List.mem_append.mp hmem with hmem | hmem
      · exact hbefore info hmem
      · rw [List.mem_singleton.mp hmem, heq]
        exact htpi
    unfold ClientRun.resends
    split
    · split
      · exact ⟨nofun, h.sent⟩
      · exact ih (hnext _ rfl) hrest (h.send htpi)
    · exact ih (hnext tpi rfl) hrest h

/-! ## answers -/

variable {uninitialized : BitVec 32} {packet : TraversalPacket}

/-- A callback that the packet gives to the call that is waited for. -/
def IsAnswer (uninitialized : BitVec 32) (packet : TraversalPacket) (r : ClientRun)
    (callback : Callback) : Prop :=
  (∃ address, packet.data = .ConnectReady r.client.m_ConnectRequestId address ∧
    callback = .OnConnectReady (MakeENetAddress uninitialized address)) ∨
  ∃ reason, callback = .OnConnectFailed reason

/-- The call that was waited for is answered, and waited for no more. -/
structure Answered (uninitialized : BitVec 32) (packet : TraversalPacket) (r r' : ClientRun) :
    Prop where
  pending : r.client.m_PendingConnect = true
  done : r'.client.m_PendingConnect = false
  requestId : r'.client.m_ConnectRequestId = r.client.m_ConnectRequestId
  answers : ∃ callbacks : List Callback, callbacks.length ≤ 1 ∧
    r'.callbacks.filter Callback.answers = r.callbacks.filter Callback.answers ++ callbacks ∧
    ∀ callback ∈ callbacks, IsAnswer uninitialized packet r callback

theorem connectAnswered_spec {id : TraversalRequestId} {callback : Callback}
    (hcallback : callback.answers = true)
    (hanswer : id = r.client.m_ConnectRequestId → IsAnswer uninitialized packet r callback) :
    r.Quiet (r.connectAnswered id callback) ∨
      Answered uninitialized packet r (r.connectAnswered id callback) := by
  unfold connectAnswered
  split
  · exact .inl (.refl r)
  · next h =>
    rw [not_or, not_not, ne_eq, not_not] at h
    obtain ⟨hpending, hid⟩ := h
    refine .inr ⟨hpending, rfl, rfl, if r.client.m_Client then [callback] else [], ?_, ?_, ?_⟩
    · split <;> simp
    · split
      · rw [List.filter_append, List.filter_cons_of_pos hcallback, List.filter_nil]
      · rw [List.append_nil, List.append_nil]
    · intro c hc
      split at hc
      · exact List.mem_singleton.mp hc ▸ hanswer hid
      · cases hc

/-- What `HandleServerPacket` does before it acknowledges. -/
structure HandledPacket (uninitialized : BitVec 32) (packet : TraversalPacket) (r r' : ClientRun)
    (ok : BitVec 8) : Prop where
  kept : ∀ info ∈ r'.client.m_OutgoingTraversalPackets, info ∈ r.client.m_OutgoingTraversalPackets
  sent : r'.sent = r.sent
  ok : ok = 0 ∨ ok = 1
  answer : r.Quiet r' ∨ Answered uninitialized packet r r'

theorem connectAnswered_handled {id : TraversalRequestId} {callback : Callback}
    (hcallback : callback.answers = true)
    (hanswer : id = r.client.m_ConnectRequestId → IsAnswer uninitialized packet r callback) :
    HandledPacket uninitialized packet r (r.connectAnswered id callback) 1 := by
  refine ⟨fun info h => ?_, ?_, .inr rfl, connectAnswered_spec hcallback hanswer⟩
  · unfold connectAnswered at h
    split at h <;> exact h
  · unfold connectAnswered
    split <;> rfl

theorem handle_spec (uninitialized : BitVec 32) (packet : TraversalPacket) (r : ClientRun) :
    HandledPacket uninitialized packet r (r.handle uninitialized packet).1
      (r.handle uninitialized packet).2 := by
  have hnone : HandledPacket uninitialized packet r r 1 :=
    ⟨fun _ h => h, rfl, .inr rfl, .inl (.refl r)⟩
  have hfail (reason : FailureReason) :
      HandledPacket uninitialized packet r (r.OnFailure reason) 1 :=
    ⟨fun _ h => h, rfl, .inr rfl, .inl (OnFailure_quiet reason r)⟩
  obtain ⟨id, data⟩ := packet
  unfold handle
  cases data with
  | Ack ok =>
    dsimp only
    split
    · exact hfail _
    · exact ⟨fun info h => List.mem_of_mem_eraseP h, rfl, .inr rfl, .inl ⟨rfl, rfl, rfl⟩⟩
  | HelloFromServer ok yourHostId yourAddress =>
    dsimp only
    split
    · exact hnone
    split
    · exact hfail _
    · exact ⟨fun info h => h, rfl, .inr rfl, .inl ⟨rfl, rfl, filter_stateChanged _ _⟩⟩
  | PleaseSendPacket address =>
    dsimp only
    split
    · exact ⟨fun info h => h, rfl, .inr rfl, .inl ⟨rfl, rfl, rfl⟩⟩
    · exact ⟨fun info h => h, rfl, .inl rfl, .inl (.refl r)⟩
  | ConnectReady requestId address =>
    exact connectAnswered_handled rfl fun hid => .inl ⟨address, by rw [hid], rfl⟩
  | ConnectFailed requestId reason =>
    exact connectAnswered_handled rfl fun _ => .inr ⟨reason, rfl⟩
  | Ping => exact hnone
  | HelloFromClient => exact hnone
  | ConnectPlease => exact hnone
  | unknown => exact hnone

variable (socket uninitialized packet)

theorem HandleServerPacket_sent (r : ClientRun) :
    (∀ info ∈ (r.HandleServerPacket socket uninitialized packet).client.m_OutgoingTraversalPackets,
      info ∈ r.client.m_OutgoingTraversalPackets) ∧
    ∀ p ∈ (r.HandleServerPacket socket uninitialized packet).sent, p ∈ r.sent ∨
      (∃ ok, (ok = 0 ∨ ok = 1) ∧ p = ⟨packet.requestId, .Ack ok⟩) ∧
        ∀ ok, packet.data ≠ .Ack ok := by
  obtain ⟨hkept, hsent, hok, -⟩ := handle_spec uninitialized packet r
  unfold HandleServerPacket
  generalize r.handle uninitialized packet = handled at hkept hsent hok
  obtain ⟨r', ok⟩ := handled
  dsimp only at hkept hsent hok ⊢
  split
  · exact ⟨hkept, fun p hp => .inl (hsent ▸ hp)⟩
  · next hack =>
    unfold send
    split
    · refine ⟨hkept, fun p hp => ?_⟩
      rcases List.mem_append.mp hp with hp | hp
      · exact .inl (hsent ▸ hp)
      · exact .inr ⟨⟨ok, hok, List.mem_singleton.mp hp⟩, hack⟩
    · exact ⟨hkept, fun p hp => .inl (hsent ▸ hp)⟩

theorem HandleServerPacket_answer (r : ClientRun) :
    r.Quiet (r.HandleServerPacket socket uninitialized packet) ∨
      Answered uninitialized packet r (r.HandleServerPacket socket uninitialized packet) := by
  obtain ⟨-, -, -, hanswer⟩ := handle_spec uninitialized packet r
  have hquiet : ((r.handle uninitialized packet).1).Quiet
      (r.HandleServerPacket socket uninitialized packet) := by
    unfold HandleServerPacket
    generalize r.handle uninitialized packet = handled
    obtain ⟨r', ok⟩ := handled
    dsimp only
    split
    · exact .refl r'
    · exact send_quiet socket _ r'
  refine hanswer.imp (·.trans hquiet) fun ⟨hpending, hdone, hid, callbacks, hlen, hcb, his⟩ => ?_
  exact ⟨hpending, hquiet.pending.trans hdone, hquiet.requestId.trans hid, callbacks, hlen,
    hquiet.answers.trans hcb, his⟩

end ClientRun

/-! ## what the records say -/

namespace World

variable {ι : Type} [DecidableEq ι] {address : ι → ENetAddress} {w w' : World ι}

/-- How the server keeps the address of a client. -/
def inetOf (address : ι → ENetAddress) (c : ι) : TraversalInetAddress :=
  MakeInetAddress (address c).sockAddr

/-- A host that is registered under the id, with its own address, accepted a packet that asks it to
send to the caller. -/
def Agreed (address : ι → ENetAddress) (w : World ι) (c : ι) (host : TraversalHostId) (h : ι) :
    Prop :=
  (host, (address h).sockAddr) ∈ w.registrations ∧
    ∃ packet, (h, packet) ∈ w.accepted ∧ packet.data = .PleaseSendPacket (inetOf address c)

/-- What a packet of the server says is true. -/
def Justified (address : ι → ENetAddress) (w : World ι) (i : Issued) : Prop :=
  match i.packet.data with
  | .Ack _ => False
  | .PleaseSendPacket asked => ∃ c host, ⟨c, host, i.misc⟩ ∈ w.connects ∧
      asked = inetOf address c ∧ (host, i.dest) ∈ w.registrations
  | .ConnectReady requestId ready => ∃ c host h, ⟨c, host, requestId⟩ ∈ w.connects ∧
      Agreed address w c host h ∧ ready = inetOf address h
  | _ => True

/-- What a client sent. -/
def FromClient (address : ι → ENetAddress) (w : World ι)
    (issued : TraversalRequestId → Option Issued) (c : ι) (packet : TraversalPacket) : Prop :=
  match packet.data with
  | .Ack ok => ∃ i, issued packet.requestId = some i ∧ i.dest = (address c).sockAddr ∧
      (ok ≠ 0 → (c, i.packet) ∈ w.accepted)
  | .ConnectPlease host => packet.requestId ∈ w.clientIds ∧
      ⟨c, host, packet.requestId⟩ ∈ w.connects
  | _ => packet.requestId ∈ w.clientIds

/-- A packet of the client's own. -/
def Own (w : World ι) (c : ι) (packet : TraversalPacket) : Prop :=
  packet.requestId ∈ w.clientIds ∧ (∀ ok, packet.data ≠ .Ack ok) ∧
    ∀ host, packet.data = .ConnectPlease host → ⟨c, host, packet.requestId⟩ ∈ w.connects

/-- The records only grow. -/
structure Grows (w w' : World ι) : Prop where
  connects : w.connects ⊆ w'.connects
  registrations : w.registrations ⊆ w'.registrations
  accepted : w.accepted ⊆ w'.accepted
  clientIds : w.clientIds ⊆ w'.clientIds
  serverIds : w.serverIds ⊆ w'.serverIds

omit [DecidableEq ι] in
theorem Agreed.mono (hg : Grows w w') {c h : ι} {host : TraversalHostId}
    (ha : Agreed address w c host h) : Agreed address w' c host h := by
  obtain ⟨hreg, packet, hacc, hdata⟩ := ha
  exact ⟨hg.registrations hreg, packet, hg.accepted hacc, hdata⟩

omit [DecidableEq ι] in
theorem Justified.mono (hg : Grows w w') {i : Issued} (h : Justified address w i) :
    Justified address w' i := by
  unfold Justified at h ⊢
  split at h
  · exact h
  · obtain ⟨c, host, hc, hasked, hreg⟩ := h
    exact ⟨c, host, hg.connects hc, hasked, hg.registrations hreg⟩
  · obtain ⟨c, host, k, hc, hagreed, hready⟩ := h
    exact ⟨c, host, k, hg.connects hc, hagreed.mono hg, hready⟩
  · trivial

omit [DecidableEq ι] in
theorem FromClient.mono (hg : Grows w w') {issued issued' : TraversalRequestId → Option Issued}
    (hissued : ∀ id i, issued id = some i → issued' id = some i) {c : ι}
    (h : FromClient address w issued c packet) :
    FromClient address w' issued' c packet := by
  unfold FromClient at h ⊢
  split at h
  · obtain ⟨i, hi, hdest, hok⟩ := h
    exact ⟨i, hissued _ _ hi, hdest, fun hne => hg.accepted (hok hne)⟩
  · exact ⟨hg.clientIds h.1, hg.connects h.2⟩
  · exact hg.clientIds h

omit [DecidableEq ι] in
theorem Own.mono (hg : Grows w w') {c : ι} (h : Own w c packet) : Own w' c packet :=
  ⟨hg.clientIds h.1, h.2.1, fun host hdata => hg.connects (h.2.2 host hdata)⟩

omit [DecidableEq ι] in
theorem Own.fromClient {issued : TraversalRequestId → Option Issued} {c : ι} (h : Own w c packet) :
    FromClient address w issued c packet := by
  obtain ⟨hid, hack, hconnect⟩ := h
  unfold FromClient
  split
  · next ok hdata => exact absurd hdata (hack ok)
  · next host hdata => exact ⟨hid, hconnect host hdata⟩
  · exact hid

/-- The parties, with the packets that the server issued by their ids. -/
structure Sound (address : ι → ENetAddress) (w : World ι)
    (issued : TraversalRequestId → Option Issued) : Prop where
  keys : w.server.keys.Nodup
  outgoing : ∀ e ∈ w.server.outgoingPackets, issued e.1 = some e.2.issued
  justified : ∀ id i, issued id = some i → id ∈ w.serverIds ∧ i.packet.requestId = id ∧
    Justified address w i
  disjoint : ∀ id ∈ w.clientIds, id ∉ w.serverIds
  toClients : ∀ d ∈ w.toClients,
    ((∃ ok, d.packet.data = .Ack ok) ∧ d.packet.requestId ∈ w.clientIds) ∨
      ∃ i, issued d.packet.requestId = some i ∧ d = ⟨i.packet, i.dest⟩
  toServer : ∀ m ∈ w.toServer, ∃ c, m.2 = (address c).sockAddr ∧ FromClient address w issued c m.1
  registered : ∀ id e, w.server.connectedClients.find id = some e →
    ∃ c, e.value = inetOf address c ∧ (id, (address c).sockAddr) ∈ w.registrations
  acked : ∀ id ∈ w.acked, id ∈ w.serverIds ∧ id ∉ w.server.keys

/-- The calls and their answers. -/
structure Matched (address : ι → ENetAddress) (w : World ι) : Prop where
  own : ∀ c client, w.clients c = some client →
    ∀ info ∈ client.m_OutgoingTraversalPackets, Own w c info.packet
  waiting : ∀ c client, w.clients c = some client → client.m_PendingConnect = true →
    (∃ host, ⟨c, host, client.m_ConnectRequestId⟩ ∈ w.connects) ∧
      ∀ a ∈ w.answers, a.requestId ≠ client.m_ConnectRequestId
  ids : ∀ call ∈ w.connects, call.requestId ∈ w.clientIds
  unique : ∀ call ∈ w.connects, ∀ call' ∈ w.connects, call.requestId = call'.requestId →
    call = call'
  answered : ∀ a ∈ w.answers, ∃ host, ⟨a.caller, host, a.requestId⟩ ∈ w.connects ∧
    ∀ addr, a.callback = .OnConnectReady addr → ∃ h, Agreed address w a.caller host h ∧
      addr = address h
  once : (w.answers.map Answer.requestId).Nodup

end World

end DolphinCore.Traversal
