import DolphinCore.Traversal.Registration

/-!
# DolphinCore.Traversal.Requests

What the server sends of its own: which packets it allocates for a packet that it
received, that it keeps them as they are, and that it sends no others.
-/

namespace DolphinCore.Traversal

/-- What does not change about a packet of the server. -/
structure Issued where
  packet : TraversalPacket
  dest : SockAddrIn6
  misc : TraversalRequestId
deriving DecidableEq

def OutgoingPacketInfo.issued (info : OutgoingPacketInfo) : Issued :=
  ⟨info.packet, info.dest, info.misc⟩

namespace RandomPool

/-- The id that is drawn next. -/
def nextId (pool : RandomPool) : TraversalRequestId :=
  BitVec.ofNat 64 (Endian.fromLE (GetRandomBytes pool 8).1)

/-- The ids that are drawn one after another. -/
def nextIds (pool : RandomPool) : Nat → List TraversalRequestId
  | 0 => []
  | n + 1 => pool.nextId :: nextIds (GetRandomBytes pool 8).2 n

end RandomPool

namespace Server

variable {std : UnorderedMap.Insertion TraversalHostId (EvictEntry TraversalInetAddress)}
  {s s' : Server} {currentTime : BitVec 64} {packet : TraversalPacket} {addr : SockAddrIn6}

def keys (s : Server) : List TraversalRequestId := s.outgoingPackets.map Prod.fst

variable {e : TraversalRequestId × OutgoingPacketInfo}

theorem mem_keys (h : e ∈ s.outgoingPackets) : e.1 ∈ s.keys := List.mem_map_of_mem h

/-! ## new packets -/

/-- A packet that is allocated. -/
def newEntry (s : Server) (currentTime : BitVec 64) (dest : SockAddrIn6) (misc : TraversalRequestId)
    (data : TraversalPacketData) : TraversalRequestId × OutgoingPacketInfo :=
  (s.random.nextId, ⟨⟨s.random.nextId, data⟩, misc, dest, 0, currentTime⟩)

theorem AllocPacket_outgoingPackets (currentTime : BitVec 64)
    (hfresh : s.random.nextId ∉ s.keys) (dest : SockAddrIn6)
    (misc : TraversalRequestId) (data : TraversalPacketData) :
    ((s.AllocPacket currentTime dest misc).2.setData (s.AllocPacket currentTime dest misc).1
      data).outgoingPackets = s.newEntry currentTime dest misc data :: s.outgoingPackets := by
  have hne : ∀ e ∈ s.outgoingPackets, e.1 ≠ s.random.nextId := by
    rintro e he heq
    exact hfresh (heq ▸ mem_keys he)
  have hfilter : s.outgoingPackets.filter (fun e => e.1 ≠ s.random.nextId) = s.outgoingPackets :=
    List.filter_eq_self.mpr fun e he => by simpa using hne e he
  have halloc : (s.AllocPacket currentTime dest misc).2.outgoingPackets =
      s.newEntry currentTime dest misc (.Ack 0) :: s.outgoingPackets :=
    congrArg (s.newEntry currentTime dest misc (.Ack 0) :: ·) hfilter
  unfold setData
  rw [halloc, List.map_cons]
  refine List.cons_eq_cons.mpr ⟨if_pos rfl, ?_⟩
  exact (List.map_congr_left fun e he => if_neg (hne e he)).trans (List.map_id' _)

variable {info : OutgoingPacketInfo}

theorem info_eq_some_iff (h : s.keys.Nodup) {id : TraversalRequestId} :
    s.info id = some info ↔ (id, info) ∈ s.outgoingPackets :=
  UnorderedMap.find?_eq_some_iff h

theorem mem_of_info {id : TraversalRequestId} (h : s.info id = some info) :
    (id, info) ∈ s.outgoingPackets := by
  obtain ⟨⟨k, i⟩, hfind, rfl⟩ := Option.map_eq_some_iff.mp h
  have hk := List.find?_some hfind
  simp only [decide_eq_true_eq] at hk
  subst hk
  exact List.mem_of_find?_eq_some hfind

theorem AllocPacket_info (currentTime : BitVec 64) (hfresh : s.random.nextId ∉ s.keys) (dest : SockAddrIn6)
    (misc : TraversalRequestId) {id : TraversalRequestId} (hne : s.random.nextId ≠ id) :
    (s.AllocPacket currentTime dest misc).2.info id = s.info id := by
  have hfilter : s.outgoingPackets.filter (fun e => e.1 ≠ s.random.nextId) = s.outgoingPackets :=
    List.filter_eq_self.mpr fun e he => by
      simp only [ne_eq, decide_not, Bool.not_eq_eq_eq_not, Bool.not_true, decide_eq_false_iff_not]
      rintro heq
      exact hfresh (heq ▸ mem_keys he)
  have halloc : (s.AllocPacket currentTime dest misc).2.outgoingPackets =
      s.newEntry currentTime dest misc (.Ack 0) :: s.outgoingPackets :=
    congrArg (s.newEntry currentTime dest misc (.Ack 0) :: ·) hfilter
  unfold info
  rw [halloc, List.find?_cons_of_neg]
  exact fun h => hne (of_decide_eq_true h)

/-- A packet for which the server makes one of its own. -/
def allocates (s : Server) (packet : TraversalPacket) : Bool :=
  match packet.data with
  | .Ack _ =>
    match s.info packet.requestId with
    | some info => match info.packet.data with
      | .PleaseSendPacket _ => true
      | _ => false
    | none => false
  | .HelloFromClient _ => true
  | .ConnectPlease _ => true
  | _ => false

/-- What the server makes for a packet. -/
def Responds (s : Server) (currentTime : BitVec 64) (packet : TraversalPacket) (addr : SockAddrIn6)
    (i : Issued) : Prop :=
  match packet.data with
  | .Ack ok => ∃ info address, s.info packet.requestId = some info ∧
      info.packet.data = .PleaseSendPacket address ∧
      i.packet.data = if ok ≠ 0 then .ConnectReady info.misc (MakeInetAddress info.dest)
        else .ConnectFailed info.misc .ClientFailure
  | .HelloFromClient _ => ∃ ok hostId address, i.packet.data = .HelloFromServer ok hostId address
  | .ConnectPlease hostId =>
    (∃ address, (EvictFind currentTime s.connectedClients hostId false).2 = some address ∧
      i.packet.data = .PleaseSendPacket (MakeInetAddress addr) ∧ i.dest = MakeSinAddr address ∧
      i.misc = packet.requestId) ∨
    i.packet.data = .ConnectFailed packet.requestId .NoSuchClient
  | _ => False

/-- The packets that are left when one was acknowledged. -/
def remaining (s : Server) (packet : TraversalPacket) :
    List (TraversalRequestId × OutgoingPacketInfo) :=
  match packet.data with
  | .Ack _ => s.outgoingPackets.filter fun e => e.1 ≠ packet.requestId
  | _ => s.outgoingPackets

/-- Who is registered under an id after a packet. -/
def Registered (s : Server) (packet : TraversalPacket) (addr : SockAddrIn6) (id : TraversalHostId)
    (address : TraversalInetAddress) : Prop :=
  (∃ e, s.connectedClients.find id = some e ∧ e.value = address) ∨
    (∃ v ≤ TraversalProtoVersion, packet.data = .HelloFromClient v) ∧ id = s.drawnId ∧
      address = MakeInetAddress addr

/-- What a packet does to the server. -/
structure Handled (s : Server) (currentTime : BitVec 64) (packet : TraversalPacket)
    (addr : SockAddrIn6) (s' : Server) (sent : List Datagram) : Prop where
  outgoing : ∃ new, s'.outgoingPackets = new ++ s.remaining packet ∧
    (new.map Prod.fst).Nodup ∧ (∀ e ∈ new, s.allocates packet ∧ e.1 = s.random.nextId ∧
      e.2.packet.requestId = e.1 ∧ Responds s currentTime packet addr e.2.issued)
  acks : ∀ d ∈ sent, (∃ ok, d.packet.data = .Ack ok) ∧ d.packet.requestId = packet.requestId ∧
    ∀ ok, packet.data ≠ .Ack ok
  registered : ∀ id e, s'.connectedClients.find id = some e → s.Registered packet addr id e.value

theorem handled_of_new {dest : SockAddrIn6} {misc : TraversalRequestId}
    {data : TraversalPacketData} (halloc : s.allocates packet = true)
    (hack : ∀ ok, packet.data ≠ .Ack ok)
    (hresponds : Responds s currentTime packet addr
      (s.newEntry currentTime dest misc data).2.issued)
    (hout : s'.outgoingPackets = s.newEntry currentTime dest misc data :: s.outgoingPackets)
    (hreg : ∀ id e, s'.connectedClients.find id = some e → s.Registered packet addr id e.value)
    (ok : BitVec 8) :
    Handled s currentTime packet addr s' [⟨⟨packet.requestId, .Ack ok⟩, addr⟩] := by
  have hremaining : s.remaining packet = s.outgoingPackets := by
    unfold remaining
    split
    · next ok h => exact absurd h (hack ok)
    · rfl
  refine ⟨⟨[s.newEntry currentTime dest misc data], by rw [hout, hremaining]; rfl,
    List.nodup_singleton _, fun e he => ?_⟩, fun d hd => ?_, hreg⟩
  · obtain rfl := List.mem_singleton.mp he
    exact ⟨halloc, rfl, rfl, hresponds⟩
  · obtain rfl := List.mem_singleton.mp hd
    exact ⟨⟨ok, rfl⟩, rfl, hack⟩

theorem handled_of_none (hack : ∀ ok, packet.data ≠ .Ack ok)
    (hout : s'.outgoingPackets = s.outgoingPackets)
    (hreg : ∀ id e, s'.connectedClients.find id = some e → s.Registered packet addr id e.value)
    (ok : BitVec 8) :
    Handled s currentTime packet addr s' [⟨⟨packet.requestId, .Ack ok⟩, addr⟩] := by
  have hremaining : s.remaining packet = s.outgoingPackets := by
    unfold remaining
    split
    · next ok h => exact absurd h (hack ok)
    · rfl
  refine ⟨⟨[], by rw [hout, hremaining]; rfl, List.nodup_nil, nofun⟩, fun d hd => ?_, hreg⟩
  obtain rfl := List.mem_singleton.mp hd
  exact ⟨⟨ok, rfl⟩, rfl, hack⟩

theorem find_of_EvictFind {map : Clients} {key id : TraversalHostId} {refresh : Bool}
    {e : EvictEntry TraversalInetAddress}
    (h : (EvictFind currentTime map key refresh).1.find id = some e) :
    ∃ e₀, map.find id = some e₀ ∧ e₀.value = e.value := by
  induction hn : map.nodes.length using Nat.strongRecOn generalizing map with
  | _ n ih =>
    rw [EvictFind] at h
    split at h
    · next first hscan =>
      obtain ⟨e', he', -⟩ := mem_of_scan_expired hscan
      have hlt : (map.erase first).nodes.length < n := by
        rw [← hn]
        exact List.length_filter_lt_length_iff_exists.mpr
          ⟨_, (List.mem_filter.mp he').1, by simp⟩
      obtain ⟨e₀, he₀, hvalue⟩ := ih _ hlt h rfl
      rw [UnorderedMap.find_erase] at he₀
      split at he₀
      · cases he₀
      · exact ⟨e₀, he₀, hvalue⟩
    · cases refresh with
      | false => exact ⟨e, h, rfl⟩
      | true =>
        rw [if_pos rfl, UnorderedMap.find_modify] at h
        split at h
        · next heq =>
          subst heq
          obtain ⟨e₀, he₀, rfl⟩ := Option.map_eq_some_iff.mp h
          exact ⟨e₀, he₀, rfl⟩
        · exact ⟨e, h, rfl⟩
    · exact ⟨e, h, rfl⟩

theorem find_of_found {map : Clients} {key : TraversalHostId} {refresh : Bool}
    {address : TraversalInetAddress}
    (h : (EvictFind currentTime map key refresh).2 = some address) :
    ∃ e, map.find key = some e ∧ e.value = address := by
  rw [EvictFind_spec.1] at h
  obtain ⟨e, he, rfl⟩ := Option.map_eq_some_iff.mp h
  exact ⟨e, (live_eq_some_iff.mp he).1, rfl⟩

variable {fuel : Nat}

theorem find_of_registerHost {hostId id : TraversalHostId} {address : TraversalInetAddress}
    {clients clients' : Clients}
    (h : registerHost std currentTime hostId address fuel clients = some clients')
    {e : EvictEntry TraversalInetAddress} (he : clients'.find id = some e) :
    (∃ e₀, clients.find id = some e₀ ∧ e₀.value = e.value) ∨ id = hostId ∧ e.value = address := by
  induction fuel generalizing clients with
  | zero => cases h
  | succ fuel ih =>
    rw [registerHost] at h
    have hfind := @find_of_EvictFind currentTime clients hostId id false
    generalize EvictFind currentTime clients hostId false = found at h hfind
    obtain ⟨clients₁, value⟩ := found
    cases value with
    | some _ =>
      rcases ih h with ⟨e₁, he₁, hvalue⟩ | hnew
      · obtain ⟨e₀, he₀, hvalue₀⟩ := hfind he₁
        exact .inl ⟨e₀, he₀, hvalue₀.trans hvalue⟩
      · exact .inr hnew
    | none =>
      obtain rfl := Option.some.inj h
      rw [EvictSet, UnorderedMap.Insertion.find_insert] at he
      split at he
      · next heq =>
        cases he
        exact .inr ⟨heq, rfl⟩
      · exact .inl (hfind he)

@[simp] theorem erase_outgoingPackets (id : TraversalRequestId) : (s.erase id).outgoingPackets =
    s.outgoingPackets.filter fun entry => entry.1 ≠ id := rfl

theorem tellRequester_outgoingPackets (hfresh : s.random.nextId ∉ s.keys) {id : TraversalRequestId}
    (hne : s.random.nextId ≠ id) (hinfo : s.info id = some info) (ok : BitVec 8)
    (address : TraversalInetAddress) : (s.tellRequester currentTime ok id address).outgoingPackets =
      s.newEntry currentTime (MakeSinAddr address) 0
        (if ok ≠ 0 then .ConnectReady info.misc (MakeInetAddress info.dest)
          else .ConnectFailed info.misc .ClientFailure) :: s.outgoingPackets := by
  have hinfo' := AllocPacket_info currentTime hfresh (MakeSinAddr address) 0 hne
  have halloc := AllocPacket_outgoingPackets currentTime hfresh
    (MakeSinAddr address) 0 (if ok ≠ 0 then .ConnectReady info.misc (MakeInetAddress info.dest)
      else .ConnectFailed info.misc .ClientFailure)
  unfold tellRequester
  generalize s.AllocPacket currentTime (MakeSinAddr address) 0 = allocated at hinfo' halloc ⊢
  obtain ⟨readyId, s'⟩ := allocated
  dsimp only at hinfo' halloc ⊢
  rw [hinfo', hinfo]
  exact halloc

theorem handleAck_handled (hnodup : s.keys.Nodup)
    (hfresh : s.allocates packet = true → s.random.nextId ∉ s.keys) {ok : BitVec 8}
    (hack : packet.data = .Ack ok) :
    Handled s currentTime packet addr (s.handleAck currentTime ok packet.requestId) [] := by
  have hremaining : s.remaining packet =
      s.outgoingPackets.filter fun e => e.1 ≠ packet.requestId := by
    unfold remaining
    rw [hack]
  refine ⟨?_, nofun, fun id e he => .inl ⟨e, ?_, rfl⟩⟩
  · rw [hremaining]
    unfold handleAck
    cases hinfo : s.info packet.requestId with
    | none =>
      refine ⟨[], ?_, List.nodup_nil, nofun⟩
      refine (List.filter_eq_self.mpr fun e he => ?_).symm
      simp only [ne_eq, decide_not, Bool.not_eq_eq_eq_not, Bool.not_true, decide_eq_false_iff_not]
      rintro heq
      have := (info_eq_some_iff hnodup).mpr he
      rw [heq, hinfo] at this
      cases this
    | some info =>
      dsimp only
      split
      · next address hplease =>
        have halloc : s.allocates packet = true := by
          unfold allocates
          rw [hack]
          rw [hinfo]
          dsimp only
          rw [hplease]
        have hnext := hfresh halloc
        have hne : s.random.nextId ≠ packet.requestId := by
          intro heq
          exact hnext (heq ▸ mem_keys (mem_of_info hinfo))
        refine ⟨[s.newEntry currentTime (MakeSinAddr address) 0 (if ok ≠ 0 then
          .ConnectReady info.misc (MakeInetAddress info.dest)
            else .ConnectFailed info.misc .ClientFailure)], ?_, List.nodup_singleton _,
          fun e he => ?_⟩
        · rw [erase_outgoingPackets, tellRequester_outgoingPackets hnext hne hinfo]
          exact List.filter_cons_of_pos (decide_eq_true hne)
        · obtain rfl := List.mem_singleton.mp he
          refine ⟨halloc, rfl, rfl, ?_⟩
          unfold Responds
          rw [hack]
          exact ⟨info, address, hinfo, hplease, rfl⟩
      · exact ⟨[], rfl, List.nodup_nil, nofun⟩
  · rwa [handleAck_connectedClients] at he

/-- **A packet** is handled by a packet of the server's own, or none. -/
theorem HandlePacket_handled (hnodup : s.keys.Nodup)
    (hfresh : s.allocates packet = true → s.random.nextId ∉ s.keys) {sent : List Datagram}
    (h : HandlePacket std fuel s currentTime packet addr = some (s', sent)) :
    Handled s currentTime packet addr s' sent := by
  obtain ⟨id, data⟩ := packet
  have hsame : ∀ i e, s.connectedClients.find i = some e →
      s.Registered ⟨id, data⟩ addr i e.value := fun i e he => .inl ⟨e, he, rfl⟩
  have hother : ∀ data : TraversalPacketData, (∀ ok, data ≠ .Ack ok) →
      Handled s currentTime ⟨id, data⟩ addr s [⟨⟨id, .Ack 1⟩, addr⟩] := fun data hdata =>
    @handled_of_none s s currentTime ⟨id, data⟩ addr hdata rfl (fun i e he => .inl ⟨e, he, rfl⟩) 1
  cases data with
  | Ack ok =>
    obtain ⟨rfl, rfl⟩ := Prod.mk.inj (Option.some.inj h)
    exact handleAck_handled hnodup hfresh rfl
  | Ping hostId =>
    have hfind := @find_of_EvictFind currentTime s.connectedClients hostId
    obtain ⟨rfl, rfl⟩ := Prod.mk.inj (Option.some.inj h)
    have hack : ∀ ok, (⟨id, .Ping hostId⟩ : TraversalPacket).data ≠ .Ack ok := fun _ => nofun
    refine @handled_of_none s _ currentTime _ addr hack ?_ ?_ _
    · rfl
    · exact fun i e he => .inl (hfind he)
  | HelloFromClient v =>
    have hnext := hfresh rfl
    have hack : ∀ ok, (⟨id, .HelloFromClient v⟩ : TraversalPacket).data ≠ .Ack ok := fun _ => nofun
    obtain ⟨s₁, hs₁, heq⟩ := Option.map_eq_some_iff.mp h
    obtain ⟨rfl, rfl⟩ := Prod.mk.inj heq
    unfold handleHello at hs₁
    dsimp only at hs₁
    split at hs₁
    · next hversion =>
      obtain ⟨clients, hclients, rfl⟩ := Option.map_eq_some_iff.mp hs₁
      refine @handled_of_new s _ currentTime _ addr addr 0 (.HelloFromServer 1 s.drawnId
        (MakeInetAddress addr)) rfl hack ?_ ?_ (fun i e he => ?_) 1
      · exact ⟨_, _, _, rfl⟩
      · exact AllocPacket_outgoingPackets _ hnext ..
      rcases find_of_registerHost hclients he with hold | ⟨rfl, hvalue⟩
      · exact .inl hold
      · exact .inr ⟨⟨v, hversion, rfl⟩, rfl, hvalue⟩
    · obtain rfl := Option.some.inj hs₁
      refine @handled_of_new s _ currentTime _ addr _ _ _ rfl hack ?_
        (AllocPacket_outgoingPackets _ hnext _ _ _) hsame 1
      exact ⟨_, _, _, rfl⟩
  | ConnectPlease hostId =>
    have hnext := hfresh rfl
    have hack : ∀ ok, (⟨id, .ConnectPlease hostId⟩ : TraversalPacket).data ≠ .Ack ok :=
      fun _ => nofun
    have hfind := @find_of_EvictFind currentTime s.connectedClients hostId
    have hresponds (address : TraversalInetAddress) (hfound : (EvictFind currentTime
        s.connectedClients hostId false).2 = some address) :
        Responds s currentTime ⟨id, .ConnectPlease hostId⟩ addr (s.newEntry currentTime
          (MakeSinAddr address) id (.PleaseSendPacket (MakeInetAddress addr))).2.issued :=
      .inl ⟨address, hfound, rfl, rfl, rfl⟩
    obtain ⟨rfl, rfl⟩ := Prod.mk.inj (Option.some.inj h)
    unfold handleConnectPlease
    generalize hfound : EvictFind currentTime s.connectedClients hostId false = found
      at hresponds
    obtain ⟨clients, value⟩ := found
    have hclients : ∀ i e, clients.find i = some e →
        s.Registered ⟨id, .ConnectPlease hostId⟩ addr i e.value := fun i e he =>
      .inl (hfind (by rw [hfound]; exact he))
    cases value with
    | none =>
      refine @handled_of_new s _ currentTime _ addr _ _ _ rfl hack ?_
        (AllocPacket_outgoingPackets (s := { s with connectedClients := clients }) _ hnext _ _ _)
        hclients 1
      exact .inr rfl
    | some address =>
      refine @handled_of_new s _ currentTime _ addr _ _ _ rfl hack ?_
        (AllocPacket_outgoingPackets (s := { s with connectedClients := clients }) _ hnext _ _ _)
        hclients 1
      exact hresponds address rfl
  | HelloFromServer =>
    obtain ⟨rfl, rfl⟩ := Prod.mk.inj (Option.some.inj h)
    exact hother _ fun _ => nofun
  | PleaseSendPacket =>
    obtain ⟨rfl, rfl⟩ := Prod.mk.inj (Option.some.inj h)
    exact hother _ fun _ => nofun
  | ConnectReady =>
    obtain ⟨rfl, rfl⟩ := Prod.mk.inj (Option.some.inj h)
    exact hother _ fun _ => nofun
  | ConnectFailed =>
    obtain ⟨rfl, rfl⟩ := Prod.mk.inj (Option.some.inj h)
    exact hother _ fun _ => nofun
  | unknown =>
    obtain ⟨rfl, rfl⟩ := Prod.mk.inj (Option.some.inj h)
    exact hother _ fun _ => nofun

/-! ## packets that are sent again -/

/-- The requests whose hosts did not respond. -/
def failures (s : Server) (currentTime : BitVec 64) :
    List (TraversalInetAddress × TraversalRequestId) :=
  (s.outgoingPackets.map (resend currentTime)).flatMap fun r => r.2.2

theorem resend_kept {e e' : TraversalRequestId × OutgoingPacketInfo}
    (h : (resend currentTime e).1 = some e') : e'.1 = e.1 ∧ e'.2.issued = e.2.issued := by
  obtain ⟨id, info⟩ := e
  unfold resend at h
  dsimp only at h
  split at h
  · split at h
    · cases h
    · obtain rfl := Option.some.inj h
      exact ⟨rfl, rfl⟩
  · obtain rfl := Option.some.inj h
    exact ⟨rfl, rfl⟩

theorem resend_sent {d : Datagram} (h : d ∈ (resend currentTime e).2.1) :
    ∃ e', (resend currentTime e).1 = some e' ∧ d = ⟨e'.2.packet, e'.2.dest⟩ := by
  obtain ⟨id, info⟩ := e
  unfold resend at h ⊢
  dsimp only at h ⊢
  split at h
  · split at h
    · cases h
    · next hdue htries =>
      rw [if_pos hdue, if_neg htries]
      exact ⟨_, rfl, List.mem_singleton.mp h⟩
  · cases h

theorem keys_kept_sublist (entries : List (TraversalRequestId × OutgoingPacketInfo)) :
    (((entries.map (resend currentTime)).filterMap Prod.fst).map Prod.fst).Sublist
      (entries.map Prod.fst) := by
  induction entries with
  | nil => exact .slnil
  | cons e entries ih =>
    rw [List.map_cons, List.map_cons, List.filterMap_cons]
    cases h : (resend currentTime e).1 with
    | none => exact ih.cons _
    | some e' =>
      rw [List.map_cons, (resend_kept h).1]
      exact ih.cons_cons _

/-- A failure of a request, in a packet of the server. -/
def IsFailure (e : TraversalRequestId × OutgoingPacketInfo) : Prop :=
  e.2.packet.requestId = e.1 ∧ ∃ id reason, e.2.packet.data = .ConnectFailed id reason

/-- The failures are told, each in a packet of its own. -/
structure Failed (s : Server) (ids : List TraversalRequestId) (s' : Server) : Prop where
  keys : s'.keys.Perm (ids ++ s.keys)
  mem : ∀ e ∈ s'.outgoingPackets, e ∈ s.outgoingPackets ∨ e.1 ∈ ids ∧ IsFailure e
  kept : ∀ e ∈ s.outgoingPackets, e ∈ s'.outgoingPackets
  clients : s'.connectedClients = s.connectedClients

theorem failRequest_outgoingPackets (currentTime : BitVec 64)
    (hfresh : s.random.nextId ∉ s.keys)
    (failure : TraversalInetAddress × TraversalRequestId) :
    (s.failRequest currentTime failure).outgoingPackets =
      s.newEntry currentTime (MakeSinAddr failure.1) 0
        (.ConnectFailed failure.2 .ClientDidntRespond) :: s.outgoingPackets :=
  AllocPacket_outgoingPackets _ hfresh ..

theorem failRequest_failed (currentTime : BitVec 64) (fs : List (TraversalInetAddress × TraversalRequestId))
    (hnodup : (s.random.nextIds fs.length).Nodup)
    (hfresh : ∀ id ∈ s.random.nextIds fs.length, id ∉ s.keys) :
    Failed s (s.random.nextIds fs.length) (fs.foldl (failRequest · currentTime) s) := by
  induction fs generalizing s with
  | nil => exact ⟨.refl _, fun e he => .inl he, fun e he => he, rfl⟩
  | cons failure fs ih =>
    obtain ⟨hnot, hnodup⟩ := List.nodup_cons.mp hnodup
    have hout := failRequest_outgoingPackets currentTime
      (hfresh _ (List.mem_cons_self ..)) failure
    have hkeys : (s.failRequest currentTime failure).keys = s.random.nextId :: s.keys := by
      unfold Server.keys
      rw [hout]
      rfl
    obtain ⟨hperm, hmem, hkept, hclients⟩ := ih (s := s.failRequest currentTime failure) hnodup
      fun id hid hk => by
        rw [hkeys] at hk
        rcases List.mem_cons.mp hk with rfl | hk
        · exact hnot hid
        · exact hfresh id (List.mem_cons_of_mem _ hid) hk
    refine ⟨?_, fun e he => ?_, fun e he => hkept e (by rw [hout]; exact List.mem_cons_of_mem _ he),
      hclients.trans rfl⟩
    · rw [hkeys] at hperm
      exact hperm.trans List.perm_middle
    · rcases hmem e he with he | ⟨hid, hfail⟩
      · rw [hout] at he
        rcases List.mem_cons.mp he with rfl | he
        · exact .inr ⟨List.mem_cons_self .., rfl, _, _, rfl⟩
        · exact .inl he
      · exact .inr ⟨List.mem_cons_of_mem _ hid, hfail⟩

/-- What `ResendPackets` does. -/
structure Resent (s : Server) (ids : List TraversalRequestId) (s' : Server)
    (sent : List Datagram) : Prop where
  nodup : s'.keys.Nodup
  mem : ∀ e ∈ s'.outgoingPackets, (∃ e₀ ∈ s.outgoingPackets, e.1 = e₀.1 ∧
    e.2.issued = e₀.2.issued) ∨ e.1 ∈ ids ∧ IsFailure e
  sent : ∀ d ∈ sent, ∃ e ∈ s'.outgoingPackets, d = ⟨e.2.packet, e.2.dest⟩
  clients : s'.connectedClients = s.connectedClients

theorem ResendPackets_resent (hkeys : s.keys.Nodup)
    (hnodup : (s.random.nextIds (s.failures currentTime).length).Nodup)
    (hfresh : ∀ id ∈ s.random.nextIds (s.failures currentTime).length, id ∉ s.keys) :
    Resent s (s.random.nextIds (s.failures currentTime).length)
      (s.ResendPackets currentTime).1 (s.ResendPackets currentTime).2 := by
  let kept : Server := { s with
    outgoingPackets := (s.outgoingPackets.map (resend currentTime)).filterMap Prod.fst }
  have hsub : kept.keys.Sublist s.keys := keys_kept_sublist s.outgoingPackets
  obtain ⟨hperm, hmem, hstays, hclients⟩ := failRequest_failed (s := kept)
    currentTime (s.failures currentTime) hnodup
    fun id hid hk => hfresh id hid (hsub.subset hk)
  refine ⟨hperm.nodup_iff.mpr (List.nodup_append.mpr ⟨hnodup, hkeys.sublist hsub, ?_⟩),
    fun e he => ?_, fun d hd => ?_, hclients⟩
  · rintro id hid k hk rfl
    exact hfresh id hid (hsub.subset hk)
  · refine (hmem e he).imp_left fun he => ?_
    obtain ⟨r, hr, hfst⟩ := List.mem_filterMap.mp he
    obtain ⟨e₀, he₀, rfl⟩ := List.mem_map.mp hr
    obtain ⟨hkey, hissued⟩ := resend_kept hfst
    exact ⟨e₀, he₀, hkey, hissued⟩
  · obtain ⟨r, hr, hd⟩ := List.mem_flatMap.mp hd
    obtain ⟨e₀, he₀, rfl⟩ := List.mem_map.mp hr
    obtain ⟨e, he, rfl⟩ := resend_sent hd
    exact ⟨e, hstays e (List.mem_filterMap.mpr ⟨_, hr, he⟩), rfl⟩

/-! ## a turn -/

/-- The ids that the server draws in a turn. -/
def drawnIds (std : UnorderedMap.Insertion TraversalHostId (EvictEntry TraversalInetAddress))
    (fuel : Nat) (s : Server) (event : Event) : List TraversalRequestId :=
  match event.received with
  | none => s.random.nextIds (s.failures event.currentTime).length
  | some (packet, addr) =>
    (if s.allocates packet then [s.random.nextId] else []) ++
      match HandlePacket std fuel s event.currentTime packet addr with
      | none => []
      | some (s, _) => s.random.nextIds (s.failures event.currentTime).length

/-- A packet that the server makes in a turn. -/
def Makes (s : Server) (event : Event) (i : Issued) : Prop :=
  (∃ packet addr, event.received = some (packet, addr) ∧
    Responds s event.currentTime packet addr i) ∨
  ∃ id reason, i.packet.data = .ConnectFailed id reason

/-- What a turn does to the packets of the server. -/
structure Turned (s : Server) (ids : List TraversalRequestId) (event : Event) (s' : Server)
    (sent : List Datagram) : Prop where
  nodup : s'.keys.Nodup
  /-- A packet is as it was, and not one that was acknowledged, or new. -/
  mem : ∀ e ∈ s'.outgoingPackets, (∃ e₀ ∈ s.outgoingPackets, e.1 = e₀.1 ∧ e.2.issued = e₀.2.issued ∧
      ∀ packet addr ok, event.received = some (packet, addr) → packet.data = .Ack ok →
        e.1 ≠ packet.requestId) ∨
    e.1 ∈ ids ∧ e.2.packet.requestId = e.1 ∧ s.Makes event e.2.issued
  /-- What is sent is an acknowledgement, or a packet that the server has. -/
  sent : ∀ d ∈ sent,
    (∃ packet addr, event.received = some (packet, addr) ∧ (∃ ok, d.packet.data = .Ack ok) ∧
      d.packet.requestId = packet.requestId ∧ ∀ ok, packet.data ≠ .Ack ok) ∨
    ∃ e ∈ s'.outgoingPackets, d = ⟨e.2.packet, e.2.dest⟩
  registered : ∀ id e, s'.connectedClients.find id = some e →
    (∃ e₀, s.connectedClients.find id = some e₀ ∧ e₀.value = e.value) ∨
    ∃ packet addr, event.received = some (packet, addr) ∧
      (∃ v ≤ TraversalProtoVersion, packet.data = .HelloFromClient v) ∧ id = s.drawnId ∧
        e.value = MakeInetAddress addr

theorem remaining_sublist (s : Server) (packet : TraversalPacket) :
    (s.remaining packet).Sublist s.outgoingPackets := by
  unfold remaining
  split
  · exact List.filter_sublist
  · exact .refl _

theorem remaining_ne {ok : BitVec 8} (hack : packet.data = .Ack ok) (he : e ∈ s.remaining packet) :
    e.1 ≠ packet.requestId := by
  unfold remaining at he
  rw [hack] at he
  simpa using (List.mem_filter.mp he).2

theorem turn_turned (hkeys : s.keys.Nodup) {event : Event} {sent : List Datagram}
    (hnodup : (s.drawnIds std fuel event).Nodup)
    (hfresh : ∀ id ∈ s.drawnIds std fuel event, id ∉ s.keys)
    (h : turn std fuel s event = some (s', sent)) :
    Turned s (s.drawnIds std fuel event) event s' sent := by
  obtain ⟨currentTime, received⟩ := event
  cases received with
  | none =>
    have hresent := ResendPackets_resent hkeys hnodup hfresh
    rw [Option.some.inj h] at hresent
    exact ⟨hresent.nodup, fun e he => (hresent.mem e he).imp
      (fun ⟨e₀, he₀, hkey, hissued⟩ => ⟨e₀, he₀, hkey, hissued, nofun⟩)
      (fun ⟨hid, hreq, hfail⟩ => ⟨hid, hreq, .inr hfail⟩),
      fun d hd => .inr (hresent.sent d hd),
      fun id e he => .inl ⟨e, by rwa [← hresent.clients], rfl⟩⟩
  | some received =>
    obtain ⟨packet, addr⟩ := received
    obtain ⟨⟨s₁, acks⟩, hpacket, heq⟩ := Option.map_eq_some_iff.mp h
    have hids : s.drawnIds std fuel ⟨currentTime, some (packet, addr)⟩ =
        (if s.allocates packet then [s.random.nextId] else []) ++
          s₁.random.nextIds (s₁.failures currentTime).length := by
      unfold drawnIds
      dsimp only
      rw [hpacket]
    rw [hids] at hnodup hfresh ⊢
    obtain ⟨-, hnodup₁, hdisjoint⟩ := List.nodup_append.mp hnodup
    have halloc (ha : s.allocates packet = true) : s.random.nextId ∉ s.keys :=
      hfresh _ (List.mem_append_left _ (by rw [if_pos ha]; exact List.mem_singleton_self _))
    obtain ⟨⟨new, hout, hnew, hmake⟩, hacks, hreg⟩ := HandlePacket_handled hkeys halloc hpacket
    -- the keys after the packet
    have hremaining := (remaining_sublist s packet).map Prod.fst
    have hkeys₁ : s₁.keys = new.map Prod.fst ++ (s.remaining packet).map Prod.fst := by
      unfold Server.keys
      rw [hout, List.map_append]
    have hnodup' : s₁.keys.Nodup := by
      rw [hkeys₁]
      refine List.nodup_append.mpr ⟨hnew, hkeys.sublist hremaining, ?_⟩
      rintro k hk k' hk' rfl
      obtain ⟨e, he, rfl⟩ := List.mem_map.mp hk
      obtain ⟨ha, hkey, -⟩ := hmake e he
      exact halloc ha (hkey ▸ hremaining.subset hk')
    have hfresh₁ : ∀ id ∈ s₁.random.nextIds (s₁.failures currentTime).length, id ∉ s₁.keys := by
      intro id hid hk
      rw [hkeys₁] at hk
      rcases List.mem_append.mp hk with hk | hk
      · obtain ⟨e, he, rfl⟩ := List.mem_map.mp hk
        obtain ⟨ha, hkey, -⟩ := hmake e he
        exact hdisjoint s.random.nextId (by rw [if_pos ha]; exact List.mem_singleton_self _) _ hid
          hkey.symm
      · exact hfresh id (List.mem_append_right _ hid) (hremaining.subset hk)
    have hresent := ResendPackets_resent hnodup' hnodup₁ hfresh₁
    obtain ⟨rfl, rfl⟩ := Prod.mk.inj heq
    refine ⟨hresent.nodup, fun e he => ?_, fun d hd => ?_, fun id e he => ?_⟩
    · rcases hresent.mem e he with ⟨e₀, he₀, hkey, hissued⟩ | ⟨hid, hreq, hfail⟩
      · rw [hout] at he₀
        rcases List.mem_append.mp he₀ with he₀ | he₀
        · obtain ⟨ha, hkey₀, hreq, hresponds⟩ := hmake e₀ he₀
          refine .inr ⟨List.mem_append_left _ ?_, ?_, .inl ⟨packet, addr, rfl, ?_⟩⟩
          · rw [if_pos ha, hkey, hkey₀]
            exact List.mem_singleton_self _
          · have : e.2.packet = e₀.2.packet := congrArg Issued.packet hissued
            rw [this, hkey, hreq]
          · rwa [hissued]
        · refine .inl ⟨e₀, (remaining_sublist s packet).subset he₀, hkey, hissued, ?_⟩
          rintro _ _ ok hrec hack
          cases hrec
          rw [hkey]
          exact remaining_ne hack he₀
      · exact .inr ⟨List.mem_append_right _ hid, hreq, .inr hfail⟩
    · rcases List.mem_append.mp hd with hd | hd
      · obtain ⟨hack, hreq, hnot⟩ := hacks d hd
        exact .inl ⟨packet, addr, rfl, hack, hreq, hnot⟩
      · exact .inr (hresent.sent d hd)
    · have hclients := hresent.clients
      replace he : (s₁.ResendPackets currentTime).1.connectedClients.find id = some e := he
      rw [hclients] at he
      exact (hreg id e he).imp_right fun ⟨hv, hid, hvalue⟩ => ⟨packet, addr, rfl, hv, hid, hvalue⟩

end Server

end DolphinCore.Traversal
