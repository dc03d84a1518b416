import DolphinCore.Traversal.ConnectMatching

/-!
# DolphinCore.Traversal.ConnectInvariant

What the records say stays true in every step, of a client and of the server. An id
that is drawn is new, so a new packet of the server takes nothing from the packets
that it issued before.
-/

namespace DolphinCore.Traversal

/-! ## what an action of a client does -/

section

variable {ι : Type} {w : World ι} {c : ι} {inputs : Inputs} {action : ClientAction}
  {client : TraversalClient}

/-- What a client sends by itself is its own, and what else it sends is an acknowledgement. -/
structure SendsOwn (w : World ι) (c : ι) (action : ClientAction) (r : ClientRun) : Prop where
  kept : ∀ info ∈ r.client.m_OutgoingTraversalPackets, World.Own w c info.packet
  sent : ∀ p ∈ r.sent, World.Own w c p ∨ ∃ datagram, action = .receive datagram ∧
      (∃ ok, (ok = 0 ∨ ok = 1) ∧ p = ⟨datagram.packet.requestId, .Ack ok⟩) ∧
        ∀ ok, datagram.packet.data ≠ .Ack ok

theorem ClientRun.Sends.sendsOwn {r : ClientRun} (h : r.Sends (World.Own w c)) :
    SendsOwn w c action r := ⟨h.kept, fun p hp => .inl (h.sent p hp)⟩

theorem own_of_mem {requestId : TraversalRequestId} {data : TraversalPacketData}
    (hid : requestId ∈ w.clientIds) (hack : ∀ ok, data ≠ .Ack ok)
    (hconnect : ∀ host, data ≠ .ConnectPlease host) : World.Own w c ⟨requestId, data⟩ :=
  ⟨hid, hack, fun host h => absurd h (hconnect host)⟩

theorem perform_sendsOwn (inputs : Inputs) (action : ClientAction)
    (hkept : ∀ info ∈ client.m_OutgoingTraversalPackets, World.Own w c info.packet)
    (hids : ∀ id ∈ action.drawnIds inputs client, id ∈ w.clientIds)
    (hconnects : ∀ call ∈ World.connectsOf c inputs action, call ∈ w.connects) :
    SendsOwn w c action (action.perform inputs (.start client)) := by
  have hstart : (ClientRun.start client).Sends (World.Own w c) := ⟨hkept, nofun⟩
  cases action with
  | create resolved =>
    have hreset : (ClientRun.start client).Reset.Sends (World.Own w c) := ⟨hkept, nofun⟩
    cases resolved with
    | false => exact (hreset.OnFailure .BadHost).sendsOwn
    | true =>
      have hid := hids inputs.requestId (List.mem_singleton_self _)
      exact (hreset.ReconnectToServer true (own_of_mem hid nofun nofun)).sendsOwn
  | release => exact hstart.sendsOwn
  | setClient => exact ⟨hkept, nofun⟩
  | Reset => exact ⟨hkept, nofun⟩
  | ReconnectToServer resolved =>
    cases resolved with
    | false => exact (hstart.OnFailure .BadHost).sendsOwn
    | true =>
      have hid := hids inputs.requestId (List.mem_singleton_self _)
      exact (hstart.ReconnectToServer true (own_of_mem hid nofun nofun)).sendsOwn
  | ConnectToClient host =>
    change SendsOwn w c _ ((ClientRun.start client).ConnectToClient ..)
    unfold ClientRun.ConnectToClient
    split
    · exact hstart.sendsOwn
    · next hlen =>
      unfold ClientAction.drawnIds at hids
      unfold World.connectsOf at hconnects
      dsimp only at hids hconnects
      rw [if_neg hlen] at hids hconnects
      have hid := hids inputs.requestId (List.mem_singleton_self _)
      have hcall := hconnects _ (List.mem_singleton_self _)
      have hown : World.Own w c ⟨inputs.requestId,
          .ConnectPlease (Vector.ofFn fun i => host.getD i 0)⟩ := by
        refine ⟨hid, nofun, fun host' h => ?_⟩
        obtain rfl := TraversalPacketData.ConnectPlease.inj h
        exact hcall
      have hsent := hstart.SendTraversalPacket inputs.socket inputs.now hown
      exact ⟨hsent.kept, fun p hp => .inl (hsent.sent p hp)⟩
  | receive datagram =>
    obtain ⟨hsub, hsent⟩ := ClientRun.HandleServerPacket_sent inputs.socket
      inputs.uninitialized datagram.packet (.start client)
    refine ⟨fun info h => hkept info (hsub info h), fun p hp => ?_⟩
    rcases hsent p hp with hnil | ⟨hack, hnot⟩
    · cases hnil
    · exact .inr ⟨datagram, rfl, hack, hnot⟩
  | HandleResends =>
    have hresent : ((ClientRun.start client).resends inputs.socket inputs.now []
        (ClientRun.start client).client.m_OutgoingTraversalPackets).Sends (World.Own w c) :=
      .resends nofun hkept hstart
    unfold ClientAction.drawnIds at hids
    refine (hresent.HandlePing fun hping => ?_).sendsOwn
    rw [if_pos hping] at hids
    have hid := hids inputs.requestId (List.mem_singleton_self _)
    exact own_of_mem hid nofun nofun

/-- What becomes of the call that is waited for. -/
inductive CallStep (c : ι) (inputs : Inputs) (client : TraversalClient) (r : ClientRun) :
    ClientAction → Prop
  /-- Nothing. -/
  | quiet {action : ClientAction} (h : (ClientRun.start client).Quiet r) :
    CallStep c inputs client r action
  /-- It is given up. -/
  | reset {action : ClientAction} (hpending : r.client.m_PendingConnect = false)
    (hanswers : r.callbacks.filter Callback.answers = []) :
    CallStep c inputs client r action
  /-- It is another one. -/
  | connect {host : List (BitVec 8)} (hostId : TraversalHostId)
    (hcall : World.connectsOf c inputs (.ConnectToClient host) = [⟨c, hostId, inputs.requestId⟩])
    (hid : inputs.requestId ∈ (ClientAction.ConnectToClient host).drawnIds inputs client)
    (hrequestId : r.client.m_ConnectRequestId = inputs.requestId)
    (hanswers : r.callbacks.filter Callback.answers = []) :
    CallStep c inputs client r (.ConnectToClient host)
  | answered {datagram : Datagram} (h : ClientRun.Answered inputs.uninitialized datagram.packet
      (.start client) r) : CallStep c inputs client r (.receive datagram)

theorem perform_callStep (c : ι) (inputs : Inputs) (action : ClientAction)
    (client : TraversalClient) :
    CallStep c inputs client (action.perform inputs (.start client)) action := by
  cases action with
  | create resolved =>
    have h := ClientRun.ReconnectToServer_quiet inputs.socket inputs.now inputs.requestId resolved
      (ClientRun.start client).Reset
    exact .reset h.pending h.answers
  | release => exact .quiet (.refl _)
  | setClient => exact .quiet ⟨rfl, rfl, rfl⟩
  | Reset => exact .reset rfl rfl
  | ReconnectToServer resolved => exact .quiet (ClientRun.ReconnectToServer_quiet ..)
  | ConnectToClient host =>
    have hquiet := ClientRun.SendTraversalPacket_quiet inputs.socket inputs.now
      inputs.requestId (.ConnectPlease (Vector.ofFn fun i => host.getD i 0)) (.start client)
    by_cases hlen : host.length > NETPLAY_CODE_SIZE
    · have heq : (ClientAction.ConnectToClient host).perform inputs (.start client) =
          .start client := if_pos hlen
      rw [heq]
      exact .quiet (.refl _)
    · refine .connect (Vector.ofFn fun i => host.getD i 0) (if_neg hlen) ?_ ?_ ?_
      · unfold ClientAction.drawnIds
        dsimp only
        rw [if_neg hlen]
        exact List.mem_singleton_self _
      · change ((ClientRun.start client).ConnectToClient ..).client.m_ConnectRequestId = _
        unfold ClientRun.ConnectToClient
        rw [if_neg hlen]
      · change ((ClientRun.start client).ConnectToClient ..).callbacks.filter _ = _
        unfold ClientRun.ConnectToClient
        rw [if_neg hlen]
        exact hquiet.answers
  | receive datagram =>
    rcases ClientRun.HandleServerPacket_answer inputs.socket
      inputs.uninitialized datagram.packet (.start client) with h | h
    · exact .quiet h
    · exact .answered h
  | HandleResends =>
    exact .quiet ((ClientRun.resends_quiet _ _ _).trans (ClientRun.HandlePing_quiet _))

end

namespace World

variable {ι : Type} [DecidableEq ι] {address : ι → ENetAddress} {w w' : World ι}
  {issued : TraversalRequestId → Option Issued}

/-! ## a client -/

section

variable {c : ι} {inputs : Inputs} {action : ClientAction} {client : TraversalClient}

theorem clientStep_eq_some_iff : w.clientStep address c action inputs = some w' ↔
    ∃ client, w.actor address c action = some client ∧
      { w with
        clients := Function.update w.clients c
          (match action with
            | .release => none
            | _ => some (action.perform inputs (.start client)).client)
        toServer := w.toServer ++
          (action.perform inputs (.start client)).sent.map (·, (address c).sockAddr)
        clientIds := action.drawnIds inputs client ++ w.clientIds
        connects := connectsOf c inputs action ++ w.connects
        accepted := acceptedOf c (action.perform inputs (.start client)) action ++ w.accepted
        answers := answersOf c client (action.perform inputs (.start client)) ++ w.answers } =
          w' := Option.map_eq_some_iff

omit [DecidableEq ι] in
theorem actor_eq_some (h : w.actor address c action = some client) :
    client = .new ∨ w.clients c = some client := by
  unfold actor at h
  split at h
  · exact .inl (Option.some.inj h).symm
  · split at h
    · exact .inr h
    · cases h
  · exact .inr h

omit [DecidableEq ι] in
theorem received (datagram : Datagram)
    (h : w.actor address c (.receive datagram) = some client) :
    datagram ∈ w.toClients ∧ datagram.dest = (address c).sockAddr ∧ w.clients c = some client := by
  obtain ⟨⟨hmem, hdest⟩, hclient⟩ := Option.ite_none_right_eq_some.mp h
  exact ⟨hmem, hdest, hclient⟩

theorem clientStep_grows (h : w.clientStep address c action inputs = some w') : Grows w w' := by
  obtain ⟨client, -, rfl⟩ := clientStep_eq_some_iff.mp h
  exact ⟨List.subset_append_right .., List.Subset.refl _, List.subset_append_right ..,
    List.subset_append_right .., List.Subset.refl _⟩

omit [DecidableEq ι] in
theorem own_kept (hm : Matched address w) (hactor : w.actor address c action = some client) :
    ∀ info ∈ client.m_OutgoingTraversalPackets, Own w c info.packet := by
  rcases actor_eq_some hactor with rfl | hclient
  · exact nofun
  · exact hm.own c client hclient

theorem clientStep_sound (hs : Sound address w issued) (hm : Matched address w)
    (hids : DistinctIds address std w (.client c action inputs))
    (h : w.clientStep address c action inputs = some w') : Sound address w' issued := by
  have hg := clientStep_grows h
  obtain ⟨client, hactor, rfl⟩ := clientStep_eq_some_iff.mp h
  have hsends := perform_sendsOwn inputs action
    (fun info hinfo => (own_kept hm hactor info hinfo).mono hg)
    (fun id hid => List.mem_append_left _ hid) (fun call hcall => List.mem_append_left _ hcall)
  refine ⟨hs.keys, hs.outgoing, fun id i hi => ?_, fun id hid => ?_, fun d hd => ?_,
    fun m hmem => ?_, hs.registered, hs.acked⟩
  · obtain ⟨hserver, hreq, hjust⟩ := hs.justified id i hi
    exact ⟨hserver, hreq, hjust.mono hg⟩
  · rcases List.mem_append.mp hid with hid | hid
    · exact (hids client hactor id hid).2
    · exact hs.disjoint id hid
  · exact (hs.toClients d hd).imp_left fun ⟨hack, hid⟩ => ⟨hack, hg.clientIds hid⟩
  · rcases List.mem_append.mp hmem with hmem | hmem
    · obtain ⟨k, hk, hfrom⟩ := hs.toServer m hmem
      exact ⟨k, hk, hfrom.mono hg fun _ _ h => h⟩
    obtain ⟨p, hp, rfl⟩ := List.mem_map.mp hmem
    refine ⟨c, rfl, ?_⟩
    rcases hsends.sent p hp with hown | ⟨datagram, rfl, ⟨ok, hok, rfl⟩, hnot⟩
    · exact hown.fromClient
    -- an acknowledgement is for a packet that the server issued to the client
    obtain ⟨hin, hdest, -⟩ := received datagram hactor
    rcases hs.toClients datagram hin with ⟨⟨ok', hack⟩, -⟩ | ⟨i, hi, heq⟩
    · exact absurd hack (hnot ok')
    refine ⟨i, hi, ?_, fun hne => List.mem_append_left _ ?_⟩
    · rw [← hdest, heq]
    · obtain rfl := hok.resolve_left hne
      have hacc : acceptedOf c ((ClientAction.receive datagram).perform inputs (.start client))
          (.receive datagram) = [(c, datagram.packet)] := if_pos hp
      rw [hacc, heq]
      exact List.mem_singleton_self _

/-- The answers of a step belong to the call that was waited for, and at most one is given. -/
structure GivesAnswers (address : ι → ENetAddress) (w : World ι) (c : ι) (client : TraversalClient)
    (answers : List (Answer ι)) : Prop where
  one : answers.length ≤ 1
  pending : answers ≠ [] → w.clients c = some client ∧ client.m_PendingConnect = true
  own : ∀ a ∈ answers, a.caller = c ∧ a.requestId = client.m_ConnectRequestId
  ready : ∀ a ∈ answers, ∀ addr, a.callback = .OnConnectReady addr → ∃ c' host h,
    ⟨c', host, client.m_ConnectRequestId⟩ ∈ w.connects ∧ Agreed address w c' host h ∧
      addr = address h

omit [DecidableEq ι] in
theorem givesAnswers (inputs : Inputs) (hs : Sound address w issued)
    (hactor : w.actor address c action = some client) :
    GivesAnswers address w c client
      (answersOf c client (action.perform inputs (.start client))) := by
  have hnone {r : ClientRun} (h : r.callbacks.filter Callback.answers = []) :
      GivesAnswers address w c client (answersOf c client r) := by
    unfold answersOf
    rw [h]
    exact ⟨Nat.zero_le 1, fun h => absurd rfl h, nofun, nofun⟩
  have hstep := perform_callStep c inputs action client
  generalize action.perform inputs (.start client) = r at hstep
  cases hstep with
  | quiet h => exact hnone h.answers
  | reset hpending h => exact hnone h
  | connect hostId hcall hid hrequestId h => exact hnone h
  | @answered datagram h =>
    obtain ⟨hin, -, hclient⟩ := received datagram hactor
    obtain ⟨callbacks, hlen, hcb, his⟩ := h.answers
    have hanswers : r.callbacks.filter Callback.answers = callbacks := hcb
    unfold answersOf
    rw [hanswers]
    refine ⟨?_, fun _ => ⟨hclient, h.pending⟩, fun a ha => ?_, fun a ha addr haddr => ?_⟩
    · rwa [List.length_map]
    · obtain ⟨callback, -, rfl⟩ := List.mem_map.mp ha
      exact ⟨rfl, rfl⟩
    · obtain ⟨callback, hmem, rfl⟩ := List.mem_map.mp ha
      subst haddr
      rcases his _ hmem with ⟨ready, hdata, heq⟩ | ⟨reason, heq⟩
      · rcases hs.toClients datagram hin with ⟨⟨ok, hack⟩, -⟩ | ⟨i, hi, hdatagram⟩
        · rw [hack] at hdata
          cases hdata
        -- the packet says that a host agreed
        obtain ⟨-, -, hjust⟩ := hs.justified _ i hi
        have hpacket : i.packet.data = .ConnectReady client.m_ConnectRequestId ready := by
          rw [hdatagram] at hdata
          exact hdata
        unfold Justified at hjust
        rw [hpacket] at hjust
        obtain ⟨c', host, h, hcall, hagreed, rfl⟩ := hjust
        refine ⟨c', host, h, hcall, hagreed, ?_⟩
        rw [Callback.OnConnectReady.inj heq]
        exact MakeENetAddress_sockAddr ..
      · cases heq

omit [DecidableEq ι] in
theorem connectsOf_cases (c : ι) (inputs : Inputs) (action : ClientAction)
    (client : TraversalClient) : connectsOf c inputs action = [] ∨
      ∃ host, connectsOf c inputs action = [⟨c, host, inputs.requestId⟩] ∧
        inputs.requestId ∈ action.drawnIds inputs client := by
  cases action with
  | ConnectToClient host =>
    unfold connectsOf ClientAction.drawnIds
    dsimp only
    split
    · exact .inl rfl
    · exact .inr ⟨_, rfl, List.mem_singleton_self _⟩
  | _ => exact .inl rfl

theorem clients_cases {k : ι} {client' : TraversalClient} {r : ClientRun}
    (h : Function.update w.clients c
      (match action with
        | .release => none
        | _ => some r.client) k = some client') :
    k ≠ c ∧ w.clients k = some client' ∨ k = c ∧ client' = r.client := by
  by_cases hk : k = c
  · subst hk
    rw [Function.update_self] at h
    split at h
    · cases h
    · exact .inr ⟨rfl, (Option.some.inj h).symm⟩
  · rw [Function.update_of_ne hk] at h
    exact .inl ⟨hk, h⟩

theorem clientStep_matched (hs : Sound address w issued) (hm : Matched address w)
    (hids : DistinctIds address std w (.client c action inputs))
    (h : w.clientStep address c action inputs = some w') : Matched address w' := by
  have hg := clientStep_grows h
  obtain ⟨client, hactor, rfl⟩ := clientStep_eq_some_iff.mp h
  have hsends := perform_sendsOwn inputs action
    (fun info hinfo => (own_kept hm hactor info hinfo).mono hg)
    (fun id hid => List.mem_append_left _ hid) (fun call hcall => List.mem_append_left _ hcall)
  obtain ⟨hone, hwaited, hown, hready⟩ := givesAnswers inputs hs hactor
  have hstep := perform_callStep c inputs action client
  have hcalls := connectsOf_cases c inputs action client
  generalize action.perform inputs (.start client) = r
    at hg hsends hone hwaited hown hready hstep ⊢
  -- a call that is made has a new id
  have hnew : ∀ call ∈ connectsOf c inputs action, call.requestId ∉ w.clientIds ∧
      call.requestId ∈ action.drawnIds inputs client := by
    intro call hcall
    rcases hcalls with hnil | ⟨host, hsingle, hid⟩
    · rw [hnil] at hcall
      cases hcall
    · rw [hsingle] at hcall
      obtain rfl := List.mem_singleton.mp hcall
      exact ⟨(hids client hactor _ hid).1, hid⟩
  have hsame : ∀ call ∈ connectsOf c inputs action, ∀ call' ∈ connectsOf c inputs action,
      call = call' := by
    rcases hcalls with hnil | ⟨host, hsingle, -⟩
    · rw [hnil]
      exact nofun
    · rw [hsingle]
      intro call hcall call' hcall'
      rw [List.mem_singleton.mp hcall, List.mem_singleton.mp hcall']
  -- the call that is answered was waited for
  have hanswered : ∀ a ∈ answersOf c client r, (∃ host, ⟨c, host, a.requestId⟩ ∈ w.connects) ∧
      a.caller = c ∧ a.requestId = client.m_ConnectRequestId ∧
        ∀ a' ∈ w.answers, a'.requestId ≠ a.requestId := by
    intro a ha
    obtain ⟨hclient, hpending⟩ := hwaited (List.ne_nil_of_mem ha)
    obtain ⟨hcall, hnot⟩ := hm.waiting c client hclient hpending
    obtain ⟨hcaller, hid⟩ := hown a ha
    rw [← hid] at hcall hnot
    exact ⟨hcall, hcaller, hid, hnot⟩
  refine ⟨fun k client' hk info hinfo => ?_, fun k client' hk hpending => ?_, fun call hcall => ?_,
    fun call hcall call' hcall' heq => ?_, fun a ha => ?_, ?_⟩
  · rcases clients_cases hk with ⟨-, hk⟩ | ⟨rfl, rfl⟩
    · exact (hm.own k client' hk info hinfo).mono hg
    · exact hsends.kept info hinfo
  · rcases clients_cases hk with ⟨hne, hk⟩ | ⟨rfl, rfl⟩
    · obtain ⟨⟨host, hcall⟩, hnot⟩ := hm.waiting k client' hk hpending
      refine ⟨⟨host, List.mem_append_right _ hcall⟩, fun a ha heq => ?_⟩
      rcases List.mem_append.mp ha with ha | ha
      · obtain ⟨⟨host', hcall'⟩, -⟩ := hanswered a ha
        have := hm.unique _ hcall _ hcall' heq.symm
        exact hne (congrArg ConnectCall.caller this)
      · exact hnot a ha heq
    · cases hstep with
      | quiet h =>
        have hwas : client.m_PendingConnect = true := h.pending.symm.trans hpending
        have hclient : w.clients k = some client := by
          rcases actor_eq_some hactor with rfl | hclient
          · cases hwas
          · exact hclient
        have hnone : answersOf k client r = [] := by
          unfold answersOf
          rw [h.answers]
          rfl
        obtain ⟨⟨host, hcall⟩, hnot⟩ := hm.waiting k client hclient hwas
        have hid : r.client.m_ConnectRequestId = client.m_ConnectRequestId := h.requestId
        rw [hid, hnone]
        exact ⟨⟨host, List.mem_append_right _ hcall⟩, hnot⟩
      | reset hdone => cases hdone.symm.trans hpending
      | connect hostId hcall hid hrequestId hanswers =>
        have hnone : answersOf k client r = [] := by
          unfold answersOf
          rw [hanswers]
          rfl
        rw [hrequestId, hnone, hcall]
        refine ⟨⟨hostId, List.mem_cons_self ..⟩, fun a ha heq => ?_⟩
        obtain ⟨host, hold, -⟩ := hm.answered a ha
        exact (hids client hactor _ hid).1 (heq ▸ hm.ids _ hold)
      | answered hdone => cases hdone.done.symm.trans hpending
  · rcases List.mem_append.mp hcall with hcall | hcall
    · exact List.mem_append_left _ (hnew call hcall).2
    · exact List.mem_append_right _ (hm.ids call hcall)
  · rcases List.mem_append.mp hcall with hcall | hcall <;>
      rcases List.mem_append.mp hcall' with hcall' | hcall'
    · exact hsame call hcall call' hcall'
    · exact absurd (heq ▸ hm.ids call' hcall') (hnew call hcall).1
    · exact absurd (heq ▸ hm.ids call hcall) (hnew call' hcall').1
    · exact hm.unique call hcall call' hcall' heq
  · rcases List.mem_append.mp ha with ha | ha
    · obtain ⟨⟨host, hcall⟩, rfl, hid, -⟩ := hanswered a ha
      refine ⟨host, List.mem_append_right _ hcall, fun addr haddr => ?_⟩
      obtain ⟨c', host', k, hcall', hagreed, heq⟩ := hready a ha addr haddr
      have hcalls := hm.unique _ hcall _ hcall' hid
      obtain ⟨hcaller, hhost, -⟩ := ConnectCall.mk.inj hcalls
      subst hcaller hhost
      exact ⟨k, hagreed.mono hg, heq⟩
    · obtain ⟨host, hcall, hok⟩ := hm.answered a ha
      refine ⟨host, hg.connects hcall, fun addr haddr => ?_⟩
      obtain ⟨k, hagreed, heq⟩ := hok addr haddr
      exact ⟨k, hagreed.mono hg, heq⟩
  · rw [List.map_append]
    refine List.nodup_append.mpr ⟨?_, hm.once, ?_⟩
    · match hlist : answersOf c client r, hone with
      | [], _ => exact List.nodup_nil
      | [a], _ => exact List.nodup_singleton _
    · intro id hid id' hid' heq
      obtain ⟨a, ha, rfl⟩ := List.mem_map.mp hid
      obtain ⟨a', ha', rfl⟩ := List.mem_map.mp hid'
      obtain ⟨-, -, -, hnot⟩ := hanswered a ha
      exact hnot a' ha' heq.symm

end

/-! ## the server -/

section

variable {std : UnorderedMap.Insertion TraversalHostId (EvictEntry TraversalInetAddress)}
  {fuel : Nat} {event : Server.Event}

omit [DecidableEq ι]

theorem serverStep_eq_some_iff : w.serverStep std fuel event = some w' ↔
    (∀ received ∈ event.received, received ∈ w.toServer) ∧
      ∃ server sent, w.server.turn std fuel event = some (server, sent) ∧
        { w with
          server := server
          toClients := w.toClients ++ sent
          serverIds := w.server.drawnIds std fuel event ++ w.serverIds
          registrations := registrationsOf w.server event ++ w.registrations
          acked := ackedOf event ++ w.acked } = w' := by
  unfold serverStep
  rw [Option.ite_none_right_eq_some, Option.map_eq_some_iff]
  exact and_congr_right fun _ =>
    ⟨fun ⟨(server, sent), h⟩ => ⟨server, sent, h⟩, fun ⟨server, sent, h⟩ => ⟨(server, sent), h⟩⟩

theorem serverStep_grows (h : w.serverStep std fuel event = some w') : Grows w w' := by
  obtain ⟨-, server, sent, -, rfl⟩ := serverStep_eq_some_iff.mp h
  exact ⟨List.Subset.refl _, List.subset_append_right .., List.Subset.refl _,
    List.Subset.refl _, List.subset_append_right ..⟩

theorem Sound.keys_subset (hs : Sound address w issued) : ∀ id ∈ w.server.keys, id ∈ w.serverIds := by
  intro id hid
  obtain ⟨e, he, rfl⟩ := List.mem_map.mp hid
  exact (hs.justified _ _ (hs.outgoing e he)).1

variable {i : Issued}

theorem justified_of_responds (hs : Sound address w issued) {packet : TraversalPacket}
    {addr : SockAddrIn6} (hin : (packet, addr) ∈ w.toServer) {currentTime : BitVec 64}
    (h : w.server.Responds currentTime packet addr i) : Justified address w i := by
  obtain ⟨k, rfl, hfrom⟩ := hs.toServer _ hin
  unfold Server.Responds at h
  unfold FromClient at hfrom
  split at h
  · next ok hdata =>
    obtain ⟨info, asked, hinfo, hplease, hmade⟩ := h
    rw [hdata] at hfrom
    obtain ⟨i', hi', hdest, haccepted⟩ := hfrom
    have hissued := hs.outgoing _ (Server.mem_of_info hinfo)
    obtain rfl := Option.some.inj (hi'.symm.trans hissued)
    unfold Justified
    rw [hmade]
    split at hmade
    · next hok =>
      -- the host that acknowledged is the one that was asked
      obtain ⟨-, -, hjust⟩ := hs.justified _ _ hissued
      unfold Justified OutgoingPacketInfo.issued at hjust
      rw [hplease] at hjust
      obtain ⟨c, host, hcall, rfl, hreg⟩ := hjust
      rw [if_pos hok]
      replace hdest : info.dest = (address k).sockAddr := hdest
      rw [hdest] at hreg ⊢
      exact ⟨c, host, k, hcall, ⟨hreg, info.packet, haccepted hok, hplease⟩, rfl⟩
    · next hok =>
      rw [if_neg hok]
      trivial
  · obtain ⟨ok, hostId, a, hmade⟩ := h
    unfold Justified
    rw [hmade]
    trivial
  · next host hdata =>
    rw [hdata] at hfrom
    rcases h with ⟨found, hfound, hmade, hdest, hmisc⟩ | hmade
    · obtain ⟨e, he, rfl⟩ := Server.find_of_found hfound
      obtain ⟨c', hvalue, hreg⟩ := hs.registered _ _ he
      have hmade' : i.packet.data = .PleaseSendPacket (inetOf address k) := hmade
      unfold Justified
      rw [hmade']
      refine ⟨k, host, hmisc ▸ hfrom.2, rfl, ?_⟩
      rw [hdest, hvalue]
      unfold inetOf
      rwa [MakeSinAddr_MakeInetAddress]
    · unfold Justified
      rw [hmade]
      trivial
  · exact h.elim

theorem justified_of_makes (hs : Sound address w issued)
    (hin : ∀ received ∈ event.received, received ∈ w.toServer) (h : w.server.Makes event i) :
    Justified address w i := by
  rcases h with ⟨packet, addr, hrec, hresponds⟩ | ⟨id, reason, hfail⟩
  · exact justified_of_responds hs (hin _ (Option.mem_def.mpr hrec)) hresponds
  · unfold Justified
    rw [hfail]
    trivial

/-- The packets that were issued, with those that the server has now. -/
def issuedAfter (issued : TraversalRequestId → Option Issued) (s : Server)
    (id : TraversalRequestId) : Option Issued :=
  (issued id).or ((s.info id).map OutgoingPacketInfo.issued)

theorem issuedAfter_of_issued {s : Server} {id : TraversalRequestId} (h : issued id = some i) :
    issuedAfter issued s id = some i := by
  unfold issuedAfter
  rw [h]
  rfl

theorem serverStep_sound (hs : Sound address w issued)
    (hids : DistinctIds address std w (.server fuel event))
    (h : w.serverStep std fuel event = some w') :
    ∃ issued', Sound address w' issued' := by
  have hg := serverStep_grows h
  obtain ⟨hin, server, sent, hturn, rfl⟩ := serverStep_eq_some_iff.mp h
  obtain ⟨hnodup, hfresh⟩ := hids
  have hturned := Server.turn_turned hs.keys hnodup
    (fun id hid hk => (hfresh id hid).2 (hs.keys_subset id hk)) hturn
  generalize w.server.drawnIds std fuel event = ids at hnodup hfresh hturned hg ⊢
  have hnone : ∀ id ∈ ids, issued id = none := fun id hid => by
    by_contra hsome
    obtain ⟨i, hi⟩ := Option.ne_none_iff_exists'.mp hsome
    exact (hfresh id hid).2 (hs.justified id i hi).1
  -- the packets of the server are issued
  have hissued : ∀ e ∈ server.outgoingPackets, issuedAfter issued server e.1 = some e.2.issued := by
    intro e he
    rcases hturned.mem e he with ⟨e₀, he₀, hkey, heq, -⟩ | ⟨hid, -, -⟩
    · rw [hkey, heq]
      exact issuedAfter_of_issued (hs.outgoing e₀ he₀)
    · unfold issuedAfter
      rw [hnone _ hid, (Server.info_eq_some_iff hturned.nodup).mpr he]
      rfl
  have hjustified : ∀ id i, issuedAfter issued server id = some i →
      id ∈ ids ++ w.serverIds ∧ i.packet.requestId = id ∧ Justified address w i := by
    intro id i hi
    rcases hold : issued id with _ | i'
    · unfold issuedAfter at hi
      rw [hold] at hi
      obtain ⟨info, hinfo, rfl⟩ := Option.map_eq_some_iff.mp hi
      have he := Server.mem_of_info hinfo
      rcases hturned.mem _ he with ⟨e₀, he₀, hkey, -⟩ | ⟨hid, hreq, hmakes⟩
      · have := hs.outgoing e₀ he₀
        rw [← hkey, hold] at this
        cases this
      · exact ⟨List.mem_append_left _ hid, hreq, justified_of_makes hs hin hmakes⟩
    · obtain rfl := Option.some.inj ((issuedAfter_of_issued hold).symm.trans hi)
      obtain ⟨hid, hreq, hjust⟩ := hs.justified id _ hold
      exact ⟨List.mem_append_right _ hid, hreq, hjust⟩
  have hmono : ∀ id i, issued id = some i → issuedAfter issued server id = some i :=
    fun _ _ => issuedAfter_of_issued
  refine ⟨issuedAfter issued server, hturned.nodup, hissued, fun id i hi => ?_,
    fun id hid hmem => ?_, fun d hd => ?_, fun m hm => ?_, fun id e he => ?_, fun id hid => ?_⟩
  · obtain ⟨hid, hreq, hjust⟩ := hjustified id i hi
    exact ⟨hid, hreq, hjust.mono hg⟩
  · rcases List.mem_append.mp hmem with hmem | hmem
    · exact (hfresh id hmem).1 hid
    · exact hs.disjoint id hid hmem
  · rcases List.mem_append.mp hd with hd | hd
    · exact (hs.toClients d hd).imp_right fun ⟨i, hi, heq⟩ => ⟨i, hmono _ _ hi, heq⟩
    rcases hturned.sent d hd with ⟨packet, addr, hrec, hack, hreq, hnot⟩ | ⟨e, he, rfl⟩
    · obtain ⟨k, -, hfrom⟩ := hs.toServer _ (hin _ (Option.mem_def.mpr hrec))
      refine .inl ⟨hack, ?_⟩
      unfold FromClient at hfrom
      rw [hreq]
      split at hfrom
      · next ok hdata => exact absurd hdata (hnot ok)
      · exact hfrom.1
      · exact hfrom
    · have hi := hissued e he
      obtain ⟨-, hreq, -⟩ := hjustified _ _ hi
      exact .inr ⟨e.2.issued, by rw [← hi]; exact congrArg _ hreq, rfl⟩
  · obtain ⟨k, hk, hfrom⟩ := hs.toServer m hm
    exact ⟨k, hk, hfrom.mono hg hmono⟩
  · rcases hturned.registered id e he with ⟨e₀, he₀, hvalue⟩ |
      ⟨packet, addr, hrec, ⟨v, hv, hdata⟩, rfl, hvalue⟩
    · obtain ⟨k, hk, hreg⟩ := hs.registered id e₀ he₀
      exact ⟨k, hvalue ▸ hk, hg.registrations hreg⟩
    · obtain ⟨k, hk, -⟩ := hs.toServer _ (hin _ (Option.mem_def.mpr hrec))
      subst hk
      refine ⟨k, hvalue, List.mem_append_left _ ?_⟩
      unfold registrationsOf
      obtain ⟨id, data⟩ := packet
      dsimp only at hdata
      rw [hrec, hdata]
      dsimp only
      rw [if_pos hv]
      exact List.mem_singleton_self _
  · -- an id that is acknowledged is one of the server, and no packet has it
    have hgone : id ∈ w.serverIds → (∀ e₀ ∈ w.server.outgoingPackets, e₀.1 = id →
        ∃ packet addr ok, event.received = some (packet, addr) ∧ packet.data = .Ack ok ∧
          packet.requestId = id) → id ∉ server.keys := by
      intro hserver hold hk
      obtain ⟨e, he, rfl⟩ := List.mem_map.mp hk
      rcases hturned.mem e he with ⟨e₀, he₀, hkey, -, hne⟩ | ⟨hid, -, -⟩
      · obtain ⟨packet, addr, ok, hrec, hack, hreq⟩ := hold e₀ he₀ hkey.symm
        exact hne packet addr ok hrec hack hreq.symm
      · exact (hfresh _ hid).2 hserver
    rcases List.mem_append.mp hid with hid | hid
    · unfold ackedOf at hid
      split at hid
      · next id' ok addr hrec =>
        obtain rfl := List.mem_singleton.mp hid
        obtain ⟨k, -, i, hi, -⟩ := hs.toServer _ (hin _ (Option.mem_def.mpr hrec))
        have hserver := (hs.justified _ _ hi).1
        exact ⟨List.mem_append_right _ hserver,
          hgone hserver fun _ _ _ => ⟨_, _, ok, hrec, rfl, rfl⟩⟩
      · cases hid
    · obtain ⟨hserver, hnot⟩ := hs.acked id hid
      refine ⟨List.mem_append_right _ hserver, hgone hserver fun e₀ he₀ heq => ?_⟩
      exact absurd (heq ▸ Server.mem_keys he₀) hnot

theorem serverStep_matched (hm : Matched address w)
    (h : w.serverStep std fuel event = some w') : Matched address w' := by
  have hg := serverStep_grows h
  obtain ⟨-, server, sent, -, rfl⟩ := serverStep_eq_some_iff.mp h
  refine ⟨hm.own, hm.waiting, hm.ids, hm.unique, fun a ha => ?_, hm.once⟩
  obtain ⟨host, hcall, hok⟩ := hm.answered a ha
  refine ⟨host, hcall, fun addr haddr => ?_⟩
  obtain ⟨k, hagreed, heq⟩ := hok addr haddr
  exact ⟨k, hagreed.mono hg, heq⟩

end

/-! ## every run -/

section

variable {std : UnorderedMap.Insertion TraversalHostId (EvictEntry TraversalInetAddress)}

omit [DecidableEq ι] in
theorem serverStep_sent (hs : Sound address w issued) {fuel : Nat} {event : Server.Event}
    (hids : DistinctIds address std w (.server fuel event))
    (h : w.serverStep std fuel event = some w') :
    ∀ d ∈ w'.toClients.drop w.toClients.length, d.packet.requestId ∉ w'.acked := by
  obtain ⟨issued', hs'⟩ := serverStep_sound hs hids h
  obtain ⟨-, server, sent, hturn, rfl⟩ := serverStep_eq_some_iff.mp h
  have hturned := Server.turn_turned hs.keys hids.1
    (fun id hid hk => (hids.2 id hid).2 (hs.keys_subset id hk)) hturn
  intro d hd hacked
  rw [List.drop_left] at hd
  obtain ⟨hserver, hgone⟩ := hs'.acked _ hacked
  rcases hturned.sent d hd with ⟨-, -, -, ⟨ok, hack⟩, -⟩ | ⟨e, he, rfl⟩
  · rcases hs'.toClients d (List.mem_append_right _ hd) with ⟨-, hid⟩ | ⟨i, hi, rfl⟩
    · exact hs'.disjoint _ hid hserver
    · obtain ⟨-, -, hjust⟩ := hs'.justified _ i hi
      unfold Justified at hjust
      rw [hack] at hjust
      exact hjust
  · obtain ⟨-, hreq, -⟩ := hs'.justified _ _ (hs'.outgoing e he)
    exact hgone (hreq ▸ Server.mem_keys he)

omit [DecidableEq ι] in
theorem init_sound (address : ι → ENetAddress) (random : RandomPool)
    (bucket : TraversalHostId → Nat) : Sound address (init random bucket) fun _ => none :=
  ⟨.nil, nofun, nofun, nofun, nofun, nofun, nofun, nofun⟩

omit [DecidableEq ι] in
theorem init_matched (address : ι → ENetAddress) (random : RandomPool)
    (bucket : TraversalHostId → Nat) : Matched address (init random bucket) :=
  ⟨nofun, nofun, nofun, nofun, nofun, .nil⟩

theorem run_sound {random : RandomPool} {bucket : TraversalHostId → Nat}
    (h : Run (step address std) (DistinctIds address std) (init random bucket) w) :
    (∃ issued, Sound address w issued) ∧ Matched address w := by
  refine h.invariant (I := fun w => (∃ issued, Sound address w issued) ∧ Matched address w)
    ⟨⟨_, init_sound address random bucket⟩, init_matched address random bucket⟩ ?_
  rintro w action w' ⟨⟨issued, hs⟩, hm⟩ hids hstep
  cases action with
  | client c action inputs =>
    exact ⟨⟨issued, clientStep_sound hs hm hids hstep⟩, clientStep_matched hs hm hids hstep⟩
  | server fuel event => exact ⟨serverStep_sound hs hids hstep, serverStep_matched hm hstep⟩

end

/-- **Connecting**: over every network, a call of `ConnectToClient` is answered at most once, at its
caller, and `OnConnectReady` has the address of a host that agreed. A packet that was acknowledged
to the server is not sent again. -/
theorem connects_matched (address : ι → ENetAddress)
    (std : UnorderedMap.Insertion TraversalHostId (EvictEntry TraversalInetAddress))
    (random : RandomPool) (bucket : TraversalHostId → Nat) (w : World ι)
    (h : Run (step address std) (DistinctIds address std) (init random bucket) w) :
    (∀ call ∈ w.connects, (∀ call' ∈ w.connects, call.requestId = call'.requestId → call = call') ∧
      (w.answers.filter fun a => a.requestId = call.requestId).length ≤ 1) ∧
    (∀ a ∈ w.answers, ∃ host, ⟨a.caller, host, a.requestId⟩ ∈ w.connects ∧
      ∀ addr, a.callback = .OnConnectReady addr →
        ∃ k, Agreed address w a.caller host k ∧ addr = address k) ∧
    ∀ fuel event w', DistinctIds address std w (.server fuel event) →
      step address std w (.server fuel event) = some w' →
      ∀ d ∈ w'.toClients.drop w.toClients.length, d.packet.requestId ∉ w'.acked := by
  obtain ⟨⟨issued, hs⟩, hm⟩ := run_sound h
  refine ⟨fun call hcall => ⟨hm.unique call hcall, ?_⟩, hm.answered,
    fun fuel event w' hids hstep => serverStep_sent hs hids hstep⟩
  rw [← List.countP_eq_length_filter]
  calc w.answers.countP (fun a => a.requestId = call.requestId)
      = (w.answers.map Answer.requestId).count call.requestId := by
        rw [List.count, List.countP_map]
        exact List.countP_congr fun a _ => by simp
    _ ≤ 1 := List.nodup_iff_count_le_one.mp hm.once _

/-- A client that starts, and calls a host. -/
def calling : List (Action Unit) :=
  [.client () (.create true) ⟨0, 1, fun _ => true, 0⟩,
    .client () (.ConnectToClient [0x61]) ⟨1, 2, fun _ => true, 0⟩]

theorem connects_matched_calling :
    ∃ w : World Unit, Run.exec (step (fun _ => ⟨0x0100007f, 2626⟩) (.front _ _))
        (init ⟨fun _ _ => 1, 0, fun _ => 0, 0⟩ fun _ => 0) calling = some w ∧
      w.connects.map ConnectCall.requestId = [2] ∧
      (w.answers.filter fun a => a.requestId = 2).length ≤ 1 := by
  refine ⟨_, rfl, rfl, ?_⟩
  have hnew (w : World Unit) (action : ClientAction) (inputs : Inputs)
      (h : inputs.requestId ∉ w.clientIds ∧ inputs.requestId ∉ w.serverIds)
      (hid : ∀ client, action.drawnIds inputs client = [inputs.requestId]) :
      DistinctIds (fun _ => ⟨0x0100007f, 2626⟩) (.front _ _) w (.client () action inputs) := by
    intro client _ id hmem
    rw [hid, List.mem_singleton] at hmem
    exact hmem ▸ h
  have h := connects_matched (fun _ : Unit => ⟨0x0100007f, 2626⟩) (.front _ _)
    ⟨fun _ _ => 1, 0, fun _ => 0, 0⟩ (fun _ => 0) _
    (.tail (.client () (.ConnectToClient [0x61]) ⟨1, 2, fun _ => true, 0⟩)
      (.single (.client () (.create true) ⟨0, 1, fun _ => true, 0⟩)
        (hnew _ _ _ ⟨nofun, nofun⟩ fun _ => rfl) rfl)
      (hnew _ _ _ ⟨show (2 : TraversalRequestId) ∉ [1] by decide, nofun⟩ fun _ => rfl) rfl)
  exact (h.1 _ (List.mem_singleton_self _)).2

end World

end DolphinCore.Traversal
