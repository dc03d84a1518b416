import DolphinCore.Lib.Run
import DolphinCore.Traversal.TraversalServer

/-!
# DolphinCore.Traversal.Registration

The hosts that the server knows. A lookup walks a bucket and erases what has
expired on the way; entries that have not expired stay. A hello draws its host id
once and then looks it up again and again, so that it does not end while a host is
registered under it.
-/

namespace DolphinCore.Traversal

section

variable {κ ν : Type} [DecidableEq κ] {map : UnorderedMap κ (EvictEntry ν)} {key other : κ}
  {currentTime : BitVec 64} {refresh : Bool}

/-- The entry of a key, unless it has expired. -/
def live (currentTime : BitVec 64) (map : UnorderedMap κ (EvictEntry ν)) (key : κ) :
    Option (EvictEntry ν) :=
  (map.find key).filter fun e => ¬ e.Expired currentTime

theorem live_eq_some_iff {e : EvictEntry ν} :
    live currentTime map key = some e ↔ map.find key = some e ∧ ¬ e.Expired currentTime := by
  unfold live
  simp [Option.filter_eq_some_iff]

@[simp] theorem not_expired_now (currentTime : BitVec 64) (value : ν) :
    ¬ (EvictEntry.mk currentTime value).Expired currentTime := by
  simp only [EvictEntry.Expired, BitVec.sub_self]
  decide

theorem live_eq_none_iff :
    live currentTime map key = none ↔ ∀ e, map.find key = some e → e.Expired currentTime := by
  unfold live
  simp [Option.filter_eq_none_iff]

/-! ## a lookup -/

theorem scan_found {nodes : List (κ × EvictEntry ν)} {value : ν}
    (h : scanBucket currentTime key nodes = .found value) :
    ∃ e, (key, e) ∈ nodes ∧ ¬ e.Expired currentTime ∧ e.value = value := by
  induction nodes with
  | nil => cases h
  | cons node nodes ih =>
    obtain ⟨k, entry⟩ := node
    rw [scanBucket] at h
    split at h
    · cases h
    · next hexp =>
      split at h
      · next hk =>
        cases h
        exact ⟨entry, hk ▸ List.mem_cons_self .., hexp, rfl⟩
      · obtain ⟨e, he, hrest⟩ := ih h
        exact ⟨e, List.mem_cons_of_mem _ he, hrest⟩

theorem scan_missing {nodes : List (κ × EvictEntry ν)}
    (h : scanBucket currentTime key nodes = .missing) : ∀ e, (key, e) ∉ nodes := by
  induction nodes with
  | nil => exact fun _ => List.not_mem_nil
  | cons node nodes ih =>
    obtain ⟨k, entry⟩ := node
    rw [scanBucket] at h
    split at h
    · cases h
    · split at h
      · cases h
      · next hk =>
        intro e he
        rcases List.mem_cons.mp he with heq | he
        · exact hk (congrArg Prod.fst heq).symm
        · exact ih h e he

theorem live_erase {e : EvictEntry ν} (he : (other, e) ∈ map.nodes)
    (hexp : e.Expired currentTime) :
    live currentTime (map.erase other) key = live currentTime map key := by
  unfold live
  rw [UnorderedMap.find_erase]
  split
  · next h =>
    subst h
    rw [UnorderedMap.find_eq_some_iff.mpr he, Option.filter_some, if_neg (by simpa using hexp)]
    rfl
  · rfl

theorem live_modify :
    live currentTime (map.modify key ({ · with updateTime := currentTime })) other =
      if other = key then (map.find key).map ({ · with updateTime := currentTime })
      else live currentTime map other := by
  unfold live
  rw [UnorderedMap.find_modify]
  split
  · cases map.find key <;> simp
  · rfl

/-- **A lookup** finds the entry of a key exactly when it has not expired. No other entry that has
not expired is changed, and a refresh changes the time of this one only. -/
theorem EvictFind_spec :
    (EvictFind currentTime map key refresh).2 = (live currentTime map key).map EvictEntry.value ∧
      ((EvictFind currentTime map key refresh).2 = none →
        (EvictFind currentTime map key refresh).1.find key = none) ∧
      ∀ other, live currentTime (EvictFind currentTime map key refresh).1 other =
        if other = key ∧ refresh then
          (live currentTime map key).map ({ · with updateTime := currentTime })
        else live currentTime map other := by
  induction hn : map.nodes.length using Nat.strongRecOn generalizing map with
  | _ n ih =>
    rw [EvictFind]
    split
    · next first hscan =>
      obtain ⟨e, he, hexp⟩ := mem_of_scan_expired hscan
      have hmem := (List.mem_filter.mp he).1
      have hlt : (map.erase first).nodes.length < n := by
        rw [← hn]
        exact List.length_filter_lt_length_iff_exists.mpr ⟨_, hmem, by simp⟩
      have hspec := ih _ hlt rfl
      simpa only [live_erase hmem hexp] using hspec
    · next value hscan =>
      obtain ⟨e, he, hlive, rfl⟩ := scan_found hscan
      have hfind := UnorderedMap.find_eq_some_iff.mpr (List.mem_filter.mp he).1
      have hkey : live currentTime map key = some e := live_eq_some_iff.mpr ⟨hfind, hlive⟩
      refine ⟨by rw [hkey]; rfl, nofun, fun other => ?_⟩
      cases refresh with
      | false => simp
      | true =>
        simp only [if_true, and_true]
        rw [live_modify, hkey, hfind]
    · next hscan =>
      have hnone : map.find key = none := UnorderedMap.find_eq_none_iff.mpr fun e he =>
        scan_missing hscan e (List.mem_filter.mpr ⟨he, by simp⟩)
      have hkey : live currentTime map key = none := live_eq_none_iff.mpr fun e he => by
        rw [hnone] at he
        cases he
      refine ⟨by rw [hkey]; rfl, fun _ => hnone, fun other => ?_⟩
      split
      · next h => rw [h.1, hkey]; rfl
      · rfl

theorem live_EvictSet (std : UnorderedMap.Insertion κ (EvictEntry ν)) (value : ν) :
    live currentTime (EvictSet std currentTime map key value) other =
      if other = key then some ⟨currentTime, value⟩ else live currentTime map other := by
  unfold live EvictSet
  rw [UnorderedMap.Insertion.find_insert]
  split
  · simp
  · rfl

end

/-! ## a packet -/

section

variable {std : UnorderedMap.Insertion TraversalHostId (EvictEntry TraversalInetAddress)}
  {currentTime : BitVec 64} {hostId id : TraversalHostId} {address : TraversalInetAddress}
  {clients : Clients}

namespace Server

theorem registerHost_of_live {e : EvictEntry TraversalInetAddress}
    (h : live currentTime clients hostId = some e) (fuel : Nat) :
    registerHost std currentTime hostId address fuel clients = none := by
  induction fuel generalizing clients with
  | zero => rfl
  | succ fuel ih =>
    obtain ⟨hfound, -, hlive⟩ := @EvictFind_spec _ _ _ clients hostId currentTime false
    have hagain := hlive hostId
    rw [registerHost]
    generalize EvictFind currentTime clients hostId false = found at hfound hagain
    obtain ⟨clients', value⟩ := found
    rw [h] at hfound hagain
    obtain rfl : value = some e.value := hfound
    exact ih (by simpa using hagain)

theorem registerHost_of_not_live (h : live currentTime clients hostId = none) (fuel : Nat) :
    registerHost std currentTime hostId address (fuel + 1) clients =
      some (EvictSet std currentTime (EvictFind currentTime clients hostId false).1 hostId
        address) := by
  have hfound := (@EvictFind_spec _ _ _ clients hostId currentTime false).1
  rw [registerHost]
  generalize EvictFind currentTime clients hostId false = found at hfound ⊢
  obtain ⟨clients', value⟩ := found
  rw [h] at hfound
  obtain rfl : value = none := hfound
  rfl

/-- What a hello draws as its host id, after the id of the reply. -/
def drawnId (s : Server) : TraversalHostId :=
  (GetRandomHostId (GetRandomBytes s.random 8).2).1

/-- A hello draws an id under which no host is registered, or only one that has expired. -/
def Fresh (s : Server) (currentTime : BitVec 64) (packet : TraversalPacket) : Prop :=
  match packet.data with
  | .HelloFromClient protoVersion =>
    protoVersion ≤ TraversalProtoVersion → live currentTime s.connectedClients s.drawnId = none
  | _ => True

/-- Registrations that have not expired keep their address, and their time but for a ping. -/
def Keeps (currentTime : BitVec 64) (packet : TraversalPacket) (clients clients' : Clients) :
    Prop :=
  ∀ id e, live currentTime clients id = some e → ∃ e', clients'.find id = some e' ∧
    e'.value = e.value ∧
    (e' = e ∨ packet.data = .Ping id ∧ e'.updateTime = currentTime)

/-- A hello that is answered has given an id that was free to the one who sent it. -/
def Registers (currentTime : BitVec 64) (packet : TraversalPacket) (addr : SockAddrIn6)
    (clients clients' : Clients) : Prop :=
  ∀ protoVersion ≤ TraversalProtoVersion, packet.data = .HelloFromClient protoVersion →
    ∃ id, live currentTime clients id = none ∧
      clients'.find id = some ⟨currentTime, MakeInetAddress addr⟩

/-- The server handles the packet and comes to an end; unexpired registrations are kept. -/
structure Handles
    (std : UnorderedMap.Insertion TraversalHostId (EvictEntry TraversalInetAddress)) (s : Server)
    (currentTime : BitVec 64) (packet : TraversalPacket) (addr : SockAddrIn6) : Prop where
  ends : ∃ fuel, (HandlePacket std fuel s currentTime packet addr).isSome
  keeps : ∀ fuel s' sent, HandlePacket std fuel s currentTime packet addr = some (s', sent) →
    Keeps currentTime packet s.connectedClients s'.connectedClients ∧
      Registers currentTime packet addr s.connectedClients s'.connectedClients

@[simp] theorem erase_connectedClients (s : Server) (id : TraversalRequestId) :
    (s.erase id).connectedClients = s.connectedClients := rfl

@[simp] theorem AllocPacket_connectedClients (s : Server) (dest : SockAddrIn6)
    (misc : TraversalRequestId) :
    (s.AllocPacket currentTime dest misc).2.connectedClients = s.connectedClients := rfl

@[simp] theorem AllocPacket_random (s : Server) (dest : SockAddrIn6)
    (misc : TraversalRequestId) :
    (s.AllocPacket currentTime dest misc).2.random = (GetRandomBytes s.random 8).2 := rfl

@[simp] theorem setData_connectedClients (s : Server) (id : TraversalRequestId)
    (data : TraversalPacketData) : (s.setData id data).connectedClients = s.connectedClients := rfl

theorem handleAck_connectedClients (s : Server) (ok : BitVec 8) (id : TraversalRequestId) :
    (s.handleAck currentTime ok id).connectedClients = s.connectedClients := by
  unfold handleAck
  split
  · rfl
  · split
    · unfold tellRequester
      dsimp only
      split <;> simp
    · rfl

variable {packet : TraversalPacket} {clients' : Clients} {addr : SockAddrIn6} {s : Server}

theorem Keeps.of_live (h : ∀ id, live currentTime clients' id = live currentTime clients id) :
    Keeps currentTime packet clients clients' := by
  intro id e he
  exact ⟨e, (live_eq_some_iff.mp ((h id).trans he)).1, rfl, .inl rfl⟩

theorem Keeps.refl : Keeps currentTime packet clients clients :=
  .of_live fun _ => rfl

theorem EvictFind_keeps (packet : TraversalPacket) :
    Keeps currentTime packet clients (EvictFind currentTime clients hostId false).1 :=
  .of_live fun id => by
    rw [(@EvictFind_spec _ _ _ clients hostId currentTime false).2.2 id]
    simp

theorem handleHello_eq (s : Server) (fuel : Nat) (protoVersion : BitVec 8) (addr : SockAddrIn6) :
    (s.handleHello std fuel currentTime protoVersion addr).map Server.connectedClients =
      if protoVersion ≤ TraversalProtoVersion then
        registerHost std currentTime s.drawnId (MakeInetAddress addr) fuel s.connectedClients
      else some s.connectedClients := by
  unfold handleHello
  dsimp only
  split
  · rw [Option.map_map]
    exact Option.map_id'
  · rfl

theorem hello_registers (hfree : live currentTime clients hostId = none)
    (h : clients' = EvictSet std currentTime (EvictFind currentTime clients hostId false).1 hostId
      address) :
    clients'.find hostId = some ⟨currentTime, address⟩ ∧
      ∀ id e, live currentTime clients id = some e → clients'.find id = some e := by
  subst h
  refine ⟨by simp [EvictSet], fun id e he => ?_⟩
  have hne : id ≠ hostId := by
    rintro rfl
    rw [hfree] at he
    cases he
  have hlive : live currentTime (EvictSet std currentTime
      (EvictFind currentTime clients hostId false).1 hostId address) id = some e := by
    rw [live_EvictSet, if_neg hne,
      (@EvictFind_spec _ _ _ clients hostId currentTime false).2.2 id, if_neg (by simp), he]
  exact (live_eq_some_iff.mp hlive).1

theorem Registers.of_not_hello (h : ∀ v, packet.data ≠ .HelloFromClient v) :
    Registers currentTime packet addr clients clients' :=
  fun v _ hv => absurd hv (h v)

/-- **A packet that is no hello** is handled. -/
theorem handles_of_not_hello (h : ∀ v, packet.data ≠ .HelloFromClient v) :
    Handles std s currentTime packet addr := by
  suffices hone : ∃ r : Server × List Datagram,
      (∀ fuel, HandlePacket std fuel s currentTime packet addr = some r) ∧
        Keeps currentTime packet s.connectedClients r.1.connectedClients by
    obtain ⟨r, hr, hkeeps⟩ := hone
    refine ⟨⟨0, by rw [hr]; rfl⟩, fun fuel s' sent hs' => ?_⟩
    rw [hr] at hs'
    obtain rfl := Option.some.inj hs'
    exact ⟨hkeeps, .of_not_hello h⟩
  obtain ⟨id, data⟩ := packet
  cases data with
  | HelloFromClient v => exact absurd rfl (h v)
  | Ack ok =>
    refine ⟨_, fun _ => rfl, ?_⟩
    rw [handleAck_connectedClients]
    exact .refl
  | Ping hostId =>
    refine ⟨_, fun _ => rfl, fun id e he => ?_⟩
    have hlive := (@EvictFind_spec _ _ _ s.connectedClients hostId currentTime true).2.2 id
    rcases eq_or_ne id hostId with rfl | hne
    · rw [if_pos ⟨rfl, rfl⟩, he] at hlive
      exact ⟨_, (live_eq_some_iff.mp hlive).1, rfl, .inr ⟨rfl, rfl⟩⟩
    · rw [if_neg (fun h => hne h.1), he] at hlive
      exact ⟨e, (live_eq_some_iff.mp hlive).1, rfl, .inl rfl⟩
  | ConnectPlease hostId =>
    refine ⟨_, fun _ => rfl, ?_⟩
    have hkeeps := @EvictFind_keeps currentTime hostId s.connectedClients
      ⟨id, .ConnectPlease hostId⟩
    unfold handleConnectPlease
    generalize EvictFind currentTime s.connectedClients hostId false = found at hkeeps ⊢
    obtain ⟨clients, value⟩ := found
    cases value <;> simpa using hkeeps
  | HelloFromServer => exact ⟨_, fun _ => rfl, .refl⟩
  | PleaseSendPacket => exact ⟨_, fun _ => rfl, .refl⟩
  | ConnectReady => exact ⟨_, fun _ => rfl, .refl⟩
  | ConnectFailed => exact ⟨_, fun _ => rfl, .refl⟩
  | unknown => exact ⟨_, fun _ => rfl, .refl⟩

/-- **A hello** is handled exactly when the id that it draws is free. -/
theorem handles_hello_iff {id : TraversalRequestId} {protoVersion : BitVec 8}
    :
    Handles std s currentTime ⟨id, .HelloFromClient protoVersion⟩ addr ↔
      (protoVersion ≤ TraversalProtoVersion →
        live currentTime s.connectedClients s.drawnId = none) := by
  have heq : ∀ fuel, (HandlePacket std fuel s currentTime ⟨id, .HelloFromClient protoVersion⟩
      addr).map (fun r => r.1.connectedClients) =
      if protoVersion ≤ TraversalProtoVersion then
        registerHost std currentTime s.drawnId (MakeInetAddress addr) fuel s.connectedClients
      else some s.connectedClients := by
    intro fuel
    rw [← handleHello_eq]
    exact Option.map_map ..
  have hends : ∀ fuel, (HandlePacket std fuel s currentTime
      ⟨id, .HelloFromClient protoVersion⟩ addr).isSome = _ := fun fuel => by
    rw [← Option.isSome_map (f := fun r => r.1.connectedClients), heq fuel]
  constructor
  · rintro ⟨⟨fuel, hfuel⟩, -⟩ hversion
    by_contra hlive
    obtain ⟨e, he⟩ := Option.ne_none_iff_exists'.mp hlive
    rw [hends, if_pos hversion, registerHost_of_live he] at hfuel
    cases hfuel
  · intro hfree
    refine ⟨⟨1, ?_⟩, fun fuel s' sent hs' => ?_⟩
    · rw [hends]
      split
      · next hversion => rw [registerHost_of_not_live (hfree hversion)]; rfl
      · rfl
    · have hclients := heq fuel
      rw [hs', Option.map_some] at hclients
      split at hclients
      · next hversion =>
        have hfree := hfree hversion
        cases fuel with
        | zero => cases hclients
        | succ fuel =>
          rw [registerHost_of_not_live hfree] at hclients
          obtain ⟨hfound, hother⟩ := hello_registers hfree (Option.some.inj hclients)
          exact ⟨fun id e he => ⟨e, hother id e he, rfl, .inl rfl⟩,
            fun _ _ _ => ⟨_, hfree, hfound⟩⟩
      · next hversion =>
        rw [Option.some.inj hclients]
        refine ⟨.refl, fun v hv hdata => ?_⟩
        obtain rfl := TraversalPacketData.HelloFromClient.inj hdata
        exact absurd hv hversion

theorem handles_iff_fresh : Handles std s currentTime packet addr ↔ Fresh s currentTime packet := by
  obtain ⟨id, data⟩ := packet
  cases data with
  | HelloFromClient v => exact handles_hello_iff
  | _ => exact iff_of_true (handles_of_not_hello fun _ => nofun) trivial

/-! ## the main loop -/

theorem ResendPackets_connectedClients (s : Server) :
    (s.ResendPackets currentTime).1.connectedClients = s.connectedClients := by
  have hfail : ∀ (failures : List (TraversalInetAddress × TraversalRequestId)) (s : Server),
      (failures.foldl (failRequest · currentTime) s).connectedClients = s.connectedClients := by
    intro failures
    induction failures with
    | nil => exact fun _ => rfl
    | cons failure failures ih =>
      intro s
      rw [List.foldl_cons, ih]
      rfl
  exact hfail _ _

theorem turn_keeps {fuel : Nat} {s s' : Server} {event : Event} {sent : List Datagram}
    (h : turn std fuel s event = some (s', sent)) {e : EvictEntry TraversalInetAddress}
    (he : live event.currentTime s.connectedClients id = some e) :
    ∃ e', s'.connectedClients.find id = some e' ∧ e'.value = e.value := by
  obtain ⟨currentTime, received⟩ := event
  cases received with
  | none =>
    have hclients : s.connectedClients = s'.connectedClients :=
      (ResendPackets_connectedClients s).symm.trans
        (congrArg (fun r => r.1.connectedClients) (Option.some.inj h))
    exact ⟨e, hclients ▸ (live_eq_some_iff.mp he).1, rfl⟩
  | some received =>
    obtain ⟨packet, addr⟩ := received
    obtain ⟨⟨s₁, first⟩, hpacket, heq⟩ := Option.map_eq_some_iff.mp h
    have hclients : s₁.connectedClients = s'.connectedClients :=
      (ResendPackets_connectedClients s₁).symm.trans (congrArg (fun r => r.1.connectedClients) heq)
    have hfresh : Fresh s currentTime packet := by
      obtain ⟨rid, data⟩ := packet
      cases data with
      | HelloFromClient v =>
        intro hversion
        by_contra hlive
        obtain ⟨e', he'⟩ := Option.ne_none_iff_exists'.mp hlive
        have hhello := @handleHello_eq std currentTime s fuel v addr
        rw [if_pos hversion, registerHost_of_live he'] at hhello
        have hnone := Option.map_eq_none_iff.mp hhello
        unfold HandlePacket at hpacket
        dsimp only at hpacket
        rw [hnone] at hpacket
        cases hpacket
      | _ => trivial
    obtain ⟨e', hfind, hvalue, -⟩ :=
      ((handles_iff_fresh.mpr hfresh).keeps fuel _ _ hpacket).1 id e he
    exact ⟨e', hclients ▸ hfind, hvalue⟩

/-- **Registration**: the server handles a packet exactly when it is no hello that draws an id
under which a host is registered. Through every run a registration keeps its address as long as it
has not expired. -/
theorem registration
    (std : UnorderedMap.Insertion TraversalHostId (EvictEntry TraversalInetAddress)) :
    (∀ (s : Server) (currentTime : BitVec 64) (packet : TraversalPacket) (addr : SockAddrIn6),
      Handles std s currentTime packet addr ↔ Fresh s currentTime packet) ∧
    ∀ (fuel : Nat) (s s' : Server) (id : TraversalHostId) (e : EvictEntry TraversalInetAddress),
      Run (fun s event => (turn std fuel s event).map Prod.fst)
        (fun s event => (live event.currentTime s.connectedClients id).isSome) s s' →
      s.connectedClients.find id = some e →
      ∃ e', s'.connectedClients.find id = some e' ∧ e'.value = e.value := by
  refine ⟨fun _ _ _ _ => handles_iff_fresh, fun fuel s s' id e hrun he => ?_⟩
  refine hrun.invariant (I := fun t => ∃ e', t.connectedClients.find id = some e' ∧
    e'.value = e.value) ⟨e, he, rfl⟩ fun t event t' ⟨e', hfind, hvalue⟩ hlive hturn => ?_
  obtain ⟨⟨t', sent⟩, hone, rfl⟩ := Option.map_eq_some_iff.mp hturn
  obtain ⟨e₁, he₁⟩ := Option.isSome_iff_exists.mp hlive
  obtain ⟨e₂, hfind₂, hvalue₂⟩ := turn_keeps hone he₁
  obtain rfl := Option.some.inj ((live_eq_some_iff.mp he₁).1.symm.trans hfind)
  exact ⟨e₂, hfind₂, hvalue₂.trans hvalue⟩

/-- The ids that would be drawn one after another. -/
def laterId (pool : RandomPool) : Nat → TraversalHostId
  | 0 => (GetRandomHostId pool).1
  | n + 1 => laterId (GetRandomHostId pool).2 n

/-- One host, which has the id of the next four random bytes. -/
def zeroTaken : Server where
  outgoingPackets := []
  connectedClients :=
    ⟨[(hostIdOf 0, ⟨0, ⟨false, #v[0x0100007f, 0, 0, 0], 6262⟩⟩)], fun _ => 0, by decide⟩
  random := ⟨fun _ _ => 1, 0, fun _ => 0, 12⟩

/-- The host is pinged, and keeps its address. -/
theorem registration_zeroTaken :
    Handles (.front _ _) zeroTaken 5 ⟨7, .Ping (hostIdOf 0)⟩ ⟨0, #v[0, 0, 0, 1]⟩ ∧
      ∃ e, (zeroTaken.ResendPackets 5).1.connectedClients.find (hostIdOf 0) = some e ∧
        e.value = ⟨false, #v[0x0100007f, 0, 0, 0], 6262⟩ := by
  obtain ⟨hhandles, hrun⟩ := registration (.front _ _)
  exact ⟨(hhandles _ _ _ _).mpr trivial,
    hrun 0 zeroTaken _ (hostIdOf 0) ⟨0, ⟨false, #v[0x0100007f, 0, 0, 0], 6262⟩⟩
      (.single ⟨5, none⟩ (by decide) rfl) rfl⟩

/-- A hello draws the id of a registered host and never ends, although the next draw would give
another one. -/
theorem hello_never_ends : ¬ ∀ (std : UnorderedMap.Insertion TraversalHostId
      (EvictEntry TraversalInetAddress)) (s : Server) (currentTime : BitVec 64)
      (packet : TraversalPacket) (addr : SockAddrIn6),
    (∃ n, live currentTime s.connectedClients (laterId (GetRandomBytes s.random 8).2 n) = none) →
    Handles std s currentTime packet addr := by
  intro h
  have hhandles := h (.front _ _) zeroTaken 0 ⟨7, .HelloFromClient 0⟩ ⟨0, #v[0, 0, 0, 1]⟩
    ⟨1, by decide⟩
  have hfree := handles_hello_iff.mp hhandles (by decide)
  revert hfree
  decide

end Server

end

end DolphinCore.Traversal
