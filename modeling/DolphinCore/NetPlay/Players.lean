import DolphinCore.Lib.Ordered
import DolphinCore.Lib.Run
import DolphinCore.NetPlay.PadBuffer

/-!
# DolphinCore.NetPlay.Players

The players of `NetPlayServer` and the mappings of pads to them: `OnConnect` gives out ids,
`OnDisconnect` takes them out of the mappings, and `OnData` asks whose a slot is.
-/

namespace DolphinCore.NetPlay

/-! ## the server -/

/-- What the server knows of a client. -/
structure Client where
  pid : PlayerId
  current_game : BitVec 32
  deriving DecidableEq, Repr

structure Server where
  m_players : OrdMap PlayerId Client
  m_is_running : Bool
  m_pad_map : PadMappingArray
  m_wiimote_map : PadMappingArray

/-- The server as it is constructed. -/
def Server.init : Server := ⟨.empty, false, fun _ => nobody, fun _ => nobody⟩

/-- The loop of `OnConnect` for the first available id, at the `i`-th of the players' ids.  A match
sets the iterator back to the first player, from which the loop goes on to the second. -/
def availableLoop (pids : List PlayerId) : Nat → Nat → PlayerId → PlayerId
  | 0, _, pid => pid
  | fuel + 1, i, pid =>
    match pids[i]? with
    | none => pid
    | some q =>
      if q = pid then availableLoop pids fuel 1 (pid + 1) else availableLoop pids fuel (i + 1) pid

/-- The id that a new client is given. -/
def availableId (m_players : OrdMap PlayerId Client) : PlayerId :=
  let pids := m_players.values.map Client.pid
  availableLoop pids (256 * (pids.length + 1)) 0 1

/-- The new client is assigned the first pad that is nobody's. -/
def assignPad (m_pad_map : PadMappingArray) (pid : PlayerId) : PadMappingArray :=
  match (List.finRange 4).find? fun slot => m_pad_map slot = nobody with
  | none => m_pad_map
  | some slot => Function.update m_pad_map slot pid

abbrev CON_ERR_SERVER_FULL : Nat := 1
abbrev CON_ERR_GAME_RUNNING : Nat := 2
abbrev CON_ERR_VERSION_MISMATCH : Nat := 3

/-- `OnConnect` of a client whose version is the server's or not. -/
def onConnect (s : Server) (sameVersion : Bool) : Nat × Server :=
  let pid := availableId s.m_players
  if ¬ sameVersion then (CON_ERR_VERSION_MISMATCH, s)
  else if s.m_is_running then (CON_ERR_GAME_RUNNING, s)
  else if s.m_players.keys.toList.length ≥ 255 then (CON_ERR_SERVER_FULL, s)
  else
    (0, { s with
      m_players := s.m_players.emplace pid ⟨pid, 0⟩
      m_pad_map := assignPad s.m_pad_map pid })

/-- A mapping without the slots of a player. -/
def clearMapping (mapping : PadMappingArray) (pid : PlayerId) : PadMappingArray :=
  fun slot => if isMappedTo (mapping slot) pid then nobody else mapping slot

/-- `OnDisconnect`, which ends the game when the player has a pad in it. -/
def onDisconnect (s : Server) (pid : PlayerId) : Server where
  m_players := s.m_players.erase pid
  m_is_running := s.m_is_running &&
    ¬ (List.finRange 4).any fun slot => isMappedTo (s.m_pad_map slot) pid ∧ pid ≠ 1
  m_pad_map := clearMapping s.m_pad_map pid
  m_wiimote_map := clearMapping s.m_wiimote_map pid

/-- What `OnData` returns for the data of a pad or a Wiimote, and whether it relays them. -/
def onPadData (m_current_game : BitVec 32) (mapping : PadMappingArray) (player : Client)
    (map : Fin 4) : Nat × Bool :=
  if player.current_game ≠ m_current_game then (0, false)
  else if ¬ isMappedTo (mapping map) player.pid then (1, false)
  else (0, true)

/-! ## runs -/

inductive ServerAction
  | onConnect (sameVersion : Bool)
  | onDisconnect (pid : PlayerId)
  | setPadMapping (mappings : PadMappingArray)
  | setWiimoteMapping (mappings : PadMappingArray)
  | startGame
  | stopGame

/-- A mapping names connected players or nobody. -/
def NamesConnected (s : Server) (mappings : PadMappingArray) : Prop :=
  ∀ slot, mappings slot = nobody ∨ mappings slot ∈ s.m_players.keys

instance (s : Server) (mappings : PadMappingArray) : Decidable (NamesConnected s mappings) :=
  inferInstanceAs (Decidable (∀ _, _))

/-- A call, which is made for connected players only. -/
def serverStep (s : Server) : ServerAction → Option Server
  | .onConnect sameVersion => some (onConnect s sameVersion).2
  | .onDisconnect pid => if pid ∈ s.m_players.keys then some (onDisconnect s pid) else none
  | .setPadMapping mappings =>
    if NamesConnected s mappings then some { s with m_pad_map := mappings } else none
  | .setWiimoteMapping mappings =>
    if NamesConnected s mappings then some { s with m_wiimote_map := mappings } else none
  | .startGame => some { s with m_is_running := true }
  | .stopGame => some { s with m_is_running := false }

/-! ## whose a slot is -/

/-- The player's id is in the slot. -/
def Holds (mapping : PadMappingArray) (pid : PlayerId) (slot : Fin 4) : Prop :=
  mapping slot = pid ∧ mapping slot ≠ nobody

/-- At the player's client, its pads and the slots that hold its id correspond. -/
def PadsCorrespond (mapping : PadMappingArray) (pid : PlayerId) : Prop :=
  (∀ local_pad < numLocalPads (ownSlots mapping pid), ∃ slot, Holds mapping pid slot ∧
    localPadToInGamePad (ownSlots mapping pid) local_pad = slot ∧
    inGamePadToLocalPad (ownSlots mapping pid) slot = local_pad) ∧
  ∀ slot, Holds mapping pid slot →
    inGamePadToLocalPad (ownSlots mapping pid) slot < numLocalPads (ownSlots mapping pid) ∧
    localPadToInGamePad (ownSlots mapping pid) (inGamePadToLocalPad (ownSlots mapping pid) slot) = slot

/-- The data of a player for a slot with its id are relayed in the running game, and never take it
for another. -/
def Recognised (mapping : PadMappingArray) (pid : PlayerId) : Prop :=
  ∀ slot, Holds mapping pid slot → ∀ m_current_game current_game,
    (onPadData m_current_game mapping ⟨pid, current_game⟩ slot).1 = 0 ∧
      (current_game = m_current_game →
        (onPadData m_current_game mapping ⟨pid, current_game⟩ slot).2 = true)

/-- The ids of the players are good, and the mappings mean the same everywhere. -/
structure MappingsSound (s : Server) : Prop where
  distinct : (s.m_players.values.map Client.pid).Nodup
  nonzero : ∀ player ∈ s.m_players.values, player.pid ≠ 0
  padConnected : NamesConnected s s.m_pad_map
  wiimoteConnected : NamesConnected s s.m_wiimote_map
  padRecognised : ∀ pid ∈ s.m_players.keys, Recognised s.m_pad_map pid
  wiimoteRecognised : ∀ pid ∈ s.m_players.keys, Recognised s.m_wiimote_map pid
  pads : ∀ pid ∈ s.m_players.keys, PadsCorrespond s.m_pad_map pid

/-! ## the first available id -/

/-- How often an id can still be counted up before it is zero. -/
def idsLeft (pid : PlayerId) : Nat := (256 - pid.toNat) % 256

variable {pid : PlayerId} {pids : List PlayerId} {m : OrdMap PlayerId Client}
  {mapping : PadMappingArray} {slot : Fin 4} {s : Server} {k : Nat}

theorem idsLeft_add_one (h : pid ≠ 0) : idsLeft pid = idsLeft (pid + 1) + 1 := by
  have hpos : pid.toNat ≠ 0 := fun h0 => h (BitVec.eq_of_toNat_eq h0)
  rw [idsLeft, idsLeft, BitVec.toNat_add]
  change _ = (256 - (pid.toNat + 1) % 256) % 256 + 1
  omega

/-- The ids below one are taken, and all of them are when it is zero. -/
def TakenBelow (pids : List PlayerId) (pid : PlayerId) : Prop :=
  ∀ q : PlayerId, q ≠ 0 → q.toNat < pid.toNat ∨ pid = 0 → q ∈ pids

theorem TakenBelow.add_one (h : TakenBelow pids pid) (hmem : pid ∈ pids) :
    TakenBelow pids (pid + 1) := by
  intro q hq hlt
  by_cases heq : q = pid
  · exact heq ▸ hmem
  · refine h q hq (.inl ?_)
    have hneq : q.toNat ≠ pid.toNat := fun h' => heq (BitVec.eq_of_toNat_eq h')
    have hsum : (pid + 1).toNat = (pid.toNat + 1) % 256 := by
      rfl
    rcases hlt with hlt | hzero
    · omega
    · have hzero : (pid + 1).toNat = 0 := congrArg BitVec.toNat hzero
      omega

theorem TakenBelow.head_ne (h : TakenBelow pids (pid + 1)) (hsorted : pids.Pairwise (· < ·))
    (hnonzero : 0 ∉ pids) (hpid : pid ≠ 0) :
    pids[0]? ≠ some (pid + 1) := by
  intro hget
  have hmem : pid + 1 ∈ pids := List.mem_of_getElem? hget
  have hpos : pid.toNat ≠ 0 := fun h0 => hpid (BitVec.eq_of_toNat_eq h0)
  have hsum : (pid + 1).toNat = (pid.toNat + 1) % 256 := by
    rfl
  have hne : (pid + 1).toNat ≠ 0 := fun h0 => by
    have hzero : pid + 1 = 0 := BitVec.eq_of_toNat_eq h0
    exact hnonzero (hzero ▸ hmem)
  have hone : (1 : PlayerId) ∈ pids := by
    refine h 1 (by decide) (.inl ?_)
    change 1 < _
    omega
  cases pids with
  | nil => exact absurd hget nofun
  | cons x rest =>
    obtain rfl : x = pid + 1 := Option.some.inj hget
    rcases List.mem_cons.mp hone with heq | hrest
    · have hval : 1 = (pid + 1).toNat := congrArg BitVec.toNat heq
      omega
    · have hlow := BitVec.lt_def.mp ((List.pairwise_cons.mp hsorted).1 1 hrest)
      change _ < 1 at hlow
      omega

/-- **The loop ends at the first available id.**  The id at the head is skipped after a match, but
it is the smallest one and has been passed. -/
theorem availableLoop_spec (hsorted : pids.Pairwise (· < ·)) (hnonzero : 0 ∉ pids) :
    (fuel i : Nat) → (pid : PlayerId) →
    idsLeft pid * (pids.length + 1) + (pids.length - i) < fuel → TakenBelow pids pid →
    (∀ j < i, pids[j]? ≠ some pid) →
    availableLoop pids fuel i pid ∉ pids ∧ TakenBelow pids (availableLoop pids fuel i pid)
  | 0, _, _, hfuel, _, _ => absurd hfuel (Nat.not_lt_zero _)
  | fuel + 1, i, pid, hfuel, hbelow, hpassed => by
    rw [availableLoop]
    split
    · next hend =>
      refine ⟨fun hmem => ?_, hbelow⟩
      obtain ⟨j, hj, hget⟩ := List.getElem_of_mem hmem
      have hle : pids.length ≤ i := List.getElem?_eq_none_iff.mp hend
      exact hpassed j (Nat.lt_of_lt_of_le hj hle) (by rw [List.getElem?_eq_getElem hj, hget])
    · next q hq =>
      have hmem : q ∈ pids := List.mem_of_getElem? hq
      have hi : i < pids.length := (List.getElem?_eq_some_iff.mp hq).1
      by_cases heq : q = pid
      · subst heq
        have hne : q ≠ 0 := fun h0 => hnonzero (h0 ▸ hmem)
        have hbelow' := hbelow.add_one hmem
        rw [if_pos rfl]
        refine availableLoop_spec hsorted hnonzero fuel 1 (q + 1) ?_ hbelow' ?_
        · rw [idsLeft_add_one hne, Nat.succ_mul] at hfuel
          omega
        · intro j hj hget
          obtain rfl : j = 0 := by omega
          exact hbelow'.head_ne hsorted hnonzero hne hget
      · rw [if_neg heq]
        refine availableLoop_spec hsorted hnonzero fuel (i + 1) pid (by omega) hbelow ?_
        intro j hj hget
        rcases Nat.lt_succ_iff_lt_or_eq.mp hj with hlt | rfl
        · exact hpassed j hlt hget
        · exact heq (Option.some.inj (hq.symm.trans hget))

/-! ## what holds between the calls -/

/-- The players are kept under their ids, and the slots hold low ids of connected players. -/
structure LowMappings (s : Server) : Prop where
  keyed : ∀ pid client, s.m_players.find pid = some client → client.pid = pid
  nonzero : 0 ∉ s.m_players.keys
  pad : ∀ slot, s.m_pad_map slot = nobody ∨
    s.m_pad_map slot ∈ s.m_players.keys ∧ (s.m_pad_map slot).toNat < 128
  wiimote : ∀ slot, s.m_wiimote_map slot = nobody ∨
    s.m_wiimote_map slot ∈ s.m_players.keys ∧ (s.m_wiimote_map slot).toNat < 128

theorem availableId_spec (hkeyed : ∀ pid client, m.find pid = some client → client.pid = pid)
    (hnonzero : 0 ∉ m.keys) :
    availableId m ∉ m.keys ∧ TakenBelow m.keys.toList (availableId m) := by
  have hpids : m.values.map Client.pid = m.keys.toList := OrdMap.map_values hkeyed
  have hleft : idsLeft 1 = 255 := rfl
  have hspec := availableLoop_spec m.keys.sorted hnonzero (256 * (m.keys.toList.length + 1)) 0 1
    (by rw [hleft]; omega) (fun q hq hlt => ?_) (fun j hj => absurd hj (Nat.not_lt_zero j))
  · rw [availableId, hpids]
    exact hspec
  · refine absurd ?_ hq
    rcases hlt with hlt | hzero
    · exact BitVec.eq_of_toNat_eq (Nat.lt_one_iff.mp hlt)
    · exact absurd hzero (by decide)

theorem availableId_ne_zero (hkeyed : ∀ pid client, m.find pid = some client → client.pid = pid)
    (hnonzero : 0 ∉ m.keys) (hroom : m.keys.toList.length < 255) : availableId m ≠ 0 := by
  intro hzero
  have hbelow := (availableId_spec hkeyed hnonzero).2
  rw [hzero] at hbelow
  have hnodup : ((List.range 255).map fun k => BitVec.ofNat 8 (k + 1)).Nodup := by
    refine List.Nodup.map_on (fun a ha b hb heq => ?_) List.nodup_range
    rw [List.mem_range] at ha hb
    have hval := congrArg BitVec.toNat heq
    rw [BitVec.toNat_ofNat, BitVec.toNat_ofNat] at hval
    omega
  have hsub : ((List.range 255).map fun k => BitVec.ofNat 8 (k + 1)) ⊆ m.keys.toList := by
    intro q hq
    obtain ⟨k, hk, rfl⟩ := List.mem_map.mp hq
    rw [List.mem_range] at hk
    refine hbelow _ (fun h0 => ?_) (.inr rfl)
    have hval := congrArg BitVec.toNat h0
    change (k + 1) % 256 = 0 at hval
    omega
  have hle := (hnodup.subperm hsub).length_le
  rw [List.length_map, List.length_range] at hle
  omega

theorem availableId_lt (hkeyed : ∀ pid client, m.find pid = some client → client.pid = pid)
    (hnonzero : 0 ∉ m.keys) (hfree : pid ∉ m.keys) (hpid : pid ≠ 0) :
    (availableId m).toNat ≤ pid.toNat := by
  by_contra hlt
  exact hfree ((availableId_spec hkeyed hnonzero).2 pid hpid (.inl (Nat.lt_of_not_le hlt)))

theorem assignPad_apply (m_pad_map : PadMappingArray) (pid : PlayerId) (slot : Fin 4) :
    assignPad m_pad_map pid slot = m_pad_map slot ∨
      assignPad m_pad_map pid slot = pid ∧ m_pad_map slot = nobody := by
  unfold assignPad
  cases hfind : (List.finRange 4).find? fun slot => m_pad_map slot = nobody with
  | none => exact .inl rfl
  | some free =>
    have hnobody := of_decide_eq_true
      (List.find?_some (p := fun slot => m_pad_map slot = nobody) hfind)
    by_cases heq : slot = free
    · subst heq
      exact .inr ⟨Function.update_self .., hnobody⟩
    · exact .inl (Function.update_of_ne heq ..)

theorem clearMapping_apply (pid : PlayerId)
    (h : mapping slot = nobody ∨ (mapping slot).toNat < 128) :
    clearMapping mapping pid slot = nobody ∨
      clearMapping mapping pid slot = mapping slot ∧ mapping slot ≠ pid := by
  rw [clearMapping]
  by_cases hmapped : isMappedTo (mapping slot) pid = true
  · exact .inl (if_pos hmapped)
  · rw [if_neg hmapped]
    rcases h with hnobody | hlow
    · exact .inl hnobody
    · exact .inr ⟨rfl, fun heq => hmapped (isMappedTo_iff.mpr ⟨heq, heq ▸ hlow⟩)⟩

/-- A step that puts no id of 128 or more into a slot. -/
def StoresLowIds (s : Server) : ServerAction → Prop
  | .onConnect sameVersion =>
    sameVersion = true → s.m_is_running = false → s.m_players.keys.toList.length < 255 →
      (∃ slot, s.m_pad_map slot = nobody) →
      ∃ pid, pid ∉ s.m_players.keys ∧ pid ≠ 0 ∧ pid.toNat < 128
  | .setPadMapping mappings => ∀ slot, mappings slot = nobody ∨ (mappings slot).toNat < 128
  | .setWiimoteMapping mappings => ∀ slot, mappings slot = nobody ∨ (mappings slot).toNat < 128
  | _ => True

theorem LowMappings.onConnect {sameVersion : Bool} (h : LowMappings s)
    (hlow : StoresLowIds s (.onConnect sameVersion)) :
    LowMappings (onConnect s sameVersion).2 := by
  rw [NetPlay.onConnect]
  by_cases hversion : sameVersion = true
  · by_cases hrunning : s.m_is_running = true
    · simpa [hversion, hrunning] using h
    · by_cases hfull : s.m_players.keys.toList.length ≥ 255
      · simpa [hversion, hrunning, hfull] using h
      · have hroom := Nat.lt_of_not_le hfull
        have hrunning := Bool.eq_false_iff.mpr hrunning
        have hnew := (availableId_spec h.keyed h.nonzero).1
        simp only [hversion, hrunning, hfull, not_true_eq_false, Bool.false_eq_true, if_false]
        have hnone : s.m_players.find (availableId s.m_players) = none :=
          Option.not_isSome_iff_eq_none.mp fun hsome => hnew ((OrdMap.mem_keys _ _).mpr hsome)
        refine ⟨fun pid client hfind => ?_, ?_, fun slot => ?_, fun slot => ?_⟩
        · simp only [OrdMap.find_emplace] at hfind
          split at hfind
          · next heq =>
            rw [hnone] at hfind
            cases hfind
            exact heq.symm
          · exact h.keyed pid client hfind
        · rw [OrdMap.mem_keys_emplace, not_or]
          exact ⟨Ne.symm (availableId_ne_zero h.keyed h.nonzero hroom), h.nonzero⟩
        · simp only [OrdMap.mem_keys_emplace]
          rcases assignPad_apply s.m_pad_map (availableId s.m_players) slot with hsame | ⟨hnew', hfree⟩
          · rw [hsame]
            exact (h.pad slot).imp_right fun ⟨hmem, hlt⟩ => ⟨.inr hmem, hlt⟩
          · obtain ⟨pid, hpid, hpid0, hlt⟩ := hlow hversion hrunning hroom ⟨slot, hfree⟩
            rw [hnew']
            exact .inr ⟨.inl rfl,
              Nat.lt_of_le_of_lt (availableId_lt h.keyed h.nonzero hpid hpid0) hlt⟩
        · rw [OrdMap.mem_keys_emplace]
          exact (h.wiimote slot).imp_right fun ⟨hmem, hlt⟩ => ⟨.inr hmem, hlt⟩
  · simpa [hversion] using h

theorem lowSlot_clearMapping {keys : OrdSet PlayerId}
    (h : mapping slot = nobody ∨ mapping slot ∈ keys ∧ (mapping slot).toNat < 128) :
    clearMapping mapping pid slot = nobody ∨
      clearMapping mapping pid slot ∈ keys.erase pid ∧ (clearMapping mapping pid slot).toNat < 128 := by
  rcases clearMapping_apply pid (h.imp_right And.right) with hclear | ⟨hsame, hne⟩
  · exact .inl hclear
  · rw [hsame, OrdSet.mem_erase]
    exact h.imp_right fun ⟨hmem, hlt⟩ => ⟨⟨hmem, hne⟩, hlt⟩

theorem LowMappings.onDisconnect (h : LowMappings s) (pid : PlayerId) :
    LowMappings (onDisconnect s pid) where
  keyed q client hfind := by
    simp only [NetPlay.onDisconnect, OrdMap.find_erase] at hfind
    split at hfind
    · cases hfind
    · exact h.keyed q client hfind
  nonzero hmem := h.nonzero (OrdMap.mem_keys_erase.mp hmem).1
  pad slot := lowSlot_clearMapping (h.pad slot)
  wiimote slot := lowSlot_clearMapping (h.wiimote slot)

/-- **One call.** -/
theorem LowMappings.step {s t : Server} {a : ServerAction} (h : LowMappings s)
    (hlow : StoresLowIds s a) (hstep : serverStep s a = some t) : LowMappings t := by
  have hmapping {mappings : PadMappingArray} (hnames : NamesConnected s mappings)
      (hlow : ∀ slot, mappings slot = nobody ∨ (mappings slot).toNat < 128) (slot : Fin 4) :
      mappings slot = nobody ∨ mappings slot ∈ s.m_players.keys ∧ (mappings slot).toNat < 128 := by
    rcases hnames slot with hnobody | hmem
    · exact .inl hnobody
    · exact (hlow slot).imp_right fun hlt => ⟨hmem, hlt⟩
  cases a with
  | onConnect sameVersion =>
    cases hstep
    exact h.onConnect hlow
  | onDisconnect pid =>
    simp only [serverStep, Option.ite_none_right_eq_some, Option.some.injEq] at hstep
    obtain ⟨_, rfl⟩ := hstep
    exact h.onDisconnect pid
  | setPadMapping mappings =>
    simp only [serverStep, Option.ite_none_right_eq_some, Option.some.injEq] at hstep
    obtain ⟨hnames, rfl⟩ := hstep
    exact ⟨h.keyed, h.nonzero, hmapping hnames hlow, h.wiimote⟩
  | setWiimoteMapping mappings =>
    simp only [serverStep, Option.ite_none_right_eq_some, Option.some.injEq] at hstep
    obtain ⟨hnames, rfl⟩ := hstep
    exact ⟨h.keyed, h.nonzero, h.pad, hmapping hnames hlow⟩
  | startGame =>
    cases hstep
    exact ⟨h.keyed, h.nonzero, h.pad, h.wiimote⟩
  | stopGame =>
    cases hstep
    exact ⟨h.keyed, h.nonzero, h.pad, h.wiimote⟩

theorem LowMappings.init : LowMappings .init where
  keyed _ _ hfind := absurd hfind nofun
  nonzero := OrdSet.not_mem_empty 0
  pad _ := .inl rfl
  wiimote _ := .inl rfl

/-! ## the mappings mean the same everywhere -/

theorem onPadData_of_mapped (h : isMappedTo (mapping slot) pid = true)
    (m_current_game current_game : BitVec 32) :
    (onPadData m_current_game mapping ⟨pid, current_game⟩ slot).1 = 0 ∧
      (current_game = m_current_game →
        (onPadData m_current_game mapping ⟨pid, current_game⟩ slot).2 = true) := by
  by_cases hgame : current_game = m_current_game
  · simp [onPadData, hgame, h]
  · simp [onPadData, hgame]

theorem ownSlots_iff (hlow : ∀ slot, mapping slot = nobody ∨ (mapping slot).toNat < 128)
    (slot : Fin 4) :
    ownSlots mapping pid slot = true ↔ Holds mapping pid slot := by
  rw [ownSlots, isMappedTo_iff, Holds]
  constructor
  · rintro ⟨rfl, hlt⟩
    refine ⟨rfl, fun hnobody => ?_⟩
    rw [hnobody] at hlt
    exact absurd hlt (by decide)
  · rintro ⟨rfl, hne⟩
    exact ⟨rfl, (hlow slot).resolve_left hne⟩

theorem recognised_of_low (hlow : ∀ slot, mapping slot = nobody ∨ (mapping slot).toNat < 128)
    (pid : PlayerId) :
    Recognised mapping pid := fun slot hholds =>
  onPadData_of_mapped ((ownSlots_iff hlow slot).mpr hholds)

theorem padsCorrespond_of_low (hlow : ∀ slot, mapping slot = nobody ∨ (mapping slot).toNat < 128)
    (pid : PlayerId) :
    PadsCorrespond mapping pid := by
  refine ⟨fun local_pad hlt => ?_, fun slot hholds => ?_⟩
  · obtain ⟨slot, hto, hown, hback⟩ := localPadToInGamePad_spec _ hlt
    exact ⟨slot, (ownSlots_iff hlow slot).mp hown, hto, hback⟩
  · exact inGamePadToLocalPad_spec _ slot ((ownSlots_iff hlow slot).mpr hholds)

theorem LowMappings.sound (h : LowMappings s) : MappingsSound s := by
  have hpids : s.m_players.values.map Client.pid = s.m_players.keys.toList :=
    OrdMap.map_values h.keyed
  have hpad slot := (h.pad slot).imp_right And.right
  have hwiimote slot := (h.wiimote slot).imp_right And.right
  refine ⟨?_, fun player hmem h0 => ?_, fun slot => (h.pad slot).imp_right And.left,
    fun slot => (h.wiimote slot).imp_right And.left, fun pid _ => recognised_of_low hpad pid,
    fun pid _ => recognised_of_low hwiimote pid, fun pid _ => padsCorrespond_of_low hpad pid⟩
  · rw [hpids]
    exact s.m_players.keys.nodup
  · have hkey : player.pid ∈ s.m_players.values.map Client.pid := List.mem_map_of_mem hmem
    rw [hpids, h0] at hkey
    exact h.nonzero hkey

/-- Players with the ids from 1 to `k` are connected, and no game is running. -/
structure ConnectedUpTo (k : Nat) (s : Server) : Prop where
  keyed : ∀ pid client, s.m_players.find pid = some client → client.pid = pid
  running : s.m_is_running = false
  mem : ∀ q, q ∈ s.m_players.keys ↔ q ≠ 0 ∧ q.toNat ≤ k

theorem ConnectedUpTo.nonzero (h : ConnectedUpTo k s) :
    0 ∉ s.m_players.keys := fun hmem => ((h.mem 0).mp hmem).1 rfl

theorem ConnectedUpTo.length_le (h : ConnectedUpTo k s) : s.m_players.keys.toList.length ≤ k := by
  have hnodup : (0 :: s.m_players.keys.toList.map BitVec.toNat).Nodup := by
    refine List.nodup_cons.mpr ⟨fun hmem => ?_, s.m_players.keys.nodup.map fun _ _ => BitVec.eq_of_toNat_eq⟩
    obtain ⟨q, hq, h0⟩ := List.mem_map.mp hmem
    exact ((h.mem q).mp hq).1 (BitVec.eq_of_toNat_eq h0)
  have hsub : (0 :: s.m_players.keys.toList.map BitVec.toNat) ⊆ List.range (k + 1) := by
    intro n hn
    rw [List.mem_range]
    rcases List.mem_cons.mp hn with rfl | hn
    · omega
    · obtain ⟨q, hq, rfl⟩ := List.mem_map.mp hn
      have hle := ((h.mem q).mp hq).2
      omega
  have hle := (hnodup.subperm hsub).length_le
  rw [List.length_cons, List.length_map, List.length_range] at hle
  omega

theorem ConnectedUpTo.toNat_availableId (h : ConnectedUpTo k s) (hk : k < 255) :
    (availableId s.m_players).toNat = k + 1 := by
  have hroom := Nat.lt_of_le_of_lt h.length_le hk
  have hne := availableId_ne_zero h.keyed h.nonzero hroom
  obtain ⟨hnew, hbelow⟩ := availableId_spec h.keyed h.nonzero
  have hlow : ¬ (availableId s.m_players).toNat ≤ k := fun hle => hnew ((h.mem _).mpr ⟨hne, hle⟩)
  have hval : (BitVec.ofNat 8 (k + 1)).toNat = k + 1 := by
    rw [BitVec.toNat_ofNat]
    omega
  by_contra hne'
  have hmem : BitVec.ofNat 8 (k + 1) ∈ s.m_players.keys := by
    refine hbelow _ (fun h0 => ?_) (.inl (by omega))
    rw [h0] at hval
    exact absurd hval nofun
  have hle := ((h.mem _).mp hmem).2
  omega

theorem ConnectedUpTo.onConnect (h : ConnectedUpTo k s) (hk : k < 255) :
    ConnectedUpTo (k + 1) (onConnect s true).2 := by
  have hval := h.toNat_availableId hk
  have hfull : ¬ s.m_players.keys.toList.length ≥ 255 := by
    have hle := h.length_le
    omega
  have hnew := (availableId_spec h.keyed h.nonzero).1
  have hnone : s.m_players.find (availableId s.m_players) = none :=
    Option.not_isSome_iff_eq_none.mp fun hsome => hnew ((OrdMap.mem_keys _ _).mpr hsome)
  simp only [NetPlay.onConnect, h.running, hfull, not_true_eq_false, Bool.false_eq_true, if_false]
  refine ⟨fun pid client hfind => ?_, rfl, fun q => ?_⟩
  · simp only [OrdMap.find_emplace] at hfind
    split at hfind
    · next heq =>
      rw [hnone] at hfind
      cases hfind
      exact heq.symm
    · exact h.keyed pid client hfind
  · rw [OrdMap.mem_keys_emplace, h.mem, BitVec.toNat_eq, hval]
    have h0 : q ≠ 0 ↔ q.toNat ≠ 0 := not_congr (BitVec.toNat_eq (y := 0))
    rw [h0]
    omega

theorem ConnectedUpTo.exec (rest : List ServerAction) : (n : Nat) → {k : Nat} → {s : Server} →
    ConnectedUpTo k s → k + n ≤ 255 → ∃ t, ConnectedUpTo (k + n) t ∧
      Run.exec serverStep s (List.replicate n (.onConnect true) ++ rest) =
        Run.exec serverStep t rest
  | 0, _, s, h, _ => ⟨s, h, rfl⟩
  | n + 1, k, s, h, hle => by
    obtain ⟨t, ht, hexec⟩ := ConnectedUpTo.exec rest n (h.onConnect (by omega)) (by omega)
    refine ⟨t, ?_, ?_⟩
    · rwa [show k + (n + 1) = k + 1 + n by omega]
    · exact hexec

/-- A hundred and twenty-eight players, of which the last one is given a pad. -/
def crowd : List ServerAction :=
  List.replicate 128 (.onConnect true) ++ [.setPadMapping (Function.update (fun _ => nobody) 0 128)]

end DolphinCore.NetPlay
