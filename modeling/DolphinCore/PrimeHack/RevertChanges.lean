import DolphinCore.PrimeHack.ModGroups

/-!
# DolphinCore.PrimeHack.RevertChanges

Reverting all code changes gives the memory that the game has without mods, and after
`restore_mod_states` the next frame does what it would have done without the revert.
-/

namespace DolphinCore.PrimeHack

/-! ## the addresses of a mod -/

variable {m : PrimeMod} {addr : BitVec 32} {ms : List PrimeMod} {game : Memory} {f : Frame}

namespace PrimeMod

/-- The addresses that a mod changes. -/
def changedAddresses (m : PrimeMod) : List (BitVec 32) := m.code_changes.map CodeChange.address

/-- The addresses whose words are saved. -/
def savedAddresses (m : PrimeMod) : List (BitVec 32) := m.original_instructions.map CodeChange.address

theorem Parallel.addresses_of_saved (h : m.Parallel) (haddr : addr ∈ m.savedAddresses) :
    addr ∈ m.changedAddresses := by
  rw [changedAddresses, ← h.addresses]
  exact List.mem_append_left _ haddr

theorem Parallel.pending_eq (h : m.Parallel) (hnil : m.original_instructions = []) :
    m.pending_change_backups = m.changedAddresses := by
  have haddr := h.addresses
  rwa [hnil] at haddr

theorem Parallel.changesToApply_of_saved (h : m.Parallel) (hsaved : m.pending_change_backups = []) :
    m.getChangesToApply.map CodeChange.address = m.changedAddresses := by
  have haddr := h.addresses
  rw [hsaved, List.append_nil] at haddr
  rw [getChangesToApply]
  split
  · exact haddr
  · exact h.active

/-- The saved words of a mod are those of the memory `game`. -/
def SavesWords (m : PrimeMod) (game : Memory) : Prop :=
  ∀ original ∈ m.original_instructions, original.var = game original.address

theorem writeChanges_of_saved {changes : List CodeChange} {game mem : Memory}
    (h : ∀ change ∈ changes, change.var = game change.address) (addr : BitVec 32) :
    writeChanges changes mem addr =
      if addr ∈ changes.map CodeChange.address then game addr else mem addr := by
  induction changes generalizing mem with
  | nil => rfl
  | cons first changes ih =>
    have hrest := @ih (Function.update mem first.address first.var) fun change hchange =>
      h change (List.mem_cons_of_mem _ hchange)
    rw [writeChanges, List.foldl_cons, ← writeChanges, hrest, List.map_cons]
    by_cases hmem : addr ∈ changes.map CodeChange.address
    · rw [if_pos hmem, if_pos (List.mem_cons_of_mem _ hmem)]
    · rw [if_neg hmem]
      by_cases heq : addr = first.address
      · rw [heq, Function.update_self, if_pos (List.mem_cons_self ..)]
        exact h first (List.mem_cons_self ..)
      · rw [Function.update_of_ne heq, if_neg]
        rw [List.mem_cons, not_or]
        exact ⟨heq, hmem⟩

end PrimeMod

/-! ## one mod -/

theorem original_initMod (m : PrimeMod) (input : ModInput) :
    (initMod m input).original_instructions = m.original_instructions := by
  have hadd : (inits : List AddedChange) → (m : PrimeMod) →
      (inits.foldl PrimeMod.addCodeChange m).original_instructions = m.original_instructions := by
    intro inits
    induction inits with
    | nil => exact fun _ => rfl
    | cons a inits ih => exact fun m => ih (m.addCodeChange a)
  rw [initMod]
  split
  · rfl
  · split
    · exact hadd _ m
    · exact hadd _ m

/-- The words at the addresses of no mod, and at those that the mods have not saved, are the game's. -/
def AgreesOutside (mem game : Memory) (saved : BitVec 32 → Prop) : Prop :=
  ∀ addr, ¬ saved addr → mem addr = game addr

theorem flushMod_words (h : ModOk m) {mem game : Memory} (others : BitVec 32 → Prop)
    (hothers : ∀ addr ∈ m.changedAddresses, ¬ others addr) (hwords : m.SavesWords game)
    (hmem : AgreesOutside mem game fun addr => addr ∈ m.savedAddresses ∨ others addr) :
    (flushMod m mem).1.SavesWords game ∧ AgreesOutside (flushMod m mem).2 game fun addr =>
        addr ∈ (flushMod m mem).1.savedAddresses ∨ others addr := by
  rw [flushMod]
  by_cases happly : m.shouldApplyChanges mem = true
  · rw [if_pos happly]
    refine ⟨fun original horiginal => ?_, fun addr hnot => ?_⟩
    · simp only [PrimeMod.updateOriginalInstructions, List.mem_append, List.mem_map] at horiginal
      rcases horiginal with hold | ⟨addr, hpending, rfl⟩
      · exact hwords original hold
      · -- nothing is saved yet, so the word is still the game's
        have hnil : m.original_instructions = [] :=
          h.parallel.saved.resolve_right (List.ne_nil_of_mem hpending)
        have haddr : addr ∈ m.changedAddresses := h.parallel.pending_eq hnil ▸ hpending
        refine hmem addr ?_
        rw [PrimeMod.savedAddresses, hnil, not_or]
        exact ⟨List.not_mem_nil, hothers addr haddr⟩
    · rw [not_or] at hnot
      have hall := (h.parallel.updateOriginalInstructions mem).changesToApply_of_saved rfl
      have hsaved : (m.updateOriginalInstructions mem).savedAddresses = m.changedAddresses := by
        have haddr := (h.parallel.updateOriginalInstructions mem).addresses
        rwa [PrimeMod.updateOriginalInstructions, List.append_nil] at haddr
      refine (PrimeMod.writeChanges_of_not_mem ?_).trans ?_
      · rw [hall]
        exact fun haddr => hnot.1 (hsaved ▸ haddr)
      · refine hmem addr (not_or.mpr ⟨fun hold => hnot.1 ?_, hnot.2⟩)
        rw [hsaved]
        exact h.parallel.addresses_of_saved hold
  · rw [if_neg happly]
    exact ⟨hwords, hmem⟩

theorem flushMod_of_saved (hsaved : m.pending_change_backups = []) (mem : Memory) :
    flushMod m mem = (m, m.applyInstructionChanges mem) := by
  have hupdate : m.updateOriginalInstructions mem = m := by
    rw [PrimeMod.updateOriginalInstructions, hsaved, List.map_nil, List.append_nil, ← hsaved]
  rw [flushMod]
  by_cases happly : m.shouldApplyChanges mem = true
  · rw [if_pos happly]
    simp only [hupdate]
  · have hfound := PrimeMod.shouldApplyChanges_eq_false.mp (Bool.eq_false_iff.mpr happly)
    rw [if_neg happly, PrimeMod.applyInstructionChanges, PrimeMod.writeChanges_eq_self hfound]

theorem flushMod_congr (h : ModOk m) {mem mem' : Memory} {others : BitVec 32 → Prop}
    (hothers : ∀ addr ∈ m.changedAddresses, ¬ others addr)
    (hmem : AgreesOutside mem mem' fun addr => addr ∈ m.savedAddresses ∨ others addr) :
    (flushMod m mem).1 = (flushMod m mem').1 ∧
      AgreesOutside (flushMod m mem).2 (flushMod m mem').2 others := by
  rcases h.parallel.saved with hnil | hsaved
  · have hagree : AgreesOutside mem mem' others := by
      intro addr hnot
      refine hmem addr ?_
      rw [PrimeMod.savedAddresses, hnil, not_or]
      exact ⟨List.not_mem_nil, hnot⟩
    have hown : ∀ addr ∈ m.changedAddresses, mem addr = mem' addr :=
      fun addr haddr => hagree addr (hothers addr haddr)
    have happly : m.shouldApplyChanges mem = false ↔ m.shouldApplyChanges mem' = false := by
      rw [PrimeMod.shouldApplyChanges_eq_false, PrimeMod.shouldApplyChanges_eq_false]
      refine forall₂_congr fun change hchange => ?_
      rw [hown _ (h.parallel.address_mem hchange)]
    have hupdate : m.updateOriginalInstructions mem = m.updateOriginalInstructions mem' := by
      rw [PrimeMod.updateOriginalInstructions, PrimeMod.updateOriginalInstructions]
      congr 2
      refine List.map_congr_left fun addr haddr => ?_
      rw [hown addr (h.parallel.pending_eq hnil ▸ haddr)]
    rw [flushMod, flushMod]
    by_cases hfalse : m.shouldApplyChanges mem = false
    · simp only [hfalse, happly.mp hfalse]
      exact ⟨rfl, hagree⟩
    · have htrue := Bool.eq_true_of_not_eq_false hfalse
      have htrue' := Bool.eq_true_of_not_eq_false (mt happly.mpr hfalse)
      simp only [htrue, htrue', if_true, hupdate]
      refine ⟨trivial, fun addr hnot => ?_⟩
      exact PrimeMod.writeChanges_congr fun _ => hagree addr hnot
  · rw [flushMod_of_saved hsaved, flushMod_of_saved hsaved]
    refine ⟨rfl, fun addr hnot => PrimeMod.writeChanges_congr fun hother => ?_⟩
    rw [h.parallel.changesToApply_of_saved hsaved] at hother
    exact hmem addr (not_or.mpr ⟨fun hold => hother (h.parallel.addresses_of_saved hold), hnot⟩)

/-! ## the loops -/

/-- `init_mod` of all mods from the `i`-th on. -/
def initMods (f : Frame) : Nat → List PrimeMod → List PrimeMod
  | _, [] => []
  | i, m :: ms => initMod m (f.mods i) :: initMods f (i + 1) ms

/-- The turns of the mods one after another. -/
def flushMods : List PrimeMod → Memory → List PrimeMod × Memory
  | [], mem => ([], mem)
  | m :: ms, mem =>
    let flushed := flushMod m mem
    let rest := flushMods ms flushed.2
    (flushed.1 :: rest.1, rest.2)

theorem flushLoop_eq (f : Frame) : (i : Nat) → (ms : List PrimeMod) → (mem : Memory) →
    flushLoop f i ms mem = flushMods (initMods f i ms) mem
  | _, [], _ => rfl
  | i, m :: ms, mem => by rw [flushLoop, initMods, flushMods, flushLoop_eq f (i + 1) ms]

/-- The addresses at which some mod has saved the word. -/
def savedIn (ms : List PrimeMod) : List (BitVec 32) := ms.flatMap PrimeMod.savedAddresses

/-- No two mods patch a common address. -/
def ApartMods (ms : List PrimeMod) : Prop :=
  ms.Pairwise fun m m' => m.changedAddresses.Disjoint m'.changedAddresses

theorem savedIn_initMods (f : Frame) : (i : Nat) → (ms : List PrimeMod) →
    savedIn (initMods f i ms) = savedIn ms
  | _, [] => rfl
  | i, m :: ms => by
    have ih := savedIn_initMods f (i + 1) ms
    rw [savedIn] at ih
    rw [initMods, savedIn, List.flatMap_cons, ih, PrimeMod.savedAddresses, original_initMod]
    rfl

theorem AgreesOutside.mono {mem game : Memory} {saved saved' : BitVec 32 → Prop}
    (h : AgreesOutside mem game saved) (himp : ∀ addr, saved addr → saved' addr) :
    AgreesOutside mem game saved' :=
  fun addr hnot => h addr (mt (himp addr) hnot)

theorem not_savedIn_of_apart (hapart : ∀ m' ∈ ms, m.changedAddresses.Disjoint m'.changedAddresses)
    (hms : ∀ m' ∈ ms, ModOk m') (haddr : addr ∈ m.changedAddresses) :
    addr ∉ savedIn ms := by
  intro hsaved
  obtain ⟨m', hm', hmem⟩ := List.mem_flatMap.mp hsaved
  exact hapart m' hm' haddr ((hms m' hm').parallel.addresses_of_saved hmem)

theorem changedAddresses_flushMod (m : PrimeMod) (mem : Memory) :
    (flushMod m mem).1.changedAddresses = m.changedAddresses := by
  rw [PrimeMod.changedAddresses, code_changes_flushMod]
  rfl

/-- **The first loop** keeps the saved words to those of the game. -/
theorem flushMods_words : (ms : List PrimeMod) → (mem : Memory) → (others : BitVec 32 → Prop)
    → (∀ m ∈ ms, ModOk m ∧ m.SavesWords game) → ApartMods ms →
    (∀ m ∈ ms, ∀ addr ∈ m.changedAddresses, ¬ others addr) →
    AgreesOutside mem game (fun addr => addr ∈ savedIn ms ∨ others addr) →
    (∀ m ∈ (flushMods ms mem).1, ModOk m ∧ m.SavesWords game) ∧
      AgreesOutside (flushMods ms mem).2 game fun addr =>
        addr ∈ savedIn (flushMods ms mem).1 ∨ others addr
  | [], _, _, _, _, _, hmem => ⟨fun _ hm => absurd hm List.not_mem_nil, hmem⟩
  | m :: ms, mem, others, hms, hapart, hothers, hmem => by
    obtain ⟨hhead, htail⟩ := List.pairwise_cons.mp hapart
    have hm := hms m (List.mem_cons_self ..)
    have hrest : ∀ m' ∈ ms, ModOk m' ∧ m'.SavesWords game :=
      fun m' hm' => hms m' (List.mem_cons_of_mem _ hm')
    obtain ⟨hwords, hafter⟩ := flushMod_words hm.1 (fun addr => addr ∈ savedIn ms ∨ others addr)
      (fun addr haddr => not_or.mpr
        ⟨not_savedIn_of_apart hhead (fun m' hm' => (hrest m' hm').1) haddr,
          hothers m (List.mem_cons_self ..) addr haddr⟩) hm.2 <| by
        refine hmem.mono fun addr haddr => ?_
        rwa [savedIn, List.flatMap_cons, List.mem_append, or_assoc] at haddr
    have hok := hm.1.flushMod mem
    obtain ⟨hall, hend⟩ := flushMods_words ms (flushMod m mem).2
      (fun addr => addr ∈ (flushMod m mem).1.savedAddresses ∨ others addr) hrest htail
      (fun m' hm' addr haddr => not_or.mpr
        ⟨fun hsaved => hhead m' hm' (changedAddresses_flushMod m mem ▸
            hok.parallel.addresses_of_saved hsaved) haddr,
          hothers m' (List.mem_cons_of_mem _ hm') addr haddr⟩)
      (hafter.mono fun addr haddr => or_left_comm.mp haddr)
    rw [flushMods]
    refine ⟨fun m' hm' => ?_, hend.mono fun addr haddr => ?_⟩
    · rcases List.mem_cons.mp hm' with rfl | hm'
      · exact ⟨hok, hwords⟩
      · exact hall m' hm'
    · rw [savedIn, List.flatMap_cons, List.mem_append, or_assoc]
      exact or_left_comm.mp haddr

/-- **The first loop** forgets what the saved addresses held. -/
theorem flushMods_congr : (ms : List PrimeMod) → {mem mem' : Memory} → (∀ m ∈ ms, ModOk m) →
    ApartMods ms → AgreesOutside mem mem' (· ∈ savedIn ms) → flushMods ms mem = flushMods ms mem'
  | [], mem, mem', _, _, hmem => by
    have heq : mem = mem' := funext fun addr => hmem addr List.not_mem_nil
    rw [heq]
  | m :: ms, mem, mem', hms, hapart, hmem => by
    obtain ⟨hhead, htail⟩ := List.pairwise_cons.mp hapart
    have hrest : ∀ m' ∈ ms, ModOk m' := fun m' hm' => hms m' (List.mem_cons_of_mem _ hm')
    obtain ⟨hsame, hafter⟩ := flushMod_congr (hms m (List.mem_cons_self ..))
      (fun addr haddr => not_savedIn_of_apart hhead hrest haddr) <| by
        refine hmem.mono fun addr haddr => ?_
        rwa [savedIn, List.flatMap_cons, List.mem_append] at haddr
    rw [flushMods, flushMods, hsame, flushMods_congr ms hrest htail hafter]

theorem ModOk.of_setCodeGroupState {m m' : PrimeMod} (h : ModOk m) {g : String}
    {new_state : ModState} (hset : m.setCodeGroupState g new_state = some m') :
    ModOk m' ∧ m'.keptWords = m.keptWords := by
  by_cases hsaved : new_state ≠ .ENABLED → m.pending_change_backups = []
  · obtain ⟨m₁, hm₁, hok, hkept⟩ := h.setCodeGroupState (g := g) hsaved
    rw [hset, Option.some.injEq] at hm₁
    exact hm₁ ▸ ⟨hok, hkept⟩
  · rw [not_forall] at hsaved
    obtain ⟨hne, hpending⟩ := hsaved
    -- nothing is saved, so that only a group without indices can be copied
    have hnil := h.parallel.saved.resolve_right hpending
    unfold PrimeMod.setCodeGroupState at hset
    cases hg : m.code_groups g with
    | none =>
      rw [hg] at hset
      cases hset
      exact ⟨h, rfl⟩
    | some entry =>
      obtain ⟨idxs, old⟩ := entry
      rw [hg] at hset
      simp only [if_neg hne] at hset
      split at hset
      · cases hset
        exact ⟨h, rfl⟩
      · obtain ⟨current, hcopy, rfl⟩ := Option.map_eq_some_iff.mp hset
        cases idxs with
        | cons i idxs =>
          rw [hnil] at hcopy
          cases hcopy
        | nil =>
          cases hcopy
          refine ⟨⟨h.parallel.toggle hg h.parallel.active fun k change _ => ?_, fun hi => ?_⟩, rfl⟩
          · exact (if_neg List.not_mem_nil).symm
          · have hnone := (h.unused hi).groups g
            rw [hg] at hnone
            cases hnone

theorem ModOk.of_runCalls : (calls : List (String × ModState)) → {m m' : PrimeMod} → ModOk m →
    calls.foldlM (fun m call => m.setCodeGroupState call.1 call.2) m = some m' →
    ModOk m' ∧ m'.keptWords = m.keptWords
  | [], m, m', h, hrun => by
    cases hrun
    exact ⟨h, rfl⟩
  | call :: calls, m, m', h, hrun => by
    obtain ⟨m₁, hset, hrun⟩ := Option.bind_eq_some_iff.mp hrun
    obtain ⟨hm₁, hkept⟩ := h.of_setCodeGroupState hset
    obtain ⟨hm', hkept'⟩ := of_runCalls calls hm₁ hrun
    exact ⟨hm', hkept'.trans hkept⟩

theorem ModOk.of_runLoop : (i : Nat) → (ms : List PrimeMod) → {ms' : List PrimeMod} →
    (∀ m ∈ ms, ModOk m) → runLoop f i ms = some ms' → (∀ m ∈ ms', ModOk m)
    ∧ ms'.map PrimeMod.keptWords = ms.map PrimeMod.keptWords
  | _, [], ms', _, hrun => by
    cases hrun
    exact ⟨fun _ hm => absurd hm List.not_mem_nil, rfl⟩
  | i, m :: ms, ms', hms, hrun => by
    obtain ⟨m₁, hm₁run, hrun⟩ := Option.bind_eq_some_iff.mp hrun
    obtain ⟨ms₁, hms₁run, rfl⟩ := Option.map_eq_some_iff.mp hrun
    have hm := hms m (List.mem_cons_self ..)
    have hm₁ : ModOk m₁ ∧ m₁.keptWords = m.keptWords := by
      rw [runMod] at hm₁run
      split at hm₁run
      · exact hm.of_runCalls _ hm₁run
      · cases hm₁run
        exact ⟨hm, rfl⟩
    obtain ⟨hms₁, hkept⟩ := of_runLoop (i + 1) ms
      (fun m' hm' => hms m' (List.mem_cons_of_mem _ hm')) hms₁run
    refine ⟨fun m' hm' => ?_, ?_⟩
    · rcases List.mem_cons.mp hm' with rfl | hm'
      · exact hm₁.1
      · exact hms₁ m' hm'
    · rw [List.map_cons, List.map_cons, hm₁.2, hkept]

theorem savesWords_of_keptWords {ms ms' : List PrimeMod}
    (hkept : ms'.map PrimeMod.keptWords = ms.map PrimeMod.keptWords)
    (hms : ∀ m ∈ ms, m.SavesWords game) : (∀ m ∈ ms', m.SavesWords game)
    ∧ savedIn ms' = savedIn ms := by
  have horiginals : ms'.map PrimeMod.original_instructions = ms.map PrimeMod.original_instructions := by
    have hthird := congrArg (List.map fun kept => kept.2.2.1) hkept
    rwa [List.map_map, List.map_map] at hthird
  refine ⟨fun m' hm' => ?_, ?_⟩
  · have hmem := List.mem_map_of_mem (f := PrimeMod.original_instructions) hm'
    rw [horiginals] at hmem
    obtain ⟨m, hm, heq⟩ := List.mem_map.mp hmem
    rw [PrimeMod.SavesWords, ← heq]
    exact hms m hm
  · have hsaved := congrArg (List.flatMap fun changes : List CodeChange =>
      changes.map CodeChange.address) horiginals
    rwa [List.flatMap_map, List.flatMap_map] at hsaved

/-! ## the revert -/

/-- **`revert_all_code_changes`** brings back the words of the game. -/
theorem revertLoop_words : (ms : List PrimeMod) → {mem : Memory} →
    (∀ m ∈ ms, ModOk m ∧ m.SavesWords game) → AgreesOutside mem game (· ∈ savedIn ms) →
    (revertLoop ms mem).2 = game
  | [], mem, _, hmem => funext fun addr => hmem addr List.not_mem_nil
  | m :: ms, mem, hms, hmem => by
    have hm := hms m (List.mem_cons_self ..)
    refine revertLoop_words ms (fun m' hm' => hms m' (List.mem_cons_of_mem _ hm')) fun addr hnot => ?_
    by_cases hi : m.initialized = true
    · rw [if_pos hi, if_pos hi]
      have hwrite := @PrimeMod.writeChanges_of_saved _ _ mem hm.2 addr
      change PrimeMod.writeChanges m.original_instructions mem addr = game addr
      rw [hwrite]
      split
      · rfl
      · next hown =>
        refine hmem addr fun hsaved => ?_
        rw [savedIn, List.flatMap_cons, List.mem_append] at hsaved
        exact hsaved.elim hown hnot
    · rw [if_neg hi]
      refine hmem addr fun hsaved => ?_
      have hunused := hm.1.unused (Bool.eq_false_iff.mpr hi)
      rw [savedIn, List.flatMap_cons, PrimeMod.savedAddresses, hunused.original] at hsaved
      exact hnot hsaved

theorem revertLoop_mods : (ms : List PrimeMod) → (mem : Memory) →
    (revertLoop ms mem).1 = ms.map fun m => if m.initialized then m.setState .DISABLED else m
  | [], _ => rfl
  | m :: ms, mem => by rw [revertLoop, List.map_cons, revertLoop_mods ms]

theorem restore_revert_save (h : HackManager) (mem : Memory) :
    restoreModStates (revertAllCodeChanges (saveModStates h) mem).1 = saveModStates h := by
  simp only [revertAllCodeChanges, restoreModStates, saveModStates, revertLoop_mods,
    HackManager.mk.injEq, true_and, and_true]
  refine List.ext_getElem? fun i => ?_
  rw [List.getElem?_mapIdx, List.getElem?_map]
  cases hi : h.mods[i]? with
  | none =>
    rw [List.getElem?_map, hi]
    rfl
  | some m =>
    simp only [List.getElem?_map, hi, Option.map_some, Option.some.injEq]
    by_cases hinit : m.initialized = true
    · simp only [hinit, if_true]
      rw [if_pos]
      · rfl
      · exact hinit
    · simp only [hinit, if_false, Bool.false_eq_true]

/-! ## runs -/

/-- The mods and the memory, and as history the memory that the game has without mods. -/
structure Console where
  hack : HackManager
  mem : Memory
  game : Memory

inductive ConsoleAction
  | frame (f : Frame)
  | write (addr word : BitVec 32)
  | save
  | revert
  | restore

/-- A frame, a write of the game, or a part of the savestate code. -/
def consoleStep (s : Console) : ConsoleAction → Option Console
  | .frame f => (runActiveMods s.hack s.mem f).map fun t => { s with hack := t.1, mem := t.2 }
  | .write addr word =>
    some { s with
      mem := Function.update s.mem addr word
      game := Function.update s.game addr word }
  | .save => some { s with hack := saveModStates s.hack }
  | .revert =>
    let reverted := revertAllCodeChanges s.hack s.mem
    some { s with hack := reverted.1, mem := reverted.2 }
  | .restore => some { s with hack := restoreModStates s.hack }

/-- The frames are of one game, an `init_mod` that fails adds nothing, no two mods patch a common
address, and the game does not write where it is patched. -/
def ConsoleOk (game : Game) (region : Region) (s : Console) : ConsoleAction → Prop
  | .frame f =>
    f.game = game ∧ f.region = region ∧ ¬ f.Invalid ∧
      (∀ i, (f.mods i).was_init = false → (f.mods i).inits = []) ∧
      ApartMods (initMods f 0 (enterFrame s.hack f))
  | .write addr _ => addr ∉ savedIn s.hack.mods
  | _ => True

/-- The mods are as they were constructed. -/
def Idle (ms : List PrimeMod) : Prop := ∀ m ∈ ms, m.Unused ∧ m.initialized = false

/-- The mods have saved the words of the game, which stand in the memory everywhere else. -/
structure RevertInv (game : Game) (region : Region) (s : Console) : Prop where
  mods : ∀ m ∈ s.hack.mods, ModOk m ∧ m.SavesWords s.game
  memory : AgreesOutside s.mem s.game (· ∈ savedIn s.hack.mods)
  started : Idle s.hack.mods ∨ s.hack.last_game = game ∧ s.hack.last_region = region

variable {game : Game} {region : Region} {s : Console}

theorem initMods_ok (hfails : ∀ i, (f.mods i).was_init = false → (f.mods i).inits = [])
    {words : Memory} : (i : Nat) → (ms : List PrimeMod) → (∀ m ∈ ms, ModOk m ∧ m.SavesWords words) →
    ∀ m ∈ initMods f i ms, ModOk m ∧ m.SavesWords words
  | _, [], _ => fun _ hm => absurd hm List.not_mem_nil
  | i, m :: ms, hms => by
    intro m' hm'
    rcases List.mem_cons.mp hm' with rfl | hm'
    · have hm := hms m (List.mem_cons_self ..)
      refine ⟨hm.1.initMod (hfails i), ?_⟩
      rw [PrimeMod.SavesWords, original_initMod]
      exact hm.2
    · exact initMods_ok hfails (i + 1) ms (fun m hm => hms m (List.mem_cons_of_mem _ hm)) m' hm'

theorem Idle.enterFrame {h : HackManager} (hidle : Idle h.mods) (f : Frame) :
    Idle (enterFrame h f) := by
  intro m hm
  obtain ⟨m₀, hm₀, st, rfl⟩ := mem_enterFrame hm
  have hunused := hidle m₀ hm₀
  split
  · exact ⟨(PrimeMod.unused_resetMod hunused.1.groups).setState st, rfl⟩
  · exact ⟨hunused.1.setState st, hunused.2⟩

theorem Idle.ok (hidle : Idle ms) (words : Memory) : ∀ m ∈ ms, ModOk m ∧ m.SavesWords words := by
  intro m hm
  have hunused := (hidle m hm).1
  refine ⟨⟨hunused.parallel, fun _ => hunused⟩, fun original horiginal => ?_⟩
  rw [hunused.original] at horiginal
  exact absurd horiginal List.not_mem_nil

theorem Idle.not_mem_savedIn (hidle : Idle ms) (addr : BitVec 32) : addr ∉ savedIn ms := by
  intro hsaved
  obtain ⟨m, hm, hmem⟩ := List.mem_flatMap.mp hsaved
  rw [PrimeMod.savedAddresses, (hidle m hm).1.original] at hmem
  exact absurd hmem List.not_mem_nil

theorem RevertInv.enterFrame (h : RevertInv game region s) (hgame : f.game = game)
    (hregion : f.region = region) : (∀ m ∈ enterFrame s.hack f, ModOk m ∧ m.SavesWords s.game) ∧
      AgreesOutside s.mem s.game (· ∈ savedIn (PrimeHack.enterFrame s.hack f)) := by
  rcases h.started with hidle | hlast
  · refine ⟨(hidle.enterFrame f).ok s.game, fun addr _ => ?_⟩
    exact h.memory addr (hidle.not_mem_savedIn addr)
  · have hsame : changesGame s.hack f = false := by
      rw [changesGame, hgame, hregion, hlast.1, hlast.2]
      simp
    refine ⟨fun m hm => ?_, h.memory.mono fun addr hsaved => ?_⟩
    · obtain ⟨m₀, hm₀, st, rfl⟩ := mem_enterFrame hm
      rw [hsame]
      exact ⟨(h.mods m₀ hm₀).1.setState st, (h.mods m₀ hm₀).2⟩
    · obtain ⟨m₀, hm₀, hmem⟩ := List.mem_flatMap.mp hsaved
      obtain ⟨i, hi, rfl⟩ := List.mem_iff_getElem.mp hm₀
      refine List.mem_flatMap.mpr ⟨s.hack.mods[i].setState (f.mods i).state, ?_, hmem⟩
      rw [PrimeHack.enterFrame, hsame, List.mem_mapIdx]
      exact ⟨i, hi, rfl⟩

theorem RevertInv.frame (h : RevertInv game region s) (hok : ConsoleOk game region s (.frame f))
    {t : HackManager × Memory} (hrun : runActiveMods s.hack s.mem f = some t) :
    RevertInv game region { s with hack := t.1, mem := t.2 } := by
  obtain ⟨hgame, hregion, hvalid, hfails, hapart⟩ := hok
  obtain ⟨hmods, hmem⟩ := h.enterFrame hgame hregion
  rw [runActiveMods] at hrun
  split at hrun
  · next hinvalid => exact absurd hinvalid hvalid
  · obtain ⟨ms', hms', rfl⟩ := Option.map_eq_some_iff.mp hrun
    rw [flushLoop_eq] at hms' ⊢
    obtain ⟨hflush, hafter⟩ := flushMods_words _ s.mem (fun _ => False) (initMods_ok hfails 0 _ hmods)
      hapart (fun _ _ _ _ => not_false) (hmem.mono fun addr haddr => .inl (by
        rwa [savedIn_initMods]))
    obtain ⟨hok', hkept⟩ := ModOk.of_runLoop 0 _ (fun m hm => (hflush m hm).1) hms'
    obtain ⟨hwords, hsaved⟩ := savesWords_of_keptWords hkept fun m hm => (hflush m hm).2
    refine ⟨fun m hm => ⟨hok' m hm, hwords m hm⟩, hafter.mono fun addr haddr => ?_, .inr ⟨hgame, hregion⟩⟩
    rw [hsaved]
    exact haddr.resolve_right not_false

theorem RevertInv.setStates (h : RevertInv game region s) {hack : HackManager} {mem : Memory}
    (hgame : hack.last_game = s.hack.last_game) (hregion : hack.last_region = s.hack.last_region)
    (hmods : hack.mods.map (·.setState .DISABLED) = s.hack.mods.map (·.setState .DISABLED))
    (hmem : AgreesOutside mem s.game (· ∈ savedIn s.hack.mods)) :
    RevertInv game region { s with hack := hack, mem := mem } := by
  have hsame : ∀ m ∈ hack.mods, ∃ m₀ ∈ s.hack.mods, ∃ st, m = m₀.setState st := by
    intro m hm
    have hdisabled := List.mem_map_of_mem (f := (·.setState .DISABLED)) hm
    rw [hmods] at hdisabled
    obtain ⟨m₀, hm₀, heq⟩ := List.mem_map.mp hdisabled
    exact ⟨m₀, hm₀, m.state, congrArg (·.setState m.state) heq.symm⟩
  have hsaved : savedIn hack.mods = savedIn s.hack.mods := by
    have hflat := congrArg (List.flatMap PrimeMod.savedAddresses) hmods
    rwa [List.flatMap_map, List.flatMap_map] at hflat
  refine ⟨fun m hm => ?_, ?_, h.started.imp (fun hidle m hm => ?_) fun hlast => ?_⟩
  · obtain ⟨m₀, hm₀, st, rfl⟩ := hsame m hm
    exact ⟨(h.mods m₀ hm₀).1.setState st, (h.mods m₀ hm₀).2⟩
  · rwa [hsaved]
  · obtain ⟨m₀, hm₀, st, rfl⟩ := hsame m hm
    exact ⟨(hidle m₀ hm₀).1.setState st, (hidle m₀ hm₀).2⟩
  · exact ⟨hgame.trans hlast.1, hregion.trans hlast.2⟩

theorem RevertInv.revert (h : RevertInv game region s) :
    (revertAllCodeChanges s.hack s.mem).2 = s.game ∧ RevertInv game region { s with
        hack := (revertAllCodeChanges s.hack s.mem).1
        mem := (revertAllCodeChanges s.hack s.mem).2 } := by
  have hwords := revertLoop_words s.hack.mods h.mods h.memory
  refine ⟨hwords, h.setStates rfl rfl ?_ fun addr _ => congrFun hwords addr⟩
  rw [revertAllCodeChanges, revertLoop_mods, List.map_map]
  refine List.map_congr_left fun m _ => ?_
  rw [Function.comp_apply]
  split <;> rfl

theorem RevertInv.restore (h : RevertInv game region s) :
    RevertInv game region { s with hack := restoreModStates s.hack } := by
  rw [restoreModStates]
  cases s.hack.mod_state_backup with
  | none => exact h
  | some states =>
    refine h.setStates rfl rfl (List.ext_getElem? fun i => ?_) h.memory
    simp only [List.getElem?_map, List.getElem?_mapIdx, Option.map_map]
    congr 1
    funext m
    rw [Function.comp_apply]
    cases states[i]? with
    | none => rfl
    | some st =>
      dsimp only
      split <;> rfl

theorem RevertInv.write (h : RevertInv game region s) (word : BitVec 32)
    (hok : addr ∉ savedIn s.hack.mods) :
    RevertInv game region { s with
      mem := Function.update s.mem addr word
      game := Function.update s.game addr word } := by
  refine ⟨fun m hm => ⟨(h.mods m hm).1, fun original horiginal => ?_⟩, fun a hnot => ?_, h.started⟩
  · have hne : original.address ≠ addr := by
      rintro rfl
      exact hok (List.mem_flatMap.mpr ⟨m, hm, List.mem_map_of_mem horiginal⟩)
    exact ((h.mods m hm).2 original horiginal).trans (Function.update_of_ne hne ..).symm
  · dsimp only
    by_cases heq : a = addr
    · rw [heq, Function.update_self, Function.update_self]
    · rw [Function.update_of_ne heq, Function.update_of_ne heq]
      exact h.memory a hnot

/-- **One step.** -/
theorem RevertInv.step (h : RevertInv game region s) {a : ConsoleAction} {t : Console}
    (hok : ConsoleOk game region s a) (hstep : consoleStep s a = some t) :
    RevertInv game region t := by
  cases a with
  | frame f =>
    obtain ⟨t', ht', rfl⟩ := Option.map_eq_some_iff.mp hstep
    exact h.frame hok ht'
  | write addr word =>
    cases hstep
    exact h.write word hok
  | save =>
    cases hstep
    exact ⟨h.mods, h.memory, h.started⟩
  | revert =>
    cases hstep
    exact h.revert.2
  | restore =>
    cases hstep
    exact h.restore

theorem revertInv_of_run {n : Nat} {mem₀ : Memory}
    (h : Run consoleStep (ConsoleOk game region) ⟨.init n, mem₀, mem₀⟩ s) :
    RevertInv game region s := by
  have hidle : Idle (HackManager.init n).mods := by
    intro m hm
    rw [(List.mem_replicate.mp hm).2]
    exact ⟨PrimeMod.unused_new, rfl⟩
  exact h.invariant ⟨hidle.ok mem₀, fun _ _ => rfl, .inl hidle⟩ fun s a t hs => hs.step

theorem RevertInv.runActiveMods_game (h : RevertInv game region s)
    (hok : ConsoleOk game region s (.frame f)) :
    runActiveMods s.hack s.game f = runActiveMods s.hack s.mem f := by
  obtain ⟨hgame, hregion, hvalid, hfails, hapart⟩ := hok
  obtain ⟨hmods, hmem⟩ := h.enterFrame hgame hregion
  have hinit := initMods_ok hfails 0 _ hmods
  have hflush : flushMods (initMods f 0 (PrimeHack.enterFrame s.hack f)) s.game =
      flushMods (initMods f 0 (PrimeHack.enterFrame s.hack f)) s.mem := by
    refine flushMods_congr _ (fun m hm => (hinit m hm).1) hapart fun addr hnot => ?_
    rw [savedIn_initMods] at hnot
    exact (hmem addr hnot).symm
  rw [runActiveMods, runActiveMods]
  split
  · next hinvalid => exact absurd hinvalid hvalid
  · rw [flushLoop_eq, flushLoop_eq, hflush]

/-- The frame finds everything applied. -/
def Settled (h : HackManager) (mem : Memory) (f : Frame) : Prop :=
  ∀ m ∈ initMods f 0 (enterFrame h f), m.shouldApplyChanges mem = false

theorem flushMods_of_settled : (ms : List PrimeMod) → {mem : Memory} →
    (∀ m ∈ ms, m.shouldApplyChanges mem = false) → flushMods ms mem = (ms, mem)
  | [], _, _ => rfl
  | m :: ms, mem, h => by
    have hhead : flushMod m mem = (m, mem) := by
      rw [flushMod, h m (List.mem_cons_self ..)]
      rfl
    rw [flushMods, hhead]
    simp only [flushMods_of_settled ms fun m' hm' => h m' (List.mem_cons_of_mem _ hm')]

theorem runActiveMods_of_settled {h : HackManager} {mem : Memory} (hsettled : Settled h mem f)
    {t : HackManager × Memory} (hrun : runActiveMods h mem f = some t) : t.2 = mem := by
  rw [runActiveMods, flushLoop_eq, flushMods_of_settled _ hsettled] at hrun
  split at hrun
  · cases hrun
    rfl
  · obtain ⟨ms, _, rfl⟩ := Option.map_eq_some_iff.mp hrun
    rfl

/-- **At every point of a run, the revert leaves the memory of the game, and when the mods are
restored, the next frame gives what it would have given before, which is the memory before the revert
where that has all changes.** -/
theorem revertAllCodeChanges_spec {n : Nat} {mem₀ : Memory}
    (h : Run consoleStep (ConsoleOk game region) ⟨.init n, mem₀, mem₀⟩ s) :
    (revertAllCodeChanges s.hack s.mem).2 = s.game ∧ ∀ f, ConsoleOk game region s (.frame f) →
        runActiveMods (restoreModStates (revertAllCodeChanges (saveModStates s.hack) s.mem).1)
            (revertAllCodeChanges (saveModStates s.hack) s.mem).2 f =
          runActiveMods (saveModStates s.hack) s.mem f ∧
        (Settled s.hack s.mem f → ∀ t,
          runActiveMods (restoreModStates (revertAllCodeChanges (saveModStates s.hack) s.mem).1)
            (revertAllCodeChanges (saveModStates s.hack) s.mem).2 f = some t → t.2 = s.mem) := by
  have hinv := revertInv_of_run h
  have hsaved : RevertInv game region { s with hack := saveModStates s.hack } :=
    ⟨hinv.mods, hinv.memory, hinv.started⟩
  refine ⟨hinv.revert.1, fun f hok => ?_⟩
  have hnext : runActiveMods (restoreModStates (revertAllCodeChanges (saveModStates s.hack) s.mem).1)
      (revertAllCodeChanges (saveModStates s.hack) s.mem).2 f =
      runActiveMods (saveModStates s.hack) s.mem f := by
    rw [restore_revert_save, hsaved.revert.1]
    exact hsaved.runActiveMods_game hok
  refine ⟨hnext, fun hsettled t ht => ?_⟩
  rw [hnext] at ht
  exact runActiveMods_of_settled (h := saveModStates s.hack) hsettled ht

/-! ## a toggle that waits, and a common address -/

theorem length_initMods (f : Frame) : (i : Nat) → (ms : List PrimeMod) →
    (initMods f i ms).length = ms.length
  | _, [] => rfl
  | i, m :: ms => by rw [initMods, List.length_cons, List.length_cons, length_initMods f (i + 1) ms]

theorem consoleOk_frameOf (hn : s.hack.mods.length = 1) (inits : List AddedChange)
    (calls : List (String × ModState)) :
    ConsoleOk .PRIME_1 .NTSC_U s (.frame (frameOf .PRIME_1 inits calls)) := by
  refine ⟨rfl, rfl, fun h => h.elim nofun nofun, fun _ h => absurd h nofun, ?_⟩
  have hlen : (initMods (frameOf .PRIME_1 inits calls) 0
      (enterFrame s.hack (frameOf .PRIME_1 inits calls))).length = 1 := by
    rw [length_initMods, enterFrame, List.length_mapIdx]
    split
    · rw [List.length_map, hn]
    · exact hn
  obtain ⟨m, hm⟩ := List.length_eq_one_iff.mp hlen
  rw [hm]
  exact List.pairwise_singleton ..

/-- A frame in which the mod runs and toggles nothing. -/
def quietFrame : Frame := frameOf .PRIME_1 [] []

theorem run_cullingFrame : ∃ s, Run consoleStep (ConsoleOk .PRIME_1 .NTSC_U)
    ⟨.init 1, fun _ => 0, fun _ => 0⟩ s ∧ s.hack.mods.length = 1 ∧ s.mem 0x802c7dbc = 0x38600001 ∧
      ((runActiveMods (restoreModStates (revertAllCodeChanges (saveModStates s.hack) s.mem).1)
        (revertAllCodeChanges (saveModStates s.hack) s.mem).2 quietFrame).any fun t =>
          t.2 0x802c7dbc = 0) = true := by
  have hrun : ((consoleStep ⟨.init 1, fun _ => 0, fun _ => 0⟩ (.frame cullingFrame)).any fun s =>
      decide (s.hack.mods.length = 1 ∧ s.mem 0x802c7dbc = 0x38600001 ∧
        ((runActiveMods (restoreModStates (revertAllCodeChanges (saveModStates s.hack) s.mem).1)
          (revertAllCodeChanges (saveModStates s.hack) s.mem).2 quietFrame).any fun t =>
            t.2 0x802c7dbc = 0) = true)) = true := by
    decide
  obtain ⟨s, hs, hall⟩ := (Option.any_eq_true _ _).mp hrun
  exact ⟨s, .single (.frame cullingFrame) (consoleOk_frameOf rfl _ _) hs, of_decide_eq_true hall⟩

theorem revertAllCodeChanges_cullingFrame : ∃ s, Run consoleStep (ConsoleOk .PRIME_1 .NTSC_U)
    ⟨.init 1, fun _ => 0, fun _ => 0⟩ s ∧ s.mem 0x802c7dbc = 0x38600001 ∧
      (revertAllCodeChanges s.hack s.mem).2 = s.game := by
  obtain ⟨s, hrun, _, hword, _⟩ := run_cullingFrame
  exact ⟨s, hrun, hword, (revertAllCodeChanges_spec hrun).1⟩

/-- After the revert, the next frame does not bring back the change that was switched off. -/
theorem not_restored_cullingFrame : ∃ s f t, Run consoleStep (ConsoleOk .PRIME_1 .NTSC_U)
    ⟨.init 1, fun _ => 0, fun _ => 0⟩ s ∧ ConsoleOk .PRIME_1 .NTSC_U s (.frame f) ∧
      runActiveMods (restoreModStates (revertAllCodeChanges (saveModStates s.hack) s.mem).1)
        (revertAllCodeChanges (saveModStates s.hack) s.mem).2 f = some t ∧ t.2 ≠ s.mem := by
  obtain ⟨s, hrun, hlen, hword, hany⟩ := run_cullingFrame
  obtain ⟨t, ht, hzero⟩ := (Option.any_eq_true _ _).mp hany
  refine ⟨s, quietFrame, t, hrun, consoleOk_frameOf hlen _ _, ht, fun heq => ?_⟩
  rw [← heq, of_decide_eq_true hzero] at hword
  exact absurd hword (by decide)

end DolphinCore.PrimeHack
