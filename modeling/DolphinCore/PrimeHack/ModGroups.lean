import DolphinCore.PrimeHack.HackManager

/-!
# DolphinCore.PrimeHack.ModGroups

The groups of a mod hold the changes that were added to them, and a frame brings the memory to what
the groups say.  Toggles of a frame take effect with the next one.
-/

namespace DolphinCore.PrimeHack

namespace PrimeMod

/-! ## what a mod keeps -/

/-- A change without a group, or whose group is enabled. -/
def inEnabledGroup (m : PrimeMod) (k : Nat) : Bool :=
  ((m.added[k]?.bind m.code_groups).map fun entry => decide (entry.2 = .ENABLED)).getD true

/-- The vectors of a mod are parallel, and the groups hold the changes that were added to them. -/
structure Parallel (m : PrimeMod) : Prop where
  addresses : m.original_instructions.map CodeChange.address ++ m.pending_change_backups =
    m.code_changes.map CodeChange.address
  active : m.current_active_changes.map CodeChange.address = m.code_changes.map CodeChange.address
  saved : m.original_instructions = [] ∨ m.pending_change_backups = []
  added : m.added.length = m.code_changes.length
  groups : ∀ g entry, m.code_groups g = some entry →
    g ≠ "" ∧ ∀ k, k ∈ entry.1 ↔ m.added[k]? = some g
  grouped : ∀ (k : Nat) (g : String), m.added[k]? = some g → g ≠ "" → ∃ entry, m.code_groups g = some entry
  values : ∀ (k : Nat) change, m.code_changes[k]? = some change → m.current_active_changes[k]? =
    if m.inEnabledGroup k then some change else m.original_instructions[k]?

theorem Parallel.length_active {m : PrimeMod} (h : m.Parallel) :
    m.current_active_changes.length = m.code_changes.length := by
  rw [← List.length_map (f := CodeChange.address), h.active, List.length_map]

theorem Parallel.length_original {m : PrimeMod} (h : m.Parallel)
    (hsaved : m.pending_change_backups = []) :
    m.original_instructions.length = m.code_changes.length := by
  have haddr := h.addresses
  rw [hsaved, List.append_nil] at haddr
  rw [← List.length_map (f := CodeChange.address), haddr, List.length_map]

variable {g : String}

theorem Parallel.index_lt {m : PrimeMod} (h : m.Parallel) {entry : List Nat × ModState}
    (hg : m.code_groups g = some entry) {k : Nat} (hk : k ∈ entry.1) :
    k < m.code_changes.length := by
  have hadded := ((h.groups g entry hg).2 k).mp hk
  rw [← h.added]
  exact (List.getElem?_eq_some_iff.mp hadded).1

/-- A mod without changes and groups. -/
structure Unused (m : PrimeMod) : Prop where
  original : m.original_instructions = []
  changes : m.code_changes = []
  pending : m.pending_change_backups = []
  active : m.current_active_changes = []
  added : m.added = []
  groups : ∀ g, m.code_groups g = none

theorem Unused.parallel {m : PrimeMod} (h : m.Unused) : m.Parallel where
  addresses := by rw [h.original, h.pending, h.changes]; rfl
  active := by rw [h.active, h.changes]
  saved := .inl h.original
  added := by rw [h.added, h.changes]; rfl
  groups g entry hg := by rw [h.groups g] at hg; cases hg
  grouped k g hk := by rw [h.added] at hk; cases hk
  values k change hk := by rw [h.changes] at hk; cases hk

theorem unused_new : new.Unused := ⟨rfl, rfl, rfl, rfl, rfl, fun _ => rfl⟩

theorem unused_resetMod {m : PrimeMod} (h : ∀ g, m.code_groups g = none) : m.resetMod.Unused :=
  ⟨rfl, rfl, rfl, rfl, rfl, h⟩

theorem Unused.setState {m : PrimeMod} (h : m.Unused) (st : ModState) : (m.setState st).Unused :=
  ⟨h.original, h.changes, h.pending, h.active, h.added, h.groups⟩

theorem Parallel.setState {m : PrimeMod} (h : m.Parallel) (st : ModState) :
    (m.setState st).Parallel :=
  ⟨h.addresses, h.active, h.saved, h.added, h.groups, h.grouped, h.values⟩

theorem Parallel.setInitialized {m : PrimeMod} (h : m.Parallel) :
    ({ m with initialized := true } : PrimeMod).Parallel :=
  ⟨h.addresses, h.active, h.saved, h.added, h.groups, h.grouped, h.values⟩

/-! ## adding changes -/

/-- A mod whose changes are being added: nothing is saved, and all groups are enabled. -/
structure Adding (m : PrimeMod) : Prop where
  parallel : m.Parallel
  original : m.original_instructions = []
  enabled : ∀ g entry, m.code_groups g = some entry → entry.2 = .ENABLED

theorem inEnabledGroup_of_enabled {m : PrimeMod}
    (h : ∀ g entry, m.code_groups g = some entry → entry.2 = .ENABLED) (k : Nat) :
    m.inEnabledGroup k = true := by
  rw [inEnabledGroup]
  cases hentry : m.added[k]?.bind m.code_groups with
  | none => rfl
  | some entry =>
    obtain ⟨g, _, hg⟩ := Option.bind_eq_some_iff.mp hentry
    simp [h g entry hg]

theorem Adding.active_eq {m : PrimeMod} (h : m.Adding) :
    m.current_active_changes = m.code_changes := by
  refine List.ext_getElem? fun k => ?_
  cases hk : m.code_changes[k]? with
  | none =>
    rw [List.getElem?_eq_none_iff, ← h.parallel.length_active] at hk
    exact List.getElem?_eq_none hk
  | some change => rw [h.parallel.values k change hk, if_pos (inEnabledGroup_of_enabled h.enabled k)]

theorem getElem?_added_append (l : List String) (g g' : String) (k : Nat) :
    (l ++ [g])[k]? = some g' ↔ l[k]? = some g' ∨ k = l.length ∧ g = g' := by
  rcases Nat.lt_trichotomy k l.length with hlt | rfl | hgt
  · rw [List.getElem?_append_left hlt]
    exact ⟨.inl, fun h => h.resolve_right fun h' => absurd h'.1 (Nat.ne_of_lt hlt)⟩
  · simp
  · have hnone : l[k]? = none := List.getElem?_eq_none (Nat.le_of_lt hgt)
    have hnone' : (l ++ [g])[k]? = none := List.getElem?_eq_none (by
      rw [List.length_append, List.length_singleton]
      omega)
    simp only [hnone, hnone', reduceCtorEq, false_or, false_iff]
    omega

theorem Adding.addCodeChange {m : PrimeMod} (h : m.Adding) (a : AddedChange) :
    (m.addCodeChange a).Adding := by
  have hlen := h.parallel.added
  have hgroup (g : String) (entry : List Nat × ModState)
      (hg : (m.addCodeChange a).code_groups g = some entry) :
      (g = a.group ∧ g ≠ "" ∧ entry = (((m.code_groups g).map Prod.fst).getD [] ++
        [m.code_changes.length], .ENABLED)) ∨
        (g ≠ a.group ∨ a.group = "") ∧ m.code_groups g = some entry := by
    simp only [PrimeMod.addCodeChange] at hg
    split at hg
    · next hne =>
      by_cases heq : g = a.group
      · subst heq
        rw [Function.update_self, Option.some.injEq] at hg
        exact .inl ⟨rfl, hne, hg.symm⟩
      · rw [Function.update_of_ne heq] at hg
        exact .inr ⟨.inl heq, hg⟩
    · next hno => exact .inr ⟨.inr (not_not.mp hno), hg⟩
  have henabled : ∀ g entry, (m.addCodeChange a).code_groups g = some entry →
      entry.2 = .ENABLED := by
    intro g entry hg
    rcases hgroup g entry hg with ⟨_, _, rfl⟩ | ⟨_, hold⟩
    · rfl
    · exact h.enabled g entry hold
  refine ⟨⟨?_, ?_, .inl h.original, ?_, fun g entry hg => ?_, fun k g hk hne => ?_,
    fun k change hk => ?_⟩, h.original, henabled⟩
  · simp only [PrimeMod.addCodeChange, List.map_append, ← h.parallel.addresses, List.append_assoc]
    rfl
  · simp only [PrimeMod.addCodeChange, List.map_append, h.parallel.active]
  · simp only [PrimeMod.addCodeChange, List.length_append, hlen]
    rfl
  · rcases hgroup g entry hg with ⟨rfl, hne, rfl⟩ | ⟨hother, hold⟩
    · refine ⟨hne, fun k => ?_⟩
      have hold : k ∈ ((m.code_groups a.group).map Prod.fst).getD [] ↔ m.added[k]? = some a.group := by
        cases hentry : m.code_groups a.group with
        | none =>
          refine ⟨fun hk => absurd hk List.not_mem_nil, fun hk => ?_⟩
          obtain ⟨entry, hsome⟩ := h.parallel.grouped k _ hk hne
          rw [hentry] at hsome
          cases hsome
        | some entry => exact (h.parallel.groups _ entry hentry).2 k
      simp only [PrimeMod.addCodeChange, List.mem_append, List.mem_singleton, hold,
        getElem?_added_append, hlen, and_true]
    · have hspec := h.parallel.groups g entry hold
      refine ⟨hspec.1, fun k => ?_⟩
      rw [hspec.2 k]
      simp only [PrimeMod.addCodeChange, getElem?_added_append]
      refine ⟨.inl, fun hk => hk.resolve_right fun hnew => ?_⟩
      rcases hother with hne | hempty
      · exact hne hnew.2.symm
      · exact hspec.1 (hnew.2.symm.trans hempty)
  · simp only [PrimeMod.addCodeChange, getElem?_added_append] at hk ⊢
    rcases hk with hk | ⟨_, rfl⟩
    · obtain ⟨entry, hentry⟩ := h.parallel.grouped k g hk hne
      split
      · by_cases heq : g = a.group
        · rw [heq, Function.update_self]
          exact ⟨_, rfl⟩
        · rw [Function.update_of_ne heq]
          exact ⟨entry, hentry⟩
      · exact ⟨entry, hentry⟩
    · rw [if_pos hne, Function.update_self]
      exact ⟨_, rfl⟩
  · rw [if_pos (inEnabledGroup_of_enabled henabled k), ← hk]
    simp only [PrimeMod.addCodeChange, h.active_eq]

theorem Adding.addCodeChanges : (inits : List AddedChange) → {m : PrimeMod} → m.Adding →
    (inits.foldl PrimeMod.addCodeChange m).Adding
  | [], _, h => h
  | a :: inits, _, h => addCodeChanges inits (h.addCodeChange a)

theorem Unused.adding {m : PrimeMod} (h : m.Unused) : m.Adding :=
  ⟨h.parallel, h.original, fun g entry hg => by rw [h.groups g] at hg; cases hg⟩

/-! ## saving the words -/

theorem Parallel.updateOriginalInstructions {m : PrimeMod} (h : m.Parallel) (mem : Memory) :
    (m.updateOriginalInstructions mem).Parallel := by
  refine ⟨?_, h.active, .inr rfl, h.added, h.groups, h.grouped, fun k change hk => ?_⟩
  · simp only [PrimeMod.updateOriginalInstructions, List.map_append, List.map_map, List.append_nil]
    rw [← h.addresses]
    exact congrArg _ (List.map_id _)
  · have hvalue := h.values k change hk
    change m.current_active_changes[k]? = if m.inEnabledGroup k then _ else _
    by_cases henabled : m.inEnabledGroup k = true
    · rw [hvalue, if_pos henabled, if_pos henabled]
    · rw [if_neg henabled] at hvalue ⊢
      -- a change that is switched off has its word saved already
      have hlt : k < m.current_active_changes.length := by
        rw [h.length_active]
        exact (List.getElem?_eq_some_iff.mp hk).1
      have horiginal : k < m.original_instructions.length := by
        rw [List.getElem?_eq_getElem hlt] at hvalue
        exact (List.getElem?_eq_some_iff.mp hvalue.symm).1
      rw [hvalue]
      exact (List.getElem?_append_left horiginal).symm

/-! ## toggling a group -/

/-- What stays of a mod when it runs. -/
def keptWords (m : PrimeMod) :
    Bool × ModState × List CodeChange × List CodeChange × List (BitVec 32) :=
  (m.initialized, m.state, m.original_instructions, m.code_changes, m.pending_change_backups)

theorem inEnabledGroup_toggle {m : PrimeMod} (h : m.Parallel) {idxs : List Nat}
    {old new_state : ModState} (hg : m.code_groups g = some (idxs, old)) {current : List CodeChange}
    (k : Nat) : ({ m with
      code_groups := Function.update m.code_groups g (some (idxs, new_state))
      current_active_changes := current } : PrimeMod).inEnabledGroup k =
      if k ∈ idxs then decide (new_state = .ENABLED) else m.inEnabledGroup k := by
  have hmem := (h.groups g _ hg).2 k
  simp only [hmem, inEnabledGroup]
  cases hadded : m.added[k]? with
  | none => rfl
  | some g' =>
    by_cases heq : g' = g
    · subst heq
      simp
    · simp [heq]

theorem Parallel.toggle {m : PrimeMod} (h : m.Parallel) {idxs : List Nat} {old new_state : ModState}
    (hg : m.code_groups g = some (idxs, old)) {current : List CodeChange}
    (hactive : current.map CodeChange.address = m.code_changes.map CodeChange.address)
    (hcopied : ∀ (k : Nat) change, m.code_changes[k]? = some change → current[k]? =
      if k ∈ idxs then if new_state = .ENABLED then some change else m.original_instructions[k]?
      else m.current_active_changes[k]?) :
    ({ m with
      code_groups := Function.update m.code_groups g (some (idxs, new_state))
      current_active_changes := current } : PrimeMod).Parallel where
  addresses := h.addresses
  active := hactive
  saved := h.saved
  added := h.added
  groups g' entry hg' := by
    by_cases heq : g' = g
    · subst heq
      simp only [Function.update_self, Option.some.injEq] at hg'
      subst hg'
      exact h.groups g' (idxs, old) hg
    · simp only [Function.update_of_ne heq] at hg'
      exact h.groups g' _ hg'
  grouped k g' hk hne := by
    by_cases heq : g' = g
    · subst heq
      simp only [Function.update_self]
      exact ⟨_, rfl⟩
    · simp only [Function.update_of_ne heq]
      exact h.grouped k g' hk hne
  values k change hk := by
    rw [inEnabledGroup_toggle h hg, hcopied k change hk]
    by_cases hmem : k ∈ idxs
    · by_cases hen : new_state = .ENABLED
      · simp [hmem, hen]
      · simp [hmem, hen]
    · rw [if_neg hmem, if_neg hmem]
      exact h.values k change hk

/-- **`set_code_group_state`** of a mod whose words are saved, or which enables the group. -/
theorem Parallel.setCodeGroupState {m : PrimeMod} (h : m.Parallel) {new_state : ModState}
    (hsaved : new_state = .ENABLED ∨ m.pending_change_backups = []) :
    ∃ m', m.setCodeGroupState g new_state = some m' ∧ m'.Parallel ∧ m'.keptWords = m.keptWords := by
  unfold PrimeMod.setCodeGroupState
  cases hg : m.code_groups g with
  | none => exact ⟨m, rfl, h, rfl⟩
  | some entry =>
    obtain ⟨idxs, old⟩ := entry
    by_cases hsame : old = new_state
    · exact ⟨m, if_pos hsame, h, rfl⟩
    · simp only [if_neg hsame]
      have hrange : ∀ k ∈ idxs, k < (if new_state = .ENABLED then m.code_changes
          else m.original_instructions).length ∧ k < m.current_active_changes.length := by
        intro k hk
        have hlt := h.index_lt hg hk
        rw [h.length_active]
        refine ⟨?_, hlt⟩
        split
        · exact hlt
        · next hne =>
          rw [h.length_original (hsaved.resolve_left hne)]
          exact hlt
      obtain ⟨current, hcopy, hlen, hget⟩ := copyChanges_spec _ idxs m.current_active_changes hrange
      rw [hcopy]
      refine ⟨_, rfl, h.toggle hg ?_ fun k change hk => ?_, rfl⟩
      · have hfrom : (if new_state = .ENABLED then m.code_changes
            else m.original_instructions).map CodeChange.address =
            m.code_changes.map CodeChange.address := by
          split
          · rfl
          · next hne =>
            have haddr := h.addresses
            rwa [hsaved.resolve_left hne, List.append_nil] at haddr
        refine List.ext_getElem? fun k => ?_
        simp only [List.getElem?_map, hget]
        split
        · rw [← List.getElem?_map, hfrom, List.getElem?_map]
        · rw [← List.getElem?_map, h.active, List.getElem?_map]
      · rw [hget]
        by_cases hen : new_state = .ENABLED
        · simp only [hen, if_true, hk]
        · simp only [hen, if_false]

theorem copyChanges_of_not_mem {from_vec : List CodeChange} : (idxs : List Nat) →
    {current new : List CodeChange} → copyChanges from_vec idxs current = some new →
    ∀ k, k ∉ idxs → new[k]? = current[k]?
  | [], _, _, h, _, _ => by
    cases h
    rfl
  | i :: idxs, current, new, h, k, hk => by
    rw [copyChanges, Option.bind_eq_some_iff] at h
    obtain ⟨change, _, h⟩ := h
    rw [Option.ite_none_right_eq_some] at h
    rw [List.mem_cons, not_or] at hk
    rw [copyChanges_of_not_mem idxs h.2 k hk.2, List.getElem?_set_ne (Ne.symm hk.1)]

/-- The groups hold indices in range, of the changes that were added to them, and toggles touch no
other. -/
structure GroupsSound (m : PrimeMod) : Prop where
  range : ∀ g entry, m.code_groups g = some entry → ∀ k ∈ entry.1,
    k < m.code_changes.length ∧ k < m.current_active_changes.length
  added : ∀ g entry, m.code_groups g = some entry → ∀ k ∈ entry.1, m.added[k]? = some g
  toggles : ∀ g new_state m', m.setCodeGroupState g new_state = some m' →
    m'.code_changes = m.code_changes ∧
      ∀ k : Nat, m.added[k]? ≠ some g → m'.current_active_changes[k]? = m.current_active_changes[k]?

theorem Parallel.groupsSound {m : PrimeMod} (h : m.Parallel) : m.GroupsSound where
  range g entry hg k hk := by
    have hlt := h.index_lt hg hk
    exact ⟨hlt, h.length_active ▸ hlt⟩
  added g entry hg k hk := ((h.groups g entry hg).2 k).mp hk
  toggles g new_state m' hm' := by
    unfold PrimeMod.setCodeGroupState at hm'
    cases hg : m.code_groups g with
    | none =>
      rw [hg] at hm'
      cases hm'
      exact ⟨rfl, fun _ _ => rfl⟩
    | some entry =>
      obtain ⟨idxs, old⟩ := entry
      rw [hg] at hm'
      simp only at hm'
      split at hm'
      · cases hm'
        exact ⟨rfl, fun _ _ => rfl⟩
      · obtain ⟨current, hcopy, rfl⟩ := Option.map_eq_some_iff.mp hm'
        refine ⟨rfl, fun k hk => copyChanges_of_not_mem idxs hcopy k fun hmem => ?_⟩
        exact hk (((h.groups g _ hg).2 k).mp hmem)

/-! ## applying a mod -/

theorem Parallel.address_mem {m : PrimeMod} (h : m.Parallel) {change : CodeChange}
    (hc : change ∈ m.getChangesToApply) :
    change.address ∈ m.code_changes.map CodeChange.address := by
  rw [getChangesToApply] at hc
  split at hc
  · rw [← h.addresses]
    exact List.mem_append_left _ (List.mem_map_of_mem hc)
  · rw [← h.active]
    exact List.mem_map_of_mem hc

theorem Parallel.nodup_changesToApply {m : PrimeMod} (h : m.Parallel)
    (hnodup : (m.code_changes.map CodeChange.address).Nodup) :
    (m.getChangesToApply.map CodeChange.address).Nodup := by
  rw [getChangesToApply]
  split
  · rw [← h.addresses] at hnodup
    exact (List.nodup_append.mp hnodup).1
  · rwa [h.active]

/-- The memory is what the groups of a mod say. -/
def MemoryMatches (m : PrimeMod) (mem : Memory) : Prop :=
  ∀ (k : Nat) change, m.code_changes[k]? = some change →
    if m.inEnabledGroup k then mem change.address = change.var
    else ∃ original, m.original_instructions[k]? = some original ∧ mem change.address = original.var

theorem Parallel.memoryMatches {m : PrimeMod} (h : m.Parallel) (hstate : m.state = .ENABLED)
    {mem : Memory} (happlied : ∀ change ∈ m.getChangesToApply, mem change.address = change.var) :
    m.MemoryMatches mem := by
  have happly : m.getChangesToApply = m.current_active_changes := by
    rw [getChangesToApply, if_neg]
    simp [hstate]
  rw [happly] at happlied
  intro k change hk
  have hvalue := h.values k change hk
  have hlt : k < m.current_active_changes.length := by
    rw [h.length_active]
    exact (List.getElem?_eq_some_iff.mp hk).1
  have hcurrent := List.getElem?_eq_getElem hlt
  have haddress : m.current_active_changes[k].address = change.address := by
    have hmap := congrArg (·[k]?) h.active
    simp only [List.getElem?_map, hcurrent, hk, Option.map_some, Option.some.injEq] at hmap
    exact hmap
  have hmem := happlied _ (List.getElem_mem hlt)
  rw [haddress] at hmem
  rw [hcurrent] at hvalue
  split at hvalue
  · next henabled =>
    rw [if_pos henabled, hmem, Option.some.inj hvalue]
  · next henabled =>
    rw [if_neg henabled]
    exact ⟨_, hvalue.symm, hmem⟩

end PrimeMod

/-! ## the mods in a frame -/

/-- What holds of each mod between the steps. -/
structure ModOk (m : PrimeMod) : Prop where
  parallel : m.Parallel
  unused : m.initialized = false → m.Unused

theorem ModOk.new : ModOk .new := ⟨PrimeMod.unused_new.parallel, fun _ => PrimeMod.unused_new⟩

theorem ModOk.resetMod {m : PrimeMod} (h : ∀ g, m.code_groups g = none) : ModOk m.resetMod :=
  ⟨(PrimeMod.unused_resetMod h).parallel, fun _ => PrimeMod.unused_resetMod h⟩

theorem ModOk.setState {m : PrimeMod} (h : ModOk m) (st : ModState) : ModOk (m.setState st) :=
  ⟨h.parallel.setState st, fun hi => (h.unused hi).setState st⟩

theorem ModOk.initMod {m : PrimeMod} (h : ModOk m) {input : ModInput}
    (hfails : input.was_init = false → input.inits = []) : ModOk (initMod m input) := by
  rw [PrimeHack.initMod]
  by_cases hi : m.initialized = true
  · rwa [if_pos hi]
  · rw [if_neg hi]
    have hunused := h.unused (Bool.eq_false_iff.mpr hi)
    by_cases hw : input.was_init = true
    · simp only [hw, if_true]
      exact ⟨(hunused.adding.addCodeChanges input.inits).parallel.setInitialized,
        fun hfalse => absurd hfalse (by simp)⟩
    · simp only [hfails (Bool.eq_false_iff.mpr hw), hw, List.foldl_nil]
      exact h

theorem ModOk.updateOriginalInstructions {m : PrimeMod} (h : ModOk m) (mem : Memory) :
    ModOk (m.updateOriginalInstructions mem) where
  parallel := h.parallel.updateOriginalInstructions mem
  unused hi := by
    have hunused := h.unused hi
    refine ⟨?_, hunused.changes, rfl, hunused.active, hunused.added, hunused.groups⟩
    simp [PrimeMod.updateOriginalInstructions, hunused.original, hunused.pending]

theorem code_changes_flushMod (m : PrimeMod) (mem : Memory) :
    (flushMod m mem).1.code_changes = m.code_changes := by
  rw [flushMod]
  split <;> rfl

theorem ModOk.flushMod {m : PrimeMod} (h : ModOk m) (mem : Memory) : ModOk (flushMod m mem).1 := by
  rw [PrimeHack.flushMod]
  split
  · exact h.updateOriginalInstructions mem
  · exact h

variable {mem : Memory}

theorem flushMod_of_not_mem {m : PrimeMod} (h : ModOk m) {addr : BitVec 32}
    (haddr : addr ∉ m.code_changes.map CodeChange.address) : (flushMod m mem).2 addr = mem addr := by
  rw [flushMod]
  split
  · refine PrimeMod.writeChanges_of_not_mem fun hmem => haddr ?_
    obtain ⟨change, hchange, rfl⟩ := List.mem_map.mp hmem
    exact (h.updateOriginalInstructions mem).parallel.address_mem hchange
  · rfl

theorem flushMod_applied {m : PrimeMod} (h : ModOk m)
    (hnodup : (m.code_changes.map CodeChange.address).Nodup) (mem : Memory) :
    ∀ change ∈ (flushMod m mem).1.getChangesToApply,
      (flushMod m mem).2 change.address = change.var := by
  rw [flushMod]
  by_cases happly : m.shouldApplyChanges mem = true
  · rw [if_pos happly]
    intro change hchange
    exact PrimeMod.writeChanges_of_mem
      ((h.updateOriginalInstructions mem).parallel.nodup_changesToApply hnodup) hchange
  · rw [if_neg happly]
    exact PrimeMod.shouldApplyChanges_eq_false.mp (Bool.eq_false_iff.mpr happly)

/-- The addresses of the mods from the `i`-th on when they are initialised in a frame. -/
def initAddresses (f : Frame) : Nat → List PrimeMod → List (BitVec 32)
  | _, [] => []
  | i, m :: ms =>
    (initMod m (f.mods i)).code_changes.map CodeChange.address ++ initAddresses f (i + 1) ms

variable {f : Frame}

/-- **The first loop.**  At its end the memory holds what each mod applies. -/
theorem flushLoop_spec (hfails : ∀ i, (f.mods i).was_init = false → (f.mods i).inits = []) :
    (i : Nat) → (ms : List PrimeMod) → (mem : Memory) → (∀ m ∈ ms, ModOk m) →
    (initAddresses f i ms).Nodup →
    (∀ m ∈ (flushLoop f i ms mem).1, ModOk m ∧ ∀ change ∈ m.getChangesToApply,
      (flushLoop f i ms mem).2 change.address = change.var) ∧
    ((flushLoop f i ms mem).1.flatMap fun m => m.code_changes.map CodeChange.address) =
      initAddresses f i ms ∧
    ∀ addr ∉ initAddresses f i ms, (flushLoop f i ms mem).2 addr = mem addr
  | _, [], _, _, _ => ⟨fun _ hm => absurd hm List.not_mem_nil, rfl, fun _ _ => rfl⟩
  | i, m :: ms, mem, hms, hnodup => by
    rw [initAddresses, List.nodup_append] at hnodup
    have hm := (hms m (List.mem_cons_self ..)).initMod (hfails i)
    obtain ⟨hrest, haddr, hkeep⟩ := flushLoop_spec hfails (i + 1) ms
      (flushMod (initMod m (f.mods i)) mem).2
      (fun m' hm' => hms m' (List.mem_cons_of_mem _ hm')) hnodup.2.1
    rw [flushLoop, initAddresses]
    refine ⟨fun m' hm' => ?_, ?_, fun addr hnot => ?_⟩
    · rcases List.mem_cons.mp hm' with rfl | hm'
      · refine ⟨hm.flushMod mem, fun change hchange => ?_⟩
        have hown := (hm.flushMod mem).parallel.address_mem hchange
        rw [code_changes_flushMod] at hown
        rw [hkeep change.address fun hother => hnodup.2.2 _ hown _ hother rfl]
        exact flushMod_applied hm hnodup.1 mem change hchange
      · exact hrest m' hm'
    · rw [List.flatMap_cons, haddr, code_changes_flushMod]
    · rw [List.mem_append, not_or] at hnot
      rw [hkeep addr hnot.2, flushMod_of_not_mem hm hnot.1]

/-- A call that puts a group into another state than enabled. -/
def disables (calls : List (String × ModState)) : Prop := ∃ call ∈ calls, call.2 ≠ .ENABLED

theorem ModOk.setCodeGroupState {m : PrimeMod} (h : ModOk m) {g : String} {new_state : ModState}
    (hsaved : new_state ≠ .ENABLED → m.pending_change_backups = []) :
    ∃ m', m.setCodeGroupState g new_state = some m' ∧ ModOk m' ∧ m'.keptWords = m.keptWords := by
  obtain ⟨m', hset, hparallel, hkept⟩ := h.parallel.setCodeGroupState (g := g)
    (or_iff_not_imp_left.mpr hsaved : new_state = .ENABLED ∨ _)
  refine ⟨m', hset, ⟨hparallel, fun hi => ?_⟩, hkept⟩
  have hunused := h.unused ((congrArg Prod.fst hkept).symm.trans hi)
  rw [PrimeMod.setCodeGroupState, hunused.groups] at hset
  cases hset
  exact hunused

theorem ModOk.runCalls : (calls : List (String × ModState)) → {m : PrimeMod} → ModOk m →
    (disables calls → m.pending_change_backups = []) →
    ∃ m', calls.foldlM (fun m call => m.setCodeGroupState call.1 call.2) m = some m' ∧ ModOk m' ∧
      m'.keptWords = m.keptWords
  | [], m, h, _ => ⟨m, rfl, h, rfl⟩
  | call :: calls, m, h, hsaved => by
    obtain ⟨m₁, hset, hm₁, hkept⟩ := h.setCodeGroupState (g := call.1) fun hne =>
      hsaved ⟨call, List.mem_cons_self .., hne⟩
    have hpending : m₁.pending_change_backups = m.pending_change_backups :=
      congrArg (·.2.2.2.2) hkept
    obtain ⟨m', hrun, hm', hkept'⟩ := runCalls calls hm₁ fun ⟨c, hc, hne⟩ =>
      hpending.trans (hsaved ⟨c, List.mem_cons_of_mem _ hc, hne⟩)
    refine ⟨m', ?_, hm', hkept'.trans hkept⟩
    rw [List.foldlM_cons, hset]
    exact hrun

/-- **The second loop.**  No index is out of range. -/
theorem runLoop_spec : (i : Nat) → (ms : List PrimeMod) → (∀ m ∈ ms, ModOk m) →
    (∀ (j : Nat) m, ms[j]? = some m → disables (f.mods (i + j)).calls →
      m.pending_change_backups = []) →
    ∃ ms', runLoop f i ms = some ms' ∧ (∀ m ∈ ms', ModOk m) ∧
      ms'.map PrimeMod.keptWords = ms.map PrimeMod.keptWords
  | _, [], _, _ => ⟨[], rfl, fun _ hm => absurd hm List.not_mem_nil, rfl⟩
  | i, m :: ms, hms, hsaved => by
    have hm := hms m (List.mem_cons_self ..)
    have hrun : ∃ m', runMod m (f.mods i) = some m' ∧ ModOk m' ∧ m'.keptWords = m.keptWords := by
      rw [runMod]
      split
      · exact hm.runCalls _ (hsaved 0 m rfl)
      · exact ⟨m, rfl, hm, rfl⟩
    obtain ⟨m', hm'run, hm', hkept⟩ := hrun
    obtain ⟨ms', hms'run, hms', hkept'⟩ := runLoop_spec (i + 1) ms
      (fun m hm => hms m (List.mem_cons_of_mem _ hm))
      fun j m hj hdis => hsaved (j + 1) m hj (by rwa [Nat.add_right_comm] at hdis)
    refine ⟨m' :: ms', ?_, fun m hm => ?_, ?_⟩
    · rw [runLoop, hm'run, Option.bind_some, hms'run]
      rfl
    · rcases List.mem_cons.mp hm with rfl | hm
      · exact hm'
      · exact hms' m hm
    · rw [List.map_cons, List.map_cons, hkept, hkept']

/-! ## frames -/

/-- The frame has no game to run mods for. -/
def Frame.Invalid (f : Frame) : Prop := f.game = .INVALID_GAME ∨ f.region = .INVALID_REGION

instance (f : Frame) : Decidable f.Invalid := inferInstanceAs (Decidable (_ ∨ _))

/-- A frame in which no group is carried into another game, the addresses of all changes are
different, and a group is disabled only when the words of its mod are saved. -/
structure FrameOk (h : HackManager) (mem : Memory) (f : Frame) : Prop where
  reset : changesGame h f = true → ∀ m ∈ h.mods, ∀ g, m.code_groups g = none
  fails : ∀ i, (f.mods i).was_init = false → (f.mods i).inits = []
  distinct : (initAddresses f 0 (enterFrame h f)).Nodup
  saved : ∀ (i : Nat) m, (flushLoop f 0 (enterFrame h f) mem).1[i]? = some m →
    disables (f.mods i).calls → m.pending_change_backups = []

/-- What holds of the mods between the frames. -/
structure HackInv (h : HackManager) : Prop where
  mods : ∀ m ∈ h.mods, ModOk m
  idle : h.last_game = .INVALID_GAME ∨ h.last_region = .INVALID_REGION →
    ∀ m ∈ h.mods, m.initialized = false

theorem HackInv.init (n : Nat) : HackInv (.init n) := by
  have hnew : ∀ m ∈ (HackManager.init n).mods, m = .new := fun m hm => (List.mem_replicate.mp hm).2
  refine ⟨fun m hm => ?_, fun _ m hm => ?_⟩
  · rw [hnew m hm]
    exact .new
  · rw [hnew m hm]
    rfl

variable {h : HackManager}

theorem mem_enterFrame {m : PrimeMod} (hm : m ∈ enterFrame h f) :
    ∃ m₀ ∈ h.mods, ∃ st, m = (if changesGame h f then m₀.resetMod else m₀).setState st := by
  rw [enterFrame, List.mem_mapIdx] at hm
  obtain ⟨i, hi, rfl⟩ := hm
  have hmem := List.getElem_mem hi
  by_cases hchange : changesGame h f = true
  · simp only [hchange, if_true] at hmem ⊢
    obtain ⟨m₀, hm₀, heq⟩ := List.mem_map.mp hmem
    exact ⟨m₀, hm₀, _, by rw [heq]⟩
  · simp only [hchange] at hmem ⊢
    exact ⟨_, hmem, _, rfl⟩

theorem HackInv.enterFrame (hinv : HackInv h)
    (hreset : changesGame h f = true → ∀ m ∈ h.mods, ∀ g, m.code_groups g = none) :
    ∀ m ∈ enterFrame h f, ModOk m := by
  intro m hm
  obtain ⟨m₀, hm₀, st, rfl⟩ := mem_enterFrame hm
  by_cases hchange : changesGame h f = true
  · rw [if_pos hchange]
    exact (ModOk.resetMod (hreset hchange m₀ hm₀)).setState st
  · rw [if_neg hchange]
    exact (hinv.mods m₀ hm₀).setState st

theorem HackInv.not_initialized (hinv : HackInv h) (hinvalid : f.Invalid) :
    ∀ m ∈ PrimeHack.enterFrame h f, m.initialized = false := by
  intro m hm
  obtain ⟨m₀, hm₀, st, rfl⟩ := mem_enterFrame hm
  by_cases hchange : changesGame h f = true
  · rw [if_pos hchange]
    rfl
  · rw [if_neg hchange]
    have hsame : f.game = h.last_game ∧ f.region = h.last_region := by
      rw [changesGame, decide_eq_true_eq, not_or, not_not, not_not] at hchange
      exact hchange
    refine hinv.idle ?_ m₀ hm₀
    rw [← hsame.1, ← hsame.2]
    exact hinvalid

/-- The mods as a frame has applied them, before `run_mod` toggles any group. -/
def appliedMods (h : HackManager) (mem : Memory) (f : Frame) : List PrimeMod :=
  if f.Invalid then enterFrame h f else (flushLoop f 0 (enterFrame h f) mem).1

/-- The memory is what the groups of the enabled mods say. -/
def FrameMatches (mods : List PrimeMod) (mem : Memory) : Prop :=
  ∀ m ∈ mods, m.initialized = true → m.state = .ENABLED → m.MemoryMatches mem

/-- **One frame.** -/
theorem HackInv.runActiveMods (hinv : HackInv h) (hok : FrameOk h mem f) :
    ∃ t, runActiveMods h mem f = some t ∧ HackInv t.1 ∧ FrameMatches (appliedMods h mem f) t.2 := by
  have henter := hinv.enterFrame hok.reset
  by_cases hinvalid : f.Invalid
  · have hidle := hinv.not_initialized hinvalid
    refine ⟨_, if_pos hinvalid, ⟨henter, fun _ => hidle⟩, fun m hm hi => ?_⟩
    rw [appliedMods, if_pos hinvalid] at hm
    exact absurd (hi.symm.trans (hidle m hm)) Bool.true_eq_false.mp
  · obtain ⟨hflush, _, _⟩ := flushLoop_spec hok.fails 0 (PrimeHack.enterFrame h f) mem henter
      hok.distinct
    obtain ⟨ms', hrun, hms', _⟩ := runLoop_spec 0 _ (fun m hm => (hflush m hm).1)
      fun j m hj hdis => hok.saved j m hj (by rwa [Nat.zero_add] at hdis)
    refine ⟨({ h with last_game := f.game, last_region := f.region, mods := ms' },
      (flushLoop f 0 (PrimeHack.enterFrame h f) mem).2), ?_,
      ⟨hms', fun hlast => absurd hlast hinvalid⟩, fun m hm hi hstate => ?_⟩
    · refine (if_neg hinvalid).trans ?_
      simp only [hrun, Option.map_some]
    · rw [appliedMods, if_neg hinvalid] at hm
      exact (hflush m hm).1.parallel.memoryMatches hstate (hflush m hm).2

/-- A frame, in front of which the game has left the memory in some state. -/
def frameStep (s : HackManager × Memory) (a : Memory × Frame) : Option (HackManager × Memory) :=
  runActiveMods s.1 a.1 a.2

def FrameStepOk (s : HackManager × Memory) (a : Memory × Frame) : Prop := FrameOk s.1 a.1 a.2

theorem hackInv_of_run {n : Nat} {s : HackManager × Memory}
    (h : Run frameStep FrameStepOk (.init n, mem) s) : HackInv s.1 := by
  refine h.invariant (I := fun s => HackInv s.1) (HackInv.init n) fun s a t hs hok hstep => ?_
  obtain ⟨t', ht', hinv, _⟩ := hs.runActiveMods hok
  rw [frameStep, ht', Option.some.injEq] at hstep
  exact hstep ▸ hinv

/-- **In every run over any games, each frame ends without an index out of range, with sound groups,
and with the memory that the groups said when it was applied.** -/
theorem runActiveMods_spec {n : Nat} {mem₀ : Memory} {s : HackManager × Memory}
    (h : Run frameStep FrameStepOk (.init n, mem₀) s) {mem : Memory} {f : Frame}
    (hok : FrameOk s.1 mem f) : ∃ t, runActiveMods s.1 mem f = some t ∧
      (∀ m ∈ t.1.mods, m.GroupsSound) ∧ FrameMatches (appliedMods s.1 mem f) t.2 := by
  obtain ⟨t, ht, hinv, hmatches⟩ := (hackInv_of_run h).runActiveMods hok
  exact ⟨t, ht, fun m hm => (hinv.mods m hm).parallel.groupsSound, hmatches⟩

/-! ## a toggle in a frame -/

/-- A frame that initialises each mod with changes and lets it make calls. -/
def frameOf (game : Game) (inits : List AddedChange) (calls : List (String × ModState)) : Frame :=
  ⟨game, .NTSC_U, fun _ => ⟨.ENABLED, inits, true, calls⟩⟩

/-- The culling of the first game is patched, and switched back when the mod runs. -/
def cullingFrame : Frame :=
  frameOf .PRIME_1 [⟨⟨0x802c7dbc, 0x38600001⟩, "culling"⟩, ⟨⟨0x802c7dc0, 0x4e800020⟩, "culling"⟩]
    [("culling", .DISABLED)]

theorem frameOk_cullingFrame : FrameOk (.init 1) (fun _ => 0) cullingFrame where
  reset _ m hm := by
    rw [(List.mem_replicate.mp hm).2]
    exact fun _ => rfl
  fails _ h := absurd h nofun
  distinct := by decide
  saved i m hm _ := by
    have hpending : (flushLoop cullingFrame 0 (enterFrame (.init 1) cullingFrame) fun _ => 0).1.map
        PrimeMod.pending_change_backups = [[]] := by
      decide
    have hmem := List.mem_map_of_mem (f := PrimeMod.pending_change_backups)
      (List.mem_of_getElem? hm)
    exact List.mem_singleton.mp hmem

theorem runActiveMods_cullingFrame : ∃ t,
    runActiveMods (.init 1) (fun _ => 0) cullingFrame = some t ∧ (∀ m ∈ t.1.mods, m.GroupsSound) ∧
      FrameMatches (appliedMods (.init 1) (fun _ => 0) cullingFrame) t.2 :=
  runActiveMods_spec (s := (HackManager.init 1, fun _ => 0)) .refl frameOk_cullingFrame

/-- At the end of that frame, the memory still has the change that is switched off. -/
theorem not_frameMatches_cullingFrame : ∃ t,
    runActiveMods (.init 1) (fun _ => 0) cullingFrame = some t ∧ ¬ FrameMatches t.1.mods t.2 := by
  have hrun : ((runActiveMods (.init 1) (fun _ => 0) cullingFrame).any fun t => t.1.mods.any fun m =>
      decide (m.initialized = true ∧ m.state = .ENABLED ∧ m.inEnabledGroup 0 = false ∧
        m.code_changes[0]? = some ⟨0x802c7dbc, 0x38600001⟩ ∧
        m.original_instructions[0]? = some ⟨0x802c7dbc, 0⟩ ∧
        t.2 0x802c7dbc = 0x38600001)) = true := by
    decide
  obtain ⟨t, ht, hany⟩ := (Option.any_eq_true _ _).mp hrun
  obtain ⟨m, hm, hall⟩ := List.any_eq_true.mp hany
  obtain ⟨hinit, hstate, henabled, hchange, horiginal, hword⟩ := of_decide_eq_true hall
  refine ⟨t, ht, fun h => ?_⟩
  have hmatch := h m hm hinit hstate 0 _ hchange
  rw [henabled] at hmatch
  obtain ⟨original, hsome, hmem⟩ := hmatch
  rw [horiginal, Option.some.injEq] at hsome
  rw [← hsome] at hmem
  exact absurd (hmem.symm.trans hword) (by decide)

end DolphinCore.PrimeHack
