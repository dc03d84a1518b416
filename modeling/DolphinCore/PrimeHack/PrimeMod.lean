import Mathlib.Data.BitVec
import Mathlib.Data.List.Nodup

/-!
# DolphinCore.PrimeHack.PrimeMod

`PrimeMod` of `PrimeMod.cpp`: the code changes of a mod, the words that they replace, and the groups
by which they are switched on and off.
-/

namespace DolphinCore.PrimeHack

/-- The words of the game's memory, by their addresses. -/
abbrev Memory := BitVec 32 → BitVec 32

structure CodeChange where
  address : BitVec 32
  var : BitVec 32
  deriving DecidableEq, Repr

inductive ModState
  | DISABLED
  | CODE_DISABLED
  | ENABLED
  deriving DecidableEq, Repr

/-- `PrimeMod`.  The last field is history: the groups with which the changes were added since the
last reset. -/
structure PrimeMod where
  initialized : Bool
  original_instructions : List CodeChange
  code_changes : List CodeChange
  pending_change_backups : List (BitVec 32)
  code_groups : String → Option (List Nat × ModState)
  state : ModState
  current_active_changes : List CodeChange
  added : List String

/-- A mod as it is constructed. -/
def PrimeMod.new : PrimeMod := ⟨false, [], [], [], fun _ => none, .DISABLED, [], []⟩

/-- What `init_mod` hands to `add_code_change`: a change and its group, `""` for none. -/
structure AddedChange where
  change : CodeChange
  group : String
  deriving DecidableEq, Repr

namespace PrimeMod

/-! ## applying changes -/

def getChangesToApply (m : PrimeMod) : List CodeChange :=
  if m.state = .CODE_DISABLED ∨ m.state = .DISABLED then m.original_instructions
  else m.current_active_changes

def shouldApplyChanges (m : PrimeMod) (mem : Memory) : Bool :=
  m.getChangesToApply.any fun change => mem change.address ≠ change.var

/-- The writes of changes one after another. -/
def writeChanges (changes : List CodeChange) (mem : Memory) : Memory :=
  changes.foldl (fun mem change => Function.update mem change.address change.var) mem

def applyInstructionChanges (m : PrimeMod) (mem : Memory) : Memory :=
  writeChanges m.getChangesToApply mem

def updateOriginalInstructions (m : PrimeMod) (mem : Memory) : PrimeMod :=
  { m with
    original_instructions := m.original_instructions ++
      m.pending_change_backups.map fun addr => ⟨addr, mem addr⟩
    pending_change_backups := [] }

/-! ## changing a mod -/

/-- The loop of `set_code_group_state`, `none` for an index that is out of range. -/
def copyChanges (from_vec : List CodeChange) : List Nat → List CodeChange → Option (List CodeChange)
  | [], current => some current
  | code_idx :: idxs, current =>
    from_vec[code_idx]?.bind fun change =>
      if code_idx < current.length then copyChanges from_vec idxs (current.set code_idx change)
      else none

/-- `set_code_group_state`, `none` for an index that is out of range. -/
def setCodeGroupState (m : PrimeMod) (group_name : String) (new_state : ModState) :
    Option PrimeMod :=
  match m.code_groups group_name with
  | none => some m
  | some (idxs, old_state) =>
    if old_state = new_state then some m
    else
      let from_vec := if new_state = .ENABLED then m.code_changes else m.original_instructions
      (copyChanges from_vec idxs m.current_active_changes).map fun current =>
        { m with
          code_groups := Function.update m.code_groups group_name (some (idxs, new_state))
          current_active_changes := current }

def resetMod (m : PrimeMod) : PrimeMod :=
  { m with
    code_changes := []
    original_instructions := []
    pending_change_backups := []
    current_active_changes := []
    initialized := false
    added := [] }

def setState (m : PrimeMod) (new_state : ModState) : PrimeMod := { m with state := new_state }

def addCodeChange (m : PrimeMod) (a : AddedChange) : PrimeMod :=
  { m with
    code_groups :=
      if a.group ≠ "" then
        Function.update m.code_groups a.group
          (some (((m.code_groups a.group).map Prod.fst).getD [] ++ [m.code_changes.length], .ENABLED))
      else m.code_groups
    pending_change_backups := m.pending_change_backups ++ [a.change.address]
    code_changes := m.code_changes ++ [a.change]
    current_active_changes := m.current_active_changes ++ [a.change]
    added := m.added ++ [a.group] }

/-! ## the writes -/

variable {changes : List CodeChange} {mem : Memory}

theorem writeChanges_of_not_mem {addr : BitVec 32} (h : addr ∉ changes.map CodeChange.address) :
    writeChanges changes mem addr = mem addr := by
  induction changes generalizing mem with
  | nil => rfl
  | cons change changes ih =>
    rw [List.map_cons, List.mem_cons, not_or] at h
    rw [writeChanges, List.foldl_cons, ← writeChanges, ih h.2, Function.update_of_ne h.1]

theorem writeChanges_of_mem {change : CodeChange} (hnodup : (changes.map CodeChange.address).Nodup)
    (h : change ∈ changes) :
    writeChanges changes mem change.address = change.var := by
  induction changes generalizing mem with
  | nil => exact absurd h List.not_mem_nil
  | cons first changes ih =>
    rw [List.map_cons, List.nodup_cons] at hnodup
    rw [writeChanges, List.foldl_cons, ← writeChanges]
    rcases List.mem_cons.mp h with rfl | h
    · rw [writeChanges_of_not_mem hnodup.1, Function.update_self]
    · exact ih hnodup.2 h

theorem writeChanges_eq_self (h : ∀ change ∈ changes, mem change.address = change.var) :
    writeChanges changes mem = mem := by
  induction changes with
  | nil => rfl
  | cons first changes ih =>
    have hfirst : Function.update mem first.address first.var = mem := by
      rw [← h first (List.mem_cons_self ..), Function.update_eq_self]
    rw [writeChanges, List.foldl_cons, ← writeChanges, hfirst]
    exact ih fun change hc => h change (List.mem_cons_of_mem _ hc)

theorem writeChanges_congr {mem mem' : Memory} {addr : BitVec 32}
    (h : addr ∉ changes.map CodeChange.address → mem addr = mem' addr) :
    writeChanges changes mem addr = writeChanges changes mem' addr := by
  induction changes generalizing mem mem' with
  | nil => exact h List.not_mem_nil
  | cons first changes ih =>
    rw [writeChanges, writeChanges, List.foldl_cons, List.foldl_cons, ← writeChanges,
      ← writeChanges]
    refine ih fun hnot => ?_
    by_cases heq : addr = first.address
    · rw [heq, Function.update_self, Function.update_self]
    · rw [Function.update_of_ne heq, Function.update_of_ne heq]
      exact h (by rw [List.map_cons, List.mem_cons, not_or]; exact ⟨heq, hnot⟩)

theorem shouldApplyChanges_eq_false {m : PrimeMod} : m.shouldApplyChanges mem = false ↔
      ∀ change ∈ m.getChangesToApply, mem change.address = change.var := by
  rw [shouldApplyChanges, List.any_eq_false]
  refine forall₂_congr fun change _ => ?_
  simp

/-! ## copying changes -/

theorem copyChanges_spec (from_vec : List CodeChange) : (idxs : List Nat) →
    (current : List CodeChange) → (∀ k ∈ idxs, k < from_vec.length ∧ k < current.length) →
    ∃ new, copyChanges from_vec idxs current = some new ∧ new.length = current.length ∧
      ∀ k, new[k]? = if k ∈ idxs then from_vec[k]? else current[k]?
  | [], current, _ => ⟨current, rfl, rfl, fun k => (if_neg List.not_mem_nil).symm⟩
  | i :: idxs, current, h => by
    have hi := h i (List.mem_cons_self ..)
    obtain ⟨new, hnew, hlen, hget⟩ := copyChanges_spec from_vec idxs (current.set i from_vec[i])
      fun k hk => by
        rw [List.length_set]
        exact h k (List.mem_cons_of_mem _ hk)
    refine ⟨new, ?_, ?_, fun k => ?_⟩
    · rw [copyChanges, List.getElem?_eq_getElem hi.1, Option.bind_some, if_pos hi.2, hnew]
    · rw [hlen, List.length_set]
    · rw [hget]
      by_cases hk : k ∈ idxs
      · rw [if_pos hk, if_pos (List.mem_cons_of_mem _ hk)]
      · rw [if_neg hk]
        by_cases heq : i = k
        · subst heq
          rw [if_pos (List.mem_cons_self ..), List.getElem?_set_self hi.2,
            List.getElem?_eq_getElem hi.1]
        · rw [List.getElem?_set_ne heq, if_neg]
          rw [List.mem_cons, not_or]
          exact ⟨Ne.symm heq, hk⟩

end PrimeMod

end DolphinCore.PrimeHack
