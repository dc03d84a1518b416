import Mathlib.Data.Nat.Basic

/-!
# DolphinCore.Lib.IndexForest

Trees that are stored as a list in preorder: a directory is followed by all that is below it, and
names the index behind that.
-/

namespace DolphinCore

/-- The entries from `first` up to `last` are the remaining children of the directory `dir` and all
that is below them.  `dirEnd` is the index behind a directory, and `ok` holds of a directory and each of
its children. -/
inductive IndexForest (dirEnd : Nat → Option Nat) (ok : Nat → Nat → Prop) : Nat → Nat → Nat → Prop
  | nil (dir last : Nat) : IndexForest dirEnd ok dir last last
  | leaf {dir first last : Nat} : ok dir first → dirEnd first = none →
    IndexForest dirEnd ok dir (first + 1) last → IndexForest dirEnd ok dir first last
  | node {dir first mid last : Nat} : ok dir first → dirEnd first = some mid → first < mid →
    IndexForest dirEnd ok first (first + 1) mid → IndexForest dirEnd ok dir mid last →
    IndexForest dirEnd ok dir first last

namespace IndexForest

variable {dirEnd : Nat → Option Nat} {ok : Nat → Nat → Prop} {dir first last : Nat}

theorem le (h : IndexForest dirEnd ok dir first last) : first ≤ last := by
  induction h with
  | nil => exact Nat.le_refl _
  | leaf _ _ _ ih => exact Nat.le_of_succ_le ih
  | node _ _ hlt _ _ _ ih => exact Nat.le_trans (Nat.le_of_lt hlt) ih

theorem dirEnd_le (h : IndexForest dirEnd ok dir first last) {i : Nat} (hfirst : first ≤ i)
    (hlast : i < last) {mid : Nat} (hmid : dirEnd i = some mid) : i < mid ∧ mid ≤ last := by
  induction h with
  | nil => exact absurd hlast (Nat.not_lt.mpr hfirst)
  | leaf _ hnone _ ih =>
    refine ih (Nat.lt_of_le_of_ne hfirst fun heq => ?_) hlast
    rw [heq, hmid] at hnone
    cases hnone
  | @node _ first mid' _ _ hend hlt hbelow hrest ihbelow ihrest =>
    by_cases hbehind : mid' ≤ i
    · exact ihrest hbehind hlast
    · by_cases heq : first = i
      · rw [← heq, hend] at hmid
        cases hmid
        exact ⟨heq ▸ hlt, hrest.le⟩
      · obtain ⟨hi, hle⟩ := ihbelow (Nat.lt_of_le_of_ne hfirst heq) (Nat.not_le.mp hbehind)
        exact ⟨hi, Nat.le_trans hle hrest.le⟩

end IndexForest

end DolphinCore
