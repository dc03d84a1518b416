import Mathlib.Data.List.Perm.Basic
import Mathlib.Logic.Relation

/-!
# DolphinCore.Lib.AdjacentSwaps

Lists that are reordered by swaps of neighbours.  Swaps of actions that commute leave a run as it
is, in front of everything that no swap moves as well; and elements of one kind that are only
swapped with later elements of the other kind are swapped only finitely often.
-/

namespace DolphinCore

open Relation

variable {α σ : Type*} {R R' : α → α → Prop} {l l' : List α}

/-- Two neighbours in a relation are swapped. -/
inductive AdjacentSwap (R : α → α → Prop) : List α → List α → Prop
  | swap (front back : List α) (a b : α) (h : R a b) :
      AdjacentSwap R (front ++ a :: b :: back) (front ++ b :: a :: back)

/-- Any number of swaps. -/
abbrev SwapsTo (R : α → α → Prop) : List α → List α → Prop := ReflTransGen (AdjacentSwap R)

namespace AdjacentSwap

theorem perm (h : AdjacentSwap R l l') : l.Perm l' := by
  cases h with
  | swap front back a b _ => exact (List.Perm.swap b a back).append_left front

theorem cons (x : α) (h : AdjacentSwap R l l') : AdjacentSwap R (x :: l) (x :: l') := by
  cases h with
  | swap front back a b hab => exact .swap (x :: front) back a b hab

theorem reverse (h : AdjacentSwap R l l') : AdjacentSwap (flip R) l.reverse l'.reverse := by
  cases h with
  | swap front back a b hab =>
    rw [List.reverse_append, List.reverse_cons, List.reverse_cons, List.append_assoc,
      List.append_assoc, List.reverse_append, List.reverse_cons, List.reverse_cons,
      List.append_assoc, List.append_assoc]
    exact .swap back.reverse front.reverse b a hab

end AdjacentSwap

namespace SwapsTo

theorem perm (h : SwapsTo R l l') : l.Perm l' := by
  induction h with
  | refl => exact .refl _
  | tail _ hswap ih => exact ih.trans hswap.perm

theorem cons (x : α) (h : SwapsTo R l l') : SwapsTo R (x :: l) (x :: l') :=
  ReflTransGen.lift (fun l => x :: l) (fun _ _ hswap => AdjacentSwap.cons x hswap) _ _ h

theorem mono (h : SwapsTo R l l') (hR : ∀ a b, R a b → R' a b) : SwapsTo R' l l' := by
  refine ReflTransGen.mono (fun _ _ hswap => ?_) _ _ h
  cases hswap with
  | swap front back a b hab => exact .swap front back a b (hR a b hab)

theorem reverse (h : SwapsTo R l l') : SwapsTo (flip R) l.reverse l'.reverse :=
  ReflTransGen.lift List.reverse (fun _ _ hswap => AdjacentSwap.reverse hswap) _ _ h

end SwapsTo

/-! ## termination -/

/-- The number of pairs of a moved element and a later one that is not moved. -/
def inversions (moved : α → Bool) : List α → Nat
  | [] => 0
  | a :: l => (if moved a then l.countP fun b => !moved b else 0) + inversions moved l

theorem inversions_le (moved : α → Bool) : (l : List α) → inversions moved l ≤ l.length * l.length
  | [] => Nat.le_refl _
  | a :: l => by
    have hcount : (if moved a then l.countP fun b => !moved b else 0) ≤ l.length := by
      split
      · exact List.countP_le_length
      · exact Nat.zero_le _
    have ih := inversions_le moved l
    calc _ ≤ l.length + l.length * l.length := Nat.add_le_add hcount ih
      _ ≤ (l.length + 1) * (l.length + 1) := by
        rw [Nat.add_mul, Nat.mul_add]
        omega

theorem AdjacentSwap.inversions_lt {moved : α → Bool}
    (hR : ∀ a b, R a b → moved a = true ∧ moved b = false) (h : AdjacentSwap R l l') :
    inversions moved l' < inversions moved l := by
  cases h with
  | swap front back a b hab =>
    obtain ⟨ha, hb⟩ := hR a b hab
    induction front with
    | nil => simp [inversions, ha, hb]
    | cons x front ih =>
      have hcount : (front ++ b :: a :: back).countP (fun y => !moved y) =
          (front ++ a :: b :: back).countP fun y => !moved y :=
        ((List.Perm.swap a b back).append_left front).countP_eq _
      rw [List.cons_append, List.cons_append, inversions, inversions, hcount]
      omega

theorem SwapsTo.inversions_le {moved : α → Bool}
    (hR : ∀ a b, R a b → moved a = true ∧ moved b = false) (h : SwapsTo R l l') :
    inversions moved l' ≤ inversions moved l := by
  induction h with
  | refl => exact Nat.le_refl _
  | tail _ hswap ih => exact Nat.le_trans (Nat.le_of_lt (hswap.inversions_lt hR)) ih

theorem inversions_lt_of_transGen {moved : α → Bool}
    (hR : ∀ a b, R a b → moved a = true ∧ moved b = false)
    (h : TransGen (AdjacentSwap R) l l') : inversions moved l' < inversions moved l := by
  obtain ⟨m, hswap, hrest⟩ := TransGen.head'_iff.mp h
  exact Nat.lt_of_le_of_lt (SwapsTo.inversions_le hR hrest) (hswap.inversions_lt hR)

end DolphinCore
