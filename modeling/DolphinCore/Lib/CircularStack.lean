import Mathlib.Data.ZMod.Defs
import Mathlib.Logic.Function.Basic

/-!
# DolphinCore.Lib.CircularStack

A stack kept in a circular array, with its top outside the array: a push saves
the old top in the next cell, a pop takes it back. Up to as many values as
there are cells are kept.
-/

namespace DolphinCore

/-- A top, the cell that holds the value below it, and the cells. -/
structure CircularStack (n : Nat) (α : Type _) where
  top : α
  ptr : Fin n
  cells : Fin n → α

namespace CircularStack

variable {n : Nat} [NeZero n] {α : Type _}

def push (s : CircularStack n α) (x : α) : CircularStack n α :=
  ⟨x, s.ptr + 1, Function.update s.cells (s.ptr + 1) s.top⟩

def pop (s : CircularStack n α) : CircularStack n α := ⟨s.cells s.ptr, s.ptr - 1, s.cells⟩

def setTop (s : CircularStack n α) (x : α) : CircularStack n α := { s with top := x }

/-- The values from the top down, over a bottom value. -/
def Holds (bottom : α) : CircularStack n α → List α → Prop
  | s, [] => s.top = bottom
  | s, x :: xs => s.top = x ∧ Holds bottom s.pop xs

variable {bottom : α} {s : CircularStack n α} {x : α} {xs : List α}

theorem Holds.pop (h : Holds bottom s (x :: xs)) : Holds bottom s.pop xs := h.2

theorem Holds.top (h : Holds bottom s (x :: xs)) : s.top = x := h.1

theorem Holds.setTop (h : Holds bottom s (x :: xs)) (y : α) :
    Holds bottom (s.setTop y) (y :: xs) := ⟨rfl, h.2⟩

theorem ofNat_succ (j : Nat) : Fin.ofNat n (j + 1) = 1 + Fin.ofNat n j := by
  apply Fin.ext
  simp [Fin.val_add, Nat.add_comm]

theorem Holds.update (q : Fin n) (v : α) : ∀ {xs : List α} {s : CircularStack n α},
    Holds bottom s xs → (∀ j < xs.length, q ≠ s.ptr - Fin.ofNat n j) →
    Holds bottom { s with cells := Function.update s.cells q v } xs
  | [], _, h, _ => h
  | x :: xs, s, ⟨htop, hrest⟩, hq => by
    have hne : s.ptr ≠ q := by
      have h0 := hq 0 (Nat.succ_pos _)
      rw [show Fin.ofNat n 0 = 0 from rfl, sub_zero] at h0
      exact h0.symm
    refine ⟨htop, ?_⟩
    have hpop : ({ s with cells := Function.update s.cells q v } : CircularStack n α).pop =
        { s.pop with cells := Function.update s.pop.cells q v } := by
      show CircularStack.mk (Function.update s.cells q v s.ptr) _ _ = CircularStack.mk _ _ _
      rw [Function.update_of_ne hne]
      rfl
    rw [hpop]
    refine Holds.update q v hrest fun j hj => ?_
    have h := hq (j + 1) (Nat.succ_lt_succ hj)
    have hadd : s.ptr - Fin.ofNat n (j + 1) = s.pop.ptr - Fin.ofNat n j := by
      show _ = s.ptr - 1 - Fin.ofNat n j
      rw [ofNat_succ, sub_add_eq_sub_sub]
    rw [← hadd]
    exact h

theorem Holds.push (h : Holds bottom s xs) (hroom : xs.length < n) (x : α) :
    Holds bottom (s.push x) (x :: xs) := by
  refine ⟨rfl, ?_⟩
  have hpop : (s.push x).pop =
      { s with cells := Function.update s.cells (s.ptr + 1) s.top } := by
    show CircularStack.mk (Function.update s.cells (s.ptr + 1) s.top (s.ptr + 1))
      (s.ptr + 1 - 1) _ = CircularStack.mk _ _ _
    rw [Function.update_self, add_sub_cancel_right]
    rfl
  rw [hpop]
  refine h.update _ _ fun j hj heq => ?_
  -- the next cell is the one `n - 1` below
  have hzero : Fin.ofNat n (j + 1) = 0 := by
    rw [ofNat_succ]
    have h1 : s.ptr + 1 + Fin.ofNat n j = s.ptr := by rw [heq, sub_add_cancel]
    rw [add_assoc] at h1
    exact add_eq_left.mp h1
  have hval := congrArg Fin.val hzero
  simp only [Fin.ofNat, Fin.val_zero] at hval
  rw [Nat.mod_eq_of_lt (by omega)] at hval
  omega

end CircularStack

end DolphinCore
