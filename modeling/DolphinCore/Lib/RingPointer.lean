import Mathlib.Data.Int.ModEq
import Mathlib.Tactic.Ring

/-!
# DolphinCore.Lib.RingPointer

Pointers that go round a ring of `n` slots of `d` bytes each. A pointer is where
it is after some number of slots; how far two pointers are apart is known modulo
the size of the ring.
-/

namespace DolphinCore

/-- The address of a slot, counted from the base without going back. -/
def slotAddr (base d n k : Nat) : Nat := base + d * (k % n)

variable {base d n : Nat}

theorem le_slotAddr (k : Nat) : base ≤ slotAddr base d n k := Nat.le_add_right _ _

theorem slotAddr_le (hn : 0 < n) (k : Nat) : slotAddr base d n k ≤ base + d * (n - 1) := by
  have hk : k % n ≤ n - 1 := Nat.le_sub_one_of_lt (Nat.mod_lt k hn)
  exact Nat.add_le_add_left (Nat.mul_le_mul_left d hk) base

theorem slotAddr_of_lt {k : Nat} (h : k < n) : slotAddr base d n k = base + d * k := by
  rw [slotAddr, Nat.mod_eq_of_lt h]

theorem slotAddr_succ (hd : 0 < d) (hn : 0 < n) (k : Nat) : slotAddr base d n (k + 1) =
      if slotAddr base d n k = base + d * (n - 1) then base else slotAddr base d n k + d := by
  have hlt : k % n < n := Nat.mod_lt k hn
  unfold slotAddr
  split
  · next h =>
    have hlast : k % n = n - 1 := Nat.eq_of_mul_eq_mul_left hd (Nat.add_left_cancel h)
    have hsucc : (k + 1) % n = 0 := by
      rw [← Nat.mod_add_mod, hlast, Nat.sub_add_cancel hn, Nat.mod_self]
    rw [hsucc, Nat.mul_zero, Nat.add_zero]
  · next h =>
    have hne : k % n ≠ n - 1 := fun heq => h (by rw [heq])
    have hsucc : (k + 1) % n = k % n + 1 := by
      rw [← Nat.mod_add_mod, Nat.mod_eq_of_lt (by omega)]
    rw [hsucc, Nat.mul_succ, Nat.add_assoc]

/-- The slot after the one at a pointer. -/
def ringNext {w : Nat} (base last step ptr : BitVec w) : BitVec w :=
  if ptr = last then base else ptr + step

theorem toNat_ringNext {w k : Nat} {first last step ptr : BitVec w} (hd : 0 < step.toNat)
    (hn : 0 < n) (hlast : last.toNat = first.toNat + step.toNat * (n - 1))
    (h : ptr.toNat = slotAddr first.toNat step.toNat n k) :
    (ringNext first last step ptr).toNat = slotAddr first.toNat step.toNat n (k + 1) := by
  have hend : ptr = last ↔
      slotAddr first.toNat step.toNat n k = first.toNat + step.toNat * (n - 1) := by
    rw [← hlast, ← h]
    exact BitVec.toNat_inj.symm
  rw [slotAddr_succ hd hn, ringNext]
  by_cases he : ptr = last
  · rw [if_pos he, if_pos (hend.mp he)]
  · rw [if_neg he, if_neg (fun hs => he (hend.mpr hs)), BitVec.toNat_add, ← h]
    -- a pointer before the last slot has room for another one
    have hne : ptr.toNat ≠ last.toNat := fun heq => he (BitVec.eq_of_toNat_eq heq)
    have hmod := Nat.mod_lt k hn
    have hslot : ptr.toNat = first.toNat + step.toNat * (k % n) := h
    have hle : step.toNat * (k % n + 1) ≤ step.toNat * (n - 1) :=
      Nat.mul_le_mul_left _ (Nat.succ_le_of_lt (Nat.lt_of_le_of_ne (Nat.le_sub_one_of_lt hmod)
        fun heq => hne (by rw [hslot, heq, hlast])))
    rw [Nat.mul_succ] at hle
    exact Nat.mod_eq_of_lt (by omega)

theorem slotAddr_sub_modEq (k j : Nat) :
    (slotAddr base d n k : Int) - slotAddr base d n j ≡ d * ((k : Int) - j) [ZMOD d * n] := by
  have heq : (slotAddr base d n k : Int) - slotAddr base d n j =
      d * ((k % n : Int) - (j % n : Int)) := by
    unfold slotAddr
    push_cast
    ring
  rw [heq]
  exact ((Int.mod_modEq _ _).sub (Int.mod_modEq _ _)).mul_left'

end DolphinCore
