import Mathlib.Data.BitVec

/-!
# DolphinCore.Lib.Bits

Masks and single bits of bit vectors as arithmetic of numbers, and tables of bit vectors
in which some bits are clear.
-/

namespace DolphinCore

variable {w : Nat}

theorem toNat_and_mask (v : BitVec w) {c : BitVec w} (k : Nat) (hc : c.toNat = 2 ^ k - 1) :
    (v &&& c).toNat = v.toNat % 2 ^ k := by
  rw [BitVec.toNat_and, hc, Nat.and_two_pow_sub_one_eq_mod]

theorem and_not_eq_sub (v c : BitVec w) : v &&& ~~~c = v - (v &&& c) := by
  have hdisjoint : v &&& ~~~c &&& (v &&& c) = 0#w := by
    rw [BitVec.and_comm v c, ← BitVec.and_assoc, BitVec.and_assoc v (~~~c), BitVec.not_and_self]
    simp
  rw [BitVec.eq_sub_iff_add_eq, BitVec.add_eq_or_of_and_eq_zero _ _ hdisjoint,
    ← BitVec.and_or_distrib_left, BitVec.not_or_self, BitVec.and_allOnes]

theorem toNat_and_not_mask (v : BitVec w) {c : BitVec w} (k : Nat) (hc : c.toNat = 2 ^ k - 1) :
    (v &&& ~~~c).toNat = v.toNat - v.toNat % 2 ^ k := by
  have hle : v &&& c ≤ v := by
    rw [BitVec.le_def, toNat_and_mask v k hc]
    exact Nat.mod_le _ _
  rw [and_not_eq_sub, BitVec.toNat_sub_of_le hle, toNat_and_mask v k hc]

theorem and_twoPow_ne_zero (v : BitVec w) {k : Nat} (hk : k < w) :
    v &&& BitVec.twoPow w k ≠ 0 ↔ v.toNat / 2 ^ k % 2 = 1 := by
  have hne : BitVec.twoPow w k ≠ 0 := by
    intro h
    have h' := congrArg (·.getLsbD k) h
    simp [hk] at h'
  rw [BitVec.and_twoPow, ← BitVec.testBit_toNat, Nat.testBit_eq_decide_div_mod_eq]
  split
  · next h => exact iff_of_true hne (of_decide_eq_true h)
  · next h => exact iff_of_false (fun h' => h' rfl) fun h' => h (decide_eq_true h')

theorem forall_update_and [DecidableEq α] {f : α → BitVec w} {c : BitVec w}
    (h : ∀ k, f k &&& c = 0) (i : α) {v : BitVec w} (hv : v &&& c = 0) :
    ∀ k, Function.update f i v k &&& c = 0 :=
  (Function.forall_update_iff f fun _ x => x &&& c = 0).mpr ⟨hv, fun k _ => h k⟩

end DolphinCore
