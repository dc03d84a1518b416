import Mathlib.Algebra.Group.Int.Defs
import Mathlib.Data.Int.Notation

/-!
# DolphinCore.Lib.Represents

A bit vector stands for an integer when the integer reduces to it. Sums,
differences and shifts to the left stand for the exact results, whatever bits
are lost on the way.
-/

namespace DolphinCore

/-- `v` is `x` modulo `2 ^ w`. -/
def Represents (v : BitVec w) (x : Int) : Prop := v = BitVec.ofInt w x

namespace Represents

variable {u v : BitVec w} {x y : Int}

theorem self (v : BitVec w) : Represents v v.toInt := (BitVec.ofInt_toInt).symm

theorem ofNat (v : BitVec w) : Represents v (v.toNat : Int) := by
  simp [Represents]

theorem iff_emod : Represents v x ↔ (v.toNat : Int) % 2 ^ w = x % 2 ^ w := by
  rw [Represents, ← BitVec.toNat_inj, BitVec.toNat_ofInt]
  have hlt : (v.toNat : Int) < 2 ^ w := by exact_mod_cast v.isLt
  have hcast : ((2 ^ w : Nat) : Int) = 2 ^ w := by simp
  rw [Int.emod_eq_of_lt (Int.natCast_nonneg _) hlt, hcast]
  omega

theorem add (hu : Represents u x) (hv : Represents v y) : Represents (u + v) (x + y) := by
  rw [Represents, hu, hv, BitVec.ofInt_add]

theorem neg (hv : Represents v y) : Represents (-v) (-y) := by
  rw [Represents, hv, BitVec.ofInt_neg]

theorem sub (hu : Represents u x) (hv : Represents v y) : Represents (u - v) (x - y) := by
  rw [BitVec.sub_eq_add_neg, Int.sub_eq_add_neg]
  exact hu.add hv.neg

theorem shiftLeft (hv : Represents v y) (n : Nat) : Represents (v <<< n) (y * 2 ^ n) := by
  have hpow : BitVec.twoPow w n = BitVec.ofInt w (2 ^ n) := by
    rw [show (2 : Int) ^ n = ((2 ^ n : Nat) : Int) from (Int.natCast_pow 2 n).symm,
      BitVec.ofInt_natCast]
    apply BitVec.eq_of_toNat_eq
    rw [BitVec.toNat_twoPow, BitVec.toNat_ofNat]
  rw [Represents, hv, BitVec.shiftLeft_eq_mul_twoPow, BitVec.ofInt_mul, hpow]

theorem setWidth (hv : Represents v x) {w' : Nat} (hw : w' ≤ w) : Represents (v.setWidth w') x := by
  have hdvd : (2 : Int) ^ w' ∣ 2 ^ w := ⟨2 ^ (w - w'), by rw [← Int.pow_add, Nat.add_sub_cancel' hw]⟩
  rw [iff_emod] at hv ⊢
  rw [BitVec.toNat_setWidth, Int.natCast_emod, Int.natCast_pow, Int.cast_ofNat_Int, Int.emod_emod,
    ← Int.emod_emod_of_dvd _ hdvd, hv, Int.emod_emod_of_dvd _ hdvd]

theorem emod_eq (hv : Represents v y) : v.toInt % 2 ^ w = y % 2 ^ w := by
  rw [hv, BitVec.toInt_ofInt]
  exact_mod_cast Int.bmod_emod

end Represents

end DolphinCore
