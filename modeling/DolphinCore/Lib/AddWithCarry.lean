import Mathlib.Data.BitVec
import Mathlib.Data.Nat.Bitwise
import Mathlib.Data.Nat.Size
import Mathlib.Data.Nat.Basic

/-!
# DolphinCore.Lib.AddWithCarry

The carries of an addition, as the exclusive or of the sum with what is added shows them: the bit at
`k` is set where the parts below `k` add up to `2 ^ k` or more.

Addition of machine words with a carry: the exact sum, the bit that is carried out of it, and
the tests on wrapped words that find the carry and the signed overflow.
-/

namespace DolphinCore

variable {w k : Nat}

theorem getLsbD_add_xor (x y : BitVec w) (hk : k < w) : ((x + y) ^^^ x ^^^ y).getLsbD k =
      decide (2 ^ k ≤ x.toNat % 2 ^ k + y.toNat % 2 ^ k) := by
  rw [BitVec.getLsbD_xor, BitVec.getLsbD_xor, BitVec.getLsbD_add hk, BitVec.carry]
  simp
  cases x.getLsbD k <;> cases y.getLsbD k <;> simp

theorem toNat_not_mod (y : BitVec w) (hk : k ≤ w) :
    (~~~y).toNat % 2 ^ k = 2 ^ k - 1 - y.toNat % 2 ^ k := by
  rw [← BitVec.toNat_setWidth, BitVec.setWidth_not hk, BitVec.toNat_not, BitVec.toNat_setWidth]

theorem getLsbD_sub_xor (x y : BitVec w) (hk : k < w) :
    ((x - y) ^^^ x ^^^ ~~~y).getLsbD k = decide (y.toNat % 2 ^ k ≤ x.toNat % 2 ^ k) := by
  have hsub : x - y = x + ~~~y + (BitVec.ofBool true).setWidth w := by
    have hone : (BitVec.ofBool true).setWidth w = 1#w := BitVec.eq_of_toNat_eq (by simp)
    rw [BitVec.sub_eq_add_neg, BitVec.neg_eq_not_add, hone, BitVec.add_assoc]
  have hbit : ((x - y) ^^^ x ^^^ ~~~y).getLsbD k = BitVec.carry k x (~~~y) true := by
    rw [BitVec.getLsbD_xor, BitVec.getLsbD_xor, hsub, BitVec.getLsbD_add_add_bool hk]
    cases x.getLsbD k <;> cases (~~~y).getLsbD k <;> simp
  rw [hbit, BitVec.carry, toNat_not_mod y hk.le, decide_eq_decide]
  change _ + 1 ≥ _ ↔ _
  omega

theorem getLsbD_add_xor_self (x m : BitVec w) (hk : k < w) (hm : m.toNat ≤ 2 ^ k) :
    ((x + m) ^^^ x).getLsbD k = decide (2 ^ k ≤ x.toNat % 2 ^ k + m.toNat) := by
  have hbit : ((x + m) ^^^ x).getLsbD k =
      (m.getLsbD k ^^ decide (2 ^ k ≤ x.toNat % 2 ^ k + m.toNat % 2 ^ k)) := by
    rw [← getLsbD_add_xor x m hk]
    simp only [BitVec.getLsbD_xor]
    cases x.getLsbD k <;> cases m.getLsbD k <;> simp
  rw [hbit, ← BitVec.testBit_toNat, Nat.testBit_eq_decide_div_mod_eq]
  obtain hlt | heq := Nat.lt_or_eq_of_le hm
  · rw [Nat.div_eq_of_lt hlt, Nat.mod_eq_of_lt hlt]
    simp
  · have hmod := Nat.mod_lt x.toNat (Nat.two_pow_pos k)
    rw [heq, Nat.div_self (Nat.two_pow_pos k), Nat.mod_self]
    simp [hmod]

theorem succ_xor (a k : Nat) : 2 ^ k ≤ a % 2 ^ k + 1 ∧ 2 ^ (k + 1) ≤ ((a + 1) ^^^ a) + 1 ∨
    a % 2 ^ k + 1 < 2 ^ k ∧ (a + 1) ^^^ a < 2 ^ k := by
  have hpos := Nat.two_pow_pos k
  have hmod := Nat.mod_lt a hpos
  have hdiv := Nat.div_add_mod a (2 ^ k)
  by_cases hlast : a % 2 ^ k + 1 < 2 ^ k
  · refine .inr ⟨hlast, ?_⟩
    have hsame : (a + 1) / 2 ^ k = a / 2 ^ k := by
      rw [← hdiv, Nat.add_assoc, Nat.mul_add_div hpos, Nat.div_eq_of_lt hlast, Nat.add_zero,
        Nat.mul_add_div hpos, Nat.div_eq_of_lt hmod, Nat.add_zero]
    rw [← Nat.div_eq_zero_iff_lt hpos, Nat.xor_div_two_pow, hsame, Nat.xor_self]
  · refine .inl ⟨by omega, ?_⟩
    obtain ⟨q, hq⟩ : ∃ q, a / 2 ^ k = q := ⟨_, rfl⟩
    have hnext : a + 1 = 2 ^ k * (q + 1) := by
      rw [Nat.mul_add, Nat.mul_one, ← hq]
      omega
    have hlow : ((a + 1) ^^^ a) % 2 ^ k = 2 ^ k - 1 := by
      rw [Nat.xor_mod_two_pow, hnext, Nat.mul_mod_right, Nat.zero_xor]
      omega
    have hhigh : 0 < ((a + 1) ^^^ a) / 2 ^ k := by
      have hodd : ((q + 1) ^^^ q) % 2 = (q + 1 + q) % 2 := Nat.xor_mod_two_eq
      rw [Nat.xor_div_two_pow, hnext, Nat.mul_div_cancel_left _ hpos, hq]
      omega
    have hsplit := Nat.div_add_mod ((a + 1) ^^^ a) (2 ^ k)
    have hone := Nat.mul_le_mul_left (2 ^ k) hhigh
    omega

theorem lt_and_iff_testBit {d n m : Nat} (hlo : 2 ^ k ≤ n) (hrest : n ≤ 2 ^ k + m)
    (hm : m < 2 ^ k) : m < d &&& n ↔ d.testBit k = true := by
  have hmask : n.testBit k = true := by
    have hdiv : n / 2 ^ k = 1 := Nat.div_eq_of_lt_le (by omega) (by omega)
    simp [Nat.testBit_eq_decide_div_mod_eq, hdiv]
  have hbit : (d &&& n).testBit k = d.testBit k := by simp [hmask]
  constructor
  · intro hlt
    by_contra hclear
    have hlow : (d &&& n) % 2 ^ k ≤ n % 2 ^ k := by
      rw [Nat.and_mod_two_pow]
      exact Nat.and_le_right
    have hle : d &&& n ≤ n := Nat.and_le_right
    have hzero : (d &&& n) / 2 ^ k = 0 := by
      have hsmall : (d &&& n) / 2 ^ k < 2 := by
        rw [Nat.div_lt_iff_lt_mul (Nat.two_pow_pos k)]
        omega
      rw [← hbit, Nat.testBit_eq_decide_div_mod_eq, decide_eq_true_eq] at hclear
      generalize (d &&& n) / 2 ^ k = q at hclear hsmall
      omega
    have hsplit := Nat.div_add_mod (d &&& n) (2 ^ k)
    have hn : n % 2 ^ k = n - 2 ^ k := by
      rw [Nat.mod_eq_sub_mod hlo, Nat.mod_eq_of_lt (by omega)]
    rw [hzero] at hsplit
    omega
  · intro hset
    have hge := Nat.ge_two_pow_of_testBit (hbit.trans hset)
    omega

end DolphinCore

namespace DolphinCore

namespace AddWithCarry

variable {w : Nat}

/-- The sum of the unsigned words and the carry, which does not wrap. -/
def exact (x y : BitVec w) (c : Bool) : Nat := x.toNat + y.toNat + c.toNat

/-- The sum of the signed words and the carry. -/
def signed (x y : BitVec w) (c : Bool) : Int := x.toInt + y.toInt + c.toNat

/-- The word that is left of the sum. -/
def sum (x y : BitVec w) (c : Bool) : BitVec w := BitVec.ofNat w (exact x y c)

/-- The bit of the sum above the word. -/
def carryOut (x y : BitVec w) (c : Bool) : Bool := (exact x y c).testBit w

/-- The word that is left is not the signed sum. -/
def Overflows (x y : BitVec w) (c : Bool) : Prop := (sum x y c).toInt ≠ signed x y c

instance (x y : BitVec w) (c : Bool) : Decidable (Overflows x y c) :=
  inferInstanceAs (Decidable (_ ≠ _))

theorem exact_lt (x y : BitVec w) (c : Bool) : exact x y c < 2 * 2 ^ w := by
  have := c.toNat_lt
  unfold exact
  omega

variable {x y : BitVec w}

theorem carryOut_iff {c : Bool} : carryOut x y c = true ↔ 2 ^ w ≤ exact x y c := by
  have hlt := exact_lt x y c
  unfold carryOut
  rw [Nat.testBit_eq_decide_div_mod_eq, decide_eq_true_eq]
  constructor
  · intro h
    refine Nat.le_of_not_lt fun hsmall => ?_
    rw [Nat.div_eq_of_lt hsmall] at h
    exact absurd h (by decide)
  · intro h
    have : exact x y c / 2 ^ w = 1 := Nat.div_eq_of_lt_le (by omega) (by omega)
    rw [this]

theorem toNat_sum (x y : BitVec w) (c : Bool) : (sum x y c).toNat = exact x y c % 2 ^ w :=
  BitVec.toNat_ofNat _ _

theorem sum_eq_add (x y : BitVec w) : sum x y false = x + y := by
  apply BitVec.eq_of_toNat_eq
  rfl

theorem sum_true_eq_add (x y : BitVec w) : sum x y true = x + y + 1#w := by
  apply BitVec.eq_of_toNat_eq
  rw [toNat_sum, BitVec.toNat_add, BitVec.toNat_add, Nat.mod_add_mod, BitVec.toNat_ofNat,
    Nat.add_mod_mod]
  rfl

/-! ## tests for the carry -/

theorem not_lt_iff : ~~~x < y ↔ 2 ^ w ≤ x.toNat + y.toNat := by
  rw [BitVec.lt_def, BitVec.toNat_not]
  omega

theorem not_lt_iff_carryOut : ~~~x < y ↔ carryOut x y false = true := by
  rw [not_lt_iff, carryOut_iff]
  rfl

theorem carryOut_true_iff : carryOut x y true = true ↔ ~~~x < y ∨ x + y = BitVec.allOnes w := by
  rw [carryOut_iff, not_lt_iff, ← BitVec.toNat_inj, BitVec.toNat_add, BitVec.toNat_allOnes]
  change 2 ^ w ≤ x.toNat + y.toNat + 1 ↔ _
  by_cases h : x.toNat + y.toNat < 2 ^ w
  · rw [Nat.mod_eq_of_lt h]
    omega
  · exact ⟨fun _ => .inl (by omega), fun _ => by omega⟩

/-! ## the test for the overflow -/

theorem overflows_iff (hw : 0 < w) {c : Bool} : Overflows x y c ↔
      x.msb ≠ (sum x y c).msb ∧ y.msb ≠ (sum x y c).msb := by
  obtain ⟨n, rfl⟩ : ∃ n, w = n + 1 := ⟨w - 1, by omega⟩
  have hx := x.isLt
  have hy := y.isLt
  have hc := c.toNat_lt
  have hr := toNat_sum x y c
  have hlt := (sum x y c).isLt
  unfold Overflows signed
  rw [BitVec.toInt_eq_msb_cond, BitVec.toInt_eq_msb_cond, BitVec.toInt_eq_msb_cond]
  simp only [BitVec.msb_eq_decide, Nat.add_sub_cancel, decide_eq_true_eq, ne_eq, decide_eq_decide]
  unfold exact at hr
  rw [Nat.pow_succ] at *
  generalize 2 ^ n = m at *
  generalize (sum x y c).toNat = r at *
  generalize x.toNat = a at *
  generalize y.toNat = b at *
  generalize c.toNat = d at *
  have hr' : r = a + b + d ∨ r + m * 2 = a + b + d := by
    by_cases h : a + b + d < m * 2
    · rw [Nat.mod_eq_of_lt h] at hr
      exact .inl hr
    · rw [Nat.mod_eq_sub_mod (by omega), Nat.mod_eq_of_lt (by omega)] at hr
      exact .inr (by omega)
  split_ifs <;> omega

end AddWithCarry

end DolphinCore
