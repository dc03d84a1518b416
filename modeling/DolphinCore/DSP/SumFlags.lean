import DolphinCore.DSP.AccumulatorExtension
import DolphinCore.DSP.FlagSuppression

/-!
# DolphinCore.DSP.SumFlags

The sums, differences and comparisons of whole accumulators (`DSPIntArithmetic.cpp`): the 40 bits
they leave, and the flags they infer from the 64-bit values before and after.
-/

namespace DolphinCore.DSP

open Interpreter

/-! ## numbers of 40 bits -/

/-- The signed number of 40 bits that agrees with `x` in them. -/
def reduce40 (x : Int) : Int := (x + 2 ^ 39) % 2 ^ 40 - 2 ^ 39

/-- A signed number of 40 bits. -/
def IsS40 (x : Int) : Prop := -2 ^ 39 ≤ x ∧ x < 2 ^ 39

instance (x : Int) : Decidable (IsS40 x) := inferInstanceAs (Decidable (_ ∧ _))

theorem isS40_reduce40 (x : Int) : IsS40 (reduce40 x) := by
  unfold IsS40 reduce40
  omega

theorem reduce40_of_isS40 {x : Int} (hx : IsS40 x) : reduce40 x = x := by
  unfold IsS40 at hx
  unfold reduce40
  omega

/-! ## sums -/

/-- A sum or difference of an instruction: the accumulator, what is added to it or taken from it,
and whether the result is stored. -/
structure AccSum where
  acc : Fin 2
  subtracts : Bool
  operand : Int
  stores : Bool
  deriving DecidableEq

namespace AccSum

variable (m : AccSum) (r : Regs)

/-- The exact result. -/
def exact : Int := if m.subtracts then r.acc m.acc - m.operand else r.acc m.acc + m.operand

/-- The carry out of the 40 bits, or that none is borrowed. -/
def Carries : Prop :=
  if m.subtracts then m.operand % 2 ^ 40 ≤ r.acc m.acc % 2 ^ 40
  else 2 ^ 40 ≤ r.acc m.acc % 2 ^ 40 + m.operand % 2 ^ 40

/-- What the registers hold after it: the reduced result where it is stored, and the flags of it. -/
structure Computed (r' : Regs) : Prop where
  acc : ∀ i, r'.acc i = if m.stores = true ∧ i = m.acc then reduce40 (m.exact r) else r.acc i
  carry : r'.isFlagSet SR_CARRY = true ↔ m.Carries r
  overflow : r'.isFlagSet SR_OVERFLOW = true ↔ ¬ IsS40 (m.exact r)
  zero : r'.isFlagSet SR_ARITH_ZERO = true ↔ reduce40 (m.exact r) = 0
  sign : r'.isFlagSet SR_SIGN = true ↔ reduce40 (m.exact r) < 0
  overS32 : r'.isFlagSet SR_OVER_S32 = true ↔
    ¬ (-2 ^ 31 ≤ reduce40 (m.exact r) ∧ reduce40 (m.exact r) < 2 ^ 31)
  top2 : r'.isFlagSet SR_TOP2BITS = true ↔
    reduce40 (m.exact r) / 2 ^ 30 % 4 = 0 ∨ reduce40 (m.exact r) / 2 ^ 30 % 4 = 3

/-- Where the signs of accumulator, operand and result show whether the result is out of range. An
operand of 40 bits always does. -/
def SignsTell : Prop :=
  m.operand < 2 ^ 39 ∨
  if m.subtracts then
    0 ≤ r.acc m.acc ∧ -2 ^ 39 ≤ r.acc m.acc - m.operand ∨
      r.acc m.acc < 0 ∧ -2 ^ 40 ≤ r.acc m.acc - m.operand
  else
    0 ≤ r.acc m.acc ∧ r.acc m.acc + m.operand < 2 ^ 40 ∨
      r.acc m.acc < 0 ∧ r.acc m.acc + m.operand < 2 ^ 39

end AccSum

/-- The sum or difference an instruction computes. -/
def IntFunc.accSum (f : IntFunc) (opc imm : BitVec 16) (r : Regs) : Option AccSum :=
  let d := bit1 opc 8
  let ax := (axWord r (bits2 opc 9)).toInt * 2 ^ 16
  let acx := (r.getLongAcx (bit1 opc 9)).toInt
  let short := (opc.setWidth 8).toInt * 2 ^ 16
  match f with
  | .arith .addr => some ⟨d, false, ax, true⟩
  | .arith .addax => some ⟨d, false, acx, true⟩
  | .arith .add => some ⟨d, false, r.acc (1 - d), true⟩
  | .arith .addp => some ⟨d, false, r.prodValue, true⟩
  | .arithImm .addi => some ⟨d, false, imm.toInt * 2 ^ 16, true⟩
  | .arith .addis => some ⟨d, false, short, true⟩
  | .arith .incm => some ⟨d, false, 2 ^ 16, true⟩
  | .arith .inc => some ⟨d, false, 1, true⟩
  | .arith .subr => some ⟨d, true, ax, true⟩
  | .arith .subax => some ⟨d, true, acx, true⟩
  | .arith .sub => some ⟨d, true, r.acc (1 - d), true⟩
  | .arith .subp => some ⟨d, true, r.prodValue, true⟩
  | .arith .decm => some ⟨d, true, 2 ^ 16, true⟩
  | .arith .dec => some ⟨d, true, 1, true⟩
  | .arith .cmp => some ⟨0, true, r.acc 1, false⟩
  | .arith .cmpar => some ⟨bit1 opc 11, true, (r.ax (bit1 opc 12)).h.toInt * 2 ^ 16, false⟩
  | .arithImm .cmpi => some ⟨d, true, imm.toInt * 2 ^ 16, false⟩
  | .arith .cmpis => some ⟨d, true, short, false⟩
  | _ => none

/-! ## accumulators -/

theorem toInt_convertLongAcc (v : BitVec 64) :
    (Regs.convertLongAcc v).toInt = reduce40 v.toInt := by
  have hshift := ((Represents.self v).shiftLeft 24).emod_eq
  have hlo := BitVec.le_toInt (v <<< 24)
  have hhi := BitVec.toInt_lt (x := v <<< 24)
  rw [Regs.convertLongAcc, BitVec.toInt_sshiftRight, Int.shiftRight_eq_div_pow, reduce40]
  generalize (v <<< 24).toInt = y at *
  omega

theorem convertLongAcc_convertLongAcc (v : BitVec 64) :
    Regs.convertLongAcc (Regs.convertLongAcc v) = Regs.convertLongAcc v := by
  apply BitVec.eq_of_toInt_eq
  rw [toInt_convertLongAcc, toInt_convertLongAcc, reduce40_of_isS40 (isS40_reduce40 _)]

theorem convertLongAcc_getLongAcc (r : Regs) (i : Fin 2) :
    Regs.convertLongAcc (r.getLongAcc i) = r.getLongAcc i :=
  convertLongAcc_convertLongAcc _

theorem isS40_acc (r : Regs) (i : Fin 2) : IsS40 (r.acc i) := by
  unfold Regs.acc
  rw [← convertLongAcc_getLongAcc, toInt_convertLongAcc]
  exact isS40_reduce40 _

theorem getLongAcc_setLongAcc (r : Regs) (d : Fin 2) (v : BitVec 64) :
    (r.setLongAcc d v).getLongAcc d = Regs.convertLongAcc v := by
  have hwords : ((v.extractLsb' 32 16).setWidth 64 <<< 32 |||
      (v.extractLsb' 16 16).setWidth 64 <<< 16 ||| (v.extractLsb' 0 16).setWidth 64) <<< 24 =
      v <<< 24 := by
    apply BitVec.eq_of_getLsbD_eq
    intro k hk
    simp
    grind
  simp only [Regs.getLongAcc, Regs.setLongAcc, Function.update_self, hwords, Regs.convertLongAcc]

theorem getLongAcc_setLongAcc_of_ne (r : Regs) {d i : Fin 2} (h : i ≠ d) (v : BitVec 64) :
    (r.setLongAcc d v).getLongAcc i = r.getLongAcc i := by
  simp [Regs.setLongAcc, Regs.getLongAcc, h]

/-! ## flags of a result -/

theorem isFlagSet_updateSR (r : Regs) (val : BitVec 64) (carry overflow : Bool)
    {flag : BitVec 16} (hflag : flag &&& ~~~SR_CMP_MASK = 0) :
    (r.updateSR (.register64 val carry overflow)).isFlagSet flag =
      decide ((SRUpdate.register64 val carry overflow).sets &&& flag ≠ 0) := by
  have hclear : r.sr &&& ~~~SR_CMP_MASK &&& flag = 0 := by
    rw [BitVec.and_assoc, BitVec.and_comm _ flag, hflag]
    simp
  rw [Regs.isFlagSet, Regs.updateSR, SRUpdate.apply_eq]
  simp only [SRUpdate.clears, BitVec.and_comm _ flag, BitVec.and_or_distrib_left]
  rw [BitVec.and_comm flag (_ &&& _), hclear]
  simp

theorem resultFlags_and : ∀ c o z s v t : Bool,
    ((SRUpdate.resultFlags c o z s v t &&& SR_CARRY ≠ 0) ↔ c = true) ∧
    ((SRUpdate.resultFlags c o z s v t &&& SR_OVERFLOW ≠ 0) ↔ o = true) ∧
    ((SRUpdate.resultFlags c o z s v t &&& SR_ARITH_ZERO ≠ 0) ↔ z = true) ∧
    ((SRUpdate.resultFlags c o z s v t &&& SR_SIGN ≠ 0) ↔ s = true) ∧
    ((SRUpdate.resultFlags c o z s v t &&& SR_OVER_S32 ≠ 0) ↔ v = true) ∧
    ((SRUpdate.resultFlags c o z s v t &&& SR_TOP2BITS ≠ 0) ↔ t = true) := by
  decide

theorem msb_iff (v : BitVec 64) : v.msb = true ↔ v.toInt < 0 := by
  rw [BitVec.msb_eq_toInt, decide_eq_true_eq]

theorem eq_zero_iff (v : BitVec 64) : v = 0 ↔ v.toInt = 0 := by
  rw [← BitVec.toInt_inj]
  rfl

theorem ne_signExtend_iff (v : BitVec 64) :
    v ≠ (v.setWidth 32).signExtend 64 ↔ ¬ (-2 ^ 31 ≤ v.toInt ∧ v.toInt < 2 ^ 31) := by
  have hint : ((v.setWidth 32).signExtend 64).toInt = (v.setWidth 32).toInt :=
    BitVec.toInt_signExtend_of_le (by decide)
  have hlow := ((Represents.self v).setWidth (show 32 ≤ 64 by decide)).emod_eq
  have hlo := BitVec.le_toInt (v.setWidth 32)
  have hhi := BitVec.toInt_lt (x := v.setWidth 32)
  rw [ne_eq, ← BitVec.toInt_inj, hint]
  omega

theorem top2_iff (v : BitVec 64) : (v &&& 0xc0000000 = 0 ∨ v &&& 0xc0000000 = 0xc0000000) ↔
      v.toInt / 2 ^ 30 % 4 = 0 ∨ v.toInt / 2 ^ 30 % 4 = 3 := by
  have hmask : (0xc0000000 : BitVec 64) = 0xffffffff &&& ~~~0x3fffffff := by decide
  have hbits : (v &&& 0xc0000000).toNat = v.toNat % 2 ^ 32 - v.toNat % 2 ^ 32 % 2 ^ 30 := by
    rw [hmask, ← BitVec.and_assoc, toNat_and_not_mask _ 30 (by decide),
      toNat_and_mask v 32 (by decide)]
  have hint := Represents.iff_emod.mp (Represents.self v)
  have hzero : v &&& 0xc0000000 = 0 ↔ (v &&& 0xc0000000).toNat = 0 :=
    (BitVec.toNat_inj (y := 0)).symm
  have hall : v &&& 0xc0000000 = 0xc0000000 ↔ (v &&& 0xc0000000).toNat = 0xc0000000 :=
    (BitVec.toNat_inj (y := 0xc0000000)).symm
  rw [hzero, hall, hbits]
  omega

/-! ## carry and overflow -/

theorem lt_iff_of_isS40 {u v : BitVec 64} (hu : IsS40 u.toInt) (hv : IsS40 v.toInt) :
    u < v ↔ u.toInt % 2 ^ 40 < v.toInt % 2 ^ 40 := by
  have hu' := Represents.iff_emod.mp (Represents.self u)
  have hv' := Represents.iff_emod.mp (Represents.self v)
  have hvl := v.isLt
  unfold IsS40 at hu hv
  rw [BitVec.lt_def]
  omega

theorem isOverflow_iff (u v res : BitVec 64) : isOverflow u v res = true ↔
      (u.toInt < 0 ↔ ¬ res.toInt < 0) ∧ (v.toInt < 0 ↔ ¬ res.toInt < 0) := by
  rw [← msb_iff, ← msb_iff, ← msb_iff, isOverflow, BitVec.msb_and, BitVec.msb_xor, BitVec.msb_xor]
  cases u.msb <;> cases v.msb <;> cases res.msb <;> simp

/-- An operand stands for the exact one, which is of 40 bits or, for a product, one bit longer. -/
structure IsOperand (v : BitVec 64) (x : Int) : Prop where
  represents : Represents v x
  lower : -2 ^ 39 ≤ x
  upper : x < 2 ^ 40

theorem toInt_of_represents {v : BitVec 64} {x : Int} (hv : Represents v x) (hlo : -2 ^ 63 ≤ x)
    (hhi : x < 2 ^ 63) : v.toInt = x := by
  have hmod := hv.emod_eq
  have hlo' := BitVec.le_toInt v
  have hhi' := BitVec.toInt_lt (x := v)
  omega

theorem toInt_convertLongAcc_of_represents {v : BitVec 64} {x : Int} (hv : Represents v x) :
    (Regs.convertLongAcc v).toInt = reduce40 x := by
  have hmod := hv.emod_eq
  rw [toInt_convertLongAcc, reduce40, reduce40]
  omega

section Families

variable {r : Regs} {d : Fin 2} {v : BitVec 64} {x : Int}

theorem isCarry_iff (hv : IsOperand v x) :
    isCarry (r.getLongAcc d) (Regs.convertLongAcc (r.getLongAcc d + v)) = true ↔
      2 ^ 40 ≤ r.acc d % 2 ^ 40 + x % 2 ^ 40 := by
  have hacc := isS40_acc r d
  have hres := toInt_convertLongAcc_of_represents
    ((Represents.self (r.getLongAcc d)).add hv.represents)
  have hx := isS40_reduce40 (r.acc d + x)
  rw [isCarry, decide_eq_true_eq, gt_iff_lt, lt_iff_of_isS40 (hres ▸ hx) hacc, hres]
  unfold reduce40 Regs.acc
  omega

theorem isCarry2_iff (hv : IsOperand v x) :
    isCarry2 (r.getLongAcc d) (Regs.convertLongAcc (r.getLongAcc d - v)) = true ↔
      x % 2 ^ 40 ≤ r.acc d % 2 ^ 40 := by
  have hacc := isS40_acc r d
  have hres := toInt_convertLongAcc_of_represents
    ((Represents.self (r.getLongAcc d)).sub hv.represents)
  have hx := isS40_reduce40 (r.acc d - x)
  rw [isCarry2, decide_eq_true_eq, ge_iff_le, ← BitVec.not_lt,
    lt_iff_of_isS40 hacc (hres ▸ hx), hres]
  unfold reduce40 Regs.acc
  omega

theorem isOverflow_add_iff (hv : IsOperand v x) (stores : Bool) :
    (isOverflow (r.getLongAcc d) v (Regs.convertLongAcc (r.getLongAcc d + v)) = true ↔
      ¬ IsS40 (r.acc d + x)) ↔ AccSum.SignsTell ⟨d, false, x, stores⟩ r := by
  have hacc := isS40_acc r d
  have hres := toInt_convertLongAcc_of_represents
    ((Represents.self (r.getLongAcc d)).add hv.represents)
  have hlo := hv.lower
  have hhi := hv.upper
  rw [isOverflow_iff, hres, toInt_of_represents hv.represents (by omega) (by omega)]
  simp only [AccSum.SignsTell, Bool.false_eq_true, if_false]
  unfold IsS40 at hacc ⊢
  unfold reduce40 Regs.acc at *
  omega

theorem isOverflow_sub_iff (hv : IsOperand v x) (stores : Bool) :
    (isOverflow (r.getLongAcc d) (-v) (Regs.convertLongAcc (r.getLongAcc d - v)) = true ↔
      ¬ IsS40 (r.acc d - x)) ↔ AccSum.SignsTell ⟨d, true, x, stores⟩ r := by
  have hacc := isS40_acc r d
  have hres := toInt_convertLongAcc_of_represents
    ((Represents.self (r.getLongAcc d)).sub hv.represents)
  have hlo := hv.lower
  have hhi := hv.upper
  rw [isOverflow_iff, hres, toInt_of_represents hv.represents.neg (by omega) (by omega)]
  simp only [AccSum.SignsTell, if_true]
  unfold IsS40 at hacc ⊢
  unfold reduce40 Regs.acc at *
  omega

/-! ## families -/

theorem computed_of_update {m : AccSum} {p : Regs × SRUpdate} {val : BitVec 64}
    {carry overflow : Bool} (hp : p.2 = .register64 val carry overflow)
    (hacc : ∀ i, p.1.acc i = if m.stores = true ∧ i = m.acc then reduce40 (m.exact r) else r.acc i)
    (hval : val.toInt = reduce40 (m.exact r)) (hcarry : carry = true ↔ m.Carries r)
    (hover : (overflow = true ↔ ¬ IsS40 (m.exact r)) ↔ m.SignsTell r) :
    m.Computed r (p.1.updateSR p.2) ↔ m.SignsTell r := by
  obtain ⟨hc, ho, hz, hs, hv, ht⟩ := resultFlags_and carry overflow (val = 0) val.msb
    (val ≠ (val.setWidth 32).signExtend 64)
    (val &&& 0xc0000000 = 0 ∨ val &&& 0xc0000000 = 0xc0000000)
  have hflag (flag : BitVec 16) (h : flag &&& ~~~SR_CMP_MASK = 0) :
      (p.1.updateSR p.2).isFlagSet flag = true ↔
        (SRUpdate.register64 val carry overflow).sets &&& flag ≠ 0 := by
    rw [hp, isFlagSet_updateSR _ _ _ _ h, decide_eq_true_eq]
  have hoverflow := (hflag SR_OVERFLOW (by decide)).trans ho
  rw [← hover, ← hoverflow]
  refine ⟨fun h => h.overflow, fun h => ⟨hacc, ?_, h, ?_, ?_, ?_, ?_⟩⟩
  · exact ((hflag _ (by decide)).trans hc).trans hcarry
  · rw [← hval, ← eq_zero_iff, ← decide_eq_true_eq (p := val = 0)]
    exact (hflag _ (by decide)).trans hz
  · rw [← hval, ← msb_iff]
    exact (hflag _ (by decide)).trans hs
  · rw [← hval, ← ne_signExtend_iff, ← decide_eq_true_eq (p := val ≠ _)]
    exact (hflag _ (by decide)).trans hv
  · rw [← hval, ← top2_iff, ← decide_eq_true_eq (p := _ ∨ _)]
    exact (hflag _ (by decide)).trans ht

theorem acc_setLongAcc (hv : Represents v x) (i : Fin 2) :
    (r.setLongAcc d v).acc i = if i = d then reduce40 x else r.acc i := by
  unfold Regs.acc
  by_cases hi : i = d
  · rw [if_pos hi, hi, getLongAcc_setLongAcc, toInt_convertLongAcc_of_represents hv]
  · rw [if_neg hi, getLongAcc_setLongAcc_of_ne r hi]

theorem addTo_computed (hv : IsOperand v x) :
    AccSum.Computed ⟨d, false, x, true⟩ r ((addTo r d v).1.updateSR (addTo r d v).2) ↔
      AccSum.SignsTell ⟨d, false, x, true⟩ r := by
  have hsum : Represents (r.getLongAcc d + v) (r.acc d + x) :=
    (Represents.self (r.getLongAcc d)).add hv.represents
  refine computed_of_update (p := addTo r d v) rfl ?_ ?_ ?_ ?_
  · simpa [addTo, AccSum.exact] using acc_setLongAcc hsum
  · rw [getLongAcc_setLongAcc, toInt_convertLongAcc_of_represents hsum]
    rfl
  · rw [getLongAcc_setLongAcc, isCarry_iff hv]
    simp [AccSum.Carries]
  · rw [getLongAcc_setLongAcc]
    exact isOverflow_add_iff hv true

theorem subFrom_computed (hv : IsOperand v x) :
    AccSum.Computed ⟨d, true, x, true⟩ r ((subFrom r d v).1.updateSR (subFrom r d v).2) ↔
      AccSum.SignsTell ⟨d, true, x, true⟩ r := by
  have hdiff : Represents (r.getLongAcc d - v) (r.acc d - x) :=
    (Represents.self (r.getLongAcc d)).sub hv.represents
  refine computed_of_update (p := subFrom r d v) rfl ?_ ?_ ?_ ?_
  · simpa [subFrom, AccSum.exact] using acc_setLongAcc hdiff
  · rw [getLongAcc_setLongAcc, toInt_convertLongAcc_of_represents hdiff]
    rfl
  · rw [getLongAcc_setLongAcc, isCarry2_iff hv]
    simp [AccSum.Carries]
  · rw [getLongAcc_setLongAcc]
    exact isOverflow_sub_iff hv true

theorem compareWith_computed (hv : IsOperand v x) : AccSum.Computed ⟨d, true, x, false⟩ r
        ((compareWith r d v).1.updateSR (compareWith r d v).2) ↔
      AccSum.SignsTell ⟨d, true, x, false⟩ r := by
  have hdiff : Represents (r.getLongAcc d - v) (r.acc d - x) :=
    (Represents.self (r.getLongAcc d)).sub hv.represents
  refine computed_of_update (p := compareWith r d v) rfl ?_ ?_ ?_ ?_
  · simp [compareWith]
  · rw [toInt_convertLongAcc_of_represents hdiff]
    rfl
  · rw [isCarry2_iff hv]
    simp [AccSum.Carries]
  · exact isOverflow_sub_iff hv false

theorem IsOperand.of_isS40 (hv : Represents v x) (hx : IsS40 x) : IsOperand v x := by
  unfold IsS40 at hx
  exact ⟨hv, by omega, by omega⟩

theorem addTo_computed_of_isS40 (hv : Represents v x) (hx : IsS40 x) :
    AccSum.Computed ⟨d, false, x, true⟩ r ((addTo r d v).1.updateSR (addTo r d v).2) ↔ True :=
  (addTo_computed (.of_isS40 hv hx)).trans (iff_true_intro (.inl hx.2))

theorem subFrom_computed_of_isS40 (hv : Represents v x) (hx : IsS40 x) :
    AccSum.Computed ⟨d, true, x, true⟩ r ((subFrom r d v).1.updateSR (subFrom r d v).2) ↔ True :=
  (subFrom_computed (.of_isS40 hv hx)).trans (iff_true_intro (.inl hx.2))

theorem compareWith_computed_of_isS40 (hv : Represents v x) (hx : IsS40 x) :
    AccSum.Computed ⟨d, true, x, false⟩ r
        ((compareWith r d v).1.updateSR (compareWith r d v).2) ↔ True :=
  (compareWith_computed (.of_isS40 hv hx)).trans (iff_true_intro (.inl hx.2))

end Families

/-! ## operands -/

theorem isS40_atM {n : Nat} (x : BitVec n) (hn : n ≤ 16) : IsS40 (x.toInt * 2 ^ 16) := by
  have hlo := BitVec.le_toInt x
  have hhi := BitVec.toInt_lt (x := x)
  have hpow : (2 : Int) ^ (n - 1) ≤ 2 ^ 15 := by
    exact_mod_cast Nat.pow_le_pow_right (by decide) (by omega)
  unfold IsS40
  omega

theorem isS40_acx (r : Regs) (i : Fin 2) : IsS40 (r.getLongAcx i).toInt := by
  have hint : (r.getLongAcx i).toInt = ((r.ax i).h ++ (r.ax i).l).toInt :=
    BitVec.toInt_signExtend_of_le (by decide)
  have hlo := BitVec.le_toInt ((r.ax i).h ++ (r.ax i).l)
  have hhi := BitVec.toInt_lt (x := (r.ax i).h ++ (r.ax i).l)
  rw [hint]
  unfold IsS40
  omega

theorem prodValue_eq (r : Regs) : r.prodValue = (r.prod.h.setWidth 8).toInt * 2 ^ 32 +
    ((r.prod.m.toNat + r.prod.m2.toNat) * 2 ^ 16 + r.prod.l.toNat) := by
  have hdisjoint : (r.prod.m.setWidth 64 + r.prod.m2.setWidth 64) <<< 16 &&&
      r.prod.l.setWidth 64 = 0#64 := by
    generalize r.prod.m.setWidth 64 + r.prod.m2.setWidth 64 = mid
    apply BitVec.eq_of_getLsbD_eq
    intro k hk
    simp
    grind
  have hlow := (((represents_setWidth r.prod.m).add (represents_setWidth r.prod.m2)).shiftLeft
    16).add (represents_setWidth r.prod.l)
  rw [BitVec.add_eq_or_of_and_eq_zero _ _ hdisjoint] at hlow
  have hprod := ((represents_signExtend (r.prod.h.setWidth 8) (by decide)).shiftLeft 32).add hlow
  have hlo := BitVec.le_toInt (r.prod.h.setWidth 8)
  have hhi := BitVec.toInt_lt (x := r.prod.h.setWidth 8)
  have hm := r.prod.m.isLt
  have hm2 := r.prod.m2.isLt
  exact toInt_of_represents hprod (by omega) (by omega)

theorem isOperand_prod (r : Regs) : IsOperand r.getLongProd r.prodValue := by
  have hlo := BitVec.le_toInt (r.prod.h.setWidth 8)
  have hhi := BitVec.toInt_lt (x := r.prod.h.setWidth 8)
  have hm2 := r.prod.m2.isLt
  have hl := r.prod.l.isLt
  have hval := prodValue_eq r
  exact ⟨.self _, by omega, by omega⟩

/-! ## the instructions -/

/-- The product register is within 40 bits, or what it is added to keeps the signs telling. The
other instructions have operands of 40 bits. -/
def IntFunc.ProductTells (f : IntFunc) (opc : BitVec 16) (r : Regs) : Prop :=
  let a := r.acc (bit1 opc 8)
  let p := r.prodValue
  match f with
  | .arith .addp => p < 2 ^ 39 ∨ 0 ≤ a ∧ a + p < 2 ^ 40 ∨ a < 0 ∧ a + p < 2 ^ 39
  | .arith .subp => p < 2 ^ 39 ∨ 0 ≤ a ∧ -2 ^ 39 ≤ a - p ∨ a < 0 ∧ -2 ^ 40 ≤ a - p
  | _ => True

theorem represents_short (x : BitVec 8) : Represents (x.signExtend 64 <<< 16) (x.toInt * 2 ^ 16) :=
  (represents_signExtend x (by decide)).shiftLeft 16

theorem represents_mid : Represents (0x10000 : BitVec 64) (2 ^ 16) := rfl

theorem represents_one : Represents (1 : BitVec 64) 1 := rfl

variable {σ : Type} (io : Ifx σ)

/-- A sum or difference computes its reduced result and the flags of it if and only if the product
register, where it is an operand, is within 40 bits or keeps the signs telling. -/
theorem IntFunc.accSum_computed_iff (f : IntFunc) (opc : BitVec 16) (s : SDSP σ) (m : AccSum)
    (hm : f.accSum opc s.peekCode s.r = some m) :
    m.Computed s.r (f.exec io true opc s).r ↔ f.ProductTells opc s.r := by
  cases f with
  | arith f =>
    cases f with
    | addr =>
      obtain rfl := Option.some.inj hm
      exact addTo_computed_of_isS40 (represents_atM _) (isS40_atM _ (Nat.le_refl 16))
    | addax =>
      obtain rfl := Option.some.inj hm
      exact addTo_computed_of_isS40 (.self _) (isS40_acx _ _)
    | add =>
      obtain rfl := Option.some.inj hm
      exact addTo_computed_of_isS40 (.self _) (isS40_acc _ _)
    | addp =>
      obtain rfl := Option.some.inj hm
      exact addTo_computed (isOperand_prod _)
    | addis =>
      obtain rfl := Option.some.inj hm
      exact addTo_computed_of_isS40 (represents_short _) (isS40_atM _ (by decide))
    | incm =>
      obtain rfl := Option.some.inj hm
      exact addTo_computed_of_isS40 represents_mid (by decide)
    | inc =>
      obtain rfl := Option.some.inj hm
      exact addTo_computed_of_isS40 represents_one (by decide)
    | subr =>
      obtain rfl := Option.some.inj hm
      exact subFrom_computed_of_isS40 (represents_atM _) (isS40_atM _ (Nat.le_refl 16))
    | subax =>
      obtain rfl := Option.some.inj hm
      exact subFrom_computed_of_isS40 (.self _) (isS40_acx _ _)
    | sub =>
      obtain rfl := Option.some.inj hm
      exact subFrom_computed_of_isS40 (.self _) (isS40_acc _ _)
    | subp =>
      obtain rfl := Option.some.inj hm
      exact subFrom_computed (isOperand_prod _)
    | decm =>
      obtain rfl := Option.some.inj hm
      exact subFrom_computed_of_isS40 represents_mid (by decide)
    | dec =>
      obtain rfl := Option.some.inj hm
      exact subFrom_computed_of_isS40 represents_one (by decide)
    | cmp =>
      obtain rfl := Option.some.inj hm
      exact compareWith_computed_of_isS40 (.self _) (isS40_acc _ _)
    | cmpar =>
      obtain rfl := Option.some.inj hm
      exact compareWith_computed_of_isS40 (represents_atM _) (isS40_atM _ (Nat.le_refl 16))
    | cmpis =>
      obtain rfl := Option.some.inj hm
      exact compareWith_computed_of_isS40 (represents_short _) (isS40_atM _ (by decide))
    | _ => cases hm
  | arithImm f =>
    cases f with
    | addi =>
      obtain rfl := Option.some.inj hm
      exact addTo_computed_of_isS40 (represents_atM _) (isS40_atM _ (Nat.le_refl 16))
    | cmpi =>
      obtain rfl := Option.some.inj hm
      exact compareWith_computed_of_isS40 (represents_atM _) (isS40_atM _ (Nat.le_refl 16))
    | _ => cases hm
  | _ => cases hm

/-- `INC $AC0` at reset. -/
theorem accSum_computed_iff_inc : AccSum.Computed ⟨0, false, 1, true⟩ (SDSP.init (romWith [])).r
      ((IntFunc.arith .inc).exec noDevice true 0x7600 (SDSP.init (romWith []))).r :=
  (IntFunc.accSum_computed_iff noDevice (.arith .inc) 0x7600 (SDSP.init (romWith []))
    ⟨0, false, 1, true⟩ rfl).mpr trivial

/-- A product register with all of its two middle words set, and -1 in the accumulators. -/
def wideProduct : SDSP Unit :=
  { SDSP.init (romWith []) with
    r := { Regs.init with
      prod := ⟨0, 0xffff, 0x7f, 0xffff⟩
      ac := fun _ => ⟨0xffff, 0xffff, 0xffff⟩ } }

/-- `ADDP $AC0` there leaves the range of 40 bits and does not set the overflow flag. -/
theorem overflow_missed : (IntFunc.arith .addp).accSum 0x4e00 wideProduct.peekCode wideProduct.r =
      some ⟨0, false, 0x80fffe0000, true⟩ ∧
    ¬ AccSum.Computed ⟨0, false, 0x80fffe0000, true⟩ wideProduct.r
      ((IntFunc.arith .addp).exec noDevice true 0x4e00 wideProduct).r := by
  refine ⟨by decide, fun h => ?_⟩
  have hset := h.overflow.mpr (by decide)
  revert hset
  decide

end DolphinCore.DSP
