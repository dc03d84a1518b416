import DolphinCore.Lib.FinLiteral
import DolphinCore.Interpreter.Registers
import DolphinCore.Lib.Run
import DolphinCore.Lib.WordFields
import Mathlib.Tactic.IntervalCases

/-!
# DolphinCore.Interpreter.ConditionRegister

The condition register that instructions write through `cr_val` is read as the plain register of
32 bits that the architecture describes, as long as no zero is recorded while SO is set: such a
result is read as greater and equal.
-/

namespace DolphinCore.PowerPC

open PowerPCState

/-! ## the instructions -/

/-- An operation on two bits of the condition register. -/
def logical (f : Bool → Bool → Bool) (inst : UGeckoInstruction) (s : PowerPCState) : PowerPCState :=
  s.setCRBit inst.CRBD (f (s.getCRBit inst.CRBA) (s.getCRBit inst.CRBB))

def crand := logical fun a b => a && b
def crandc := logical fun a b => a && (true ^^ b)
def creqv := logical fun a b => true ^^ (a ^^ b)
def crnand := logical fun a b => true ^^ (a && b)
def crnor := logical fun a b => true ^^ (a || b)
def cror := logical fun a b => a || b
def crorc := logical fun a b => a || (true ^^ b)
def crxor := logical fun a b => a ^^ b

def mcrf (inst : UGeckoInstruction) (s : PowerPCState) : PowerPCState :=
  s.setCRField inst.CRFD (s.getCRField inst.CRFS)

def mfcr (inst : UGeckoInstruction) (s : PowerPCState) : PowerPCState :=
  s.setGPR inst.RD s.compactCR

/-- The bits of the fields that a mask names. -/
def crMask (crm : Nat) : BitVec 32 :=
  (List.range 8).foldl
    (fun mask i => if crm.testBit i then mask ||| (0xF <<< (i * 4)) else mask) 0#32

def mtcrf (inst : UGeckoInstruction) (s : PowerPCState) : PowerPCState :=
  if inst.CRM = 0xFF then s.expandCR (s.gpr inst.RS)
  else
    let mask := crMask inst.CRM
    s.expandCR ((s.compactCR &&& ~~~mask) ||| (s.gpr inst.RS &&& mask))

/-! ## the plain register -/

/-- A field, of four bits, the first one the highest. -/
def crField (cr : BitVec 32) (f : Nat) : BitVec 4 := WordFields.get 4 cr (7 - f)

def withCRField (cr : BitVec 32) (f : Nat) (v : BitVec 4) : BitVec 32 :=
  WordFields.put cr (7 - f) v

/-- A bit, the first one the highest. -/
def crBit (cr : BitVec 32) (i : Nat) : Bool := cr.getLsbD (31 - i)

def withCRBit (cr : BitVec 32) (i : Nat) (v : Bool) : BitVec 32 :=
  WordFields.put cr (31 - i) (BitVec.ofBool v)

/-- How a result compares with zero, and SO. -/
def recorded (value : BitVec 32) (so : Bool) : BitVec 4 :=
  BitVec.ofBool (value.toInt < 0) ++ BitVec.ofBool (0 < value.toInt) ++ BitVec.ofBool (value = 0) ++
    BitVec.ofBool so

/-! ## what is read back -/

@[simp] theorem fromInternal_PPCCRToInternal (v : BitVec 4) :
    fromInternal (PPCCRToInternal v) = v := by
  revert v
  decide

theorem getCRField_setCRField (s : PowerPCState) (f g : Nat) (v : BitVec 4) :
    (s.setCRField f v).getCRField g = if g = f then v else s.getCRField g := by
  change fromInternal (Function.update s.cr_val f (PPCCRToInternal v) g) = _
  by_cases h : g = f
  · subst h
    rw [Function.update_self, if_pos rfl, fromInternal_PPCCRToInternal]
  · rw [Function.update_of_ne h, if_neg h]
    rfl

theorem and_shift_ne_zero (r : BitVec 64) {i : Nat} (hi : i < 64) :
    r &&& (1#64 <<< i) ≠ 0 ↔ r.getLsbD i = true := by
  have hne : BitVec.twoPow 64 i ≠ 0#64 := by
    intro h
    have := congrArg (·.getLsbD i) h
    simp [hi] at this
  rw [← BitVec.twoPow_eq, BitVec.and_twoPow]
  cases r.getLsbD i <;> simp [hne]

theorem and_low_eq_zero (r : BitVec 64) : r &&& 0xFFFFFFFF = 0 ↔ r.setWidth 32 = 0 := by
  rw [← BitVec.toNat_inj, ← BitVec.toNat_inj, BitVec.toNat_and, BitVec.toNat_setWidth]
  exact iff_of_eq (congrArg (· = 0) (Nat.and_two_pow_sub_one_eq_mod _ 32))

theorem fromInternal_eq (r : BitVec 64) :
    fromInternal r = BitVec.ofBool (r.getLsbD 62) ++ BitVec.ofBool (0 < r.toInt) ++
      BitVec.ofBool (r.setWidth 32 = 0) ++ BitVec.ofBool (r.getLsbD 61) := by
  unfold fromInternal
  rw [if_congr (and_shift_ne_zero r (i := 61) (by decide)) rfl rfl,
    if_congr (and_shift_ne_zero r (i := 62) (by decide)) rfl rfl,
    if_congr (and_low_eq_zero r) rfl rfl]
  by_cases hgt : 0 < r.toInt <;> by_cases heq : r.setWidth 32 = 0 <;>
    cases r.getLsbD 61 <;> cases r.getLsbD 62 <;> simp only [hgt, heq] <;> decide

theorem getXER_SO_cases (s : PowerPCState) : s.getXER_SO = 0 ∧ decide (s.getXER_SO = 1) = false ∨
      s.getXER_SO = 1 ∧ decide (s.getXER_SO = 1) = true := by
  unfold getXER_SO
  obtain h | h | h | h := so_ov_cases s.xer_so_ov_le <;> rw [h] <;> decide

/-- The 64 bits that `Helper_UpdateCR0` makes of a result. -/
def extended (value : BitVec 32) (so : Bool) : BitVec 64 :=
  (value.signExtend 64 &&& ~~~(1#64 <<< 61)) ||| ((BitVec.ofBool so).setWidth 64 <<< 61)

theorem getCRField_helper_UpdateCR0 (value : BitVec 32) (s : PowerPCState) :
    (helper_UpdateCR0 value s).getCRField 0 = fromInternal (extended value (s.getXER_SO = 1)) := by
  change fromInternal ((value.signExtend 64 &&& ~~~(1#64 <<< 61)) |||
    (s.getXER_SO.setWidth 64 <<< 61)) = _
  obtain ⟨hso, -⟩ | ⟨hso, -⟩ := getXER_SO_cases s <;> rw [hso] <;> rfl

theorem getLsbD_extended (value : BitVec 32) (so : Bool) {j : Nat} (hj : j < 64) :
    (extended value so).getLsbD j =
      if j = 61 then so else if j < 32 then value.getLsbD j else value.msb := by
  unfold extended
  rw [BitVec.getLsbD_or, BitVec.getLsbD_and, BitVec.getLsbD_not, BitVec.getLsbD_signExtend,
    BitVec.getLsbD_shiftLeft, BitVec.getLsbD_shiftLeft]
  by_cases h : j = 61
  · subst h
    simp
  · have hone : (!decide (j < 61) && (1#64).getLsbD (j - 61)) = false := by
      rw [BitVec.getLsbD_one, Bool.and_eq_false_iff]
      by_cases hlt : j < 61
      · exact .inl (by simp [hlt])
      · exact .inr (by simp; omega)
    have hso : (!decide (j < 61) && ((BitVec.ofBool so).setWidth 64).getLsbD (j - 61)) = false := by
      rw [BitVec.getLsbD_setWidth, Bool.and_eq_false_iff, Bool.and_eq_false_iff]
      by_cases hlt : j < 61
      · exact .inl (by simp [hlt])
      · exact .inr (.inr (BitVec.getLsbD_of_ge _ _ (by omega)))
    simp only [hj, decide_true, Bool.true_and, hone, hso, Bool.not_false, Bool.and_true,
      Bool.or_false, h, if_false]

theorem setWidth_extended (value : BitVec 32) (so : Bool) :
    (extended value so).setWidth 32 = value := by
  apply BitVec.eq_of_getLsbD_eq
  intro j hj
  rw [BitVec.getLsbD_setWidth, decide_eq_true hj, Bool.true_and,
    getLsbD_extended value so (by omega), if_neg (by omega), if_pos hj]

theorem extended_pos_iff (value : BitVec 32) (so : Bool) :
    0 < (extended value so).toInt ↔ 0 ≤ value.toInt ∧ (value ≠ 0 ∨ so = true) := by
  have hmsb : (extended value so).msb = value.msb := by
    rw [BitVec.msb_eq_getLsbD_last, getLsbD_extended value so (by decide)]
    rfl
  have hzero : extended value so = 0 ↔ value = 0 ∧ so = false := by
    constructor
    · intro h
      have hvalue := setWidth_extended value so
      have hso := getLsbD_extended value so (j := 61) (by decide)
      rw [h] at hvalue hso
      exact ⟨hvalue.symm, hso.symm⟩
    · rintro ⟨rfl, rfl⟩
      rfl
  have hneg : (extended value so).toInt < 0 ↔ value.toInt < 0 := by
    have h := BitVec.msb_eq_toInt (x := extended value so)
    rw [hmsb, BitVec.msb_eq_toInt, decide_eq_decide] at h
    exact h.symm
  have hne : (extended value so).toInt = 0 ↔ value = 0 ∧ so = false := by
    rw [← hzero, ← BitVec.toInt_inj]
    rfl
  have hso : so = true ↔ ¬ so = false := by simp
  rw [hso, ne_eq, ← not_and_or, ← hne]
  omega

/-- **The field of a result is the recorded one, unless the result is zero and SO is set.** -/
theorem fromInternal_extended_iff (value : BitVec 32) (so : Bool) :
    fromInternal (extended value so) = recorded value so ↔ ¬ (value = 0 ∧ so = true) := by
  have hlt : (extended value so).getLsbD 62 = decide (value.toInt < 0) := by
    rw [getLsbD_extended value so (by decide), ← BitVec.msb_eq_toInt]
    rfl
  have hso : (extended value so).getLsbD 61 = so := getLsbD_extended value so (by decide)
  rw [fromInternal_eq, hlt, hso, setWidth_extended]
  unfold recorded
  have hzero : value = 0 ↔ value.toInt = 0 := by
    rw [← BitVec.toInt_inj]
    rfl
  constructor
  · rintro h ⟨rfl, rfl⟩
    exact absurd h (by decide)
  · intro h
    have : 0 < (extended value so).toInt ↔ 0 < value.toInt := by
      rw [extended_pos_iff, ne_eq, hzero]
      rw [hzero] at h
      cases so with
      | false => simp; omega
      | true =>
        have : value.toInt ≠ 0 := fun h0 => h ⟨h0, rfl⟩
        simp
        omega
    rw [decide_eq_decide.mpr this]

/-! ## fields and bits of the plain register -/

theorem crField_withCRField (cr : BitVec 32) {f g : Nat} (v : BitVec 4) (hf : f < 8) (hg : g < 8) :
    crField (withCRField cr f v) g = if g = f then v else crField cr g := by
  unfold crField withCRField
  rw [WordFields.get_put (by decide) _ (by omega)]
  exact if_congr (by omega) rfl rfl

theorem crField_ext {cr cr' : BitVec 32} (h : ∀ f, f < 8 → crField cr f = crField cr' f) :
    cr = cr' := by
  refine WordFields.ext (k := 4) (n := 8) (by decide) rfl fun i hi => ?_
  have := h (7 - i) (by omega)
  unfold crField at this
  rwa [show 7 - (7 - i) = i by omega] at this

theorem getLsbD_crField (cr : BitVec 32) {i : Nat} (hi : i < 32) :
    (crField cr (i / 4)).getLsbD (3 - i % 4) = crBit cr i := by
  unfold crField crBit
  rw [WordFields.getLsbD_get, decide_eq_true (by omega), Bool.true_and]
  congr 1
  omega

theorem crField_withCRBit (cr : BitVec 32) {i f : Nat} (v : Bool) (hi : i < 32) (hf : f < 8) :
    crField (withCRBit cr i v) f =
      if f = i / 4 then
        (if v then crField cr f ||| (8#4 >>> (i % 4)) else crField cr f &&& ~~~(8#4 >>> (i % 4)))
      else crField cr f := by
  have hput : ∀ j, j < 4 → (crField (withCRBit cr i v) f).getLsbD j =
      if 4 * (7 - f) + j = 31 - i then v else (crField cr f).getLsbD j := by
    intro j hj
    unfold crField withCRBit
    rw [WordFields.getLsbD_get, WordFields.getLsbD_get, WordFields.getLsbD_put _ _ _ (by decide)
      (by omega), decide_eq_true hj, Bool.true_and, Nat.div_one, Nat.mod_one]
    split
    · cases v <;> rfl
    · rfl
  have hbit : ∀ m, m < 4 → ∀ j, j < 4 → (8#4 >>> m).getLsbD j = decide (j = 3 - m) := by decide
  have hm := Nat.mod_lt i (y := 4) (by decide)
  apply BitVec.eq_of_getLsbD_eq
  intro j hj
  rw [hput j hj]
  by_cases hf' : f = i / 4
  · rw [if_pos hf']
    have hiff : 4 * (7 - f) + j = 31 - i ↔ j = 3 - i % 4 := by omega
    rw [if_congr hiff rfl rfl]
    cases v with
    | true =>
      rw [if_pos rfl, BitVec.getLsbD_or, hbit _ hm j hj]
      by_cases h : j = 3 - i % 4 <;> simp [h]
    | false =>
      rw [if_neg Bool.false_ne_true, BitVec.getLsbD_and, BitVec.getLsbD_not, hbit _ hm j hj]
      by_cases h : j = 3 - i % 4 <;> simp [h, hj]
  · rw [if_neg hf', if_neg (by omega)]

/-! ## how the register is read and written -/

/-- The fields of the plain register are read. -/
def Shows (s : PowerPCState) (cr : BitVec 32) : Prop :=
  ∀ f, f < 8 → s.getCRField f = crField cr f

/-- The registers of the interpreter show the plain register beside them. -/
def Matches (u : PowerPCState × BitVec 32) : Prop := Shows u.1 u.2

theorem Shows.getCRBit {s : PowerPCState} {cr : BitVec 32} (h : Shows s cr) {i : Nat}
    (hi : i < 32) : s.getCRBit i = crBit cr i := by
  unfold PowerPCState.getCRBit
  rw [h _ (by omega), getLsbD_crField cr hi]

theorem crField_compactCR (s : PowerPCState) {f : Nat} (hf : f < 8) :
    crField s.compactCR f = s.getCRField f := by
  apply BitVec.eq_of_getLsbD_eq
  intro j hj
  unfold crField compactCR
  rw [WordFields.getLsbD_get, decide_eq_true hj, Bool.true_and, WordFields.getLsbD_foldl_or,
    BitVec.getLsbD_zero, Bool.false_or, Bool.eq_iff_iff, List.any_eq_true]
  have hbit : ∀ i, i < 8 → (((s.getCRField i).setWidth 32 <<< (28 - i * 4)).getLsbD
      (4 * (7 - f) + j) = true ↔ i = f ∧ (s.getCRField i).getLsbD j = true) := by
    intro i hi
    rw [show 28 - i * 4 = 4 * (7 - i) by omega, WordFields.getLsbD_shift _ _ (by omega),
      Bool.and_eq_true, decide_eq_true_eq, show (4 * (7 - f) + j) % 4 = j by omega]
    exact and_congr_left' (by omega)
  constructor
  · rintro ⟨i, hi, h⟩
    obtain ⟨rfl, hread⟩ := (hbit i (List.mem_range.mp hi)).mp h
    exact hread
  · intro h
    exact ⟨f, List.mem_range.mpr hf, (hbit f hf).mpr ⟨rfl, h⟩⟩

theorem Shows.compactCR {s : PowerPCState} {cr : BitVec 32} (h : Shows s cr) : s.compactCR = cr :=
  crField_ext fun f hf => (crField_compactCR s hf).trans (h f hf)

theorem shows_compactCR (s : PowerPCState) : Shows s s.compactCR :=
  fun _ hf => (crField_compactCR s hf).symm

theorem shows_expandCR (s : PowerPCState) (cr : BitVec 32) : Shows (s.expandCR cr) cr := by
  have hfold : ∀ n g, ((List.range n).foldl
      (fun s i => s.setCRField i ((cr >>> (28 - i * 4)).setWidth 4)) s).getCRField g =
        if g < n then crField cr g else s.getCRField g := by
    intro n
    induction n with
    | zero => exact fun g => rfl
    | succ n ih =>
      intro g
      rw [List.range_succ, List.foldl_append, List.foldl_cons, List.foldl_nil,
        getCRField_setCRField, ih]
      by_cases h : g = n
      · subst h
        rw [if_pos rfl, if_pos (by omega)]
        unfold crField WordFields.get
        rw [show 28 - g * 4 = 4 * (7 - g) by omega]
      · rw [if_neg h]
        exact if_congr (by omega) rfl rfl
  intro f hf
  exact (hfold 8 f).trans (if_pos hf)

theorem getLsbD_crMask (crm : Nat) {j : Nat} (hj : j < 32) :
    (crMask crm).getLsbD j = crm.testBit (j / 4) := by
  have hstep : (fun (mask : BitVec 32) i =>
      if crm.testBit i then mask ||| (0xF <<< (i * 4)) else mask) =
      fun mask i => mask ||| (if crm.testBit i then (0xF#4).setWidth 32 <<< (4 * i) else 0) := by
    funext mask i
    rw [Nat.mul_comm]
    split
    · rfl
    · exact (BitVec.or_zero).symm
  have hbit : ∀ i, (if crm.testBit i then (0xF#4).setWidth 32 <<< (4 * i) else 0#32).getLsbD j =
      (decide (j / 4 = i) && crm.testBit i) := by
    intro i
    have hones : (0xF#4).getLsbD (j % 4) = true := by
      have : j % 4 < 4 := Nat.mod_lt _ (by decide)
      interval_cases j % 4 <;> rfl
    cases crm.testBit i with
    | true =>
      rw [if_pos rfl, WordFields.getLsbD_shift _ _ hj, hones]
    | false =>
      rw [if_neg Bool.false_ne_true, BitVec.getLsbD_zero, Bool.and_false]
  unfold crMask
  rw [hstep, WordFields.getLsbD_foldl_or, BitVec.getLsbD_zero, Bool.false_or, Bool.eq_iff_iff,
    List.any_eq_true]
  constructor
  · rintro ⟨i, -, h⟩
    obtain ⟨hi, h⟩ := Bool.and_eq_true_iff.mp ((hbit i).symm.trans h)
    rwa [of_decide_eq_true hi]
  · intro h
    exact ⟨j / 4, List.mem_range.mpr (by omega), (hbit _).trans (by simp [h])⟩

/-- The fields that a mask names are replaced. -/
def withFields (cr rs : BitVec 32) (crm : Nat) : BitVec 32 :=
  (List.range 8).foldl
    (fun cr f => if crm.testBit (7 - f) then withCRField cr f (crField rs f) else cr) cr

theorem crField_withFields (cr rs : BitVec 32) (crm : Nat) {g : Nat} (hg : g < 8) :
    crField (withFields cr rs crm) g =
      if crm.testBit (7 - g) then crField rs g else crField cr g := by
  have hfold : ∀ n, n ≤ 8 → crField ((List.range n).foldl
      (fun cr f => if crm.testBit (7 - f) then withCRField cr f (crField rs f) else cr) cr) g =
        if g < n ∧ crm.testBit (7 - g) then crField rs g else crField cr g := by
    intro n
    induction n with
    | zero => exact fun _ => rfl
    | succ n ih =>
      intro hn
      rw [List.range_succ, List.foldl_append, List.foldl_cons, List.foldl_nil]
      have ih := ih (by omega)
      by_cases h : g = n
      · subst h
        split
        · next hbit => rw [crField_withCRField _ _ hg hg, if_pos rfl, if_pos ⟨by omega, hbit⟩]
        · next hbit => rw [ih, if_neg (fun h => hbit h.2), if_neg (fun h => hbit h.2)]
      · have hlt : (g < n + 1 ∧ crm.testBit (7 - g) = true) ↔
            (g < n ∧ crm.testBit (7 - g) = true) := and_congr_left' (by omega)
        rw [if_congr hlt rfl rfl, ← ih]
        split
        · rw [crField_withCRField _ _ (by omega) hg, if_neg h]
        · rfl
  unfold withFields
  rw [hfold 8 (le_refl 8)]
  exact if_congr (and_iff_right hg) rfl rfl

theorem crField_mask (cr rs : BitVec 32) (crm : Nat) {g : Nat} (hg : g < 8) :
    crField ((cr &&& ~~~crMask crm) ||| (rs &&& crMask crm)) g =
      if crm.testBit (7 - g) then crField rs g else crField cr g := by
  apply BitVec.eq_of_getLsbD_eq
  intro j hj
  have hdiv : (4 * (7 - g) + j) / 4 = 7 - g := by omega
  have hlt : 4 * (7 - g) + j < 32 := by omega
  unfold crField
  rw [WordFields.getLsbD_get, BitVec.getLsbD_or, BitVec.getLsbD_and, BitVec.getLsbD_and,
    BitVec.getLsbD_not, getLsbD_crMask crm hlt, hdiv, decide_eq_true hlt]
  cases crm.testBit (7 - g) with
  | true =>
    rw [if_pos rfl, WordFields.getLsbD_get]
    simp
  | false =>
    rw [if_neg Bool.false_ne_true, WordFields.getLsbD_get]
    simp

/-! ## runs -/

/-- The instructions on bits of the condition register. -/
inductive Logical
  | crand
  | crandc
  | creqv
  | crnand
  | crnor
  | cror
  | crorc
  | crxor

/-- What the interpreter does for an instruction. -/
def Logical.run : Logical → UGeckoInstruction → PowerPCState → PowerPCState
  | .crand => PowerPC.crand
  | .crandc => PowerPC.crandc
  | .creqv => PowerPC.creqv
  | .crnand => PowerPC.crnand
  | .crnor => PowerPC.crnor
  | .cror => PowerPC.cror
  | .crorc => PowerPC.crorc
  | .crxor => PowerPC.crxor

/-- The operation that an instruction is named after. -/
def Logical.op : Logical → Bool → Bool → Bool
  | .crand => fun a b => a && b
  | .crandc => fun a b => a && !b
  | .creqv => fun a b => a == b
  | .crnand => fun a b => !(a && b)
  | .crnor => fun a b => !(a || b)
  | .cror => fun a b => a || b
  | .crorc => fun a b => a || !b
  | .crxor => fun a b => a != b

theorem logical_congr {f g : Bool → Bool → Bool} (h : ∀ a b, f a b = g a b) :
    logical f = logical g :=
  congrArg logical (funext fun a => funext (h a))

theorem Logical.run_eq (op : Logical) : op.run = PowerPC.logical op.op := by
  cases op with
  | crand => rfl
  | crandc => exact logical_congr (f := fun a b => a && (true ^^ b)) (by decide)
  | creqv => exact logical_congr (f := fun a b => true ^^ (a ^^ b)) (by decide)
  | crnand => exact logical_congr (f := fun a b => true ^^ (a && b)) (by decide)
  | crnor => exact logical_congr (f := fun a b => true ^^ (a || b)) (by decide)
  | cror => rfl
  | crorc => exact logical_congr (f := fun a b => a || (true ^^ b)) (by decide)
  | crxor => rfl

/-- What writes the condition register, and what writes other registers. -/
inductive CRAction
  | record (value : BitVec 32)
  | setField (f : Fin 8) (value : BitVec 4)
  | logical (op : Logical) (inst : UGeckoInstruction)
  | mcrf (inst : UGeckoInstruction)
  | mtcrf (inst : UGeckoInstruction)
  | others (t : PowerPCState)

/-- What the interpreter does. -/
def CRAction.run : CRAction → PowerPCState → PowerPCState
  | .record value, s => helper_UpdateCR0 value s
  | .setField f value, s => s.setCRField f value
  | .logical op inst, s => op.run inst s
  | .mcrf inst, s => PowerPC.mcrf inst s
  | .mtcrf inst, s => PowerPC.mtcrf inst s
  | .others t, s => { t with cr_val := s.cr_val }

/-- What becomes of the plain register. -/
def CRAction.plain : CRAction → PowerPCState → BitVec 32 → BitVec 32
  | .record value, s, cr => withCRField cr 0 (recorded value (s.getXER_SO = 1))
  | .setField f value, _, cr => withCRField cr f value
  | .logical op inst, _, cr =>
    withCRBit cr inst.CRBD (op.op (crBit cr inst.CRBA) (crBit cr inst.CRBB))
  | .mcrf inst, _, cr => withCRField cr inst.CRFD (crField cr inst.CRFS)
  | .mtcrf inst, s, cr => withFields cr (s.gpr inst.RS) inst.CRM
  | .others _, _, cr => cr

/-- The registers of the interpreter, and a plain register beside them. -/
def crStep (s : PowerPCState × BitVec 32) (a : CRAction) : Option (PowerPCState × BitVec 32) :=
  some (a.run s.1, a.plain s.1 s.2)

/-- No zero is recorded while SO is set. -/
def CRAction.Ok (s : PowerPCState) : CRAction → Prop
  | .record value => ¬ (value = 0 ∧ s.getXER_SO = 1)
  | _ => True

variable {s : PowerPCState} {cr : BitVec 32}

theorem Shows.setCRField (h : Shows s cr) {f : Nat} (hf : f < 8) (v : BitVec 4) :
    Shows (s.setCRField f v) (withCRField cr f v) := by
  intro g hg
  rw [getCRField_setCRField, crField_withCRField cr v hf hg]
  exact if_congr Iff.rfl rfl (h g hg)

theorem Shows.setCRBit (h : Shows s cr) {i : Nat} (hi : i < 32) (v : Bool) :
    Shows (s.setCRBit i v) (withCRBit cr i v) := by
  have hfield := h (i / 4) (by omega)
  intro g hg
  rw [crField_withCRBit cr v hi hg]
  unfold PowerPCState.setCRBit
  rw [hfield]
  cases v with
  | true =>
    rw [if_pos rfl, getCRField_setCRField]
    by_cases hg' : g = i / 4
    · subst hg'
      rw [if_pos rfl, if_pos rfl, if_pos rfl]
    · rw [if_neg hg', if_neg hg', h g hg]
  | false =>
    rw [if_neg Bool.false_ne_true, getCRField_setCRField]
    by_cases hg' : g = i / 4
    · subst hg'
      rw [if_pos rfl, if_pos rfl, if_neg Bool.false_ne_true]
    · rw [if_neg hg', if_neg hg', h g hg]

theorem Shows.record (h : Shows s cr) {value : BitVec 32}
    (hok : ¬ (value = 0 ∧ s.getXER_SO = 1)) :
    Shows (helper_UpdateCR0 value s) (withCRField cr 0 (recorded value (s.getXER_SO = 1))) := by
  intro g hg
  rw [crField_withCRField cr _ (by decide) hg]
  split
  · next hzero =>
    rw [hzero, getCRField_helper_UpdateCR0]
    exact (fromInternal_extended_iff ..).mpr (by rwa [decide_eq_true_eq])
  · next hne =>
    rw [← h g hg]
    unfold getCRField
    change fromInternal (Function.update s.cr_val 0 _ g) = _
    rw [Function.update_of_ne hne]

theorem Shows.mtcrf (h : Shows s cr) (inst : UGeckoInstruction) :
    Shows (PowerPC.mtcrf inst s) (withFields cr (s.gpr inst.RS) inst.CRM) := by
  intro g hg
  rw [crField_withFields _ _ _ hg]
  unfold PowerPC.mtcrf
  split
  · next hall =>
    have hbit : (0xFF : Nat).testBit (7 - g) = true := by
      interval_cases g <;> rfl
    rw [shows_expandCR _ _ g hg, hall, if_pos hbit]
  · rw [shows_expandCR _ _ g hg, h.compactCR, crField_mask _ _ _ hg]

theorem field_lt (inst : UGeckoInstruction) (lo len : Nat) : inst.field lo len < 2 ^ len :=
  Nat.mod_lt _ (Nat.two_pow_pos len)

theorem Shows.run (h : Shows s cr) {a : CRAction} (hok : a.Ok s) :
    Shows (a.run s) (a.plain s cr) := by
  cases a with
  | record value => exact h.record hok
  | setField f value => exact h.setCRField f.isLt value
  | logical op inst =>
    have hd : inst.CRBD < 32 := field_lt inst 21 5
    have ha : inst.CRBA < 32 := field_lt inst 16 5
    have hb : inst.CRBB < 32 := field_lt inst 11 5
    change Shows (op.run inst s) _
    rw [Logical.run_eq, PowerPC.logical, h.getCRBit ha, h.getCRBit hb]
    exact h.setCRBit hd _
  | mcrf inst =>
    have hd : inst.CRFD < 8 := field_lt inst 23 3
    have hs : inst.CRFS < 8 := field_lt inst 18 3
    change Shows (s.setCRField inst.CRFD (s.getCRField inst.CRFS)) _
    rw [h _ hs]
    exact h.setCRField hd _
  | mtcrf inst => exact h.mtcrf inst
  | others t => exact h

theorem matches_step {u v : PowerPCState × BitVec 32} {a : CRAction} (h : Matches u)
    (hok : a.Ok u.1) (hstep : crStep u a = some v) : Matches v := by
  obtain rfl := Option.some.inj hstep
  exact Shows.run h hok

theorem shows_run {s t : PowerPCState} {cr₀ cr : BitVec 32} (h : Shows s cr₀)
    (hrun : Run crStep (fun s a => a.Ok s.1) (s, cr₀) (t, cr)) : Shows t cr :=
  hrun.invariant (I := Matches) h fun _ _ _ hu hok hstep => matches_step hu hok hstep

/-- Everything that reads the condition register reads the plain one. -/
structure ReadsAs (s : PowerPCState) (cr : BitVec 32) : Prop where
  field : ∀ f, f < 8 → s.getCRField f = crField cr f
  bit : ∀ i, i < 32 → s.getCRBit i = crBit cr i
  mfcr : ∀ inst : UGeckoInstruction, (PowerPC.mfcr inst s).gpr inst.RD = cr

theorem Shows.readsAs (h : Shows s cr) : ReadsAs s cr where
  field := h
  bit _ hi := h.getCRBit hi
  mfcr inst := by
    change Function.update s.gpr inst.RD s.compactCR inst.RD = cr
    rw [Function.update_self, h.compactCR]

/-- The result is read back as it compares with zero, with SO. -/
structure ReadsRecorded (value : BitVec 32) (s t : PowerPCState) : Prop where
  field : t.getCRField 0 = recorded value (s.getXER_SO = 1)
  compact : crField t.compactCR 0 = recorded value (s.getXER_SO = 1)

/-- **A result is read back as recorded unless it is zero and SO is set; and as long as no such
result is recorded, the condition register is read as the plain one.** -/
theorem condition_register_reads (s : PowerPCState) :
    (∀ value, ReadsRecorded value s (helper_UpdateCR0 value s) ↔
      ¬ (value = 0 ∧ s.getXER_SO = 1)) ∧
    ∀ t cr, Run crStep (fun s a => a.Ok s.1) (s, s.compactCR) (t, cr) → ReadsAs t cr := by
  constructor
  · intro value
    have hiff : (helper_UpdateCR0 value s).getCRField 0 = recorded value (s.getXER_SO = 1) ↔
        ¬ (value = 0 ∧ s.getXER_SO = 1) := by
      rw [getCRField_helper_UpdateCR0, fromInternal_extended_iff, decide_eq_true_eq]
    constructor
    · exact fun h => hiff.mp h.field
    · intro h
      have hcompact := crField_compactCR (helper_UpdateCR0 value s) (Nat.zero_lt_succ 7)
      exact ⟨hiff.mpr h, hcompact.trans (hiff.mpr h)⟩
  · intro t cr hrun
    exact (shows_run (shows_compactCR s) hrun).readsAs

/-- All registers zero, with SO set or clear. -/
def withSO (so : Bool) : PowerPCState :=
  ⟨fun _ => 0, fun _ => 0, 0, if so then 2 else 0, by decide, by cases so <;> decide⟩

/-- A run that records a negative result. -/
theorem condition_register_reads_negative : ReadsAs (helper_UpdateCR0 0x80000000 (withSO true))
      (CRAction.plain (.record 0x80000000) (withSO true) (withSO true).compactCR) :=
  (condition_register_reads (withSO true)).2 _ _
    (.single (.record 0x80000000) (fun h => absurd h.1 (by decide)) rfl)

/-- Zero is read as greater than zero when SO is set. -/
theorem zero_recorded_with_SO :
    ¬ ReadsRecorded 0 (withSO true) (helper_UpdateCR0 0 (withSO true)) := by
  intro h
  exact absurd h.field (by decide)

end DolphinCore.PowerPC
