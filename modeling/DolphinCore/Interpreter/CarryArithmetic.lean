import DolphinCore.Interpreter.Registers
import DolphinCore.Lib.AddWithCarry

/-!
# DolphinCore.Interpreter.CarryArithmetic

The instructions that add with a carry, from `Interpreter_Integer.cpp`.  All of them write the sum
of their operands and the flags that belong to it, but for `addmex` and `subfmex`, which lose the
carry when one is added.
-/

namespace DolphinCore.PowerPC

open PowerPCState

def helper_Carry (value1 value2 : BitVec 32) : Bool := ~~~value1 < value2

def HasAddOverflowed (x y result : BitVec 32) : Bool :=
  ((x ^^^ result) &&& (y ^^^ result)) >>> 31 ≠ 0

/-! ## the instructions -/

def addic (inst : UGeckoInstruction) (s : PowerPCState) : PowerPCState :=
  let a := s.gpr inst.RA
  let imm := inst.SIMM_16.signExtend 32
  (s.setGPR inst.RD (a + imm)).setCarry (helper_Carry a imm)

def addic_rc (inst : UGeckoInstruction) (s : PowerPCState) : PowerPCState :=
  let s := addic inst s
  helper_UpdateCR0 (s.gpr inst.RD) s

/-- The operand is read again after the result is written. -/
def subfic (inst : UGeckoInstruction) (s : PowerPCState) : PowerPCState :=
  let immediate := inst.SIMM_16.signExtend 32
  let s := s.setGPR inst.RD (immediate - s.gpr inst.RA)
  s.setCarry (s.gpr inst.RA = 0 || helper_Carry (0 - s.gpr inst.RA) immediate)

/-- What the instructions with an overflow bit do with a result and a carry. -/
def writeResult (inst : UGeckoInstruction) (a b result : BitVec 32) (carry : Bool)
    (s : PowerPCState) : PowerPCState :=
  let s := (s.setGPR inst.RD result).setCarry carry
  let s := if inst.OE then s.setXER_OV (HasAddOverflowed a b result) else s
  if inst.Rc then helper_UpdateCR0 result s else s

def addcx (inst : UGeckoInstruction) (s : PowerPCState) : PowerPCState :=
  let a := s.gpr inst.RA
  let b := s.gpr inst.RB
  writeResult inst a b (a + b) (helper_Carry a b) s

def addex (inst : UGeckoInstruction) (s : PowerPCState) : PowerPCState :=
  let carry := s.getCarry
  let a := s.gpr inst.RA
  let b := s.gpr inst.RB
  writeResult inst a b (a + b + carry)
    (helper_Carry a b || (carry ≠ 0 && helper_Carry (a + b) carry)) s

def addmex (inst : UGeckoInstruction) (s : PowerPCState) : PowerPCState :=
  let carry := s.getCarry
  let a := s.gpr inst.RA
  let b := 0xFFFFFFFF
  writeResult inst a b (a + b + carry) (helper_Carry a (carry - 1)) s

def addzex (inst : UGeckoInstruction) (s : PowerPCState) : PowerPCState :=
  let carry := s.getCarry
  let a := s.gpr inst.RA
  writeResult inst a 0 (a + carry) (helper_Carry a carry) s

def subfcx (inst : UGeckoInstruction) (s : PowerPCState) : PowerPCState :=
  let a := ~~~s.gpr inst.RA
  let b := s.gpr inst.RB
  writeResult inst a b (a + b + 1) (a = 0xFFFFFFFF || helper_Carry b (a + 1)) s

def subfex (inst : UGeckoInstruction) (s : PowerPCState) : PowerPCState :=
  let a := ~~~s.gpr inst.RA
  let b := s.gpr inst.RB
  let carry := s.getCarry
  writeResult inst a b (a + b + carry) (helper_Carry a b || helper_Carry (a + b) carry) s

def subfmex (inst : UGeckoInstruction) (s : PowerPCState) : PowerPCState :=
  let a := ~~~s.gpr inst.RA
  let b := 0xFFFFFFFF
  let carry := s.getCarry
  writeResult inst a b (a + b + carry) (helper_Carry a (carry - 1)) s

def subfzex (inst : UGeckoInstruction) (s : PowerPCState) : PowerPCState :=
  let a := ~~~s.gpr inst.RA
  let carry := s.getCarry
  writeResult inst a 0 (a + carry) (helper_Carry a carry) s

/-- The instructions that add with a carry. -/
inductive Adding
  | addic
  | addic_rc
  | subfic
  | addcx
  | addex
  | addmex
  | addzex
  | subfcx
  | subfex
  | subfmex
  | subfzex
deriving DecidableEq

/-- What the interpreter does for an instruction. -/
def Adding.run : Adding → UGeckoInstruction → PowerPCState → PowerPCState
  | .addic => PowerPC.addic
  | .addic_rc => PowerPC.addic_rc
  | .subfic => PowerPC.subfic
  | .addcx => PowerPC.addcx
  | .addex => PowerPC.addex
  | .addmex => PowerPC.addmex
  | .addzex => PowerPC.addzex
  | .subfcx => PowerPC.subfcx
  | .subfex => PowerPC.subfex
  | .subfmex => PowerPC.subfmex
  | .subfzex => PowerPC.subfzex

/-! ## what they add -/

/-- The words that an instruction adds, and the carry. -/
def Adding.operands (op : Adding) (inst : UGeckoInstruction) (s : PowerPCState) :
    BitVec 32 × BitVec 32 × Bool :=
  let a := s.gpr inst.RA
  let b := s.gpr inst.RB
  let imm := inst.SIMM_16.signExtend 32
  let carry := s.xer_ca = 1
  match op with
  | .addic | .addic_rc => (a, imm, false)
  | .subfic => (~~~a, imm, true)
  | .addcx => (a, b, false)
  | .addex => (a, b, carry)
  | .addmex => (a, .allOnes 32, carry)
  | .addzex => (a, 0, carry)
  | .subfcx => (~~~a, b, true)
  | .subfex => (~~~a, b, carry)
  | .subfmex => (~~~a, .allOnes 32, carry)
  | .subfzex => (~~~a, 0, carry)

/-- Whether an instruction writes the overflow. -/
def Adding.writesOverflow : Adding → UGeckoInstruction → Bool
  | .addic, _ | .addic_rc, _ | .subfic, _ => false
  | _, inst => inst.OE

open AddWithCarry

/-- The sum is written, the carry, and the overflow, if it is enabled, which SO keeps. -/
structure Adds (inst : UGeckoInstruction) (x y : BitVec 32) (c oe : Bool)
    (s t : PowerPCState) : Prop where
  result : t.gpr = Function.update s.gpr inst.RD (sum x y c)
  carry : t.getCarry = if carryOut x y c then 1 else 0
  overflow : t.getXER_OV = if oe then (if Overflows x y c then 1 else 0) else s.getXER_OV
  sticky : t.getXER_SO = if oe ∧ Overflows x y c then 1 else s.getXER_SO

theorem helper_Carry_iff {x y : BitVec 32} :
    helper_Carry x y = true ↔ 2 ^ 32 ≤ x.toNat + y.toNat := by
  unfold helper_Carry
  rw [decide_eq_true_eq, not_lt_iff]

theorem hasAddOverflowed_sum {x y : BitVec 32} {c : Bool} :
    HasAddOverflowed x y (sum x y c) = decide (Overflows x y c) := by
  have hmsb : ∀ v : BitVec 32, v >>> 31 ≠ 0 ↔ v.msb = true := by
    intro v
    rw [BitVec.msb_eq_decide, decide_eq_true_eq]
    bv_omega
  unfold HasAddOverflowed
  rw [decide_eq_decide, hmsb, overflows_iff (by decide), BitVec.msb_and, BitVec.msb_xor,
    BitVec.msb_xor, Bool.and_eq_true, bne_iff_ne, bne_iff_ne]

/-- An instruction that writes the sum writes the flags of it if its carry is the right one. -/
theorem writeResult_adds {inst : UGeckoInstruction} {x y result : BitVec 32} {c carry : Bool}
    {s : PowerPCState} (hresult : result = sum x y c) :
    Adds inst x y c inst.OE s (writeResult inst x y result carry s) ↔ carry = carryOut x y c := by
  subst hresult
  have hgpr : (writeResult inst x y (sum x y c) carry s).gpr =
      Function.update s.gpr inst.RD (sum x y c) := by
    unfold writeResult
    cases inst.OE <;> cases inst.Rc <;> rfl
  have hcarry : (writeResult inst x y (sum x y c) carry s).getCarry = if carry then 1 else 0 := by
    rw [← getCarry_setCarry s]
    unfold writeResult
    cases inst.OE <;> cases inst.Rc <;> rfl
  have hflags : ∀ read : PowerPCState → BitVec 32,
      (∀ t, read (helper_UpdateCR0 (sum x y c) t) = read t) →
      read (writeResult inst x y (sum x y c) carry s) = read (if inst.OE then
          ((s.setGPR inst.RD (sum x y c)).setCarry carry).setXER_OV (Overflows x y c)
          else (s.setGPR inst.RD (sum x y c)).setCarry carry) := by
    intro read hread
    unfold writeResult
    rw [hasAddOverflowed_sum]
    cases inst.Rc with
    | true => exact hread _
    | false => rfl
  constructor
  · intro h
    have := hcarry.symm.trans h.carry
    cases hx : carryOut x y c <;> rw [hx] at this <;> revert this <;> cases carry <;> decide
  · rintro rfl
    refine ⟨hgpr, hcarry, ?_, ?_⟩
    · rw [hflags getXER_OV fun _ => rfl]
      cases inst.OE with
      | true => simp
      | false => rfl
    · rw [hflags getXER_SO fun _ => rfl]
      cases inst.OE with
      | true =>
        rw [if_pos rfl, getXER_SO_setXER_OV]
        simp only [decide_eq_true_eq, true_and]
        rfl
      | false => rfl

theorem setCarry_adds {inst : UGeckoInstruction} {x y result : BitVec 32} {c carry : Bool}
    {s : PowerPCState} (hresult : result = sum x y c) (hcarry : carry = carryOut x y c) :
    Adds inst x y c false s ((s.setGPR inst.RD result).setCarry carry) := by
  subst hresult hcarry
  exact ⟨rfl, getCarry_setCarry .., rfl, rfl⟩

/-! ## each instruction -/

variable (x y : BitVec 32) (inst : UGeckoInstruction)

theorem helper_Carry_eq : helper_Carry x y = carryOut x y false :=
  Bool.eq_iff_iff.mpr (decide_eq_true_iff.trans not_lt_iff_carryOut)

theorem helper_Carry_or_eq : (helper_Carry x y || helper_Carry (x + y) 1) = carryOut x y true := by
  rw [Bool.eq_iff_iff, Bool.or_eq_true, carryOut_true_iff, helper_Carry_iff, helper_Carry_iff,
    not_lt_iff]
  change _ ↔ _ ∨ x + y = 0xFFFFFFFF
  bv_omega

theorem helper_Carry_zero (x : BitVec 32) : helper_Carry x 0 = false := by
  rw [← Bool.not_eq_true, helper_Carry_iff]
  have := x.isLt
  simpa

theorem helper_Carry_one (x : BitVec 32) : helper_Carry x 1 = carryOut x 0 true := by
  rw [Bool.eq_iff_iff, helper_Carry_iff, carryOut_iff]
  rfl

theorem subfcx_carry : (x = 0xFFFFFFFF || helper_Carry y (x + 1)) = carryOut x y true := by
  rw [Bool.eq_iff_iff, Bool.or_eq_true, decide_eq_true_eq, helper_Carry_iff, carryOut_iff]
  change _ ↔ 2 ^ 32 ≤ x.toNat + y.toNat + 1
  bv_omega

theorem subfic_carry : (x = 0 || helper_Carry (0 - x) y) = carryOut (~~~x) y true := by
  rw [Bool.eq_iff_iff, Bool.or_eq_true, decide_eq_true_eq, helper_Carry_iff, carryOut_iff]
  change _ ↔ 2 ^ 32 ≤ (~~~x).toNat + y.toNat + 1
  bv_omega

theorem subfic_carry_replaced : (y - x = 0 || helper_Carry (0 - (y - x)) y)
    = carryOut (~~~x) y true := by
  rw [Bool.eq_iff_iff, Bool.or_eq_true, decide_eq_true_eq, helper_Carry_iff, carryOut_iff]
  change _ ↔ 2 ^ 32 ≤ (~~~x).toNat + y.toNat + 1
  bv_omega

theorem carryOut_allOnes (x : BitVec 32) : carryOut x (.allOnes 32) true = true := by
  rw [carryOut_iff]
  change 2 ^ 32 ≤ x.toNat + (2 ^ 32 - 1) + 1
  omega

theorem addic_adds (s : PowerPCState) :
    Adds inst (s.gpr inst.RA) (inst.SIMM_16.signExtend 32) false false s (addic inst s) :=
  setCarry_adds (sum_eq_add ..).symm (helper_Carry_eq ..)

theorem subfic_adds (s : PowerPCState) :
    Adds inst (~~~s.gpr inst.RA) (inst.SIMM_16.signExtend 32) true false s (subfic inst s) := by
  have hresult : inst.SIMM_16.signExtend 32 - s.gpr inst.RA =
      sum (~~~s.gpr inst.RA) (inst.SIMM_16.signExtend 32) true := by
    rw [sum_true_eq_add]
    bv_omega
  refine setCarry_adds hresult ?_
  change (Function.update s.gpr inst.RD _ inst.RA = 0 ||
    helper_Carry (0 - Function.update s.gpr inst.RD _ inst.RA) _ : Bool) = _
  by_cases hr : inst.RA = inst.RD
  · rw [hr, Function.update_self]
    exact subfic_carry_replaced ..
  · rw [Function.update_of_ne hr]
    exact subfic_carry ..

theorem addcx_adds (s : PowerPCState) :
    Adds inst (s.gpr inst.RA) (s.gpr inst.RB) false inst.OE s (addcx inst s) :=
  (writeResult_adds (sum_eq_add ..).symm).mpr (helper_Carry_eq ..)

theorem subfcx_adds (s : PowerPCState) :
    Adds inst (~~~s.gpr inst.RA) (s.gpr inst.RB) true inst.OE s (subfcx inst s) :=
  (writeResult_adds (sum_true_eq_add ..).symm).mpr (subfcx_carry ..)

theorem getCarry_cases (s : PowerPCState) : s.getCarry = 0 ∧ decide (s.xer_ca = 1) = false ∨
      s.getCarry = 1 ∧ decide (s.xer_ca = 1) = true := by
  unfold getCarry
  obtain h | h := s.xer_ca_cases <;> rw [h] <;> decide

theorem addex_adds (s : PowerPCState) :
    Adds inst (s.gpr inst.RA) (s.gpr inst.RB) (s.xer_ca = 1) inst.OE s (addex inst s) := by
  unfold addex
  obtain ⟨hcarry, hca⟩ | ⟨hcarry, hca⟩ := getCarry_cases s
  · rw [hcarry, hca]
    refine (writeResult_adds ?_).mpr ?_
    · exact (BitVec.add_zero _).trans (sum_eq_add ..).symm
    · exact (Bool.or_false _).trans (helper_Carry_eq ..)
  · rw [hcarry, hca]
    exact (writeResult_adds (sum_true_eq_add ..).symm).mpr (helper_Carry_or_eq ..)

theorem subfex_adds (s : PowerPCState) :
    Adds inst (~~~s.gpr inst.RA) (s.gpr inst.RB) (s.xer_ca = 1) inst.OE s (subfex inst s) := by
  unfold subfex
  obtain ⟨hcarry, hca⟩ | ⟨hcarry, hca⟩ := getCarry_cases s
  · rw [hcarry, hca]
    refine (writeResult_adds ?_).mpr ?_
    · exact (BitVec.add_zero _).trans (sum_eq_add ..).symm
    · rw [helper_Carry_zero, Bool.or_false]
      exact helper_Carry_eq ..
  · rw [hcarry, hca]
    exact (writeResult_adds (sum_true_eq_add ..).symm).mpr (helper_Carry_or_eq ..)

theorem addCarry_adds (x : BitVec 32) (s : PowerPCState) :
    Adds inst x 0 (s.xer_ca = 1) inst.OE s
      (writeResult inst x 0 (x + s.getCarry) (helper_Carry x s.getCarry) s) := by
  obtain ⟨hcarry, hca⟩ | ⟨hcarry, hca⟩ := getCarry_cases s
  · rw [hcarry, hca]
    exact (writeResult_adds (sum_eq_add ..).symm).mpr (helper_Carry_eq ..)
  · rw [hcarry, hca]
    refine (writeResult_adds ?_).mpr (helper_Carry_one x)
    rw [sum_true_eq_add]
    exact congrArg (· + 1#32) (BitVec.add_zero x).symm

theorem addMinusOne_adds_iff (x : BitVec 32) (s : PowerPCState) :
    Adds inst x (.allOnes 32) (s.xer_ca = 1) inst.OE s
      (writeResult inst x 0xFFFFFFFF (x + 0xFFFFFFFF + s.getCarry) (helper_Carry x (s.getCarry - 1))
        s) ↔ s.xer_ca ≠ 1 := by
  obtain ⟨hcarry, hca⟩ | ⟨hcarry, hca⟩ := getCarry_cases s
  · rw [hcarry, hca]
    refine iff_of_true ((writeResult_adds ?_).mpr (helper_Carry_eq ..)) (of_decide_eq_false hca)
    exact (BitVec.add_zero _).trans (sum_eq_add ..).symm
  · rw [hcarry, hca]
    refine iff_of_false (fun h => ?_) fun hne => hne (of_decide_eq_true hca)
    have hcarry' := (writeResult_adds (sum_true_eq_add ..).symm).mp h
    rw [carryOut_allOnes] at hcarry'
    exact Bool.false_ne_true ((helper_Carry_zero x).symm.trans hcarry')

/-! ## all of them -/

/-- The architected result of an instruction, in the state it leaves. -/
def Adding.Correct (op : Adding) (inst : UGeckoInstruction) (s t : PowerPCState) : Prop :=
  let (x, y, c) := op.operands inst s
  Adds inst x y c (op.writesOverflow inst) s t

/-- **The sum, the carry and the overflow of an instruction are the architected ones, unless it
adds minus one to an operand and a carry.** -/
theorem adding_correct_iff (op : Adding) (inst : UGeckoInstruction) (s : PowerPCState) :
    op.Correct inst s (op.run inst s) ↔ ¬ ((op = .addmex ∨ op = .subfmex) ∧ s.xer_ca = 1) := by
  cases op with
  | addic => exact iff_of_true (addic_adds inst s) nofun
  | addic_rc =>
    obtain ⟨hresult, hcarry, hoverflow, hsticky⟩ := addic_adds inst s
    exact iff_of_true ⟨hresult, hcarry, hoverflow, hsticky⟩ nofun
  | subfic => exact iff_of_true (subfic_adds inst s) nofun
  | addcx => exact iff_of_true (addcx_adds inst s) nofun
  | addex => exact iff_of_true (addex_adds inst s) nofun
  | addmex => exact (addMinusOne_adds_iff inst _ s).trans (by simp)
  | addzex => exact iff_of_true (addCarry_adds inst _ s) nofun
  | subfcx => exact iff_of_true (subfcx_adds inst s) nofun
  | subfex => exact iff_of_true (subfex_adds inst s) nofun
  | subfmex => exact (addMinusOne_adds_iff inst _ s).trans (by simp)
  | subfzex => exact iff_of_true (addCarry_adds inst _ s) nofun

/-- All registers zero, with a carry. -/
def withCarry : PowerPCState := ⟨fun _ => 0, fun _ => 0, 1, 0, by decide, by decide⟩

/-- `addme r3, r4` of zero and a carry: the sum of zero, minus one and one carries. -/
theorem addmex_loses_carry : ¬ Adding.Correct .addmex 0x7C6401D4 withCarry
    (Adding.run .addmex 0x7C6401D4 withCarry) := by
  intro h
  exact absurd h.carry (by decide)

end DolphinCore.PowerPC
