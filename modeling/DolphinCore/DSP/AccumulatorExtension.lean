import DolphinCore.DSP.Interpreter
import DolphinCore.Lib.Bits
import DolphinCore.Lib.Represents
import DolphinCore.Lib.Run

/-!
# DolphinCore.DSP.AccumulatorExtension

What the helpers and the extensions leave alone. An extension writes no
register itself: it changes the memories and the log, and at most a reset of
the core by the device shows in the wrapping registers and the program counter.

The high word of an accumulator should be the sign extension of its low byte,
so that the words read one by one give the 40 bits `getLongAcc` gives.

A write through the register number extends explicitly, and so do the loads
that extend an accumulator. An instruction that stores a whole accumulator
(`setLongAcc`) extends nothing: the high word is right exactly when bits 39 to
47 of the result are all equal, that is, when the result fits (for a shift to
the left: when the bits that leave the accumulator are its sign).
-/

namespace DolphinCore.DSP

variable {σ : Type} (io : Ifx σ)

/-! ## accumulators and products -/

/-- The registers the arithmetic works on. -/
structure Regs.Operands where
  prod : Prod
  ax : Fin 2 → Ax
  ac : Fin 2 → Acc
  sr : BitVec 16

def Regs.operands (r : Regs) : Regs.Operands := ⟨r.prod, r.ax, r.ac, r.sr⟩

namespace SDSP

variable (s : SDSP σ)

@[simp] theorem regStoreStack_ac (i : Fin 4) (val : BitVec 16) :
    (s.regStoreStack i val).r.ac = s.r.ac := rfl

@[simp] theorem regStackPop_ac (i : Fin 4) : (s.regStackPop i).r.ac = s.r.ac := rfl

@[simp] theorem reset_ac : s.reset.r.ac = s.r.ac := rfl

@[simp] theorem fetchCode_r : s.fetchCode.2.r = s.r := rfl

@[simp] theorem fetchCode_mem : s.fetchCode.2.mem = s.mem := rfl

@[simp] theorem dmemWrite_r (addr val : BitVec 16) : (s.dmemWrite io addr val).r = s.r := by
  unfold dmemWrite
  split
  · rfl
  · split <;> rfl

@[simp] theorem skipInst_r : s.skipInst.r = s.r := rfl

theorem dmemRead_eq (addr : BitVec 16) : ∃ m, (s.dmemRead io addr).2 = { s with mem := m } ∨
      (s.dmemRead io addr).2 = ({ s with mem := m } : SDSP σ).reset := by
  unfold dmemRead
  split
  · exact ⟨s.mem, .inl rfl⟩
  · split
    · exact ⟨s.mem, .inl rfl⟩
    · split
      · refine ⟨(io.read s.mem addr).2.1, ?_⟩
        cases h : (io.read s.mem addr).2.2 <;> simp [h]
      · exact ⟨s.mem, .inl rfl⟩

@[simp] theorem dmemRead_operands (addr : BitVec 16) :
    (s.dmemRead io addr).2.r.operands = s.r.operands := by
  obtain ⟨m, h | h⟩ := s.dmemRead_eq io addr
  · rw [h]
  · rw [h]
    rfl

@[simp] theorem dmemRead_ac (addr : BitVec 16) : (s.dmemRead io addr).2.r.ac = s.r.ac :=
  congrArg Regs.Operands.ac (s.dmemRead_operands io addr)

@[simp] theorem writeToBackLog_r (i : Fin 5) (idx : Nat) (val : BitVec 16) :
    (s.writeToBackLog i idx val).r = s.r := rfl

@[simp] theorem handleLoop_ac : (Interpreter.handleLoop s).r.ac = s.r.ac := by
  simp only [Interpreter.handleLoop, apply_ite SDSP.r, apply_ite Regs.ac, regStackPop_ac, ite_self]

@[simp] theorem handleLoopAtEnd_ac : s.handleLoopAtEnd.r.ac = s.r.ac := by
  simp only [handleLoopAtEnd, apply_ite SDSP.r, apply_ite Regs.ac, handleLoop_ac, ite_self]

@[simp] theorem checkExceptions_ac : s.checkExceptions.r.ac = s.r.ac := by
  unfold checkExceptions
  split <;> rfl

end SDSP

/-! ## the long view of an accumulator -/

theorem sshiftRight_shiftLeft_24 (x : BitVec 64) :
    (x <<< 24).sshiftRight 24 = (x.setWidth 40).signExtend 64 := by
  apply BitVec.eq_of_getLsbD_eq
  intro k hk
  rw [BitVec.getLsbD_sshiftRight, BitVec.getLsbD_signExtend, BitVec.msb_eq_getLsbD_last,
    BitVec.msb_eq_getLsbD_last]
  have h0 : ¬ 64 ≤ k := by omega
  by_cases h : k < 40
  · have h' : 24 + k < 64 := by omega
    simp [h, h', h0, hk]
  · have h' : ¬ 24 + k < 64 := by omega
    simp [h, h', h0, hk]

theorem words_setWidth (h m l : BitVec 16) :
    (h.setWidth 64 <<< 32 ||| m.setWidth 64 <<< 16 ||| l.setWidth 64).setWidth 40 =
      h.setWidth 8 ++ m ++ l := by
  apply BitVec.eq_of_getLsbD_eq
  intro k hk
  simp only [BitVec.getLsbD_setWidth, BitVec.getLsbD_or, BitVec.getLsbD_shiftLeft,
    BitVec.getLsbD_append]
  grind

theorem Regs.getLongAcc_eq (r : Regs) (i : Fin 2) :
    r.getLongAcc i = ((r.ac i).h.setWidth 8 ++ (r.ac i).m ++ (r.ac i).l).signExtend 64 := by
  rw [Regs.getLongAcc, sshiftRight_shiftLeft_24, words_setWidth]

/-! ## extensions -/

namespace Ext

variable (opc : BitVec 16) (s : SDSP σ)

theorem storeLoad_operands (dst src : Fin 4) (next3 next0 : Regs → BitVec 16) :
    (storeLoad io dst src next3 next0 opc s).r.operands = s.r.operands := by
  simp [storeLoad]

theorem loadTwo_operands (sreg : Fin 4) (dst1 dst2 : Nat) (next nextAr3 : Regs → BitVec 16) :
    (loadTwo io sreg dst1 dst2 next nextAr3 s).r.operands = s.r.operands := by
  simp [loadTwo]

theorem loadInto_operands (next : Regs → BitVec 16) :
    (loadInto io opc s next).r.operands = s.r.operands := by
  simp only [loadInto]
  split <;> simp

end Ext

theorem ExtFunc.exec_operands (f : ExtFunc) (opc : BitVec 16) (s : SDSP σ) :
    (f.exec io opc s).r.operands = s.r.operands := by
  cases f with
  | cw | nop => rfl
  | dr | ir | nr | mv => rfl
  | s => simp [exec, Ext.s]
  | sn => simp [exec, Ext.sn]
  | l | ln => exact Ext.loadInto_operands io opc s _
  | ls | sl | lsn | sln | lsm | slm | lsnm | slnm => exact Ext.storeLoad_operands io opc s _ _ _ _
  | ldax | ldaxn | ldaxm | ldaxnm => exact Ext.loadTwo_operands io s _ _ _ _ _
  | ld | ldn | ldm | ldnm => exact Ext.loadTwo_operands io s _ _ _ _ _

end DolphinCore.DSP

namespace DolphinCore.DSP

/-! ## extended accumulators -/

/-- The high word is the sign extension of its low byte. -/
def Acc.Extended (a : Acc) : Prop := a.h = (a.h.setWidth 8).signExtend 16

instance (a : Acc) : Decidable a.Extended := by unfold Acc.Extended; infer_instance

def Regs.AccsExtended (r : Regs) : Prop := ∀ i, (r.ac i).Extended

/-- The words of the accumulator, read through their register numbers, are the
number `getLongAcc` reads. -/
def Regs.WordsAgree (r : Regs) (i : Fin 2) : Prop :=
  (r.get (.ach i) ++ r.get (.acm i) ++ r.get (.acl i)).signExtend 64 = r.getLongAcc i

/-- Bits 39 to 47 of a number are all equal. -/
def TopBitsAlike (x : Int) : Prop := x / 2 ^ 39 % 2 ^ 9 = 0 ∨ x / 2 ^ 39 % 2 ^ 9 = 2 ^ 9 - 1

instance (x : Int) : Decidable (TopBitsAlike x) := by unfold TopBitsAlike; infer_instance

theorem topBitsAlike_congr {x y : Int} (h : x % 2 ^ 64 = y % 2 ^ 64) :
    TopBitsAlike x ↔ TopBitsAlike y := by
  unfold TopBitsAlike
  omega

theorem signExtend_byte_eq_iff (h : BitVec 16) :
    h = (h.setWidth 8).signExtend 16 ↔ h.toNat / 2 ^ 7 = 0 ∨ h.toNat / 2 ^ 7 = 2 ^ 9 - 1 := by
  rw [← BitVec.toNat_inj, BitVec.toNat_signExtend, BitVec.msb_eq_decide, BitVec.toNat_setWidth,
    BitVec.toNat_setWidth]
  simp only [decide_eq_true_eq]
  split <;> omega

theorem extended_high_iff (v : BitVec 64) :
    v.extractLsb' 32 16 = ((v.extractLsb' 32 16).setWidth 8).signExtend 16 ↔
      TopBitsAlike v.toInt := by
  rw [signExtend_byte_eq_iff, BitVec.extractLsb'_toNat, Nat.shiftRight_eq_div_pow, TopBitsAlike,
    BitVec.toInt_eq_toNat_cond]
  split <;> omega

variable {d : Fin 2}

theorem Regs.AccsExtended.set {r r' : Regs} {a : Acc} (h : r.AccsExtended) (ha : a.Extended)
    (hac : r'.ac = Function.update r.ac d a) : r'.AccsExtended := by
  intro i
  rw [hac]
  by_cases hi : i = d
  · rw [hi, Function.update_self]
    exact ha
  · rw [Function.update_of_ne hi]
    exact h i

theorem Regs.AccsExtended.setLongAcc {r : Regs} {v : BitVec 64} {x : Int} (h : r.AccsExtended)
    (hv : Represents v x) (hx : TopBitsAlike x) : (r.setLongAcc d v).AccsExtended :=
  have ha : Acc.Extended ⟨v.extractLsb' 0 16, v.extractLsb' 16 16, v.extractLsb' 32 16⟩ :=
    (extended_high_iff v).mpr ((topBitsAlike_congr hv.emod_eq).mpr hx)
  h.set ha rfl

theorem Regs.AccsExtended.setAcM {r : Regs} (h : r.AccsExtended) (val : BitVec 16) :
    (r.setAcM d val).AccsExtended :=
  h.set (a := { r.ac d with m := val }) (h d) rfl

theorem Regs.AccsExtended.setAcL {r : Regs} (h : r.AccsExtended) (val : BitVec 16) :
    (r.setAcL d val).AccsExtended :=
  h.set (a := { r.ac d with l := val }) (h d) rfl

/-! ## exact results -/

/-- The number in an accumulator. -/
def Regs.acc (r : Regs) (d : Fin 2) : Int := (r.getLongAcc d).toInt

/-- The number in the product register. -/
def Regs.prodValue (r : Regs) : Int := r.getLongProd.toInt

/-- Rounding to a multiple of `2 ^ 16`, half to even. -/
def roundToM (x : Int) : Int :=
  if x / 2 ^ 16 % 2 = 1 then (x + 0x8000) / 2 ^ 16 * 2 ^ 16 else (x + 0x7fff) / 2 ^ 16 * 2 ^ 16

/-- A shift to the right by a signed amount. -/
def shiftBy (x n : Int) : Int := if n > 0 then x / 2 ^ n.toNat else x * 2 ^ (-n).toNat

/-- The amount of `lsr` and `asr`. -/
def rightAmount (opc : BitVec 16) : Nat := if bits opc 0 6 = 0 then 0 else 0x40 - bits opc 0 6

open Interpreter

/-- The number an instruction of `DSPIntArithmetic.cpp` computes for a whole accumulator. -/
def ArithFunc.exactAcc (f : ArithFunc) (opc : BitVec 16) (r : Regs) : Option Int :=
  let d := bit1 opc 8
  match f with
  | .clr => some 0
  | .clrl => some (roundToM (r.acc d))
  | .addr => some (r.acc d + (axWord r (bits2 opc 9)).toInt * 2 ^ 16)
  | .addax => some (r.acc d + (r.getLongAcx (bit1 opc 9)).toInt)
  | .add => some (r.acc d + r.acc (1 - d))
  | .addp => some (r.acc d + r.prodValue)
  | .addaxl => some (r.acc d + (r.ax (bit1 opc 9)).l.toNat)
  | .addis => some (r.acc d + (opc.setWidth 8).toInt * 2 ^ 16)
  | .incm => some (r.acc d + 2 ^ 16)
  | .inc => some (r.acc d + 1)
  | .subr => some (r.acc d - (axWord r (bits2 opc 9)).toInt * 2 ^ 16)
  | .subax => some (r.acc d - (r.getLongAcx (bit1 opc 9)).toInt)
  | .sub => some (r.acc d - r.acc (1 - d))
  | .subp => some (r.acc d - r.prodValue)
  | .decm => some (r.acc d - 2 ^ 16)
  | .dec => some (r.acc d - 1)
  | .neg => some (-r.acc d)
  | .abs => some (if r.acc (bit1 opc 11) < 0 then -r.acc (bit1 opc 11) else r.acc (bit1 opc 11))
  | .movr => some ((axWord r (bits2 opc 9)).toInt * 2 ^ 16)
  | .movax => some (r.getLongAcx (bit1 opc 9)).toInt
  | .mov => some (r.acc (1 - d))
  | .lsl16 => some (r.acc d * 2 ^ 16)
  | .lsr16 => some (r.acc d % 2 ^ 40 / 2 ^ 16)
  | .asr16 => some (r.acc (bit1 opc 11) / 2 ^ 16)
  | .lsl | .asl => some (r.acc d * 2 ^ bits opc 0 6)
  | .lsr => some (r.acc d % 2 ^ 40 / 2 ^ rightAmount opc)
  | .asr => some (r.acc d / 2 ^ rightAmount opc)
  | .lsrn => some (shiftBy (r.acc 0 % 2 ^ 40) (shiftAmount (r.ac 1).m))
  | .asrn => some (shiftBy (r.acc 0) (shiftAmount (r.ac 1).m))
  | .lsrnrx => some (shiftBy (r.acc d % 2 ^ 40) (-shiftAmount (r.ax (bit1 opc 9)).h))
  | .asrnrx => some (shiftBy (r.acc d) (-shiftAmount (r.ax (bit1 opc 9)).h))
  | .lsrnr => some (shiftBy (r.acc d % 2 ^ 40) (-shiftAmount (r.ac (1 - d)).m))
  | .asrnr => some (shiftBy (r.acc d) (-shiftAmount (r.ac (1 - d)).m))
  | .tst | .tstaxh | .cmp | .cmpar | .cmpis => none
  | .xorr | .andr | .orr | .andc | .orc | .xorc | .notc => none

/-- The same for the instructions with an immediate. -/
def ArithImmFunc.exactAcc (f : ArithImmFunc) (opc imm : BitVec 16) (r : Regs) : Option Int :=
  match f with
  | .addi => some (r.acc (bit1 opc 8) + imm.toInt * 2 ^ 16)
  | _ => none

/-- The same for the multiplier. -/
def MultFunc.exactAcc (f : MultFunc) (opc : BitVec 16) (r : Regs) : Option Int :=
  let d := bit1 opc 8
  match f with
  | .movp => some r.prodValue
  | .movnp => some (-r.prodValue)
  | .movpz => some (roundToM r.prodValue)
  | .addpaxz =>
    some (roundToM r.prodValue + (r.getLongAcx (bit1 opc 9)).toInt / 2 ^ 16 * 2 ^ 16)
  | .mulac | .mulxac | .mulcac => some (r.acc d + r.prodValue)
  | .mulmv | .mulxmv | .mulcmv => some r.prodValue
  | .mulmvz | .mulxmvz | .mulcmvz => some (roundToM r.prodValue)
  | _ => none

def IntFunc.exactAcc (f : IntFunc) (opc imm : BitVec 16) (r : Regs) : Option Int :=
  match f with
  | .arith f => f.exactAcc opc r
  | .arithImm f => f.exactAcc opc imm r
  | .mult f => f.exactAcc opc r
  | _ => none

/-! ## what the stored values stand for -/

theorem represents_signExtend {w : Nat} (x : BitVec w) (hw : w ≤ 64) :
    Represents (x.signExtend 64) x.toInt := by
  rw [← BitVec.toInt_signExtend_of_le hw]
  exact .self _

theorem represents_atM (x : BitVec 16) : Represents (atM x) (x.toInt * 2 ^ 16) :=
  (represents_signExtend x (by decide)).shiftLeft 16

theorem represents_setWidth (x : BitVec 16) : Represents (x.setWidth 64) (x.toNat : Int) := by
  have h := Represents.ofNat (x.setWidth 64)
  rwa [BitVec.toNat_setWidth_of_le (by decide)] at h

theorem represents_negate (v : BitVec 64) : Represents (0 - v) (-v.toInt) := by
  exact (Represents.self v).neg

theorem represents_abs (v : BitVec 64) :
    Represents (if v.msb then 0 - v else v) (if v.toInt < 0 then -v.toInt else v.toInt) := by
  rw [BitVec.msb_eq_toInt]
  by_cases hneg : v.toInt < 0
  · rw [if_pos hneg, if_pos (decide_eq_true hneg)]
    exact represents_negate v
  · rw [if_neg hneg, if_neg (by simpa using hneg)]
    exact .self v

theorem represents_clearLow {v : BitVec 64} {x : Int} (hv : Represents v x) :
    Represents (v &&& ~~~0xffff) (x / 2 ^ 16 * 2 ^ 16) := by
  rw [Represents.iff_emod] at hv ⊢
  rw [toNat_and_not_mask v 16 (by decide)]
  omega

theorem and_bit16_ne_zero (v : BitVec 64) : v &&& 0x10000 ≠ 0 ↔ v.toInt / 2 ^ 16 % 2 = 1 := by
  have h := and_twoPow_ne_zero v (k := 16) (by decide)
  rw [show BitVec.twoPow 64 16 = 0x10000 by decide] at h
  rw [h, BitVec.toInt_eq_toNat_cond]
  split <;> omega

theorem represents_roundLongAcc (v : BitVec 64) :
    Represents (Regs.roundLongAcc v) (roundToM v.toInt) := by
  unfold Regs.roundLongAcc roundToM
  by_cases h : v &&& 0x10000 ≠ 0
  · rw [if_pos h, if_pos ((and_bit16_ne_zero v).mp h)]
    exact represents_clearLow ((Represents.self v).add (.self 0x8000))
  · rw [if_neg h, if_neg (mt (and_bit16_ne_zero v).mpr h)]
    exact represents_clearLow ((Represents.self v).add (.self 0x7fff))

theorem represents_low40 (v : BitVec 64) : Represents (low40 v) (v.toInt % 2 ^ 40) := by
  rw [Represents.iff_emod, low40, toNat_and_mask v 40 (by decide), BitVec.toInt_eq_toNat_cond]
  split <;> omega

theorem represents_low40_shiftRight (v : BitVec 64) (n : Nat) :
    Represents (low40 v >>> n) (v.toInt % 2 ^ 40 / 2 ^ n) := by
  have hlow : ((low40 v).toNat : Int) = v.toInt % 2 ^ 40 := by
    rw [low40, toNat_and_mask v 40 (by decide), BitVec.toInt_eq_toNat_cond]
    split <;> omega
  have h := Represents.ofNat (low40 v >>> n)
  rw [BitVec.toNat_ushiftRight, Nat.shiftRight_eq_div_pow] at h
  rw [← hlow]
  exact_mod_cast h

theorem represents_sshiftRight (v : BitVec 64) (n : Nat) :
    Represents (v.sshiftRight n) (v.toInt / 2 ^ n) := by
  have h := Represents.self (v.sshiftRight n)
  rwa [BitVec.toInt_sshiftRight, Int.shiftRight_eq_div_pow] at h

theorem represents_logicalRight (v : BitVec 64) (n : Int) :
    Represents (logicalRight (low40 v) n) (shiftBy (v.toInt % 2 ^ 40) n) := by
  unfold logicalRight shiftBy
  by_cases hpos : n > 0
  · rw [if_pos hpos, if_pos hpos]
    exact represents_low40_shiftRight v _
  · rw [if_neg hpos, if_neg hpos]
    split
    · exact (represents_low40 v).shiftLeft _
    · rw [show (-n).toNat = 0 by omega, Int.pow_zero, Int.mul_one]
      exact represents_low40 v

theorem represents_arithmeticRight (v : BitVec 64) (n : Int) :
    Represents (arithmeticRight v n) (shiftBy v.toInt n) := by
  unfold arithmeticRight shiftBy
  by_cases hpos : n > 0
  · rw [if_pos hpos, if_pos hpos]
    exact represents_sshiftRight v _
  · rw [if_neg hpos, if_neg hpos]
    split
    · exact (Represents.self v).shiftLeft _
    · rw [show (-n).toNat = 0 by omega, Int.pow_zero, Int.mul_one]
      exact .self v

/-! ## instructions -/

/-- Where the exact result of an instruction has its top bits alike. -/
def ResultFits (x : Option Int) : Prop := ∀ y, x = some y → TopBitsAlike y

theorem ResultFits.some {x : Int} (h : ResultFits (.some x)) : TopBitsAlike x := h x rfl

namespace Regs.AccsExtended

variable {r : Regs} {v : BitVec 64} {x : Int}

theorem storeAcc (h : r.AccsExtended) (hx : ResultFits (.some x)) (hv : Represents v x) :
    (storeAcc r d v).1.AccsExtended :=
  h.setLongAcc hv hx.some

theorem storeAccReread (h : r.AccsExtended) (hx : ResultFits (.some x)) (hv : Represents v x) :
    (storeAccReread r d v).1.AccsExtended :=
  h.setLongAcc hv hx.some

theorem addTo (h : r.AccsExtended) (hx : ResultFits (.some (r.acc d + x))) (hv : Represents v x) :
    (addTo r d v).1.AccsExtended :=
  h.setLongAcc ((Represents.self _).add hv) hx.some

theorem subFrom (h : r.AccsExtended) (hx : ResultFits (.some (r.acc d - x)))
    (hv : Represents v x) : (subFrom r d v).1.AccsExtended :=
  h.setLongAcc ((Represents.self _).sub hv) hx.some

theorem storeProdAcc (h : r.AccsExtended) {prod : BitVec 64} (hx : ResultFits (.some x))
    (hv : Represents v x) : (storeProdAcc r d prod v).1.AccsExtended :=
  Regs.AccsExtended.setLongAcc (r := r.setLongProd prod) h hv hx.some

end Regs.AccsExtended

theorem ArithFunc.exec_extended (f : ArithFunc) (opc : BitVec 16) {r : Regs}
    (h : r.AccsExtended) (hfit : ResultFits (f.exactAcc opc r)) :
    (f.exec opc r).1.AccsExtended := by
  cases f with
  | tst | tstaxh | cmp | cmpar | cmpis => exact h
  | xorr | andr | orr | andc | orc | xorc | notc => exact h.setAcM _
  | clr => exact h.storeAcc hfit (.self 0)
  | clrl => exact h.storeAcc hfit (represents_roundLongAcc _)
  | addr => exact h.addTo hfit (represents_atM _)
  | addax => exact h.addTo hfit (.self _)
  | add => exact h.addTo hfit (.self _)
  | addp => exact h.addTo hfit (.self _)
  | addaxl => exact h.addTo hfit (represents_setWidth _)
  | addis => exact h.addTo hfit ((represents_signExtend _ (by decide)).shiftLeft 16)
  | incm => exact h.addTo hfit (.self 0x10000)
  | inc => exact h.addTo hfit (.self 1)
  | subr => exact h.subFrom hfit (represents_atM _)
  | subax => exact h.subFrom hfit (.self _)
  | sub => exact h.subFrom hfit (.self _)
  | subp => exact h.subFrom hfit (.self _)
  | decm => exact h.subFrom hfit (.self 0x10000)
  | dec => exact h.subFrom hfit (.self 1)
  | neg => exact h.storeAccReread hfit (represents_negate _)
  | abs => exact h.storeAccReread hfit (represents_abs _)
  | movr =>
    have h' := represents_clearLow (represents_atM (axWord r (bits2 opc 9)))
    rw [Int.mul_ediv_cancel _ (by decide)] at h'
    exact h.storeAcc hfit h'
  | movax => exact h.storeAcc hfit (.self _)
  | mov => exact h.storeAcc hfit (.self _)
  | lsl16 => exact h.storeAccReread hfit ((Represents.self _).shiftLeft 16)
  | lsr16 => exact h.storeAccReread hfit (represents_low40_shiftRight _ 16)
  | asr16 => exact h.storeAccReread hfit (represents_sshiftRight _ 16)
  | lsl | asl => exact h.storeAccReread hfit ((Represents.self _).shiftLeft _)
  | lsr => exact h.storeAccReread hfit (represents_low40_shiftRight _ _)
  | asr => exact h.storeAccReread hfit (represents_sshiftRight _ _)
  | lsrn => exact h.storeAccReread hfit (represents_logicalRight _ _)
  | asrn => exact h.storeAccReread hfit (represents_arithmeticRight _ _)
  | lsrnrx => exact h.storeAccReread hfit (represents_logicalRight _ _)
  | asrnrx => exact h.storeAccReread hfit (represents_arithmeticRight _ _)
  | lsrnr => exact h.storeAccReread hfit (represents_logicalRight _ _)
  | asrnr => exact h.storeAccReread hfit (represents_arithmeticRight _ _)

theorem ArithImmFunc.exec_extended (f : ArithImmFunc) (opc imm : BitVec 16) {r : Regs}
    (h : r.AccsExtended) (hfit : ResultFits (f.exactAcc opc imm r)) :
    (f.exec opc imm r).1.AccsExtended := by
  cases f with
  | andcf | andf | cmpi => exact h
  | xori | andi | ori => exact h.setAcM _
  | addi => exact h.addTo hfit (represents_atM imm)

theorem MultFunc.exec_extended (f : MultFunc) (opc : BitVec 16) {r : Regs}
    (h : r.AccsExtended) (hfit : ResultFits (f.exactAcc opc r)) :
    (f.exec opc r).1.AccsExtended := by
  cases f with
  | clrp | tstprod | mulaxh | mul | mulx | mulc => exact h
  | maddx | msubx | maddc | msubc | madd | msub => exact h
  | movp => exact h.storeAcc hfit (.self _)
  | movnp => exact h.storeAcc hfit (Represents.self _).neg
  | movpz => exact h.storeAcc hfit (represents_roundLongAcc _)
  | addpaxz =>
    exact h.setLongAcc ((represents_roundLongAcc _).add (represents_clearLow (.self _))) hfit.some
  | mulac | mulxac | mulcac => exact h.storeProdAcc hfit ((Represents.self _).add (.self _))
  | mulmv | mulxmv | mulcmv => exact h.storeProdAcc hfit (.self _)
  | mulmvz | mulxmvz | mulcmvz => exact h.storeProdAcc hfit (represents_roundLongAcc _)

/-! ## writes through the register number -/

theorem Regs.AccsExtended.setAcH {r : Regs} (h : r.AccsExtended) {val : BitVec 16}
    (hval : val = (val.setWidth 8).signExtend 16) : (r.setAcH d val).AccsExtended :=
  h.set (a := { r.ac d with h := val }) hval rfl

theorem setWidth_signExtend_byte : ∀ x : BitVec 8, (x.signExtend 16).setWidth 8 = x := by
  decide

theorem Regs.AccsExtended.write {r : Regs} (h : r.AccsExtended) (val : BitVec 16) (x : Reg) :
    (r.set val x).AccsExtended := by
  cases x with
  | ach i => exact h.setAcH (by rw [setWidth_signExtend_byte])
  | acl i => exact h.setAcL val
  | acm i => exact h.setAcM val
  | _ => exact h

theorem Regs.AccsExtended.conditionalExtendAccum {r : Regs} (h : r.AccsExtended) (reg : Nat) :
    (r.conditionalExtendAccum reg).AccsExtended := by
  unfold Regs.conditionalExtendAccum
  split
  · split
    · exact (h.setAcH (by split <;> decide)).setAcL 0
    · exact h
  · exact h

variable {σ : Type} (io : Ifx σ)

namespace SDSP

variable {s : SDSP σ}

theorem opWriteReg_extended (h : s.r.AccsExtended) (reg : Nat) (val : BitVec 16) :
    (s.opWriteReg reg val).r.AccsExtended := by
  unfold opWriteReg
  split
  · exact h
  · exact h.write val _

theorem writeExtended_extended (h : s.r.AccsExtended) (reg : Nat) (val : BitVec 16) :
    (s.writeExtended reg val).r.AccsExtended :=
  (opWriteReg_extended h reg val).conditionalExtendAccum reg

theorem opReadReg_ac (reg : Nat) : (s.opReadReg reg).2.r.ac = s.r.ac := by
  unfold opReadReg
  split <;> rfl

theorem readForStore_ac (reg : Nat) : (s.readForStore reg).2.r.ac = s.r.ac := by
  unfold readForStore
  split
  · rfl
  · exact opReadReg_ac reg

theorem applyWriteBackLogFrom_extended (is : List (Fin 5)) :
    ∀ {s : SDSP σ}, s.r.AccsExtended → (s.applyWriteBackLogFrom is).r.AccsExtended := by
  induction is with
  | nil => exact id
  | cons i is ih =>
    intro s h
    unfold applyWriteBackLogFrom
    split
    · exact h
    · exact ih (opWriteReg_extended h _ _)

end SDSP

/-! ## steps -/

theorem Regs.AccsExtended.of_ac {r r' : Regs} (h : r.AccsExtended) (hac : r'.ac = r.ac) :
    r'.AccsExtended := by
  intro i
  rw [hac]
  exact h i

theorem lrr_extended {s : SDSP σ} (h : s.r.AccsExtended) (opc : BitVec 16) :
    (lrr io opc s).r.AccsExtended :=
  SDSP.writeExtended_extended (h.of_ac (s.dmemRead_ac io _)) _ _

theorem srr_ac (s : SDSP σ) (opc : BitVec 16) : (srr io opc s).r.ac = s.r.ac := by
  unfold srr
  rw [SDSP.dmemWrite_r]
  exact SDSP.readForStore_ac _

theorem ilrr_extended {s : SDSP σ} (h : s.r.AccsExtended) (opc : BitVec 16) :
    (ilrr opc s).r.AccsExtended :=
  (h.setAcM _).conditionalExtendAccum _

theorem LoadStoreFunc.exec_extended (f : LoadStoreFunc) (opc : BitVec 16) {s : SDSP σ}
    (h : s.r.AccsExtended) : (f.exec io opc s).r.AccsExtended := by
  cases f with
  | mrr => exact SDSP.writeExtended_extended (h.of_ac (SDSP.readForStore_ac _)) _ _
  | lri => exact SDSP.writeExtended_extended (s := s.fetchCode.2) h _ _
  | lris => exact SDSP.writeExtended_extended (s := s) h _ _
  | lrs => exact SDSP.writeExtended_extended (h.of_ac (s.dmemRead_ac io _)) _ _
  | lr => exact SDSP.writeExtended_extended (h.of_ac (s.fetchCode.2.dmemRead_ac io _)) _ _
  | srs =>
    refine h.of_ac ?_
    simp only [exec, Interpreter.srs, SDSP.dmemWrite_r]
    exact SDSP.readForStore_ac _
  | sr =>
    refine h.of_ac ?_
    simp only [exec, Interpreter.sr, SDSP.dmemWrite_r]
    exact SDSP.readForStore_ac _
  | si => exact h.of_ac (by simp [exec, Interpreter.si])
  | lrr | lrrd | lrri | lrrn => exact lrr_extended io h opc
  | srr | srrd | srri | srrn => exact h.of_ac (srr_ac io s opc)
  | ilrr | ilrrd | ilrri | ilrrn => exact ilrr_extended h opc

theorem startLoop_ac (s : SDSP σ) (cnt : BitVec 16) : (s.startLoop cnt).r.ac = s.r.ac := by
  unfold SDSP.startLoop
  split <;> rfl

theorem startBlockLoop_ac (s : SDSP σ) (cnt : BitVec 16) :
    (s.startBlockLoop cnt).r.ac = s.r.ac := by
  simp only [SDSP.startBlockLoop]
  split <;> rfl

theorem BranchFunc.exec_ac (f : BranchFunc) (opc : BitVec 16) (s : SDSP σ) :
    (f.exec opc s).r.ac = s.r.ac := by
  cases f with
  | call | jcc | ret | ifcc =>
    simp only [exec, Interpreter.call, Interpreter.jcc, Interpreter.ret, Interpreter.ifcc]
    split <;> rfl
  | callr | jmprcc =>
    simp only [exec, Interpreter.callr, Interpreter.jmprcc]
    split
    · exact SDSP.opReadReg_ac _
    · rfl
  | rti | halt => rfl
  | loop => exact (startLoop_ac _ _).trans (SDSP.opReadReg_ac _)
  | loopi => exact startLoop_ac _ _
  | bloop => exact (startBlockLoop_ac _ _).trans (SDSP.opReadReg_ac _)
  | bloopi => exact startBlockLoop_ac _ _

theorem IntFunc.exactAcc_congr (f : IntFunc) (opc imm : BitVec 16) {r r' : Regs}
    (h : r'.operands = r.operands) : f.exactAcc opc imm r' = f.exactAcc opc imm r := by
  obtain ⟨ar, ix, wr, st, cr, sr, prod, ax, ac⟩ := r
  obtain ⟨ar', ix', wr', st', cr', sr', prod', ax', ac'⟩ := r'
  cases h
  cases f with
  | arith f => cases f <;> rfl
  | arithImm f => cases f <;> rfl
  | mult f => cases f <;> rfl
  | _ => rfl

theorem SDSP.withRegs_extended {s : SDSP σ} {needed : Bool} {p : Regs × SRUpdate}
    (h : p.1.AccsExtended) : (s.withRegs needed p).r.AccsExtended := by
  cases needed <;> exact h

theorem IntFunc.exec_extended (needed : Bool) (f : IntFunc) (opc : BitVec 16) {s : SDSP σ}
    (h : s.r.AccsExtended) (hfit : ResultFits (f.exactAcc opc s.peekCode s.r)) :
    (f.exec io needed opc s).r.AccsExtended := by
  cases f with
  | nop => exact h
  | arith f => exact SDSP.withRegs_extended (f.exec_extended opc h hfit)
  | arithImm f => exact SDSP.withRegs_extended (f.exec_extended opc _ h hfit)
  | mult f => exact SDSP.withRegs_extended (f.exec_extended opc h hfit)
  | misc f => exact h.of_ac (by
    cases f with
    | srbith =>
      simp only [exec, MiscFunc.exec, Interpreter.srbith]
      split <;> rfl
    | _ => rfl)
  | loadStore f => exact f.exec_extended io opc h
  | branch f => exact h.of_ac (f.exec_ac opc s)

theorem executeInstruction_extended (needed : Bool) (inst : BitVec 16) {s : SDSP σ}
    (h : s.r.AccsExtended)
    (hfit : ResultFits ((getOpTemplate inst).intFunc.exactAcc inst s.peekCode s.r)) :
    (executeInstruction io needed inst s).r.AccsExtended := by
  unfold executeInstruction
  by_cases hext : (getOpTemplate inst).extended = true
  · simp only [hext, if_true]
    have hops := (getExtFunc inst).exec_operands io inst s
    refine SDSP.applyWriteBackLogFrom_extended _ (IntFunc.exec_extended io needed _ inst ?_ ?_)
    · exact h.of_ac (congrArg Regs.Operands.ac hops)
    · -- an extended function fetches no immediate
      rw [IntFunc.exactAcc_congr _ _ _ hops]
      have himm : ∀ imm imm', (getOpTemplate inst).intFunc.exactAcc inst imm s.r =
          (getOpTemplate inst).intFunc.exactAcc inst imm' s.r := by
        intro imm imm'
        have hparallel := isParallel_of_extended hext
        generalize (getOpTemplate inst).intFunc = f at hparallel ⊢
        cases f with
        | arithImm f => cases hparallel
        | _ => rfl
      rw [himm _ s.peekCode]
      exact hfit
  · simp only [hext]
    exact IntFunc.exec_extended io needed _ inst h hfit

/-- The instruction the next step executes, with the word after it. -/
def SDSP.nextInst (s : SDSP σ) : BitVec 16 × BitVec 16 :=
  (s.checkExceptions.peekCode, s.checkExceptions.fetchCode.2.peekCode)

/-- A step in which the number that is computed for a whole accumulator, if any,
has its top bits alike. -/
def StoresFit (s : SDSP σ) : CoreEvent σ → Prop
  | .step => ResultFits
      ((getOpTemplate s.nextInst.1).intFunc.exactAcc s.nextInst.1 s.nextInst.2 s.checkExceptions.r)
  | _ => True

theorem step_extended {s : SDSP σ} (h : s.r.AccsExtended) (hfit : StoresFit s .step) :
    (s.step io).r.AccsExtended := by
  have h' : s.checkExceptions.fetchCode.2.r.AccsExtended := h.of_ac s.checkExceptions_ac
  exact (executeInstruction_extended io true _ h' hfit).of_ac (SDSP.handleLoopAtEnd_ac _)

theorem event_extended {s t : SDSP σ} (a : CoreEvent σ) (h : s.r.AccsExtended)
    (hfit : StoresFit s a) (ht : s.event io a = some t) : t.r.AccsExtended := by
  cases a with
  | step =>
    cases ht
    exact step_extended io h hfit
  | externalInterrupt =>
    cases ht
    refine h.of_ac ?_
    unfold SDSP.checkExternalInterrupt
    split <;> rfl
  | device | control | reset =>
    cases ht
    exact h

theorem signExtend_words (x : BitVec 8) (m l : BitVec 16) :
    (x.signExtend 16 ++ m ++ l).signExtend 64 = (x ++ m ++ l).signExtend 64 := by
  apply BitVec.eq_of_getLsbD_eq
  intro k hk
  simp only [BitVec.getLsbD_signExtend, BitVec.getLsbD_append, BitVec.msb_append,
    BitVec.msb_signExtend]
  by_cases h : k < 40
  · grind
  · grind

theorem wordsAgree_of_extended {r : Regs} {i : Fin 2} (h : (r.ac i).Extended) : r.WordsAgree i := by
  show ((r.ac i).h ++ (r.ac i).m ++ (r.ac i).l).signExtend 64 = _
  rw [Regs.getLongAcc_eq, ← signExtend_words, ← h]

theorem extended_of_wordsAgree {r : Regs} {i : Fin 2} (h : r.WordsAgree i) : (r.ac i).Extended := by
  have h' : ((r.ac i).h ++ (r.ac i).m ++ (r.ac i).l).signExtend 64 = r.getLongAcc i := h
  rw [Regs.getLongAcc_eq, ← signExtend_words] at h'
  apply BitVec.eq_of_getLsbD_eq
  intro k hk
  have hbit := congrArg (·.getLsbD (k + 32)) h'
  grind

/-- **Extended accumulators**: in every run from reset in which every number computed
for a whole accumulator has bits 39 to 47 alike, the high words are extended
and the words of an accumulator agree with its 40 bits. -/
theorem accsExtended_of_run {mem : Mem σ} {s : SDSP σ}
    (h : Run (SDSP.event io) StoresFit (SDSP.init mem) s) :
    ∀ i, (s.r.ac i).Extended ∧ s.r.WordsAgree i := by
  have hinv : s.r.AccsExtended := h.invariant (I := fun s => s.r.AccsExtended)
    (fun _ => show (0 : BitVec 16) = (BitVec.setWidth 8 0).signExtend 16 by decide)
    (fun s a t hs hok ht => event_extended io a hs hok ht)
  exact fun i => ⟨hinv i, wordsAgree_of_extended (hinv i)⟩

/-! ## a run that leaves the range -/

/-- Memories with a program at the start of IROM, followed by `HALT`. -/
def romWith (program : List (BitVec 16)) : Mem Unit where
  iram _ := 0x0021
  irom a := program.getD a.toNat 0x0021
  dram _ := 0
  coef _ := 0
  exceptions := 0
  dev := ()

/-- A device that does nothing. -/
def noDevice : Ifx Unit where
  read m _ := (0, m, false)
  write m _ _ := m

theorem SDSP.handleLoopAtEnd_eq_self {s : SDSP σ} (h : s.r.st LoopAddress = 0) :
    s.handleLoopAtEnd = s := by
  unfold SDSP.handleLoopAtEnd Interpreter.handleLoop
  rw [h]
  split <;> rfl

theorem SDSP.stepWith_eq {s : SDSP σ} {needed : SDSP σ → Bool} (hexc : s.pendingException = none)
    (hloop : (executeInstruction io (needed s) s.peekCode s.fetchCode.2).r.st LoopAddress = 0) :
    s.stepWith io needed = executeInstruction io (needed s) s.peekCode s.fetchCode.2 := by
  have hs : s.checkExceptions = s := by
    unfold checkExceptions
    rw [hexc]
  unfold stepWith
  rw [hs]
  exact handleLoopAtEnd_eq_self hloop

theorem SDSP.step_eq {s : SDSP σ} (hexc : s.pendingException = none)
    (hloop : (executeInstruction io true s.peekCode s.fetchCode.2).r.st LoopAddress = 0) :
    s.step io = executeInstruction io true s.peekCode s.fetchCode.2 :=
  SDSP.stepWith_eq io hexc hloop

theorem accsExtended_of_run_inc : StoresFit (SDSP.init (romWith [0x7600])) .step ∧
      ∀ i, (((SDSP.init (romWith [0x7600])).step noDevice).r.ac i).Extended ∧
        ((SDSP.init (romWith [0x7600])).step noDevice).r.WordsAgree i := by
  have hfit : StoresFit (SDSP.init (romWith [0x7600])) .step := by
    have hinst : (SDSP.init (romWith [0x7600])).nextInst.1 = 0x7600 := by decide
    have hf : (getOpTemplate 0x7600).intFunc = .arith .inc := by decide
    intro y hy
    rw [hinst, hf] at hy
    have hy' : some (1 : Int) = some y := by
      rw [← hy]
      decide
    cases hy'
    decide
  exact ⟨hfit, accsExtended_of_run noDevice (Run.single .step hfit rfl)⟩

/-- `LRI $AC0.M, #0x8000` and `LSL16 $AC0`. -/
def shiftProgram : Mem Unit := romWith [0x009e, 0x8000, 0xf000]

/-- After two instructions from reset the high word is `0x8000`, and the words of the
accumulator are not its 40 bits. -/
theorem accumulator_not_extended :
    ∃ s, Run (SDSP.event noDevice) (fun _ _ => True) (SDSP.init shiftProgram) s ∧
      ¬ (s.r.ac 0).Extended ∧ ¬ s.r.WordsAgree 0 := by
  have hlri (s : SDSP Unit) : executeInstruction noDevice true 0x009e s = lri 0x009e s :=
    executeInstruction_eq (f := .loadStore .lri) (by decide) (by decide)
  have hlsl (s : SDSP Unit) : executeInstruction noDevice true 0xf000 s =
      (s.withRegs true (lsl16 0xf000 s.r)).applyWriteBackLog :=
    executeInstruction_extended_eq (f := .arith .lsl16) (g := .nop) (by decide)
      (by decide) (by decide)
  have h1 : (SDSP.init shiftProgram).step noDevice =
      lri 0x009e (SDSP.init shiftProgram).fetchCode.2 := by
    have hpeek : (SDSP.init shiftProgram).peekCode = 0x009e := by decide
    have hs := SDSP.step_eq noDevice (s := SDSP.init shiftProgram) (by decide)
    rw [hpeek, hlri] at hs
    exact hs (by decide)
  have h2 : ((SDSP.init shiftProgram).step noDevice).step noDevice =
      ((lri 0x009e (SDSP.init shiftProgram).fetchCode.2).fetchCode.2.withRegs true
        (lsl16 0xf000 (lri 0x009e (SDSP.init shiftProgram).fetchCode.2).r)).applyWriteBackLog := by
    have hpeek : (lri 0x009e (SDSP.init shiftProgram).fetchCode.2).peekCode = 0xf000 := by
      decide
    have hs := SDSP.step_eq noDevice (s := lri 0x009e (SDSP.init shiftProgram).fetchCode.2)
      (by decide)
    rw [hpeek, hlsl] at hs
    rw [h1]
    exact hs (by decide)
  have hac : (((SDSP.init shiftProgram).step noDevice).step noDevice).r.ac 0 =
      ⟨0x0000, 0x0000, 0x8000⟩ := by
    rw [h2]
    decide
  have hrun : Run (SDSP.event noDevice) (fun _ _ => True) (SDSP.init shiftProgram)
      (((SDSP.init shiftProgram).step noDevice).step noDevice) :=
    (Run.single .step trivial rfl).tail .step trivial rfl
  have hnot : ¬ Acc.Extended ⟨0x0000, 0x0000, 0x8000⟩ := by decide
  rw [← hac] at hnot
  exact ⟨_, hrun, hnot, fun h => hnot (extended_of_wordsAgree h)⟩

end DolphinCore.DSP
