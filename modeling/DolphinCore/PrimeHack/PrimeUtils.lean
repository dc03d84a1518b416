import DolphinCore.Lib.Bits
import DolphinCore.PrimeHack.PrimeMod

/-!
# DolphinCore.PrimeHack.PrimeUtils

The instructions that `PrimeUtils.h` assembles, and what the processor does with them: a branch that
is generated for a source and a target goes from the one to the other.
-/

namespace DolphinCore.PrimeHack

/-! ## generating instructions -/

def kBranchOffsetMask : BitVec 32 := 0x3fffffc

def genBranch (src dst : BitVec 32) : BitVec 32 := 0x48000000 ||| ((dst - src) &&& kBranchOffsetMask)

def genBranchLink (src dst : BitVec 32) : BitVec 32 := genBranch src dst ||| 1

def genLis (dst_gpr : BitVec 32) (val : BitVec 16) : BitVec 32 :=
  0b001111 <<< 26 ||| dst_gpr <<< 21 ||| 0 <<< 16 ||| val.setWidth 32

def genOri (dst_gpr src_gpr : BitVec 32) (val : BitVec 16) : BitVec 32 :=
  0b011000 <<< 26 ||| dst_gpr <<< 21 ||| src_gpr <<< 16 ||| val.setWidth 32

def getBranchOffset (instr : BitVec 32) : BitVec 32 :=
  let offset_masked := instr &&& kBranchOffsetMask
  if offset_masked &&& 0x2000000 ≠ 0 then offset_masked ||| 0xfc000000 else offset_masked

/-! ## the processor -/

/-- The fields of `UGeckoInstruction`. -/
def OPCD (inst : BitVec 32) : BitVec 6 := inst.extractLsb' 26 6

def LI (inst : BitVec 32) : BitVec 24 := inst.extractLsb' 2 24

def AA (inst : BitVec 32) : Bool := inst.getLsbD 1

def LK (inst : BitVec 32) : Bool := inst.getLsbD 0

def RD (inst : BitVec 32) : BitVec 5 := inst.extractLsb' 21 5

def RA (inst : BitVec 32) : BitVec 5 := inst.extractLsb' 16 5

def UIMM (inst : BitVec 32) : BitVec 16 := inst.extractLsb' 0 16

def signExt26 (x : BitVec 32) : BitVec 32 :=
  if x &&& 0x2000000 ≠ 0 then x ||| 0xfc000000 else x

/-- What a program sees besides the program counter; the last field is all that is not named. -/
structure Cpu (ρ : Type) where
  lr : BitVec 32
  gpr : BitVec 5 → BitVec 32
  mem : Memory
  rest : ρ

section

variable {ρ : Type}

/-- The interpreter's `bx`, as the next program counter and the state. -/
def bx (inst pc : BitVec 32) (s : Cpu ρ) : BitVec 32 × Cpu ρ :=
  let offset := signExt26 ((LI inst).setWidth 32 <<< 2)
  (if AA inst then offset else pc + offset, if LK inst then { s with lr := pc + 4 } else s)

/-- The interpreter's `addis` -/
def addis (inst : BitVec 32) (s : Cpu ρ) : Cpu ρ :=
  let shifted := (UIMM inst).setWidth 32 <<< 16
  { s with
    gpr := Function.update s.gpr (RD inst)
      (if RA inst ≠ 0 then s.gpr (RA inst) + shifted else shifted) }

/-- The interpreter's `ori`; its source register stands where others have the destination. -/
def ori (inst : BitVec 32) (s : Cpu ρ) : Cpu ρ :=
  { s with gpr := Function.update s.gpr (RA inst) (s.gpr (RD inst) ||| (UIMM inst).setWidth 32) }

/-- One instruction; `other` is what those do that are not modelled. -/
def execute (other : BitVec 32 → BitVec 32 → Cpu ρ → BitVec 32 × Cpu ρ) (inst pc : BitVec 32)
    (s : Cpu ρ) : BitVec 32 × Cpu ρ :=
  if OPCD inst = 18 then bx inst pc s
  else if OPCD inst = 15 then (pc + 4, addis inst s)
  else if OPCD inst = 24 then (pc + 4, ori inst s)
  else other inst pc s

/-- The instruction at the program counter. -/
def cpuStep (other : BitVec 32 → BitVec 32 → Cpu ρ → BitVec 32 × Cpu ρ) (c : BitVec 32 × Cpu ρ) :
    BitVec 32 × Cpu ρ :=
  execute other (c.2.mem c.1) c.1 c.2

end

/-! ## branches -/

/-- Both are word-aligned and less than 32 MiB apart. -/
structure Near (src dst : BitVec 32) : Prop where
  src_aligned : src.toNat % 4 = 0
  dst_aligned : dst.toNat % 4 = 0
  forward : dst.toNat < src.toNat + 0x2000000
  backward : src.toNat < dst.toNat + 0x2000000

theorem getLsbD_kBranchOffsetMask :
    ∀ i : Fin 32, kBranchOffsetMask.getLsbD i = decide (2 ≤ i.val ∧ i.val < 26) := by
  decide

theorem LI_shiftLeft (inst : BitVec 32) :
    (LI inst).setWidth 32 <<< 2 = inst &&& kBranchOffsetMask := by
  refine BitVec.eq_of_getLsbD_eq fun i hi => ?_
  have hmask : kBranchOffsetMask.getLsbD i = decide (2 ≤ i ∧ i < 26) :=
    getLsbD_kBranchOffsetMask ⟨i, hi⟩
  rw [BitVec.getLsbD_shiftLeft, BitVec.getLsbD_setWidth, LI, BitVec.getLsbD_extractLsb',
    BitVec.getLsbD_and, hmask]
  by_cases hlow : i < 2
  · simp [hlow, Nat.not_le.mpr hlow]
  · have hindex : 2 + (i - 2) = i := by omega
    have hwidth : i - 2 < 24 ↔ i < 26 := by omega
    have hlt : i - 2 < 32 := by omega
    simp [hi, hlow, hlt, hindex, hwidth, Nat.not_lt.mp hlow, Bool.and_comm]

theorem signExt26_LI (inst : BitVec 32) :
    signExt26 ((LI inst).setWidth 32 <<< 2) = getBranchOffset inst := by
  rw [LI_shiftLeft]
  rfl

theorem toNat_and_kBranchOffsetMask (v : BitVec 32) :
    (v &&& kBranchOffsetMask).toNat = v.toNat % 2 ^ 26 - v.toNat % 2 ^ 26 % 2 ^ 2 := by
  have hmask : kBranchOffsetMask = 0x3ffffff &&& ~~~3 := by decide
  rw [hmask, ← BitVec.and_assoc, toNat_and_not_mask _ 2 (by decide), toNat_and_mask _ 26 (by decide)]

variable {src dst : BitVec 32}

theorem toNat_sub_near (h : Near src dst) : (dst - src).toNat % 4 = 0 ∧
      ((dst - src).toNat < 0x2000000 ∨ 0x100000000 - 0x2000000 < (dst - src).toNat) := by
  have h1 := h.src_aligned
  have h2 := h.dst_aligned
  have h3 := h.forward
  have h4 := h.backward
  rw [BitVec.toNat_sub]
  omega

theorem signExt26_near (h : Near src dst) :
    signExt26 ((dst - src) &&& kBranchOffsetMask) = dst - src := by
  obtain ⟨haligned, hrange⟩ := toNat_sub_near h
  have hmask := toNat_and_kBranchOffsetMask (dst - src)
  have hsign : ((dst - src) &&& kBranchOffsetMask) &&& 0x2000000 ≠ 0 ↔
      ((dst - src) &&& kBranchOffsetMask).toNat / 2 ^ 25 % 2 = 1 :=
    and_twoPow_ne_zero _ (show 25 < 32 by decide)
  simp only [signExt26, hsign]
  rcases hrange with hforward | hbackward
  · rw [if_neg (by omega)]
    refine BitVec.eq_of_toNat_eq ?_
    omega
  · have hdisjoint : (dst - src) &&& kBranchOffsetMask &&& 0xfc000000 = 0#32 := by
      rw [BitVec.and_assoc, show kBranchOffsetMask &&& 0xfc000000 = 0#32 from by decide,
        BitVec.and_zero]
    rw [if_pos (by omega), ← BitVec.add_eq_or_of_and_eq_zero _ _ hdisjoint]
    refine BitVec.eq_of_toNat_eq ?_
    have hones : (0xfc000000 : BitVec 32).toNat = 0xfc000000 := rfl
    rw [BitVec.toNat_add, hones]
    omega

theorem genBranch_and_mask (src dst : BitVec 32) :
    genBranch src dst &&& kBranchOffsetMask = (dst - src) &&& kBranchOffsetMask := by
  rw [genBranch, BitVec.and_or_distrib_right, BitVec.and_assoc, BitVec.and_self,
    show 0x48000000 &&& kBranchOffsetMask = 0#32 from by decide, BitVec.zero_or]

theorem genBranchLink_and_mask (src dst : BitVec 32) :
    genBranchLink src dst &&& kBranchOffsetMask = (dst - src) &&& kBranchOffsetMask := by
  rw [genBranchLink, BitVec.and_or_distrib_right, genBranch_and_mask,
    show 1 &&& kBranchOffsetMask = 0#32 from by decide, BitVec.or_zero]

theorem getLsbD_genBranch (src dst : BitVec 32) {i : Nat} (hi : i < 32) (hout : ¬ (2 ≤ i ∧ i < 26)) :
    (genBranch src dst).getLsbD i = (0x48000000#32).getLsbD i := by
  have hmask : kBranchOffsetMask.getLsbD i = decide (2 ≤ i ∧ i < 26) :=
    getLsbD_kBranchOffsetMask ⟨i, hi⟩
  rw [genBranch, BitVec.getLsbD_or, BitVec.getLsbD_and, hmask, decide_eq_false hout, Bool.and_false,
    Bool.or_false]
  rfl

theorem OPCD_genBranch (src dst : BitVec 32) : OPCD (genBranch src dst) = 18 := by
  refine BitVec.eq_of_getLsbD_eq fun i hi => ?_
  rw [OPCD, BitVec.getLsbD_extractLsb', getLsbD_genBranch _ _ (by omega) (by omega)]
  revert i
  decide

section

variable {ρ : Type} {other : BitVec 32 → BitVec 32 → Cpu ρ → BitVec 32 × Cpu ρ} {s : Cpu ρ}

/-- **A generated branch goes to its target.** -/
theorem execute_genBranch (h : Near src dst) :
    execute other (genBranch src dst) src s = (dst, s) := by
  have hAA : AA (genBranch src dst) = false := getLsbD_genBranch _ _ (by decide) (by decide)
  have hLK : LK (genBranch src dst) = false := getLsbD_genBranch _ _ (by decide) (by decide)
  rw [execute, if_pos (OPCD_genBranch src dst), bx, LI_shiftLeft, genBranch_and_mask,
    signExt26_near h, hAA, hLK]
  simp

theorem execute_genBranchLink (h : Near src dst) :
    execute other (genBranchLink src dst) src s = (dst, { s with lr := src + 4 }) := by
  have hbit (i : Nat) (hi : i < 32) (hout : ¬ (2 ≤ i ∧ i < 26)) :
      (genBranchLink src dst).getLsbD i = (0x48000001#32).getLsbD i := by
    rw [genBranchLink, BitVec.getLsbD_or, getLsbD_genBranch _ _ hi hout, ← BitVec.getLsbD_or]
    rfl
  have hOPCD : OPCD (genBranchLink src dst) = 18 := by
    refine BitVec.eq_of_getLsbD_eq fun i hi => ?_
    rw [OPCD, BitVec.getLsbD_extractLsb', hbit _ (by omega) (by omega)]
    revert i
    decide
  have hAA : AA (genBranchLink src dst) = false := hbit 1 (by decide) (by decide)
  have hLK : LK (genBranchLink src dst) = true := hbit 0 (by decide) (by decide)
  rw [execute, if_pos hOPCD, bx, LI_shiftLeft, genBranchLink_and_mask, signExt26_near h, hAA, hLK]
  simp

theorem execute_bl {inst pc : BitVec 32} (hOPCD : OPCD inst = 18) (hAA : AA inst = false)
    (hLK : LK inst = true) :
    execute other inst pc s = (pc + getBranchOffset inst, { s with lr := pc + 4 }) := by
  rw [execute, if_pos hOPCD, bx, signExt26_LI, hAA, hLK]
  rfl

/-! ## loading an address -/

theorem extractLsb'_or_imm {k n : Nat} (hk : 16 ≤ k) (head : BitVec 32) (val : BitVec 16) :
    (head ||| val.setWidth 32).extractLsb' k n = head.extractLsb' k n := by
  refine BitVec.eq_of_getLsbD_eq fun i hi => ?_
  have hnone : val.getLsbD (k + i) = false := BitVec.getLsbD_of_ge _ _ (by omega)
  rw [BitVec.getLsbD_extractLsb', BitVec.getLsbD_extractLsb', BitVec.getLsbD_or,
    BitVec.getLsbD_setWidth, hnone, Bool.and_false, Bool.or_false]

theorem UIMM_or_imm {head : BitVec 32} (hhead : UIMM head = 0) (val : BitVec 16) :
    UIMM (head ||| val.setWidth 32) = val := by
  refine BitVec.eq_of_getLsbD_eq fun i hi => ?_
  have hzero : head.getLsbD i = false := by
    have hbit := congrArg (·.getLsbD i) hhead
    simpa [UIMM, hi] using hbit
  rw [UIMM, BitVec.getLsbD_extractLsb', Nat.zero_add, BitVec.getLsbD_or, hzero, Bool.false_or,
    BitVec.getLsbD_setWidth, decide_eq_true hi, decide_eq_true (show i < 32 by omega)]
  rfl

theorem execute_genLis (val : BitVec 16) (pc : BitVec 32) : execute other (genLis 11 val) pc s =
      (pc + 4, { s with gpr := Function.update s.gpr 11 (val.setWidth 32 <<< 16) }) := by
  have hlis : genLis 11 val = 0x3d600000 ||| val.setWidth 32 := rfl
  have hOPCD : OPCD (0x3d600000 ||| val.setWidth 32) = 15 := extractLsb'_or_imm (by decide) _ val
  have hRD : RD (0x3d600000 ||| val.setWidth 32) = 11 := extractLsb'_or_imm (by decide) _ val
  have hRA : RA (0x3d600000 ||| val.setWidth 32) = 0 := extractLsb'_or_imm (by decide) _ val
  rw [hlis, execute, hOPCD, if_neg (by decide), if_pos rfl, addis, hRD, hRA,
    UIMM_or_imm (by decide)]
  rfl

theorem execute_genOri (val : BitVec 16) (pc : BitVec 32) : execute other (genOri 11 11 val) pc s =
      (pc + 4, { s with gpr := Function.update s.gpr 11 (s.gpr 11 ||| val.setWidth 32) }) := by
  have hori : genOri 11 11 val = 0x616b0000 ||| val.setWidth 32 := rfl
  have hOPCD : OPCD (0x616b0000 ||| val.setWidth 32) = 24 := extractLsb'_or_imm (by decide) _ val
  have hRD : RD (0x616b0000 ||| val.setWidth 32) = 11 := extractLsb'_or_imm (by decide) _ val
  have hRA : RA (0x616b0000 ||| val.setWidth 32) = 11 := extractLsb'_or_imm (by decide) _ val
  rw [hori, execute, hOPCD, if_neg (by decide), if_neg (by decide), if_pos rfl, ori, hRD, hRA,
    UIMM_or_imm (by decide)]

theorem high_or_low (word : BitVec 32) :
    ((word >>> 16).setWidth 16).setWidth 32 <<< 16 ||| (word.setWidth 16).setWidth 32 = word := by
  refine BitVec.eq_of_getLsbD_eq fun i hi => ?_
  by_cases hlow : i < 16
  · simp [hi, hlow]
  · have hindex : 16 + (i - 16) = i := by omega
    have hlt : i - 16 < 16 := by omega
    simp [hi, hlow, hlt, hindex]

end

end DolphinCore.PrimeHack
