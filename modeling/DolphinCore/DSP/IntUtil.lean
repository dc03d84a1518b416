import DolphinCore.DSP.Core

/-!
# DolphinCore.DSP.IntUtil

The helpers every instruction of the interpreter is built from
(`DSPIntUtil.h`): fields of an opcode, addressing registers, register numbers,
and the long views of product and accumulators.
-/

namespace DolphinCore.DSP

/-! ## fields of an opcode -/

/-- `(opc >> lo) & 0x1`. -/
def bit1 (opc : BitVec 16) (lo : Nat) : Fin 2 := ⟨(opc.extractLsb' lo 1).toNat, BitVec.isLt _⟩

/-- `(opc >> lo) & 0x3`. -/
def bits2 (opc : BitVec 16) (lo : Nat) : Fin 4 := ⟨(opc.extractLsb' lo 2).toNat, BitVec.isLt _⟩

/-- `(opc >> lo) & (2 ^ w - 1)`. -/
def bits (opc : BitVec 16) (lo w : Nat) : Nat := (opc.extractLsb' lo w).toNat

/-! ## addressing registers -/

namespace Regs

/-- `dsp_increase_addr_reg`. -/
def increaseAddrReg (r : Regs) (reg : Fin 4) (ix : BitVec 16) : BitVec 16 :=
  let ar := (r.ar reg).setWidth 32
  let wr := (r.wr reg).setWidth 32
  let ix := ix.signExtend 32
  let mx := (wr ||| 1) <<< 1
  let nar := ar + ix
  let dar := (nar ^^^ ar ^^^ ix) &&& mx
  let nar :=
    if ¬ ix.msb then (if dar > wr then nar - (wr + 1) else nar)
    else if ((nar + wr + 1) ^^^ nar) &&& dar ≤ wr then nar + (wr + 1) else nar
  nar.setWidth 16

/-- `dsp_decrease_addr_reg`. -/
def decreaseAddrReg (r : Regs) (reg : Fin 4) (ix : BitVec 16) : BitVec 16 :=
  let ar := (r.ar reg).setWidth 32
  let wr := (r.wr reg).setWidth 32
  let ix := ix.signExtend 32
  let mx := (wr ||| 1) <<< 1
  let nar := ar - ix
  let dar := (nar ^^^ ar ^^^ ~~~ix) &&& mx
  let nar :=
    if ix > 0xFFFF8000 then (if dar > wr then nar - (wr + 1) else nar)
    else if ((nar + wr + 1) ^^^ nar) &&& dar ≤ wr then nar + (wr + 1) else nar
  nar.setWidth 16

/-- `dsp_increment_addr_reg`. -/
def incrementAddrReg (r : Regs) (reg : Fin 4) : BitVec 16 :=
  let ar := (r.ar reg).setWidth 32
  let wr := (r.wr reg).setWidth 32
  let nar := ar + 1
  (if nar ^^^ ar > (wr ||| 1) <<< 1 then nar - (wr + 1) else nar).setWidth 16

/-- `dsp_decrement_addr_reg`. -/
def decrementAddrReg (r : Regs) (reg : Fin 4) : BitVec 16 :=
  let ar := (r.ar reg).setWidth 32
  let wr := (r.wr reg).setWidth 32
  let nar := ar + wr
  (if (nar ^^^ ar) &&& ((wr ||| 1) <<< 1) > wr then nar - (wr + 1) else nar).setWidth 16

end Regs

/-! ## the register file -/

/-- The 32 registers an opcode can name. -/
inductive Reg where
  | ar (i : Fin 4)
  | ix (i : Fin 4)
  | wr (i : Fin 4)
  | st (i : Fin 4)
  | ach (i : Fin 2)
  | cr
  | sr
  | prodl
  | prodm
  | prodh
  | prodm2
  | axl (i : Fin 2)
  | axh (i : Fin 2)
  | acl (i : Fin 2)
  | acm (i : Fin 2)
  deriving DecidableEq

def DSP_REG_ACH0 : Nat := 0x10

def DSP_REG_AXL0 : Nat := 0x18

def DSP_REG_AXL1 : Nat := 0x19

def DSP_REG_AXH0 : Nat := 0x1a

def DSP_REG_ACL0 : Nat := 0x1c

def DSP_REG_ACM0 : Nat := 0x1e

def DSP_REG_AR0 : Nat := 0x00

def DSP_REG_AR3 : Nat := 0x03

/-- The register of a number; every access masks the number with `0x1f`. -/
def Reg.ofNumber (n : Nat) : Reg :=
  let n := n % 32
  if n < 0x04 then .ar (Fin.ofNat 4 n)
  else if n < 0x08 then .ix (Fin.ofNat 4 n)
  else if n < 0x0c then .wr (Fin.ofNat 4 n)
  else if n < 0x10 then .st (Fin.ofNat 4 n)
  else if n < 0x12 then .ach (Fin.ofNat 2 n)
  else if n = 0x12 then .cr
  else if n = 0x13 then .sr
  else if n = 0x14 then .prodl
  else if n = 0x15 then .prodm
  else if n = 0x16 then .prodh
  else if n = 0x17 then .prodm2
  else if n < 0x1a then .axl (Fin.ofNat 2 n)
  else if n < 0x1c then .axh (Fin.ofNat 2 n)
  else if n < 0x1e then .acl (Fin.ofNat 2 n)
  else .acm (Fin.ofNat 2 n)

namespace Regs

def setAcL (r : Regs) (i : Fin 2) (val : BitVec 16) : Regs :=
  { r with ac := Function.update r.ac i { r.ac i with l := val } }

def setAcM (r : Regs) (i : Fin 2) (val : BitVec 16) : Regs :=
  { r with ac := Function.update r.ac i { r.ac i with m := val } }

def setAcH (r : Regs) (i : Fin 2) (val : BitVec 16) : Regs :=
  { r with ac := Function.update r.ac i { r.ac i with h := val } }

def setAr (r : Regs) (i : Fin 4) (val : BitVec 16) : Regs :=
  { r with ar := Function.update r.ar i val }

/-- The value of a register, where reading it has no effect. -/
def get (r : Regs) : Reg → BitVec 16
  | .ar i => r.ar i
  | .ix i => r.ix i
  | .wr i => r.wr i
  | .st i => r.st i
  | .ach i => (r.ac i).h
  | .cr => r.cr
  | .sr => r.sr
  | .prodl => r.prod.l
  | .prodm => r.prod.m
  | .prodh => r.prod.h
  | .prodm2 => r.prod.m2
  | .axl i => (r.ax i).l
  | .axh i => (r.ax i).h
  | .acl i => (r.ac i).l
  | .acm i => (r.ac i).m

/-- What a write to a register stores in it. -/
def set (r : Regs) (val : BitVec 16) : Reg → Regs
  | .ar i => r.setAr i val
  | .ix i => { r with ix := Function.update r.ix i val }
  | .wr i => { r with wr := Function.update r.wr i val }
  | .st i => { r with st := Function.update r.st i val }
  -- sign extend from the bottom 8 bits
  | .ach i => r.setAcH i ((val.setWidth 8).signExtend 16)
  | .cr => { r with cr := val }
  | .sr => { r with sr := val }
  | .prodl => { r with prod := { r.prod with l := val } }
  | .prodm => { r with prod := { r.prod with m := val } }
  | .prodh => { r with prod := { r.prod with h := val } }
  | .prodm2 => { r with prod := { r.prod with m2 := val } }
  | .axl i => { r with ax := Function.update r.ax i { r.ax i with l := val } }
  | .axh i => { r with ax := Function.update r.ax i { r.ax i with h := val } }
  | .acl i => r.setAcL i val
  | .acm i => r.setAcM i val

def SR_40_MODE_BIT : BitVec 16 := 0x4000

/-- `dsp_SR_is_flag_set`. -/
def isFlagSet (r : Regs) (flag : BitVec 16) : Bool := r.sr &&& flag ≠ 0

/-- `dsp_conditional_extend_accum`. -/
def conditionalExtendAccum (r : Regs) (reg : Nat) : Regs :=
  match Reg.ofNumber reg with
  | .acm i =>
    if r.isFlagSet SR_40_MODE_BIT then
      -- Sign extend into whole accum.
      (r.setAcH i (if (r.ac i).m &&& 0x8000 ≠ 0 then 0xFFFF else 0x0000)).setAcL i 0
    else r
  | _ => r

/-! ## product and accumulators -/

/-- `dsp_get_long_prod`. -/
def getLongProd (r : Regs) : BitVec 64 :=
  ((r.prod.h.setWidth 8).signExtend 64 <<< 32) +
    ((r.prod.m.setWidth 64 + r.prod.m2.setWidth 64) <<< 16 ||| r.prod.l.setWidth 64)

/-- The rounding to the middle word, half to even: `dsp_round_long_acc`. -/
def roundLongAcc (val : BitVec 64) : BitVec 64 :=
  if val &&& 0x10000 ≠ 0 then (val + 0x8000) &&& ~~~0xffff
  else (val + 0x7fff) &&& ~~~0xffff

/-- `dsp_get_long_prod_round_prodl`. -/
def getLongProdRoundProdl (r : Regs) : BitVec 64 :=
  let prod := r.getLongProd
  if prod &&& 0x10000 ≠ 0 then (prod + 0x8000) &&& ~~~0xffff
  else (prod + 0x7fff) &&& ~~~0xffff

/-- `dsp_set_long_prod`: the mask leaves 40 bits and clears `m2`. -/
def setLongProd (r : Regs) (val : BitVec 64) : Regs :=
  let val := val &&& 0x000000FFFFFFFFFF
  { r with prod := ⟨val.extractLsb' 0 16, val.extractLsb' 16 16, val.extractLsb' 32 16,
      val.extractLsb' 48 16⟩ }

/-- `dsp_get_long_acc`: the low 40 bits, sign extended. -/
def getLongAcc (r : Regs) (i : Fin 2) : BitVec 64 :=
  (((r.ac i).h.setWidth 64 <<< 32 ||| (r.ac i).m.setWidth 64 <<< 16 |||
    (r.ac i).l.setWidth 64) <<< 24).sshiftRight 24

/-- `dsp_set_long_acc`. The union is 64 bits wide; nothing reads the top 16. -/
def setLongAcc (r : Regs) (i : Fin 2) (val : BitVec 64) : Regs :=
  let acc : Acc := ⟨val.extractLsb' 0 16, val.extractLsb' 16 16, val.extractLsb' 32 16⟩
  { r with ac := Function.update r.ac i acc }

/-- `dsp_convert_long_acc`. -/
def convertLongAcc (val : BitVec 64) : BitVec 64 := (val <<< 24).sshiftRight 24

/-- `dsp_op_read_reg_and_saturate`. -/
def opReadRegAndSaturate (r : Regs) (i : Fin 2) : BitVec 16 :=
  if r.isFlagSet SR_40_MODE_BIT then
    let acc := r.getLongAcc i
    if acc ≠ (acc.setWidth 32).signExtend 64 then
      (if acc.toInt > 0 then 0x7fff else 0x8000)
    else (r.ac i).m
  else (r.ac i).m

/-- `dsp_get_long_acx`. -/
def getLongAcx (r : Regs) (i : Fin 2) : BitVec 64 := ((r.ax i).h ++ (r.ax i).l).signExtend 64

end Regs

variable {σ : Type}

namespace SDSP

/-- `dsp_op_read_reg`: a stack register is popped. -/
def opReadReg (s : SDSP σ) (reg : Nat) : BitVec 16 × SDSP σ :=
  match Reg.ofNumber reg with
  | .st i => s.regLoadStack i
  | x => (s.r.get x, s)

/-- `dsp_op_write_reg`: a stack register is pushed. -/
def opWriteReg (s : SDSP σ) (reg : Nat) (val : BitVec 16) : SDSP σ :=
  match Reg.ofNumber reg with
  | .st i => s.regStoreStack i val
  | x => { s with r := s.r.set val x }

/-- `dsp_conditional_extend_accum` on the core. -/
def conditionalExtendAccum (s : SDSP σ) (reg : Nat) : SDSP σ :=
  { s with r := s.r.conditionalExtendAccum reg }

end SDSP

end DolphinCore.DSP
