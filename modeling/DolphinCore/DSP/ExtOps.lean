import DolphinCore.DSP.Tables
import DolphinCore.DSP.LoadStore

/-!
# DolphinCore.DSP.ExtOps

The extensions of an opcode (`DSPIntExtOps.cpp`). An extension runs before the
instruction it is attached to; it stores to memory at once, and leaves what it
writes to registers in the write back log, which is applied afterwards.
-/

namespace DolphinCore.DSP

variable {σ : Type}

namespace SDSP

def writeToBackLog (s : SDSP σ) (i : Fin 5) (idx : Nat) (value : BitVec 16) : SDSP σ :=
  { s with
    writeBackLog := Function.update s.writeBackLog i value
    writeBackLogIdx := Function.update s.writeBackLogIdx i (some idx) }

/-- The loop of `applyWriteBackLog`, at the entries from `i` on. -/
def applyWriteBackLogFrom (s : SDSP σ) : List (Fin 5) → SDSP σ
  | [] => s
  | i :: is =>
    match s.writeBackLogIdx i with
    | none => s
    | some idx =>
      let s := s.opWriteReg idx (s.writeBackLog i)
      -- Clear back log
      let s := { s with writeBackLogIdx := Function.update s.writeBackLogIdx i none }
      applyWriteBackLogFrom s is

def applyWriteBackLog (s : SDSP σ) : SDSP σ := s.applyWriteBackLogFrom [0, 1, 2, 3, 4]

end SDSP

namespace Ext

def isSameMemArea (a b : BitVec 16) : Bool := a >>> 10 = b >>> 10

/-! ## addressing registers and moves -/

def dr (opc : BitVec 16) (s : SDSP σ) : SDSP σ :=
  s.writeToBackLog 0 (bits2 opc 0).val (s.r.decrementAddrReg (bits2 opc 0))

def ir (opc : BitVec 16) (s : SDSP σ) : SDSP σ :=
  s.writeToBackLog 0 (bits2 opc 0).val (s.r.incrementAddrReg (bits2 opc 0))

def nr (opc : BitVec 16) (s : SDSP σ) : SDSP σ :=
  let reg := bits2 opc 0
  s.writeToBackLog 0 reg.val (s.r.increaseAddrReg reg (s.r.ix reg))

/-- What `ACL0 + k` gives to a move or a store. -/
def accWord (s : SDSP σ) (k : Fin 4) : BitVec 16 :=
  if k.val < 2 then (s.r.ac (Fin.ofNat 2 k.val)).l
  else s.r.opReadRegAndSaturate (Fin.ofNat 2 k.val)

def mv (opc : BitVec 16) (s : SDSP σ) : SDSP σ :=
  s.writeToBackLog 0 ((bits2 opc 2).val + DSP_REG_AXL0) (accWord s (bits2 opc 0))

variable (io : Ifx σ)

/-! ## one store or one load -/

def s (opc : BitVec 16) (d : SDSP σ) : SDSP σ :=
  let dreg := bits2 opc 0
  let d := d.dmemWrite io (d.r.ar dreg) (accWord d (bits2 opc 3))
  d.writeToBackLog 0 dreg.val (d.r.incrementAddrReg dreg)

def sn (opc : BitVec 16) (d : SDSP σ) : SDSP σ :=
  let dreg := bits2 opc 0
  let d := d.dmemWrite io (d.r.ar dreg) (accWord d (bits2 opc 3))
  d.writeToBackLog 0 dreg.val (d.r.increaseAddrReg dreg (d.r.ix dreg))

/-- `l` and `ln`, up to the update of the addressing register. -/
def loadInto (opc : BitVec 16) (s : SDSP σ) (next : Regs → BitVec 16) : SDSP σ :=
  let sreg := bits2 opc 0
  let dreg := bits opc 3 3 + DSP_REG_AXL0
  if dreg ≥ DSP_REG_ACM0 ∧ s.r.isFlagSet Regs.SR_40_MODE_BIT then
    let (val, s) := s.dmemRead io (s.r.ar sreg)
    let s := s.writeToBackLog 0 (dreg - DSP_REG_ACM0 + DSP_REG_ACH0)
      (if val &&& 0x8000 ≠ 0 then 0xFFFF else 0x0000)
    let s := s.writeToBackLog 1 dreg val
    let s := s.writeToBackLog 2 (dreg - DSP_REG_ACM0 + DSP_REG_ACL0) 0
    s.writeToBackLog 3 sreg.val (next s.r)
  else
    let (val, s) := s.dmemRead io (s.r.ar sreg)
    let s := s.writeToBackLog 0 dreg val
    s.writeToBackLog 1 sreg.val (next s.r)

def l (opc : BitVec 16) (s : SDSP σ) : SDSP σ :=
  loadInto io opc s fun r => r.incrementAddrReg (bits2 opc 0)

def ln (opc : BitVec 16) (s : SDSP σ) : SDSP σ :=
  loadInto io opc s fun r => r.increaseAddrReg (bits2 opc 0) (r.ix (bits2 opc 0))

/-! ## a store and a load -/

/-- The family of `ls` and `sl`: store the middle word at `ar[dst]`, load from
`ar[src]`, then update `ar3` and `ar0`. -/
def storeLoad (dst src : Fin 4) (next3 next0 : Regs → BitVec 16) (opc : BitVec 16)
    (s : SDSP σ) : SDSP σ :=
  let dreg := (bits2 opc 4).val + DSP_REG_AXL0
  let s := s.dmemWrite io (s.r.ar dst) (s.r.opReadRegAndSaturate (bit1 opc 0))
  let (val, s) := s.dmemRead io (s.r.ar src)
  let s := s.writeToBackLog 0 dreg val
  let s := s.writeToBackLog 1 DSP_REG_AR3 (next3 s.r)
  s.writeToBackLog 2 DSP_REG_AR0 (next0 s.r)

def increment (i : Fin 4) (r : Regs) : BitVec 16 := r.incrementAddrReg i

def increase (i : Fin 4) (r : Regs) : BitVec 16 := r.increaseAddrReg i (r.ix i)

def ls : BitVec 16 → SDSP σ → SDSP σ := storeLoad io 3 0 (increment 3) (increment 0)

def lsn : BitVec 16 → SDSP σ → SDSP σ := storeLoad io 3 0 (increment 3) (increase 0)

def lsm : BitVec 16 → SDSP σ → SDSP σ := storeLoad io 3 0 (increase 3) (increment 0)

def lsnm : BitVec 16 → SDSP σ → SDSP σ := storeLoad io 3 0 (increase 3) (increase 0)

def sl : BitVec 16 → SDSP σ → SDSP σ := storeLoad io 0 3 (increment 3) (increment 0)

def sln : BitVec 16 → SDSP σ → SDSP σ := storeLoad io 0 3 (increment 3) (increase 0)

def slm : BitVec 16 → SDSP σ → SDSP σ := storeLoad io 0 3 (increase 3) (increment 0)

def slnm : BitVec 16 → SDSP σ → SDSP σ := storeLoad io 0 3 (increase 3) (increase 0)

/-! ## two loads -/

/-- The family of `ld`: load from `ar[sreg]`, then from `ar3`, or from
`ar[sreg]` again when both point into one area. -/
def loadTwo (sreg : Fin 4) (dst1 dst2 : Nat) (next nextAr3 : Regs → BitVec 16)
    (s : SDSP σ) : SDSP σ :=
  let (val, s) := s.dmemRead io (s.r.ar sreg)
  let s := s.writeToBackLog 0 dst1 val
  let (val, s) :=
    s.dmemRead io (if isSameMemArea (s.r.ar sreg) (s.r.ar 3) then s.r.ar sreg else s.r.ar 3)
  let s := s.writeToBackLog 1 dst2 val
  let s := s.writeToBackLog 2 sreg.val (next s.r)
  s.writeToBackLog 3 DSP_REG_AR3 (nextAr3 s.r)

/-- `ld` and its relatives: one word of each of the extra accumulators. -/
def ldInto (next : Fin 4 → Regs → BitVec 16) (nextAr3 : Regs → BitVec 16) (opc : BitVec 16)
    (s : SDSP σ) : SDSP σ :=
  loadTwo io (bits2 opc 0) (2 * (bit1 opc 5).val + DSP_REG_AXL0)
    (2 * (bit1 opc 4).val + DSP_REG_AXL1) (next (bits2 opc 0)) nextAr3 s

/-- `ldax` and its relatives: both words of one extra accumulator. -/
def ldaxInto (next : Fin 4 → Regs → BitVec 16) (nextAr3 : Regs → BitVec 16) (opc : BitVec 16)
    (s : SDSP σ) : SDSP σ :=
  let sreg := Fin.ofNat 4 (bit1 opc 5).val
  loadTwo io sreg ((bit1 opc 4).val + DSP_REG_AXH0) ((bit1 opc 4).val + DSP_REG_AXL0)
    (next sreg) nextAr3 s

def ld : BitVec 16 → SDSP σ → SDSP σ := ldInto io increment (increment 3)

def ldn : BitVec 16 → SDSP σ → SDSP σ := ldInto io increase (increment 3)

def ldm : BitVec 16 → SDSP σ → SDSP σ := ldInto io increment (increase 3)

def ldnm : BitVec 16 → SDSP σ → SDSP σ := ldInto io increase (increase 3)

def ldax : BitVec 16 → SDSP σ → SDSP σ := ldaxInto io increment (increment 3)

def ldaxn : BitVec 16 → SDSP σ → SDSP σ := ldaxInto io increase (increment 3)

def ldaxm : BitVec 16 → SDSP σ → SDSP σ := ldaxInto io increment (increase 3)

def ldaxnm : BitVec 16 → SDSP σ → SDSP σ := ldaxInto io increase (increase 3)

end Ext

/-- The extension's function, run on the core. -/
def ExtFunc.exec (io : Ifx σ) (f : ExtFunc) (opc : BitVec 16) (s : SDSP σ) : SDSP σ :=
  match f with
  | .cw => s
  | .nop => s
  | .dr => Ext.dr opc s
  | .ir => Ext.ir opc s
  | .nr => Ext.nr opc s
  | .mv => Ext.mv opc s
  | .s => Ext.s io opc s
  | .sn => Ext.sn io opc s
  | .l => Ext.l io opc s
  | .ln => Ext.ln io opc s
  | .ls => Ext.ls io opc s
  | .sl => Ext.sl io opc s
  | .lsn => Ext.lsn io opc s
  | .sln => Ext.sln io opc s
  | .lsm => Ext.lsm io opc s
  | .slm => Ext.slm io opc s
  | .lsnm => Ext.lsnm io opc s
  | .slnm => Ext.slnm io opc s
  | .ldax => Ext.ldax io opc s
  | .ldaxn => Ext.ldaxn io opc s
  | .ldaxm => Ext.ldaxm io opc s
  | .ldaxnm => Ext.ldaxnm io opc s
  | .ld => Ext.ld io opc s
  | .ldn => Ext.ldn io opc s
  | .ldm => Ext.ldm io opc s
  | .ldnm => Ext.ldnm io opc s

end DolphinCore.DSP
