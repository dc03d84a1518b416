import DolphinCore.DSP.Multiplier

/-!
# DolphinCore.DSP.LoadStore

Register moves, addressing registers, status bits (`DSPIntMisc.cpp`), loads and
stores (`DSPIntLoadStore.cpp`).
-/

namespace DolphinCore.DSP

variable {σ : Type}

/-! ## access to the core -/

/-- What a store or a move reads from a register: the middle words saturate. -/
def SDSP.readForStore (s : SDSP σ) (reg : Nat) : BitVec 16 × SDSP σ :=
  if reg ≥ DSP_REG_ACM0 then (s.r.opReadRegAndSaturate (Fin.ofNat 2 (reg - DSP_REG_ACM0)), s)
  else s.opReadReg reg

/-- A write to a register followed by the extension of the accumulator. -/
def SDSP.writeExtended (s : SDSP σ) (reg : Nat) (val : BitVec 16) : SDSP σ :=
  (s.opWriteReg reg val).conditionalExtendAccum reg

/-- The address `srs` and `lrs` form from the configuration register. -/
def SDSP.crAddr (s : SDSP σ) (opc : BitVec 16) : BitVec 16 := s.r.cr <<< 8 ||| opc &&& 0xFF

def SDSP.setAr (s : SDSP σ) (i : Fin 4) (val : BitVec 16) : SDSP σ :=
  { s with r := s.r.setAr i val }

namespace Interpreter

/-! ## addressing registers and status bits -/

def nx (_opc : BitVec 16) (r : Regs) : Regs := r

def dar (opc : BitVec 16) (r : Regs) : Regs :=
  r.setAr (bits2 opc 0) (r.decrementAddrReg (bits2 opc 0))

def iar (opc : BitVec 16) (r : Regs) : Regs :=
  r.setAr (bits2 opc 0) (r.incrementAddrReg (bits2 opc 0))

def subarn (opc : BitVec 16) (r : Regs) : Regs :=
  let dreg := bits2 opc 0
  r.setAr dreg (r.decreaseAddrReg dreg (r.ix dreg))

def addarn (opc : BitVec 16) (r : Regs) : Regs :=
  let dreg := bits2 opc 0
  r.setAr dreg (r.increaseAddrReg dreg (r.ix (bits2 opc 2)))

def sbclr (opc : BitVec 16) (r : Regs) : Regs :=
  { r with sr := r.sr &&& ~~~((1 : BitVec 16) <<< (bits opc 0 3 + 6)) }

def sbset (opc : BitVec 16) (r : Regs) : Regs :=
  { r with sr := r.sr ||| ((1 : BitVec 16) <<< (bits opc 0 3 + 6)) }

def srbith (opc : BitVec 16) (r : Regs) : Regs :=
  match bits opc 8 4 with
  | 0xa => { r with sr := r.sr &&& ~~~SR_MUL_MODIFY }  -- M2
  | 0xb => { r with sr := r.sr ||| SR_MUL_MODIFY }  -- M0
  | 0xc => { r with sr := r.sr &&& ~~~SR_MUL_UNSIGNED }  -- CLR15
  | 0xd => { r with sr := r.sr ||| SR_MUL_UNSIGNED }  -- SET15
  | 0xe => { r with sr := r.sr &&& ~~~Regs.SR_40_MODE_BIT }  -- SET16 (CLR40)
  | 0xf => { r with sr := r.sr ||| Regs.SR_40_MODE_BIT }  -- SET40
  | _ => r

/-! ## register moves -/

def mrr (opc : BitVec 16) (s : SDSP σ) : SDSP σ :=
  let (val, s) := s.readForStore (bits opc 0 5)
  s.writeExtended (bits opc 5 5) val

def lri (opc : BitVec 16) (s : SDSP σ) : SDSP σ :=
  let (imm, s) := s.fetchCode
  s.writeExtended (bits opc 0 5) imm

def lris (opc : BitVec 16) (s : SDSP σ) : SDSP σ :=
  s.writeExtended (bits opc 8 3 + DSP_REG_AXL0) ((opc.setWidth 8).signExtend 16)

/-! ## loads and stores -/

variable (io : Ifx σ)

def srs (opc : BitVec 16) (s : SDSP σ) : SDSP σ :=
  let addr := s.crAddr opc
  let (val, s) := s.readForStore (bits opc 8 3 + 0x18)
  s.dmemWrite io addr val

def lrs (opc : BitVec 16) (s : SDSP σ) : SDSP σ :=
  let reg := bits opc 8 3 + 0x18
  let (val, s) := s.dmemRead io (s.crAddr opc)
  s.writeExtended reg val

def lr (opc : BitVec 16) (s : SDSP σ) : SDSP σ :=
  let (addr, s) := s.fetchCode
  let (val, s) := s.dmemRead io addr
  s.writeExtended (bits opc 0 5) val

def sr (opc : BitVec 16) (s : SDSP σ) : SDSP σ :=
  let (addr, s) := s.fetchCode
  let (val, s) := s.readForStore (bits opc 0 5)
  s.dmemWrite io addr val

def si (opc : BitVec 16) (s : SDSP σ) : SDSP σ :=
  let addr := (opc.setWidth 8).signExtend 16
  let (imm, s) := s.fetchCode
  s.dmemWrite io addr imm

def lrr (opc : BitVec 16) (s : SDSP σ) : SDSP σ :=
  let (val, s) := s.dmemRead io (s.r.ar (bits2 opc 5))
  s.writeExtended (bits opc 0 5) val

def lrrd (opc : BitVec 16) (s : SDSP σ) : SDSP σ :=
  let s := lrr io opc s
  s.setAr (bits2 opc 5) (s.r.decrementAddrReg (bits2 opc 5))

def lrri (opc : BitVec 16) (s : SDSP σ) : SDSP σ :=
  let s := lrr io opc s
  s.setAr (bits2 opc 5) (s.r.incrementAddrReg (bits2 opc 5))

def lrrn (opc : BitVec 16) (s : SDSP σ) : SDSP σ :=
  let s := lrr io opc s
  let sreg := bits2 opc 5
  s.setAr sreg (s.r.increaseAddrReg sreg (s.r.ix sreg))

/-- The operand is read before the address: a stack register is popped by it. -/
def srr (opc : BitVec 16) (s : SDSP σ) : SDSP σ :=
  let (val, s) := s.readForStore (bits opc 0 5)
  s.dmemWrite io (s.r.ar (bits2 opc 5)) val

def srrd (opc : BitVec 16) (s : SDSP σ) : SDSP σ :=
  let s := srr io opc s
  s.setAr (bits2 opc 5) (s.r.decrementAddrReg (bits2 opc 5))

def srri (opc : BitVec 16) (s : SDSP σ) : SDSP σ :=
  let s := srr io opc s
  s.setAr (bits2 opc 5) (s.r.incrementAddrReg (bits2 opc 5))

def srrn (opc : BitVec 16) (s : SDSP σ) : SDSP σ :=
  let s := srr io opc s
  let dreg := bits2 opc 5
  s.setAr dreg (s.r.increaseAddrReg dreg (s.r.ix dreg))

/-! ## loads from the instruction memory -/

def ilrr (opc : BitVec 16) (s : SDSP σ) : SDSP σ :=
  let dreg := DSP_REG_ACM0 + (bit1 opc 8).val
  let s := { s with r := s.r.setAcM (bit1 opc 8) (s.mem.imemRead (s.r.ar (bits2 opc 0))) }
  s.conditionalExtendAccum dreg

def ilrrd (opc : BitVec 16) (s : SDSP σ) : SDSP σ :=
  let s := ilrr opc s
  s.setAr (bits2 opc 0) (s.r.decrementAddrReg (bits2 opc 0))

def ilrri (opc : BitVec 16) (s : SDSP σ) : SDSP σ :=
  let s := ilrr opc s
  s.setAr (bits2 opc 0) (s.r.incrementAddrReg (bits2 opc 0))

def ilrrn (opc : BitVec 16) (s : SDSP σ) : SDSP σ :=
  let s := ilrr opc s
  let reg := bits2 opc 0
  s.setAr reg (s.r.increaseAddrReg reg (s.r.ix reg))

end Interpreter

end DolphinCore.DSP
