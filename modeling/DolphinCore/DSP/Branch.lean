import DolphinCore.DSP.ExtOps

/-!
# DolphinCore.DSP.Branch

Branches, calls and the loop hardware (`DSPIntBranch.cpp`). The loop hardware
keeps a loop on three stacks: where its body starts on the call stack, the
address of its last instruction and the iterations left on the loop stacks.
-/

namespace DolphinCore.DSP

variable {σ : Type}

/-- `dsp_skip_inst`. -/
def SDSP.skipInst (s : SDSP σ) : SDSP σ :=
  { s with pc := s.pc + BitVec.ofNat 16 (getOpTemplate s.peekCode).size }

/-- The condition in the low four bits of an opcode. -/
def SDSP.condition (s : SDSP σ) (opc : BitVec 16) : Bool := s.r.checkCondition (opc.setWidth 4)

/-- The three pushes that start a loop. -/
def SDSP.pushLoop (s : SDSP σ) (loopPc cnt : BitVec 16) : SDSP σ :=
  ((s.regStoreStack Call s.pc).regStoreStack LoopAddress loopPc).regStoreStack LoopCounter cnt

/-- `loop` and `loopi`: the body is the next instruction. -/
def SDSP.startLoop (s : SDSP σ) (cnt : BitVec 16) : SDSP σ :=
  if cnt ≠ 0 then s.pushLoop s.pc cnt else s.skipInst

/-- `bloop` and `bloopi`: the body ends at the address that follows. -/
def SDSP.startBlockLoop (s : SDSP σ) (cnt : BitVec 16) : SDSP σ :=
  let (loopPc, s) := s.fetchCode
  if cnt ≠ 0 then s.pushLoop loopPc cnt else ({ s with pc := loopPc } : SDSP σ).skipInst

namespace Interpreter

/-! ## branches -/

def call (opc : BitVec 16) (s : SDSP σ) : SDSP σ :=
  -- must be outside the if.
  let (dest, s) := s.fetchCode
  if s.condition opc then { s.regStoreStack Call s.pc with pc := dest } else s

def callr (opc : BitVec 16) (s : SDSP σ) : SDSP σ :=
  if s.condition opc then
    let (addr, s) := s.opReadReg (bits opc 5 3)
    { s.regStoreStack Call s.pc with pc := addr }
  else s

def ifcc (opc : BitVec 16) (s : SDSP σ) : SDSP σ :=
  if s.condition opc then s else s.skipInst

def jcc (opc : BitVec 16) (s : SDSP σ) : SDSP σ :=
  let (dest, s) := s.fetchCode
  if s.condition opc then { s with pc := dest } else s

def jmprcc (opc : BitVec 16) (s : SDSP σ) : SDSP σ :=
  if s.condition opc then
    let (addr, s) := s.opReadReg (bits opc 5 3)
    { s with pc := addr }
  else s

def ret (opc : BitVec 16) (s : SDSP σ) : SDSP σ :=
  if s.condition opc then
    let (addr, s) := s.regLoadStack Call
    { s with pc := addr }
  else s

def rti (_opc : BitVec 16) (s : SDSP σ) : SDSP σ :=
  let (sr, s) := s.regLoadStack Data
  let s := { s with r := { s.r with sr := sr } }
  let (pc, s) := s.regLoadStack Call
  { s with pc := pc }

def halt (_opc : BitVec 16) (s : SDSP σ) : SDSP σ := { s with cr := s.cr ||| 0x4, pc := s.pc - 1 }

/-! ## loops -/

/-- `HandleLoop`. The program counter is already past the instruction that was
executed; at address 0 nothing is equal to it. -/
def handleLoop (s : SDSP σ) : SDSP σ :=
  let rCallAddress := s.r.st Call
  let rLoopAddress := s.r.st LoopAddress
  if rLoopAddress > 0 ∧ s.r.st LoopCounter > 0 then
    if s.pc ≠ 0 ∧ s.pc - 1 = rLoopAddress then
      let s := { s with r := { s.r with
        st := Function.update s.r.st LoopCounter (s.r.st LoopCounter - 1) } }
      if s.r.st LoopCounter > 0 then { s with pc := rCallAddress }
      else
        -- end of loop
        ((s.regStackPop Call).regStackPop LoopAddress).regStackPop LoopCounter
    else s
  else s

def loop (opc : BitVec 16) (s : SDSP σ) : SDSP σ :=
  let (cnt, s) := s.opReadReg (bits opc 0 5)
  s.startLoop cnt

def loopi (opc : BitVec 16) (s : SDSP σ) : SDSP σ := s.startLoop (opc &&& 0xff)

def bloop (opc : BitVec 16) (s : SDSP σ) : SDSP σ :=
  let (cnt, s) := s.opReadReg (bits opc 0 5)
  s.startBlockLoop cnt

def bloopi (opc : BitVec 16) (s : SDSP σ) : SDSP σ := s.startBlockLoop (opc &&& 0xff)

end Interpreter

end DolphinCore.DSP
