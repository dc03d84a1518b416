import DolphinCore.Lib.FinLiteral
import Mathlib.Logic.Function.Basic
import Mathlib.Data.Fin.Basic

/-!
# DolphinCore.DSP.Core

The state of the DSP core (`SDSP`, `DSP_Regs`), its hardware stacks and its
two memories.

The four stack registers are the tops of circular stacks of 32 words kept
outside the memories. The hardware registers behind `0xFxxx` are a device of
any type: it answers a read, may raise exceptions, may replace the memories
(a DMA) and may reset the core (the hack of the mailbox), but it never sees
the registers.
-/

namespace DolphinCore.DSP

/-! ## registers -/

/-- An accumulator: three words, of which the high one is a sign extended byte. -/
structure Acc where
  l : BitVec 16
  m : BitVec 16
  h : BitVec 16
  deriving DecidableEq

/-- An extra accumulator of 32 bits. -/
structure Ax where
  l : BitVec 16
  h : BitVec 16
  deriving DecidableEq

/-- The product register, with its second middle word. -/
structure Prod where
  l : BitVec 16
  m : BitVec 16
  h : BitVec 16
  m2 : BitVec 16
  deriving DecidableEq

/-- `DSP_Regs`. -/
structure Regs where
  ar : Fin 4 → BitVec 16
  ix : Fin 4 → BitVec 16
  wr : Fin 4 → BitVec 16
  st : Fin 4 → BitVec 16
  cr : BitVec 16
  sr : BitVec 16
  prod : Prod
  ax : Fin 2 → Ax
  ac : Fin 2 → Acc

/-- The memories and the device behind the hardware registers. -/
structure Mem (σ : Type) where
  iram : BitVec 12 → BitVec 16
  irom : BitVec 12 → BitVec 16
  dram : BitVec 12 → BitVec 16
  coef : BitVec 11 → BitVec 16
  exceptions : BitVec 8
  dev : σ

/-- `gdsp_ifx_read` and `gdsp_ifx_write`. A read also says whether the core
was reset by it. -/
structure Ifx (σ : Type) where
  read : Mem σ → BitVec 16 → BitVec 16 × Mem σ × Bool
  write : Mem σ → BitVec 16 → BitVec 16 → Mem σ

/-- `SDSP`, with the write back log beside it: five values, and for each the
register it goes to (`none` for the `-1` of the source). -/
structure SDSP (σ : Type) where
  r : Regs
  pc : BitVec 16
  cr : BitVec 16
  regStackPtr : Fin 4 → Fin 32
  regStack : Fin 4 → Fin 32 → BitVec 16
  writeBackLog : Fin 5 → BitVec 16
  writeBackLogIdx : Fin 5 → Option Nat
  mem : Mem σ

/-! ## stacks -/

/-- `StackRegister`. -/
def Call : Fin 4 := 0

def Data : Fin 4 := 1

def LoopAddress : Fin 4 := 2

def LoopCounter : Fin 4 := 3

variable {σ : Type}

namespace SDSP

def regStackPush (s : SDSP σ) (i : Fin 4) : SDSP σ :=
  let ptr := s.regStackPtr i + 1
  { s with
    regStackPtr := Function.update s.regStackPtr i ptr
    regStack := Function.update s.regStack i (Function.update (s.regStack i) ptr (s.r.st i)) }

def regStackPop (s : SDSP σ) (i : Fin 4) : SDSP σ :=
  { s with
    r := { s.r with st := Function.update s.r.st i (s.regStack i (s.regStackPtr i)) }
    regStackPtr := Function.update s.regStackPtr i (s.regStackPtr i - 1) }

/-- `dsp_reg_store_stack`. -/
def regStoreStack (s : SDSP σ) (i : Fin 4) (val : BitVec 16) : SDSP σ :=
  let s := s.regStackPush i
  { s with r := { s.r with st := Function.update s.r.st i val } }

/-- `dsp_reg_load_stack`. -/
def regLoadStack (s : SDSP σ) (i : Fin 4) : BitVec 16 × SDSP σ :=
  (s.r.st i, s.regStackPop i)

end SDSP

/-! ## memory map -/

/-- `dsp_imem_read`: nothing is mapped but IRAM and IROM. -/
def Mem.imemRead (m : Mem σ) (addr : BitVec 16) : BitVec 16 :=
  if addr >>> 12 = 0 then m.iram (addr.setWidth 12)
  else if addr >>> 12 = 8 then m.irom (addr.setWidth 12)
  else 0

namespace SDSP

/-- `DSPCore_Reset`, as far as the core goes: the analysis of the code is a
function of the memories. -/
def reset (s : SDSP σ) : SDSP σ :=
  { s with pc := 0x8000, r := { s.r with wr := fun _ => 0xffff } }

/-- `dsp_dmem_read`. -/
def dmemRead (io : Ifx σ) (s : SDSP σ) (addr : BitVec 16) : BitVec 16 × SDSP σ :=
  if addr >>> 12 = 0x0 then (s.mem.dram (addr.setWidth 12), s)
  else if addr >>> 12 = 0x1 then (s.mem.coef (addr.setWidth 11), s)
  else if addr >>> 12 = 0xf then
    let (val, m, hax) := io.read s.mem addr
    let s := { s with mem := m }
    (val, if hax then s.reset else s)
  else (0, s)

/-- `dsp_dmem_write`. -/
def dmemWrite (io : Ifx σ) (s : SDSP σ) (addr val : BitVec 16) : SDSP σ :=
  if addr >>> 12 = 0x0 then
    { s with mem := { s.mem with dram := Function.update s.mem.dram (addr.setWidth 12) val } }
  else if addr >>> 12 = 0xf then { s with mem := io.write s.mem addr val }
  else s

/-- `dsp_fetch_code`. -/
def fetchCode (s : SDSP σ) : BitVec 16 × SDSP σ :=
  (s.mem.imemRead s.pc, { s with pc := s.pc + 1 })

/-- `dsp_peek_code`. -/
def peekCode (s : SDSP σ) : BitVec 16 := s.mem.imemRead s.pc

end SDSP

end DolphinCore.DSP
