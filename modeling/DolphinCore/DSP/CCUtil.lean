import DolphinCore.DSP.IntUtil

/-!
# DolphinCore.DSP.CCUtil

The flags of the status register (`DSPIntCCUtil`).

An arithmetic instruction ends with one call of `Update_SR_Register64`,
`Update_SR_Register16` or `Update_SR_LZ`. It returns the call as an
`SRUpdate`, so that it can be carried out or left out.
-/

namespace DolphinCore.DSP

def SR_CARRY : BitVec 16 := 0x0001

def SR_OVERFLOW : BitVec 16 := 0x0002

def SR_ARITH_ZERO : BitVec 16 := 0x0004

def SR_SIGN : BitVec 16 := 0x0008

def SR_OVER_S32 : BitVec 16 := 0x0010

def SR_TOP2BITS : BitVec 16 := 0x0020

def SR_LOGIC_ZERO : BitVec 16 := 0x0040

def SR_OVERFLOW_STICKY : BitVec 16 := 0x0080

def SR_INT_ENABLE : BitVec 16 := 0x0200

def SR_EXT_INT_ENABLE : BitVec 16 := 0x0800

def SR_MUL_MODIFY : BitVec 16 := 0x2000

def SR_MUL_UNSIGNED : BitVec 16 := 0x8000

/-- The bits a comparison affects, which leaves out logic zero. -/
def SR_CMP_MASK : BitVec 16 := 0x3f

/-! ## updates -/

/-- A call at the end of an instruction that updates the status register. -/
inductive SRUpdate where
  | none
  | register64 (val : BitVec 64) (carry overflow : Bool)
  | register16 (val : BitVec 16) (carry overflow overS32 : Bool)
  | lz (val : Bool)

/-- The flag, when the condition holds. -/
def flagIf (c : Bool) (flag : BitVec 16) : BitVec 16 := if c then flag else 0

/-- `Update_SR_Register64`, on the status register. -/
def updateSRRegister64 (sr : BitVec 16) (val : BitVec 64) (carry overflow : Bool) : BitVec 16 :=
  let sr := sr &&& ~~~SR_CMP_MASK
  sr ||| flagIf carry SR_CARRY ||| flagIf overflow SR_OVERFLOW |||
    flagIf overflow SR_OVERFLOW_STICKY ||| flagIf (val = 0) SR_ARITH_ZERO |||
    flagIf val.msb SR_SIGN ||| flagIf (val ≠ (val.setWidth 32).signExtend 64) SR_OVER_S32 |||
    flagIf (val &&& 0xc0000000 = 0 ∨ val &&& 0xc0000000 = 0xc0000000) SR_TOP2BITS

def updateSRRegister16 (sr : BitVec 16) (val : BitVec 16) (carry overflow overS32 : Bool) :
    BitVec 16 :=
  let sr := sr &&& ~~~SR_CMP_MASK
  sr ||| flagIf carry SR_CARRY ||| flagIf overflow SR_OVERFLOW |||
    flagIf overflow SR_OVERFLOW_STICKY ||| flagIf (val = 0) SR_ARITH_ZERO |||
    flagIf val.msb SR_SIGN ||| flagIf overS32 SR_OVER_S32 |||
    flagIf (val >>> 14 = 0 ∨ val >>> 14 = 3) SR_TOP2BITS

def updateSRLZ (sr : BitVec 16) (val : Bool) : BitVec 16 :=
  if val then sr ||| SR_LOGIC_ZERO else sr &&& ~~~SR_LOGIC_ZERO

def SRUpdate.apply (u : SRUpdate) (sr : BitVec 16) : BitVec 16 :=
  match u with
  | .none => sr
  | .register64 val carry overflow => updateSRRegister64 sr val carry overflow
  | .register16 val carry overflow overS32 => updateSRRegister16 sr val carry overflow overS32
  | .lz val => updateSRLZ sr val

/-- An update carried out on the registers. -/
def Regs.updateSR (r : Regs) (u : SRUpdate) : Regs := { r with sr := u.apply r.sr }

/-! ## carry and overflow -/

def isCarry (val result : BitVec 64) : Bool := val > result

def isCarry2 (val result : BitVec 64) : Bool := val ≥ result

def isOverflow (val1 val2 res : BitVec 64) : Bool :=
  ((val1 ^^^ res) &&& (val2 ^^^ res)).msb

def isOverS32 (acc : BitVec 64) : Bool := acc ≠ (acc.setWidth 32).signExtend 64

/-! ## conditions -/

namespace Regs

def isCarrySet (r : Regs) : Bool := r.isFlagSet SR_CARRY

def isOverflowSet (r : Regs) : Bool := r.isFlagSet SR_OVERFLOW

def isOverS32Set (r : Regs) : Bool := r.isFlagSet SR_OVER_S32

def isLess (r : Regs) : Bool := (!r.isFlagSet SR_OVERFLOW) != (!r.isFlagSet SR_SIGN)

def isZero (r : Regs) : Bool := r.isFlagSet SR_ARITH_ZERO

def isLogicZero (r : Regs) : Bool := r.isFlagSet SR_LOGIC_ZERO

def isConditionA (r : Regs) : Bool :=
  (r.isFlagSet SR_OVER_S32 || r.isFlagSet SR_TOP2BITS) && !r.isFlagSet SR_ARITH_ZERO

def checkCondition (r : Regs) (condition : BitVec 4) : Bool :=
  match condition.toNat with
  | 0x0 => !r.isLess
  | 0x1 => r.isLess
  | 0x2 => !r.isLess && !r.isZero
  | 0x3 => r.isLess || r.isZero
  | 0x4 => !r.isZero
  | 0x5 => r.isZero
  | 0x6 => !r.isCarrySet
  | 0x7 => r.isCarrySet
  | 0x8 => !r.isOverS32Set
  | 0x9 => r.isOverS32Set
  | 0xa => r.isConditionA
  | 0xb => !r.isConditionA
  | 0xc => !r.isLogicZero
  | 0xd => r.isLogicZero
  | 0xe => r.isOverflowSet
  | _ => true

end Regs

end DolphinCore.DSP
