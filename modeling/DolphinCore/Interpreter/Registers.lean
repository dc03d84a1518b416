import DolphinCore.PPCAnalyst.Tables
import Mathlib.Logic.Function.Basic

/-!
# DolphinCore.Interpreter.Registers

The general purpose registers, the condition register and the flags of XER, as `PowerPC.h` keeps
them.  A field of the condition register is held in 64 bits, which are made from its four bits by a
table, or by extending the sign of a result.
-/

namespace DolphinCore.PowerPC

/-- The registers that integer instructions read and write.  `xer_ca` and `xer_so_ov` are bytes
that are written with one and two bits only. -/
structure PowerPCState where
  gpr : Nat → BitVec 32
  cr_val : Nat → BitVec 64
  xer_ca : BitVec 8
  xer_so_ov : BitVec 8
  xer_ca_le : xer_ca ≤ 1
  xer_so_ov_le : xer_so_ov ≤ 3

namespace PowerPCState

variable (s : PowerPCState)

def setGPR (r : Nat) (v : BitVec 32) : PowerPCState :=
  { s with gpr := Function.update s.gpr r v }

/-! ## the flags of XER -/

def setCarry (ca : Bool) : PowerPCState :=
  { s with
    xer_ca := if ca then 1 else 0
    xer_ca_le := by cases ca <;> decide }

def getCarry : BitVec 32 := s.xer_ca.setWidth 32

def getXER_SO : BitVec 32 := s.xer_so_ov.setWidth 32 >>> 1

def getXER_OV : BitVec 32 := s.xer_so_ov.setWidth 32 &&& 1

/-- What `SetXER_OV` makes of the byte, with what `SetXER_SO` adds to it. -/
def withOV (so_ov : BitVec 8) (value : Bool) : BitVec 8 :=
  let v : BitVec 8 := if value then 1 else 0
  ((so_ov &&& 0xFE) ||| v) ||| (v <<< 1)

theorem so_ov_cases {v : BitVec 8} (h : v ≤ 3) : v = 0 ∨ v = 1 ∨ v = 2 ∨ v = 3 := by
  bv_omega

theorem withOV_le {so_ov : BitVec 8} (h : so_ov ≤ 3) (value : Bool) : withOV so_ov value ≤ 3 := by
  obtain rfl | rfl | rfl | rfl := so_ov_cases h <;> cases value <;> decide

def setXER_OV (value : Bool) : PowerPCState :=
  { s with
    xer_so_ov := withOV s.xer_so_ov value
    xer_so_ov_le := withOV_le s.xer_so_ov_le value }

theorem xer_ca_cases : s.xer_ca = 0 ∨ s.xer_ca = 1 := by
  have := s.xer_ca_le
  bv_omega

@[simp] theorem getCarry_setCarry (ca : Bool) : (s.setCarry ca).getCarry = if ca then 1 else 0 := by
  cases ca <;> rfl

@[simp] theorem getXER_OV_setXER_OV (value : Bool) :
    (s.setXER_OV value).getXER_OV = if value then 1 else 0 := by
  change (withOV s.xer_so_ov value).setWidth 32 &&& 1 = _
  obtain h | h | h | h := so_ov_cases s.xer_so_ov_le <;> rw [h] <;> cases value <;> rfl

@[simp] theorem getXER_SO_setXER_OV (value : Bool) :
    (s.setXER_OV value).getXER_SO = if value then 1 else s.getXER_SO := by
  change (withOV s.xer_so_ov value).setWidth 32 >>> 1 =
    if _ then _ else s.xer_so_ov.setWidth 32 >>> 1
  obtain h | h | h | h := so_ov_cases s.xer_so_ov_le <;> rw [h] <;> cases value <;> rfl

/-! ## the condition register -/

def PPCCRToInternal (value : BitVec 4) : BitVec 64 :=
  0x100000000#64 ||| (if value &&& 1 ≠ 0 then 1#64 <<< 61 else 0#64) |||
    (if value &&& 2 ≠ 0 then 0#64 else 1#64) |||
    (if value &&& 4 ≠ 0 then 0#64 else 1#64 <<< 63) |||
    (if value &&& 8 ≠ 0 then 1#64 <<< 62 else 0#64)

def setCRField (cr_field : Nat) (value : BitVec 4) : PowerPCState :=
  { s with cr_val := Function.update s.cr_val cr_field (PPCCRToInternal value) }

/-- The four bits that `GetCRField` reads from 64. -/
def fromInternal (cr_val : BitVec 64) : BitVec 4 :=
  (if cr_val &&& (1#64 <<< 61) ≠ 0 then 1 else 0) |||
    (if cr_val &&& 0xFFFFFFFF = 0 then 2 else 0) |||
    (if 0 < cr_val.toInt then 4 else 0) |||
    (if cr_val &&& (1#64 <<< 62) ≠ 0 then 8 else 0)

def getCRField (cr_field : Nat) : BitVec 4 := fromInternal (s.cr_val cr_field)

def getCRBit (bit : Nat) : Bool := (s.getCRField (bit / 4)).getLsbD (3 - bit % 4)

def setCRBit (bit : Nat) (value : Bool) : PowerPCState :=
  if value then s.setCRField (bit / 4) (s.getCRField (bit / 4) ||| (8#4 >>> (bit % 4)))
  else s.setCRField (bit / 4) (s.getCRField (bit / 4) &&& ~~~(8#4 >>> (bit % 4)))

def compactCR : BitVec 32 :=
  (List.range 8).foldl
    (fun new_cr i => new_cr ||| (s.getCRField i).setWidth 32 <<< (28 - i * 4)) 0#32

def expandCR (cr : BitVec 32) : PowerPCState :=
  (List.range 8).foldl (fun s i => s.setCRField i ((cr >>> (28 - i * 4)).setWidth 4)) s

end PowerPCState

def helper_UpdateCR0 (value : BitVec 32) (s : PowerPCState) : PowerPCState :=
  let cr_val := value.signExtend 64
  let cr_val := (cr_val &&& ~~~(1#64 <<< 61)) ||| (s.getXER_SO.setWidth 64 <<< 61)
  { s with cr_val := Function.update s.cr_val 0 cr_val }

end DolphinCore.PowerPC
