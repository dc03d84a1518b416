import DolphinCore.DSP.CCUtil

/-!
# DolphinCore.DSP.Arithmetic

The arithmetic instructions (`DSPIntArithmetic.cpp`). Each maps the registers
to the registers after it and the flag update it ends with; the immediate of a
two word instruction is an argument.

Most of them belong to a family: read an operand, combine it with an
accumulator, store and update the flags. A member is its family's definition at
the member's operand.
-/

namespace DolphinCore.DSP.Interpreter

/-! ## families -/

/-- Stores an accumulator and updates the flags from the value stored. -/
def storeAcc (r : Regs) (d : Fin 2) (val : BitVec 64) : Regs × SRUpdate :=
  (r.setLongAcc d val, .register64 val false false)

/-- The same, with the flags of what is read back. -/
def storeAccReread (r : Regs) (d : Fin 2) (val : BitVec 64) : Regs × SRUpdate :=
  let r := r.setLongAcc d val
  (r, .register64 (r.getLongAcc d) false false)

/-- `acc + val` into the accumulator. -/
def addTo (r : Regs) (d : Fin 2) (val : BitVec 64) : Regs × SRUpdate :=
  let acc := r.getLongAcc d
  let r := r.setLongAcc d (acc + val)
  let res := r.getLongAcc d
  (r, .register64 res (isCarry acc res) (isOverflow acc val res))

/-- `acc - val` into the accumulator. -/
def subFrom (r : Regs) (d : Fin 2) (val : BitVec 64) : Regs × SRUpdate :=
  let acc := r.getLongAcc d
  let r := r.setLongAcc d (acc - val)
  let res := r.getLongAcc d
  (r, .register64 res (isCarry2 acc res) (isOverflow acc (-val) res))

/-- The flags of `acc - val`. -/
def compareWith (r : Regs) (d : Fin 2) (val : BitVec 64) : Regs × SRUpdate :=
  let acc := r.getLongAcc d
  let res := Regs.convertLongAcc (acc - val)
  (r, .register64 res (isCarry2 acc res) (isOverflow acc (-val) res))

/-- Stores the middle word of an accumulator. -/
def storeAccM (r : Regs) (d : Fin 2) (accm : BitVec 16) : Regs × SRUpdate :=
  let r := r.setAcM d accm
  (r, .register16 accm false false (isOverS32 (r.getLongAcc d)))

/-- The word of `ax` that the `AXL0 + s` of an instruction names. -/
def axWord (r : Regs) (s : Fin 4) : BitVec 16 :=
  if s.val < 2 then (r.ax (Fin.ofNat 2 s.val)).l else (r.ax (Fin.ofNat 2 s.val)).h

/-- A word at the level of the middle word of an accumulator. -/
def atM (x : BitVec 16) : BitVec 64 := x.signExtend 64 <<< 16

/-- The shift a register asks for: the low six bits, less 64 when bit 6 is set. -/
def shiftAmount (x : BitVec 16) : Int :=
  if x &&& 0x3f = 0 then 0
  else if x &&& 0x40 ≠ 0 then -0x40 + (x &&& 0x3f).toNat
  else (x &&& 0x3f).toNat

/-- The low 40 bits. -/
def low40 (acc : BitVec 64) : BitVec 64 := acc &&& 0x000000FFFFFFFFFF

/-! ## clear, test, compare -/

def clr (opc : BitVec 16) (r : Regs) : Regs × SRUpdate := storeAcc r (bit1 opc 11) 0

def clrl (opc : BitVec 16) (r : Regs) : Regs × SRUpdate :=
  let d := bit1 opc 8
  storeAcc r d (Regs.roundLongAcc (r.getLongAcc d))

def andcf (opc imm : BitVec 16) (r : Regs) : Regs × SRUpdate :=
  (r, .lz ((r.ac (bit1 opc 8)).m &&& imm = imm))

def andf (opc imm : BitVec 16) (r : Regs) : Regs × SRUpdate :=
  (r, .lz ((r.ac (bit1 opc 8)).m &&& imm = 0))

def tst (opc : BitVec 16) (r : Regs) : Regs × SRUpdate :=
  (r, .register64 (r.getLongAcc (bit1 opc 11)) false false)

def tstaxh (opc : BitVec 16) (r : Regs) : Regs × SRUpdate :=
  (r, .register16 (r.ax (bit1 opc 8)).h false false false)

def cmp (_opc : BitVec 16) (r : Regs) : Regs × SRUpdate := compareWith r 0 (r.getLongAcc 1)

def cmpar (opc : BitVec 16) (r : Regs) : Regs × SRUpdate :=
  compareWith r (bit1 opc 11) (atM (r.ax (bit1 opc 12)).h)

def cmpi (opc imm : BitVec 16) (r : Regs) : Regs × SRUpdate :=
  compareWith r (bit1 opc 8) (atM imm)

def cmpis (opc : BitVec 16) (r : Regs) : Regs × SRUpdate :=
  compareWith r (bit1 opc 8) ((opc.setWidth 8).signExtend 64 <<< 16)

/-! ## logic -/

def xorr (opc : BitVec 16) (r : Regs) : Regs × SRUpdate :=
  let d := bit1 opc 8
  storeAccM r d ((r.ac d).m ^^^ (r.ax (bit1 opc 9)).h)

def andr (opc : BitVec 16) (r : Regs) : Regs × SRUpdate :=
  let d := bit1 opc 8
  storeAccM r d ((r.ac d).m &&& (r.ax (bit1 opc 9)).h)

def orr (opc : BitVec 16) (r : Regs) : Regs × SRUpdate :=
  let d := bit1 opc 8
  storeAccM r d ((r.ac d).m ||| (r.ax (bit1 opc 9)).h)

def andc (opc : BitVec 16) (r : Regs) : Regs × SRUpdate :=
  let d := bit1 opc 8
  storeAccM r d ((r.ac d).m &&& (r.ac (1 - d)).m)

def orc (opc : BitVec 16) (r : Regs) : Regs × SRUpdate :=
  let d := bit1 opc 8
  storeAccM r d ((r.ac d).m ||| (r.ac (1 - d)).m)

def xorc (opc : BitVec 16) (r : Regs) : Regs × SRUpdate :=
  let d := bit1 opc 8
  storeAccM r d ((r.ac d).m ^^^ (r.ac (1 - d)).m)

def notc (opc : BitVec 16) (r : Regs) : Regs × SRUpdate :=
  let d := bit1 opc 8
  storeAccM r d ((r.ac d).m ^^^ 0xffff)

def xori (opc imm : BitVec 16) (r : Regs) : Regs × SRUpdate :=
  let d := bit1 opc 8
  storeAccM r d ((r.ac d).m ^^^ imm)

def andi (opc imm : BitVec 16) (r : Regs) : Regs × SRUpdate :=
  let d := bit1 opc 8
  storeAccM r d ((r.ac d).m &&& imm)

def ori (opc imm : BitVec 16) (r : Regs) : Regs × SRUpdate :=
  let d := bit1 opc 8
  storeAccM r d ((r.ac d).m ||| imm)

/-! ## add and subtract -/

def addr (opc : BitVec 16) (r : Regs) : Regs × SRUpdate :=
  addTo r (bit1 opc 8) (atM (axWord r (bits2 opc 9)))

def addax (opc : BitVec 16) (r : Regs) : Regs × SRUpdate :=
  addTo r (bit1 opc 8) (r.getLongAcx (bit1 opc 9))

def add (opc : BitVec 16) (r : Regs) : Regs × SRUpdate :=
  addTo r (bit1 opc 8) (r.getLongAcc (1 - bit1 opc 8))

def addp (opc : BitVec 16) (r : Regs) : Regs × SRUpdate := addTo r (bit1 opc 8) r.getLongProd

def addaxl (opc : BitVec 16) (r : Regs) : Regs × SRUpdate :=
  addTo r (bit1 opc 8) ((r.ax (bit1 opc 9)).l.setWidth 64)

def addi (opc imm : BitVec 16) (r : Regs) : Regs × SRUpdate := addTo r (bit1 opc 8) (atM imm)

def addis (opc : BitVec 16) (r : Regs) : Regs × SRUpdate :=
  addTo r (bit1 opc 8) ((opc.setWidth 8).signExtend 64 <<< 16)

def incm (opc : BitVec 16) (r : Regs) : Regs × SRUpdate := addTo r (bit1 opc 8) 0x10000

def inc (opc : BitVec 16) (r : Regs) : Regs × SRUpdate := addTo r (bit1 opc 8) 1

def subr (opc : BitVec 16) (r : Regs) : Regs × SRUpdate :=
  subFrom r (bit1 opc 8) (atM (axWord r (bits2 opc 9)))

def subax (opc : BitVec 16) (r : Regs) : Regs × SRUpdate :=
  subFrom r (bit1 opc 8) (r.getLongAcx (bit1 opc 9))

def sub (opc : BitVec 16) (r : Regs) : Regs × SRUpdate :=
  subFrom r (bit1 opc 8) (r.getLongAcc (1 - bit1 opc 8))

def subp (opc : BitVec 16) (r : Regs) : Regs × SRUpdate := subFrom r (bit1 opc 8) r.getLongProd

def decm (opc : BitVec 16) (r : Regs) : Regs × SRUpdate := subFrom r (bit1 opc 8) 0x10000

def dec (opc : BitVec 16) (r : Regs) : Regs × SRUpdate := subFrom r (bit1 opc 8) 1

/-! ## negate and move -/

def neg (opc : BitVec 16) (r : Regs) : Regs × SRUpdate :=
  let d := bit1 opc 8
  storeAccReread r d (0 - r.getLongAcc d)

def abs (opc : BitVec 16) (r : Regs) : Regs × SRUpdate :=
  let d := bit1 opc 11
  let acc := r.getLongAcc d
  storeAccReread r d (if acc.msb then 0 - acc else acc)

def movr (opc : BitVec 16) (r : Regs) : Regs × SRUpdate :=
  storeAcc r (bit1 opc 8) (atM (axWord r (bits2 opc 9)) &&& ~~~0xffff)

def movax (opc : BitVec 16) (r : Regs) : Regs × SRUpdate :=
  storeAcc r (bit1 opc 8) (r.getLongAcx (bit1 opc 9))

def mov (opc : BitVec 16) (r : Regs) : Regs × SRUpdate :=
  storeAcc r (bit1 opc 8) (r.getLongAcc (1 - bit1 opc 8))

/-! ## shift -/

def lsl16 (opc : BitVec 16) (r : Regs) : Regs × SRUpdate :=
  let d := bit1 opc 8
  storeAccReread r d (r.getLongAcc d <<< 16)

def lsr16 (opc : BitVec 16) (r : Regs) : Regs × SRUpdate :=
  let d := bit1 opc 8
  storeAccReread r d (low40 (r.getLongAcc d) >>> 16)

def asr16 (opc : BitVec 16) (r : Regs) : Regs × SRUpdate :=
  let d := bit1 opc 11
  storeAccReread r d ((r.getLongAcc d).sshiftRight 16)

def lsl (opc : BitVec 16) (r : Regs) : Regs × SRUpdate :=
  let d := bit1 opc 8
  storeAccReread r d (r.getLongAcc d <<< bits opc 0 6)

def lsr (opc : BitVec 16) (r : Regs) : Regs × SRUpdate :=
  let d := bit1 opc 8
  let shift := if bits opc 0 6 = 0 then 0 else 0x40 - bits opc 0 6
  storeAccReread r d (low40 (r.getLongAcc d) >>> shift)

def asl (opc : BitVec 16) (r : Regs) : Regs × SRUpdate :=
  let d := bit1 opc 8
  storeAccReread r d (r.getLongAcc d <<< bits opc 0 6)

def asr (opc : BitVec 16) (r : Regs) : Regs × SRUpdate :=
  let d := bit1 opc 8
  let shift := if bits opc 0 6 = 0 then 0 else 0x40 - bits opc 0 6
  storeAccReread r d ((r.getLongAcc d).sshiftRight shift)

/-- A logical shift, to the right for a positive amount. -/
def logicalRight (acc : BitVec 64) (shift : Int) : BitVec 64 :=
  if shift > 0 then acc >>> shift.toNat else if shift < 0 then acc <<< (-shift).toNat else acc

/-- An arithmetic shift, to the right for a positive amount. -/
def arithmeticRight (acc : BitVec 64) (shift : Int) : BitVec 64 :=
  if shift > 0 then acc.sshiftRight shift.toNat
  else if shift < 0 then acc <<< (-shift).toNat
  else acc

def lsrn (_opc : BitVec 16) (r : Regs) : Regs × SRUpdate :=
  storeAccReread r 0 (logicalRight (low40 (r.getLongAcc 0)) (shiftAmount (r.ac 1).m))

def asrn (_opc : BitVec 16) (r : Regs) : Regs × SRUpdate :=
  storeAccReread r 0 (arithmeticRight (r.getLongAcc 0) (shiftAmount (r.ac 1).m))

def lsrnrx (opc : BitVec 16) (r : Regs) : Regs × SRUpdate :=
  let d := bit1 opc 8
  storeAccReread r d
    (logicalRight (low40 (r.getLongAcc d)) (-shiftAmount (r.ax (bit1 opc 9)).h))

def asrnrx (opc : BitVec 16) (r : Regs) : Regs × SRUpdate :=
  let d := bit1 opc 8
  storeAccReread r d (arithmeticRight (r.getLongAcc d) (-shiftAmount (r.ax (bit1 opc 9)).h))

def lsrnr (opc : BitVec 16) (r : Regs) : Regs × SRUpdate :=
  let d := bit1 opc 8
  storeAccReread r d (logicalRight (low40 (r.getLongAcc d)) (-shiftAmount (r.ac (1 - d)).m))

def asrnr (opc : BitVec 16) (r : Regs) : Regs × SRUpdate :=
  let d := bit1 opc 8
  storeAccReread r d (arithmeticRight (r.getLongAcc d) (-shiftAmount (r.ac (1 - d)).m))

end DolphinCore.DSP.Interpreter
