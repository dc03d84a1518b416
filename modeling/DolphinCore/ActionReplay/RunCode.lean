import Mathlib.Order.Basic

/-!
# DolphinCore.ActionReplay.RunCode

The interpreter of Action Replay codes, `RunCodeLocked`: one loop over the entries of a code, whose
state is a count of entries to skip and two flags for an operand that is still to come.

The host's accesses to emulated memory are parameters.  A read of the host changes nothing, so the
reads that only a log message makes are left out.
-/

namespace DolphinCore.ActionReplay

/-- One line of a code. -/
structure AREntry where
  cmd_addr : BitVec 32
  value : BitVec 32
  deriving DecidableEq, Repr

/-! ## the fields of the first word

Fields of two and three bits leave no bad size, subtype or comparison: the branches of the source
that report one are not reached. -/

inductive DataType
  | DATATYPE_8BIT
  | DATATYPE_16BIT
  | DATATYPE_32BIT
  | DATATYPE_32BIT_FLOAT
  deriving DecidableEq, Repr

def DataType.ofBits (v : BitVec 2) : DataType :=
  match v.toNat with
  | 0 => .DATATYPE_8BIT
  | 1 => .DATATYPE_16BIT
  | 2 => .DATATYPE_32BIT
  | _ => .DATATYPE_32BIT_FLOAT

/-- The comparison of a conditional code. -/
inductive Conditional
  | CONDTIONAL_EQUAL
  | CONDTIONAL_NOT_EQUAL
  | CONDTIONAL_LESS_THAN_SIGNED
  | CONDTIONAL_GREATER_THAN_SIGNED
  | CONDTIONAL_LESS_THAN_UNSIGNED
  | CONDTIONAL_GREATER_THAN_UNSIGNED
  | CONDTIONAL_AND
  deriving DecidableEq, Repr

/-- Type 0 is that of the normal codes, every other type is conditional. -/
def Conditional.ofBits (v : BitVec 3) : Option Conditional :=
  match v.toNat with
  | 0 => none
  | 1 => some .CONDTIONAL_EQUAL
  | 2 => some .CONDTIONAL_NOT_EQUAL
  | 3 => some .CONDTIONAL_LESS_THAN_SIGNED
  | 4 => some .CONDTIONAL_GREATER_THAN_SIGNED
  | 5 => some .CONDTIONAL_LESS_THAN_UNSIGNED
  | 6 => some .CONDTIONAL_GREATER_THAN_UNSIGNED
  | _ => some .CONDTIONAL_AND

/-- The subtype of a conditional code. -/
inductive LineCount
  | CONDTIONAL_ONE_LINE
  | CONDTIONAL_TWO_LINES
  | CONDTIONAL_ALL_LINES_UNTIL
  | CONDTIONAL_ALL_LINES
  deriving DecidableEq, Repr

def LineCount.ofBits (v : BitVec 2) : LineCount :=
  match v.toNat with
  | 0 => .CONDTIONAL_ONE_LINE
  | 1 => .CONDTIONAL_TWO_LINES
  | 2 => .CONDTIONAL_ALL_LINES_UNTIL
  | _ => .CONDTIONAL_ALL_LINES

/-- The number of the subtype. -/
def LineCount.toInt : LineCount → Int
  | .CONDTIONAL_ONE_LINE => 0
  | .CONDTIONAL_TWO_LINES => 1
  | .CONDTIONAL_ALL_LINES_UNTIL => 2
  | .CONDTIONAL_ALL_LINES => 3

/-- The subtype of a normal code. -/
inductive NormalSubtype
  | SUB_RAM_WRITE
  | SUB_WRITE_POINTER
  | SUB_ADD_CODE
  | SUB_MASTER_CODE
  deriving DecidableEq, Repr

def NormalSubtype.ofBits (v : BitVec 2) : NormalSubtype :=
  match v.toNat with
  | 0 => .SUB_RAM_WRITE
  | 1 => .SUB_WRITE_POINTER
  | 2 => .SUB_ADD_CODE
  | _ => .SUB_MASTER_CODE

/-- What an entry with address 0 asks for. -/
inductive ZeroCode
  | ZCODE_END
  | ZCODE_NORM
  | ZCODE_ROW
  | ZCODE_04
  | unknown
  deriving DecidableEq, Repr

/-- `data >> 29` -/
def ZeroCode.ofData (data : BitVec 32) : ZeroCode :=
  match (data >>> 29).toNat with
  | 0 => .ZCODE_END
  | 2 => .ZCODE_NORM
  | 3 => .ZCODE_ROW
  | 4 => .ZCODE_04
  | _ => .unknown

structure ARAddr where
  address : BitVec 32
  deriving DecidableEq, Repr

namespace ARAddr

variable (addr : ARAddr)

def gcaddr : BitVec 25 := addr.address.setWidth 25

def size : DataType := .ofBits (addr.address.extractLsb' 25 2)

def type : Option Conditional := Conditional.ofBits (addr.address.extractLsb' 27 3)

def subtype : BitVec 2 := addr.address.extractLsb' 30 2

def GCAddress : BitVec 32 := addr.gcaddr.setWidth 32 ||| 0x80000000#32

end ARAddr

/-! ## memory as the host accesses it -/

/-- `HostRead_*` and `HostWrite_*`, and the sum of a float and an integer that an add code forms. -/
structure HostMemory (σ : Type) where
  HostRead_U8 : σ → BitVec 32 → BitVec 8
  HostRead_U16 : σ → BitVec 32 → BitVec 16
  HostRead_U32 : σ → BitVec 32 → BitVec 32
  HostWrite_U8 : σ → BitVec 8 → BitVec 32 → σ
  HostWrite_U16 : σ → BitVec 16 → BitVec 32 → σ
  HostWrite_U32 : σ → BitVec 32 → BitVec 32 → σ
  floatSum : BitVec 32 → BitVec 32 → BitVec 32

inductive Access
  | readU8 (address : BitVec 32)
  | readU16 (address : BitVec 32)
  | readU32 (address : BitVec 32)
  | writeU8 (value : BitVec 8) (address : BitVec 32)
  | writeU16 (value : BitVec 16) (address : BitVec 32)
  | writeU32 (value : BitVec 32) (address : BitVec 32)
  deriving DecidableEq, Repr

/-- Memory, and the accesses of the entry that is run. -/
structure Session (σ : Type) where
  memory : σ
  accesses : List Access

variable {σ : Type} (host : HostMemory σ)

namespace Session

variable (s : Session σ)

def HostRead_U8 (address : BitVec 32) : BitVec 8 × Session σ :=
  (host.HostRead_U8 s.memory address, { s with accesses := s.accesses ++ [.readU8 address] })

def HostRead_U16 (address : BitVec 32) : BitVec 16 × Session σ :=
  (host.HostRead_U16 s.memory address, { s with accesses := s.accesses ++ [.readU16 address] })

def HostRead_U32 (address : BitVec 32) : BitVec 32 × Session σ :=
  (host.HostRead_U32 s.memory address, { s with accesses := s.accesses ++ [.readU32 address] })

def HostWrite_U8 (value : BitVec 8) (address : BitVec 32) : Session σ :=
  ⟨host.HostWrite_U8 s.memory value address, s.accesses ++ [.writeU8 value address]⟩

def HostWrite_U16 (value : BitVec 16) (address : BitVec 32) : Session σ :=
  ⟨host.HostWrite_U16 s.memory value address, s.accesses ++ [.writeU16 value address]⟩

def HostWrite_U32 (value : BitVec 32) (address : BitVec 32) : Session σ :=
  ⟨host.HostWrite_U32 s.memory value address, s.accesses ++ [.writeU32 value address]⟩

end Session

/-! ## normal codes -/

/-- A `for` loop of `n` rounds whose counter starts at `i`. -/
def loopFrom {α : Type} (body : BitVec 32 → α → α) : Nat → BitVec 32 → α → α
  | 0, _, s => s
  | n + 1, i, s => loopFrom body n (i + 1#32) (body i s)

def subtypeRamWriteAndFill (addr : ARAddr) (data : BitVec 32) (s : Session σ) : Bool × Session σ :=
  let new_addr := addr.GCAddress
  match addr.size with
  | .DATATYPE_8BIT =>
    (true, loopFrom (fun i s => s.HostWrite_U8 host ((data &&& 0xFF#32).setWidth 8) (new_addr + i))
      ((data >>> 8).toNat + 1) 0#32 s)
  | .DATATYPE_16BIT =>
    (true, loopFrom
      (fun i s => s.HostWrite_U16 host ((data &&& 0xFFFF#32).setWidth 16) (new_addr + i * 2#32))
      ((data >>> 16).toNat + 1) 0#32 s)
  | .DATATYPE_32BIT_FLOAT | .DATATYPE_32BIT => (true, s.HostWrite_U32 host data new_addr)

def subtypeWriteToPointer (addr : ARAddr) (data : BitVec 32) (s : Session σ) : Bool × Session σ :=
  let (ptr, s) := s.HostRead_U32 host addr.GCAddress
  match addr.size with
  | .DATATYPE_8BIT =>
    (true, s.HostWrite_U8 host ((data &&& 0xFF#32).setWidth 8) (ptr + data >>> 8))
  | .DATATYPE_16BIT =>
    (true, s.HostWrite_U16 host ((data &&& 0xFFFF#32).setWidth 16) (ptr + (data >>> 16) <<< 1))
  | .DATATYPE_32BIT_FLOAT | .DATATYPE_32BIT => (true, s.HostWrite_U32 host data ptr)

def subtypeAddCode (addr : ARAddr) (data : BitVec 32) (s : Session σ) : Bool × Session σ :=
  let new_addr := addr.GCAddress
  match addr.size with
  | .DATATYPE_8BIT =>
    let (read, s) := s.HostRead_U8 host new_addr
    (true, s.HostWrite_U8 host ((read.setWidth 32 + data).setWidth 8) new_addr)
  | .DATATYPE_16BIT =>
    let (read, s) := s.HostRead_U16 host new_addr
    (true, s.HostWrite_U16 host ((read.setWidth 32 + data).setWidth 16) new_addr)
  | .DATATYPE_32BIT =>
    let (read, s) := s.HostRead_U32 host new_addr
    (true, s.HostWrite_U32 host (read + data) new_addr)
  | .DATATYPE_32BIT_FLOAT =>
    let (read, s) := s.HostRead_U32 host new_addr
    (true, s.HostWrite_U32 host (host.floatSum read data) new_addr)

/-- `NormalCode`, with `Subtype_MasterCodeAndWriteToCCXXXXXX`, which only refuses. -/
def normalCode (addr : ARAddr) (data : BitVec 32) (s : Session σ) : Bool × Session σ :=
  match NormalSubtype.ofBits addr.subtype with
  | .SUB_RAM_WRITE => subtypeRamWriteAndFill host addr data s
  | .SUB_WRITE_POINTER => subtypeWriteToPointer host addr data s
  | .SUB_ADD_CODE => subtypeAddCode host addr data s
  | .SUB_MASTER_CODE => (false, s)

/-! ## the codes with an operand -/

/-- The loop of `ZeroCode_FillAndSlide` over its element number, value and address. -/
def slideFrom (write : BitVec 32 → BitVec 32 → Session σ → Session σ) (addr_incr val_incr : Int) :
    Nat → BitVec 32 → BitVec 32 → Session σ → Session σ
  | 0, _, _, s => s
  | n + 1, val, curr_addr, s =>
    slideFrom write addr_incr val_incr n (val + BitVec.ofInt 32 val_incr)
      (curr_addr + BitVec.ofInt 32 addr_incr) (write val curr_addr s)

def zeroCodeFillAndSlide (val_last : BitVec 32) (addr : ARAddr) (data : BitVec 32)
    (s : Session σ) : Bool × Session σ :=
  let new_addr := (ARAddr.mk val_last).GCAddress
  let addr_incr : Int := ((data &&& 0xFFFF#32).setWidth 16).toInt
  let val_incr : Int := ((data >>> 24).setWidth 8).toInt
  let write_num : BitVec 8 := ((data &&& 0xFF0000#32) >>> 16).setWidth 8
  match (ARAddr.mk val_last).size with
  | .DATATYPE_8BIT =>
    (true, slideFrom (fun val a s => s.HostWrite_U8 host ((val &&& 0xFF#32).setWidth 8) a)
      addr_incr val_incr write_num.toNat addr.address new_addr s)
  | .DATATYPE_16BIT =>
    (true, slideFrom (fun val a s => s.HostWrite_U16 host ((val &&& 0xFFFF#32).setWidth 16) a)
      (addr_incr * 2) val_incr write_num.toNat addr.address new_addr s)
  | .DATATYPE_32BIT =>
    (true, slideFrom (fun val a s => s.HostWrite_U32 host val a)
      (addr_incr * 4) val_incr write_num.toNat addr.address new_addr s)
  | .DATATYPE_32BIT_FLOAT => (false, s)

/-- `HostWrite_U8(HostRead_U8(src + i), dest + i)` -/
def copyByte (src dest i : BitVec 32) (s : Session σ) : Session σ :=
  let (byte, s) := s.HostRead_U8 host (src + i)
  s.HostWrite_U8 host byte (dest + i)

/-- `ZeroCode_MemoryCopy`: the number of bytes is kept in a `u8`. -/
def zeroCodeMemoryCopy (val_last : BitVec 32) (addr : ARAddr) (data : BitVec 32)
    (s : Session σ) : Bool × Session σ :=
  let addr_dest := val_last &&& ~~~0x06000000#32
  let addr_src := addr.GCAddress
  let num_bytes : BitVec 8 := (data &&& 0x7FFF#32).setWidth 8
  if data &&& 0xFF0000#32 = 0#32 then
    if data >>> 24 ≠ 0#32 then
      let (ptr_dest, s) := s.HostRead_U32 host addr_dest
      let (ptr_src, s) := s.HostRead_U32 host addr_src
      (true, loopFrom (copyByte host ptr_src ptr_dest) num_bytes.toNat 0#32 s)
    else
      (true, loopFrom (copyByte host addr_src addr_dest) num_bytes.toNat 0#32 s)
  else (false, s)

/-! ## conditional codes -/

def compareValues (val1 val2 : BitVec 32) : Conditional → Bool
  | .CONDTIONAL_EQUAL => val1 == val2
  | .CONDTIONAL_NOT_EQUAL => val1 != val2
  | .CONDTIONAL_LESS_THAN_SIGNED => val1.slt val2
  | .CONDTIONAL_GREATER_THAN_SIGNED => val2.slt val1
  | .CONDTIONAL_LESS_THAN_UNSIGNED => val1.ult val2
  | .CONDTIONAL_GREATER_THAN_UNSIGNED => val2.ult val1
  | .CONDTIONAL_AND => val1 &&& val2 != 0#32

/-- `ConditionalCode`: the count of entries to skip, which stays as it is where the comparison
holds. -/
def conditionalCode (addr : ARAddr) (type : Conditional) (data : BitVec 32) (skip_count : Int)
    (s : Session σ) : Int × Session σ :=
  let new_addr := addr.GCAddress
  let (result, s) :=
    match addr.size with
    | .DATATYPE_8BIT =>
      let (read, s) := s.HostRead_U8 host new_addr
      (compareValues (read.setWidth 32) (data &&& 0xFF#32) type, s)
    | .DATATYPE_16BIT =>
      let (read, s) := s.HostRead_U16 host new_addr
      (compareValues (read.setWidth 32) (data &&& 0xFFFF#32) type, s)
    | .DATATYPE_32BIT_FLOAT | .DATATYPE_32BIT =>
      let (read, s) := s.HostRead_U32 host new_addr
      (compareValues read data type, s)
  if result then (skip_count, s)
  else
    match LineCount.ofBits addr.subtype with
    | .CONDTIONAL_ONE_LINE => (LineCount.toInt .CONDTIONAL_ONE_LINE + 1, s)
    | .CONDTIONAL_TWO_LINES => (LineCount.toInt .CONDTIONAL_TWO_LINES + 1, s)
    | .CONDTIONAL_ALL_LINES_UNTIL => (-LineCount.toInt .CONDTIONAL_ALL_LINES_UNTIL, s)
    | .CONDTIONAL_ALL_LINES => (-LineCount.toInt .CONDTIONAL_ALL_LINES, s)

/-! ## the loop over the entries -/

/-- The variables that `RunCodeLocked` keeps from one entry to the next. -/
structure RunState where
  do_fill_and_slide : Bool
  do_memory_copy : Bool
  skip_count : Int
  val_last : BitVec 32

/-- An entry that is not skipped: the loop logs that it runs it. -/
structure ExecutedLine where
  entry : AREntry
  accesses : List Access
  deriving DecidableEq, Repr

structure RunResult (σ : Type) where
  lines : List ExecutedLine
  success : Bool
  memory : σ

namespace RunResult

variable (r : RunResult σ)

/-- The result with the lines that were run before. -/
def after (lines : List ExecutedLine) : RunResult σ :=
  { r with lines := lines ++ r.lines }

end RunResult

/-- An entry while `skip_count` is not 0: the state for the next entry, nothing where the loop is
left. -/
def skipEntry (entry : AREntry) (st : RunState) : Option RunState :=
  if 0 < st.skip_count then some { st with skip_count := st.skip_count - 1 }
  else if -LineCount.toInt .CONDTIONAL_ALL_LINES = st.skip_count then none
  else if -LineCount.toInt .CONDTIONAL_ALL_LINES_UNTIL = st.skip_count then
    if entry.cmd_addr = 0#32 ∧ 0x40000000#32 = entry.value then some { st with skip_count := 0 }
    else some st
  else some st

/-- An entry that is run: what the function returns, if it does, and the state for the next one. -/
def runEntry (entry : AREntry) (st : RunState) (s : Session σ) :
    Option Bool × RunState × Session σ :=
  let addr : ARAddr := ⟨entry.cmd_addr⟩
  let data := entry.value
  if st.do_fill_and_slide then
    let (ok, s) := zeroCodeFillAndSlide host st.val_last addr data s
    (if ok then none else some false, { st with do_fill_and_slide := false }, s)
  else if st.do_memory_copy then
    let (ok, s) := zeroCodeMemoryCopy host st.val_last addr data s
    (if ok then none else some false, { st with do_memory_copy := false }, s)
  else if 0x2000#32 ≤ addr.address ∧ addr.address < 0x3000#32 then (some false, st, s)
  else if addr.address = 0#32 then
    match ZeroCode.ofData data with
    | .ZCODE_END => (some true, st, s)
    | .ZCODE_NORM => (none, st, s)
    | .ZCODE_ROW => (some false, st, s)
    | .ZCODE_04 =>
      if (data >>> 25) &&& 0x3#32 = 0x3#32 then
        (none, { st with do_memory_copy := true, val_last := data }, s)
      else (none, { st with do_fill_and_slide := true, val_last := data }, s)
    | .unknown => (some false, st, s)
  else
    match addr.type with
    | none =>
      let (ok, s) := normalCode host addr data s
      (if ok then none else some false, st, s)
    | some type =>
      let (skip_count, s) := conditionalCode host addr type data st.skip_count s
      (none, { st with skip_count := skip_count }, s)

/-- The loop of `RunCodeLocked`. -/
def runFrom : List AREntry → RunState → σ → RunResult σ
  | [], _, memory => ⟨[], true, memory⟩
  | entry :: rest, st, memory =>
    if st.skip_count ≠ 0 then
      match skipEntry entry st with
      | none => ⟨[], true, memory⟩
      | some st => runFrom rest st memory
    else
      match runEntry host entry st ⟨memory, []⟩ with
      | (some success, _, s) => ⟨[⟨entry, s.accesses⟩], success, s.memory⟩
      | (none, st, s) => (runFrom rest st s.memory).after [⟨entry, s.accesses⟩]

def runCodeLocked (ops : List AREntry) (memory : σ) : RunResult σ :=
  runFrom host ops ⟨false, false, 0, 0#32⟩ memory

end DolphinCore.ActionReplay
