import DolphinCore.ActionReplay.RunCode
import DolphinCore.Lib.Represents
import Mathlib.Tactic.Ring

/-!
# DolphinCore.ActionReplay.CodeMeaning

What the lines of an Action Replay code mean, told by the rest of the code that is still to run:
each line, with its operand, makes a list of accesses and says which lines come next.
`RunCodeLocked` is this meaning but for the number of bytes of a memory copy, of which it keeps
eight bits.
-/

namespace DolphinCore.ActionReplay

variable {σ : Type} (host : HostMemory σ)

/-! ## accesses -/

namespace HostMemory

/-- Memory after an access. -/
def perform (memory : σ) : Access → σ
  | .writeU8 value address => host.HostWrite_U8 memory value address
  | .writeU16 value address => host.HostWrite_U16 memory value address
  | .writeU32 value address => host.HostWrite_U32 memory value address
  | .readU8 _ | .readU16 _ | .readU32 _ => memory

def performAll (memory : σ) (l : List Access) : σ := l.foldl host.perform memory

/-- Memory after the lines that were run. -/
def runLines (memory : σ) (lines : List ExecutedLine) : σ :=
  lines.foldl (fun memory line => host.performAll memory line.accesses) memory

theorem performAll_append (memory : σ) (l l' : List Access) :
    host.performAll memory (l ++ l') = host.performAll (host.performAll memory l) l' :=
  List.foldl_append

@[simp] theorem runLines_nil (memory : σ) : host.runLines memory [] = memory := rfl

@[simp] theorem runLines_cons (memory : σ) (line : ExecutedLine) (lines : List ExecutedLine) :
    host.runLines memory (line :: lines) =
      host.runLines (host.performAll memory line.accesses) lines := rfl

@[simp] theorem performAll_nil (memory : σ) : host.performAll memory [] = memory := rfl

end HostMemory

namespace Session

variable (s : Session σ)

/-- The session after some accesses. -/
def performAll (l : List Access) : Session σ :=
  ⟨host.performAll s.memory l, s.accesses ++ l⟩

@[simp] theorem performAll_nil : s.performAll host [] = s := by
  simp [performAll]

theorem performAll_append (l l' : List Access) :
    (s.performAll host l).performAll host l' = s.performAll host (l ++ l') := by
  simp [performAll, HostMemory.performAll_append]

@[simp] theorem performAll_memory (l : List Access) :
    (s.performAll host l).memory = host.performAll s.memory l := rfl

theorem HostRead_U8_eq (a : BitVec 32) :
    s.HostRead_U8 host a = (host.HostRead_U8 s.memory a, s.performAll host [.readU8 a]) := rfl

theorem HostRead_U16_eq (a : BitVec 32) :
    s.HostRead_U16 host a = (host.HostRead_U16 s.memory a, s.performAll host [.readU16 a]) := rfl

theorem HostRead_U32_eq (a : BitVec 32) :
    s.HostRead_U32 host a = (host.HostRead_U32 s.memory a, s.performAll host [.readU32 a]) := rfl

theorem HostWrite_U8_eq (v : BitVec 8) (a : BitVec 32) :
    s.HostWrite_U8 host v a = s.performAll host [.writeU8 v a] := rfl

theorem HostWrite_U16_eq (v : BitVec 16) (a : BitVec 32) :
    s.HostWrite_U16 host v a = s.performAll host [.writeU16 v a] := rfl

theorem HostWrite_U32_eq (v a : BitVec 32) :
    s.HostWrite_U32 host v a = s.performAll host [.writeU32 v a] := rfl

end Session

/-! ## what the lines write -/

/-- A RAM write fills one element more than its count, one behind the other. -/
def ramWrites (addr : ARAddr) (data : BitVec 32) : List Access :=
  match addr.size with
  | .DATATYPE_8BIT =>
    (List.range (data.toNat / 0x100 + 1)).map fun k =>
      .writeU8 (data.setWidth 8) (addr.GCAddress + BitVec.ofNat 32 k)
  | .DATATYPE_16BIT =>
    (List.range (data.toNat / 0x10000 + 1)).map fun k =>
      .writeU16 (data.setWidth 16) (addr.GCAddress + BitVec.ofNat 32 (2 * k))
  | .DATATYPE_32BIT | .DATATYPE_32BIT_FLOAT => [.writeU32 data addr.GCAddress]

/-- A write through the pointer at the address, behind an offset in elements. -/
def pointerWrites (addr : ARAddr) (data : BitVec 32) (memory : σ) : List Access :=
  let ptr := host.HostRead_U32 memory addr.GCAddress
  .readU32 addr.GCAddress ::
    match addr.size with
    | .DATATYPE_8BIT => [.writeU8 (data.setWidth 8) (ptr + BitVec.ofNat 32 (data.toNat / 0x100))]
    | .DATATYPE_16BIT =>
      [.writeU16 (data.setWidth 16) (ptr + BitVec.ofNat 32 (2 * (data.toNat / 0x10000)))]
    | .DATATYPE_32BIT | .DATATYPE_32BIT_FLOAT => [.writeU32 data ptr]

/-- The element at the address, increased. -/
def addWrites (addr : ARAddr) (data : BitVec 32) (memory : σ) : List Access :=
  let a := addr.GCAddress
  match addr.size with
  | .DATATYPE_8BIT => [.readU8 a, .writeU8 (host.HostRead_U8 memory a + data.setWidth 8) a]
  | .DATATYPE_16BIT => [.readU16 a, .writeU16 (host.HostRead_U16 memory a + data.setWidth 16) a]
  | .DATATYPE_32BIT => [.readU32 a, .writeU32 (host.HostRead_U32 memory a + data) a]
  | .DATATYPE_32BIT_FLOAT =>
    [.readU32 a, .writeU32 (host.floatSum (host.HostRead_U32 memory a) data) a]

/-- Fill and slide: element `k` is at the start plus `k` strides of its size, and its value is the
first one plus `k` increments. -/
def slideWrites (val_last : BitVec 32) (addr : ARAddr) (data : BitVec 32) : List Access :=
  let start := (ARAddr.mk val_last).GCAddress
  let stride : Int := (data.extractLsb' 0 16).toInt
  let value (k : Nat) : Int := addr.address.toNat + k * (data.extractLsb' 24 8).toInt
  let elements := List.range (data.extractLsb' 16 8).toNat
  match (ARAddr.mk val_last).size with
  | .DATATYPE_8BIT =>
    elements.map fun k =>
      .writeU8 (BitVec.ofInt 8 (value k)) (BitVec.ofInt 32 (start.toNat + k * stride))
  | .DATATYPE_16BIT =>
    elements.map fun k =>
      .writeU16 (BitVec.ofInt 16 (value k)) (BitVec.ofInt 32 (start.toNat + k * (2 * stride)))
  | .DATATYPE_32BIT =>
    elements.map fun k =>
      .writeU32 (BitVec.ofInt 32 (value k)) (BitVec.ofInt 32 (start.toNat + k * (4 * stride)))
  | .DATATYPE_32BIT_FLOAT => []

/-- The bytes from `src` on are copied to `dest` one after the other, each as it is when its turn
comes. -/
def copyAccesses (src dest : BitVec 32) (memory : σ) : Nat → List Access
  | 0 => []
  | n + 1 =>
    let before := copyAccesses src dest memory n
    let byte := host.HostRead_U8 (host.performAll memory before) (src + BitVec.ofNat 32 n)
    before ++ [.readU8 (src + BitVec.ofNat 32 n), .writeU8 byte (dest + BitVec.ofNat 32 n)]

/-- A memory copy of some bytes: its two addresses are pointers where the top byte of the operand's
second word is set. -/
def copyWrites (count : Nat) (val_last : BitVec 32) (operand : AREntry) (memory : σ) :
    List Access :=
  let dest := val_last &&& ~~~0x06000000#32
  let src := (ARAddr.mk operand.cmd_addr).GCAddress
  if operand.value >>> 24 = 0#32 then copyAccesses host src dest memory count
  else
    .readU32 dest :: .readU32 src ::
      copyAccesses host (host.HostRead_U32 memory src) (host.HostRead_U32 memory dest) memory count

/-- The element that a conditional code reads. -/
def testRead (addr : ARAddr) : Access :=
  match addr.size with
  | .DATATYPE_8BIT => .readU8 addr.GCAddress
  | .DATATYPE_16BIT => .readU16 addr.GCAddress
  | .DATATYPE_32BIT | .DATATYPE_32BIT_FLOAT => .readU32 addr.GCAddress

/-- Does the condition hold? -/
def testHolds (addr : ARAddr) (type : Conditional) (data : BitVec 32) (memory : σ) : Bool :=
  match addr.size with
  | .DATATYPE_8BIT =>
    compareValues ((host.HostRead_U8 memory addr.GCAddress).setWidth 32)
      ((data.setWidth 8).setWidth 32) type
  | .DATATYPE_16BIT =>
    compareValues ((host.HostRead_U16 memory addr.GCAddress).setWidth 32)
      ((data.setWidth 16).setWidth 32) type
  | .DATATYPE_32BIT | .DATATYPE_32BIT_FLOAT =>
    compareValues (host.HostRead_U32 memory addr.GCAddress) data type

/-! ## which lines come next -/

/-- The line that ends "skip until". -/
def endIf : AREntry := ⟨0#32, 0x40000000#32⟩

/-- The lines that a false condition leaves of the rest of the code. -/
def LineCount.leave : LineCount → List AREntry → List AREntry
  | .CONDTIONAL_ONE_LINE, rest => rest.drop 1
  | .CONDTIONAL_TWO_LINES, rest => rest.drop 2
  | .CONDTIONAL_ALL_LINES_UNTIL, rest => (rest.dropWhile (· ≠ endIf)).drop 1
  | .CONDTIONAL_ALL_LINES, _ => []

/-- How a code goes on. -/
inductive Next
  | stop (success : Bool)
  | goOn (rest : List AREntry)

/-- Is the first line of a Z code with an operand one of a memory copy? -/
def IsMemoryCopy (val_last : BitVec 32) : Prop := (val_last >>> 25) &&& 0x3#32 = 0x3#32

instance (val_last : BitVec 32) : Decidable (IsMemoryCopy val_last) :=
  inferInstanceAs (Decidable (_ = _))

/-- The lines that run from an entry on until the next one is free to choose, and what comes
then.  The number of bytes of a memory copy is `copyCount` of the operand's second word. -/
def lineMeaning (copyCount : BitVec 32 → Nat) (entry : AREntry) (rest : List AREntry)
    (memory : σ) : List ExecutedLine × Next :=
  let addr : ARAddr := ⟨entry.cmd_addr⟩
  let data := entry.value
  if 0x2000#32 ≤ entry.cmd_addr ∧ entry.cmd_addr < 0x3000#32 then ([⟨entry, []⟩], .stop false)
  else if entry.cmd_addr = 0#32 then
    match ZeroCode.ofData data, rest with
    | .ZCODE_END, _ => ([⟨entry, []⟩], .stop true)
    | .ZCODE_NORM, _ => ([⟨entry, []⟩], .goOn rest)
    | .ZCODE_ROW, _ | .unknown, _ => ([⟨entry, []⟩], .stop false)
    | .ZCODE_04, [] => ([⟨entry, []⟩], .goOn [])
    | .ZCODE_04, operand :: rest' =>
      if IsMemoryCopy data then
        if operand.value &&& 0xFF0000#32 = 0#32 then
          ([⟨entry, []⟩,
            ⟨operand, copyWrites host (copyCount operand.value) data operand memory⟩], .goOn rest')
        else ([⟨entry, []⟩, ⟨operand, []⟩], .stop false)
      else
        ([⟨entry, []⟩, ⟨operand, slideWrites data ⟨operand.cmd_addr⟩ operand.value⟩], .goOn rest')
  else
    match addr.type with
    | none =>
      match NormalSubtype.ofBits addr.subtype with
      | .SUB_RAM_WRITE => ([⟨entry, ramWrites addr data⟩], .goOn rest)
      | .SUB_WRITE_POINTER => ([⟨entry, pointerWrites host addr data memory⟩], .goOn rest)
      | .SUB_ADD_CODE => ([⟨entry, addWrites host addr data memory⟩], .goOn rest)
      | .SUB_MASTER_CODE => ([⟨entry, []⟩], .stop false)
    | some type =>
      ([⟨entry, [testRead addr]⟩], .goOn (if testHolds host addr type data memory then rest
          else (LineCount.ofBits addr.subtype).leave rest))

theorem LineCount.length_leave_le (c : LineCount) (rest : List AREntry) :
    (c.leave rest).length ≤ rest.length := by
  cases c with
  | CONDTIONAL_ONE_LINE | CONDTIONAL_TWO_LINES => simp [leave]
  | CONDTIONAL_ALL_LINES => simp [leave]
  | CONDTIONAL_ALL_LINES_UNTIL =>
    have h := (List.dropWhile_suffix (l := rest) (· ≠ endIf)).length_le
    simp only [leave, List.length_drop]
    omega

variable {entry : AREntry} {val_last : BitVec 32} {operand : AREntry}

theorem length_of_goOn {copyCount : BitVec 32 → Nat} {rest rest' : List AREntry} {memory : σ}
    {lines : List ExecutedLine}
    (h : lineMeaning host copyCount entry rest memory = (lines, .goOn rest')) :
    rest'.length ≤ rest.length := by
  have hleave := LineCount.length_leave_le
  unfold lineMeaning at h
  grind

/-- A code that is run from some line on. -/
def codeMeaning (copyCount : BitVec 32 → Nat) : List AREntry → σ → RunResult σ
  | [], memory => ⟨[], true, memory⟩
  | entry :: rest, memory =>
    match _h : lineMeaning host copyCount entry rest memory with
    | (lines, .stop success) => ⟨lines, success, host.runLines memory lines⟩
    | (lines, .goOn rest') =>
      (codeMeaning copyCount rest' (host.runLines memory lines)).after lines
  termination_by ops => ops.length
  decreasing_by
    have := length_of_goOn host _h
    simp only [List.length_cons]
    omega

/-- The documented number of bytes. -/
def documentedCount (data : BitVec 32) : Nat := (data &&& 0x7FFF#32).toNat

/-- The documented meaning of a code. -/
def documentedRun (ops : List AREntry) (memory : σ) : RunResult σ :=
  codeMeaning host documentedCount ops memory

/-! ## the loops -/

theorem loopFrom_writes {body : BitVec 32 → Session σ → Session σ} (acc : BitVec 32 → Access)
    (hbody : ∀ i s, body i s = s.performAll host [acc i]) (n : Nat) (i : BitVec 32)
    (s : Session σ) :
    loopFrom body n i s =
      s.performAll host ((List.range n).map fun k => acc (i + BitVec.ofNat 32 k)) := by
  induction n generalizing i s with
  | zero => simp [loopFrom]
  | succ n ih =>
    have hshift : ∀ k : Nat, i + 1#32 + BitVec.ofNat 32 k = i + BitVec.ofNat 32 (k + 1) := by
      intro k
      rw [BitVec.add_assoc, ← BitVec.ofNat_add, Nat.add_comm 1 k]
    rw [loopFrom, ih, hbody, Session.performAll_append, List.range_succ_eq_map, List.map_cons,
      List.map_map]
    simp only [hshift, List.singleton_append, BitVec.add_zero]
    rfl

theorem slideFrom_writes {write : BitVec 32 → BitVec 32 → Session σ → Session σ}
    (acc : BitVec 32 → BitVec 32 → Access)
    (hwrite : ∀ val a s, write val a s = s.performAll host [acc val a]) (addr_incr val_incr : Int)
    (n : Nat) (val a : BitVec 32) (s : Session σ) :
    slideFrom write addr_incr val_incr n val a s =
      s.performAll host ((List.range n).map fun k : Nat =>
        acc (val + BitVec.ofInt 32 (k * val_incr)) (a + BitVec.ofInt 32 (k * addr_incr))) := by
  induction n generalizing val a s with
  | zero => simp [slideFrom]
  | succ n ih =>
    have hshift : ∀ (v : BitVec 32) (x : Int) (k : Nat),
        v + BitVec.ofInt 32 x + BitVec.ofInt 32 (k * x) = v + BitVec.ofInt 32 ((k + 1 : Nat) * x) := by
      intro v x k
      rw [BitVec.add_assoc, ← BitVec.ofInt_add]
      congr 2
      push_cast
      ring
    rw [slideFrom, ih, hwrite, Session.performAll_append, List.range_succ_eq_map, List.map_cons,
      List.map_map]
    simp only [hshift, List.singleton_append]
    simp [Function.comp_def]

theorem loopFrom_succ_last {α : Type} (body : BitVec 32 → α → α) (n : Nat) (i : BitVec 32) (s : α) :
    loopFrom body (n + 1) i s = body (i + BitVec.ofNat 32 n) (loopFrom body n i s) := by
  induction n generalizing i s with
  | zero => simp [loopFrom]
  | succ n ih =>
    rw [loopFrom, ih, loopFrom]
    congr 1
    rw [BitVec.add_assoc, ← BitVec.ofNat_add, Nat.add_comm 1 n]

theorem loopFrom_copyByte (src dest : BitVec 32) (n : Nat) (s : Session σ) :
    loopFrom (copyByte host src dest) n 0#32 s =
      s.performAll host (copyAccesses host src dest s.memory n) := by
  induction n with
  | zero => simp [loopFrom, copyAccesses]
  | succ n ih =>
    rw [loopFrom_succ_last, ih, copyByte, BitVec.zero_add]
    simp only [Session.HostRead_U8_eq, Session.HostWrite_U8_eq, Session.performAll_append,
      Session.performAll_memory, List.append_assoc]
    rfl

theorem length_copyAccesses (src dest : BitVec 32) (memory : σ) (n : Nat) :
    (copyAccesses host src dest memory n).length = 2 * n := by
  induction n with
  | zero => rfl
  | succ n ih =>
    simp only [copyAccesses, List.length_append, ih, List.length_cons, List.length_nil]
    omega

theorem copyWrites_count_inj {n n' : Nat} {memory : σ}
    (h : copyWrites host n val_last operand memory = copyWrites host n' val_last operand memory) :
    n = n' := by
  have hlen := congrArg List.length h
  simp only [copyWrites] at hlen
  split at hlen <;> simp only [List.length_cons, length_copyAccesses] at hlen <;> omega

/-! ## the codes -/

theorem setWidth_and_ones8 (v : BitVec 32) : (v &&& 0xFF#32).setWidth 8 = v.setWidth 8 := by
  apply BitVec.eq_of_toNat_eq
  simpa using Nat.and_two_pow_sub_one_eq_mod (v.toNat % 256) 8

theorem setWidth_and_ones16 (v : BitVec 32) : (v &&& 0xFFFF#32).setWidth 16 = v.setWidth 16 := by
  apply BitVec.eq_of_toNat_eq
  simpa using Nat.and_two_pow_sub_one_eq_mod (v.toNat % 65536) 16

variable (addr : ARAddr) (ops : List AREntry)

theorem subtypeRamWriteAndFill_eq (data : BitVec 32) (s : Session σ) :
    subtypeRamWriteAndFill host addr data s = (true, s.performAll host (ramWrites addr data)) := by
  unfold subtypeRamWriteAndFill ramWrites
  cases addr.size with
  | DATATYPE_8BIT =>
    simp only [Session.HostWrite_U8_eq]
    rw [setWidth_and_ones8, loopFrom_writes host
        (fun i => .writeU8 (data.setWidth 8) (addr.GCAddress + i)) (fun _ _ => rfl),
      BitVec.toNat_ushiftRight, Nat.shiftRight_eq_div_pow]
    simp only [BitVec.zero_add]
  | DATATYPE_16BIT =>
    simp only [Session.HostWrite_U16_eq]
    rw [setWidth_and_ones16, loopFrom_writes host
        (fun i => .writeU16 (data.setWidth 16) (addr.GCAddress + i * 2#32)) (fun _ _ => rfl),
      BitVec.toNat_ushiftRight, Nat.shiftRight_eq_div_pow]
    simp only [BitVec.zero_add, ← BitVec.ofNat_mul, Nat.mul_comm]
  | DATATYPE_32BIT | DATATYPE_32BIT_FLOAT => rfl

theorem subtypeWriteToPointer_eq (data : BitVec 32) (s : Session σ) :
    subtypeWriteToPointer host addr data s =
      (true, s.performAll host (pointerWrites host addr data s.memory)) := by
  have h8 : BitVec.ofNat 32 (data.toNat / 0x100) = data >>> 8 := by
    apply BitVec.eq_of_toNat_eq
    rw [BitVec.toNat_ushiftRight, Nat.shiftRight_eq_div_pow, BitVec.toNat_ofNat]
    omega
  have h16 : BitVec.ofNat 32 (2 * (data.toNat / 0x10000)) = (data >>> 16) <<< 1 := by
    apply BitVec.eq_of_toNat_eq
    rw [BitVec.toNat_shiftLeft, BitVec.toNat_ushiftRight, Nat.shiftRight_eq_div_pow,
      Nat.shiftLeft_eq, BitVec.toNat_ofNat, Nat.mul_comm]
  unfold subtypeWriteToPointer pointerWrites
  rw [Session.HostRead_U32_eq]
  cases addr.size with
  | DATATYPE_8BIT =>
    dsimp only
    rw [setWidth_and_ones8, Session.HostWrite_U8_eq, Session.performAll_append, h8]
    rfl
  | DATATYPE_16BIT =>
    dsimp only
    rw [setWidth_and_ones16, Session.HostWrite_U16_eq, Session.performAll_append, h16]
    rfl
  | DATATYPE_32BIT | DATATYPE_32BIT_FLOAT =>
    dsimp only
    rw [Session.HostWrite_U32_eq, Session.performAll_append]
    rfl

theorem subtypeAddCode_eq (data : BitVec 32) (s : Session σ) :
    subtypeAddCode host addr data s =
      (true, s.performAll host (addWrites host addr data s.memory)) := by
  unfold subtypeAddCode addWrites
  cases addr.size with
  | DATATYPE_8BIT =>
    dsimp only
    rw [Session.HostRead_U8_eq, Session.HostWrite_U8_eq, Session.performAll_append,
      BitVec.setWidth_add _ _ (by omega), BitVec.setWidth_setWidth_of_le _ (by omega),
      BitVec.setWidth_eq]
    rfl
  | DATATYPE_16BIT =>
    dsimp only
    rw [Session.HostRead_U16_eq, Session.HostWrite_U16_eq, Session.performAll_append,
      BitVec.setWidth_add _ _ (by omega), BitVec.setWidth_setWidth_of_le _ (by omega),
      BitVec.setWidth_eq]
    rfl
  | DATATYPE_32BIT | DATATYPE_32BIT_FLOAT =>
    dsimp only
    rw [Session.HostRead_U32_eq, Session.HostWrite_U32_eq, Session.performAll_append]
    rfl

theorem isMemoryCopy_iff (val_last : BitVec 32) :
    IsMemoryCopy val_last ↔ (ARAddr.mk val_last).size = .DATATYPE_32BIT_FLOAT := by
  have hbits : (val_last >>> 25) &&& 0x3#32 = (val_last.extractLsb' 25 2).setWidth 32 := by
    apply BitVec.eq_of_toNat_eq
    simp only [BitVec.toNat_and, BitVec.toNat_ushiftRight, BitVec.toNat_ofNat, BitVec.toNat_setWidth,
      BitVec.extractLsb'_toNat]
    rw [Nat.and_two_pow_sub_one_eq_mod _ 2]
    omega
  unfold IsMemoryCopy ARAddr.size
  rw [hbits]
  generalize val_last.extractLsb' 25 2 = v
  revert v
  decide

theorem add_ofInt_eq (v : BitVec 32) (x : Int) :
    v + BitVec.ofInt 32 x = BitVec.ofInt 32 (v.toNat + x) :=
  (Represents.ofNat v).add rfl

theorem setWidth_ofInt {w : Nat} (hw : w ≤ 32) (x : Int) :
    (BitVec.ofInt 32 x).setWidth w = BitVec.ofInt w x :=
  Represents.setWidth (v := BitVec.ofInt 32 x) rfl hw

theorem zeroCodeFillAndSlide_eq (h : ¬ IsMemoryCopy val_last) (addr : ARAddr) (data : BitVec 32)
    (s : Session σ) :
    zeroCodeFillAndSlide host val_last addr data s =
      (true, s.performAll host (slideWrites val_last addr data)) := by
  have hstride : (data &&& 0xFFFF#32).setWidth 16 = data.extractLsb' 0 16 := by
    rw [setWidth_and_ones16]
    rfl
  have hincr : (data >>> 24).setWidth 8 = data.extractLsb' 24 8 := rfl
  have hcount : ((data &&& 0xFF0000#32) >>> 16).setWidth 8 = data.extractLsb' 16 8 := by
    have hand : (data &&& 0xFF0000#32) >>> 16 = data >>> 16 &&& 0xFF#32 := by
      rw [BitVec.ushiftRight_and_distrib]
      rfl
    rw [hand, setWidth_and_ones8]
    rfl
  rw [isMemoryCopy_iff] at h
  unfold zeroCodeFillAndSlide slideWrites
  rw [hstride, hincr, hcount]
  cases hsize : (ARAddr.mk val_last).size with
  | DATATYPE_8BIT =>
    simp only [Session.HostWrite_U8_eq, setWidth_and_ones8]
    rw [slideFrom_writes host (fun val a => .writeU8 (val.setWidth 8) a) (fun _ _ _ => rfl)]
    simp only [add_ofInt_eq, setWidth_ofInt (by decide : 8 ≤ 32)]
  | DATATYPE_16BIT =>
    simp only [Session.HostWrite_U16_eq, setWidth_and_ones16]
    rw [slideFrom_writes host (fun val a => .writeU16 (val.setWidth 16) a) (fun _ _ _ => rfl)]
    simp only [add_ofInt_eq, setWidth_ofInt (by decide : 16 ≤ 32), Int.mul_comm 2]
  | DATATYPE_32BIT =>
    simp only [Session.HostWrite_U32_eq]
    rw [slideFrom_writes host (fun val a => .writeU32 val a) (fun _ _ _ => rfl)]
    simp only [add_ofInt_eq, Int.mul_comm 4]
  | DATATYPE_32BIT_FLOAT => exact absurd hsize h

/-- What `num_bytes` is left with. -/
def keptCount (data : BitVec 32) : Nat := (data &&& 0xFF#32).toNat

theorem num_bytes_eq (data : BitVec 32) :
    ((data &&& 0x7FFF#32).setWidth 8).toNat = keptCount data := by
  have hand : (data &&& 0x7FFF#32).setWidth 8 = data.setWidth 8 := by
    rw [BitVec.setWidth_and]
    exact BitVec.and_allOnes
  rw [hand, keptCount, BitVec.toNat_setWidth, BitVec.toNat_and]
  exact (Nat.and_two_pow_sub_one_eq_mod _ 8).symm

theorem zeroCodeMemoryCopy_eq (val_last : BitVec 32) (operand : AREntry) (s : Session σ) :
    zeroCodeMemoryCopy host val_last ⟨operand.cmd_addr⟩ operand.value s =
      if operand.value &&& 0xFF0000#32 = 0#32 then
        (true, s.performAll host
          (copyWrites host (keptCount operand.value) val_last operand s.memory))
      else (false, s) := by
  unfold zeroCodeMemoryCopy copyWrites
  split
  · dsimp only
    rw [num_bytes_eq]
    by_cases hptr : operand.value >>> 24 = 0#32
    · rw [if_neg (not_not_intro hptr), if_pos hptr, loopFrom_copyByte]
    · rw [if_pos hptr, if_neg hptr]
      simp only [Session.HostRead_U32_eq, loopFrom_copyByte, Session.performAll_append]
      rfl
  · rfl

/-- The count of entries to skip that a false condition sets. -/
def LineCount.skipCount : LineCount → Int
  | .CONDTIONAL_ONE_LINE => 1
  | .CONDTIONAL_TWO_LINES => 2
  | .CONDTIONAL_ALL_LINES_UNTIL => -2
  | .CONDTIONAL_ALL_LINES => -3

theorem conditionalCode_eq (type : Conditional) (data : BitVec 32) (skip_count : Int)
    (s : Session σ) :
    conditionalCode host addr type data skip_count s =
      (if testHolds host addr type data s.memory then skip_count
        else (LineCount.ofBits addr.subtype).skipCount, s.performAll host [testRead addr]) := by
  have h8 : data &&& 0xFF#32 = (data.setWidth 8).setWidth 32 := by
    apply BitVec.eq_of_toNat_eq
    rw [BitVec.toNat_and, BitVec.toNat_setWidth, BitVec.toNat_setWidth,
      Nat.mod_eq_of_lt (a := data.toNat % 2 ^ 8) (by omega)]
    exact Nat.and_two_pow_sub_one_eq_mod _ 8
  have h16 : data &&& 0xFFFF#32 = (data.setWidth 16).setWidth 32 := by
    apply BitVec.eq_of_toNat_eq
    rw [BitVec.toNat_and, BitVec.toNat_setWidth, BitVec.toNat_setWidth,
      Nat.mod_eq_of_lt (a := data.toNat % 2 ^ 16) (by omega)]
    exact Nat.and_two_pow_sub_one_eq_mod _ 16
  have hskip (result : Bool) (s : Session σ) : (if result then (skip_count, s)
        else
          match LineCount.ofBits addr.subtype with
          | .CONDTIONAL_ONE_LINE => (LineCount.toInt .CONDTIONAL_ONE_LINE + 1, s)
          | .CONDTIONAL_TWO_LINES => (LineCount.toInt .CONDTIONAL_TWO_LINES + 1, s)
          | .CONDTIONAL_ALL_LINES_UNTIL => (-LineCount.toInt .CONDTIONAL_ALL_LINES_UNTIL, s)
          | .CONDTIONAL_ALL_LINES => (-LineCount.toInt .CONDTIONAL_ALL_LINES, s)) =
        (if result then skip_count else (LineCount.ofBits addr.subtype).skipCount, s) := by
    cases result with
    | true => rfl
    | false => cases LineCount.ofBits addr.subtype <;> rfl
  unfold conditionalCode testHolds testRead
  rw [h8, h16]
  cases addr.size <;> exact hskip _ _

/-! ## the loop and the meaning -/

/-- The state of the loop between two lines that are free to choose. -/
def ready (val_last : BitVec 32) : RunState := ⟨false, false, 0, val_last⟩

variable {rest : List AREntry} {memory : σ} {st t : RunState} {l : List Access}

theorem runFrom_goOn (hskip : st.skip_count = 0)
    (h : runEntry host entry st ⟨memory, []⟩ = (none, t, Session.performAll host ⟨memory, []⟩ l)) :
    runFrom host (entry :: rest) st memory =
      (runFrom host rest t (host.performAll memory l)).after [⟨entry, l⟩] := by
  rw [runFrom, if_neg (not_not_intro hskip), h]
  rfl

theorem runFrom_stop {success : Bool} (hskip : st.skip_count = 0)
    (h : runEntry host entry st ⟨memory, []⟩ =
      (some success, t, Session.performAll host ⟨memory, []⟩ l)) :
    runFrom host (entry :: rest) st memory =
      ⟨[⟨entry, l⟩], success, host.performAll memory l⟩ := by
  rw [runFrom, if_neg (not_not_intro hskip), h]
  rfl

theorem runFrom_drop (n : Nat) (ops : List AREntry) (v : BitVec 32) (memory : σ) :
    runFrom host ops ⟨false, false, n, v⟩ memory = runFrom host (ops.drop n) (ready v) memory := by
  induction n generalizing ops with
  | zero => rfl
  | succ n ih =>
    cases ops with
    | nil => rfl
    | cons entry rest =>
      have hskip : skipEntry entry ⟨false, false, (n + 1 : Nat), v⟩ =
          some ⟨false, false, n, v⟩ := by
        simp [skipEntry]
      have hne : ((n + 1 : Nat) : Int) ≠ 0 := by omega
      rw [runFrom, if_pos hne, hskip]
      exact ih rest

theorem runFrom_all (v : BitVec 32) (memory : σ) :
    runFrom host ops ⟨false, false, -3, v⟩ memory = ⟨[], true, memory⟩ := by
  cases ops <;> rfl

theorem runFrom_until (v : BitVec 32) (memory : σ) :
    runFrom host ops ⟨false, false, -2, v⟩ memory =
      runFrom host ((ops.dropWhile (· ≠ endIf)).drop 1) (ready v) memory := by
  induction ops with
  | nil => rfl
  | cons entry rest ih =>
    have hskip : skipEntry entry ⟨false, false, -2, v⟩ =
        some (if entry = endIf then ready v else ⟨false, false, -2, v⟩) := by
      obtain ⟨cmd_addr, value⟩ := entry
      have hend : skipEntry ⟨cmd_addr, value⟩ ⟨false, false, -2, v⟩ =
          if cmd_addr = 0#32 ∧ 0x40000000#32 = value then some (ready v)
          else some ⟨false, false, -2, v⟩ := rfl
      rw [hend]
      simp only [endIf, AREntry.mk.injEq, eq_comm (a := 0x40000000#32)]
      split <;> rfl
    rw [runFrom, if_pos (by simp), hskip, List.dropWhile_cons]
    by_cases h : entry = endIf
    · simp [h]
    · simpa [h] using ih

theorem runFrom_skipCount (c : LineCount) (ops : List AREntry) (v : BitVec 32) (memory : σ) :
    runFrom host ops ⟨false, false, c.skipCount, v⟩ memory =
      runFrom host (c.leave ops) (ready v) memory := by
  cases c with
  | CONDTIONAL_ONE_LINE => exact runFrom_drop host 1 ops v memory
  | CONDTIONAL_TWO_LINES => exact runFrom_drop host 2 ops v memory
  | CONDTIONAL_ALL_LINES_UNTIL => exact runFrom_until host ops v memory
  | CONDTIONAL_ALL_LINES => exact runFrom_all host ops v memory

theorem normalCode_eq (data : BitVec 32) (s : Session σ) :
    normalCode host addr data s =
      match NormalSubtype.ofBits addr.subtype with
      | .SUB_RAM_WRITE => (true, s.performAll host (ramWrites addr data))
      | .SUB_WRITE_POINTER => (true, s.performAll host (pointerWrites host addr data s.memory))
      | .SUB_ADD_CODE => (true, s.performAll host (addWrites host addr data s.memory))
      | .SUB_MASTER_CODE => (false, s) := by
  unfold normalCode
  cases NormalSubtype.ofBits addr.subtype with
  | SUB_RAM_WRITE => exact subtypeRamWriteAndFill_eq host addr data s
  | SUB_WRITE_POINTER => exact subtypeWriteToPointer_eq host addr data s
  | SUB_ADD_CODE => exact subtypeAddCode_eq host addr data s
  | SUB_MASTER_CODE => rfl

/-- What follows from the lines that were run and what comes next. -/
def goesOn (continued : List AREntry → σ → RunResult σ) (memory : σ) :
    List ExecutedLine × Next → RunResult σ
  | (lines, .stop success) => ⟨lines, success, host.runLines memory lines⟩
  | (lines, .goOn rest) => (continued rest (host.runLines memory lines)).after lines

theorem runFrom_slide (h : ¬ IsMemoryCopy val_last) (operand : AREntry) (rest : List AREntry)
    (memory : σ) :
    let l := slideWrites val_last ⟨operand.cmd_addr⟩ operand.value
    runFrom host (operand :: rest) ⟨true, false, 0, val_last⟩ memory =
      (runFrom host rest (ready val_last) (host.performAll memory l)).after [⟨operand, l⟩] := by
  refine runFrom_goOn host rfl ?_
  simp only [runEntry, zeroCodeFillAndSlide_eq host h, if_true]
  rfl

theorem runFrom_copy (val_last : BitVec 32) (h : operand.value &&& 0xFF0000#32 = 0#32)
    (rest : List AREntry) (memory : σ) :
    let l := copyWrites host (keptCount operand.value) val_last operand memory
    runFrom host (operand :: rest) ⟨false, true, 0, val_last⟩ memory =
      (runFrom host rest (ready val_last) (host.performAll memory l)).after [⟨operand, l⟩] := by
  refine runFrom_goOn host rfl ?_
  simp only [runEntry, zeroCodeMemoryCopy_eq, if_pos h, if_true]
  rfl

theorem runFrom_badCopy (val_last : BitVec 32) (h : operand.value &&& 0xFF0000#32 ≠ 0#32)
    (rest : List AREntry) (memory : σ) :
    runFrom host (operand :: rest) ⟨false, true, 0, val_last⟩ memory =
      ⟨[⟨operand, []⟩], false, memory⟩ := by
  refine runFrom_stop host rfl (t := ready val_last) ?_
  simp only [runEntry, zeroCodeMemoryCopy_eq, if_neg h, Session.performAll_nil]
  rfl

theorem runEntry_ready (entry : AREntry) (v : BitVec 32) (s : Session σ) :
    runEntry host entry (ready v) s =
      if 0x2000#32 ≤ entry.cmd_addr ∧ entry.cmd_addr < 0x3000#32 then (some false, ready v, s)
      else if entry.cmd_addr = 0#32 then
        match ZeroCode.ofData entry.value with
        | .ZCODE_END => (some true, ready v, s)
        | .ZCODE_NORM => (none, ready v, s)
        | .ZCODE_ROW | .unknown => (some false, ready v, s)
        | .ZCODE_04 =>
          if IsMemoryCopy entry.value then (none, ⟨false, true, 0, entry.value⟩, s)
          else (none, ⟨true, false, 0, entry.value⟩, s)
      else
        match (ARAddr.mk entry.cmd_addr).type with
        | none =>
          let (ok, s) := normalCode host ⟨entry.cmd_addr⟩ entry.value s
          (if ok then none else some false, ready v, s)
        | some type =>
          let (skip_count, s) := conditionalCode host ⟨entry.cmd_addr⟩ type entry.value 0 s
          (none, ⟨false, false, skip_count, v⟩, s) := by
  unfold runEntry
  dsimp only
  cases ZeroCode.ofData entry.value <;> rfl

theorem runFrom_ready (entry : AREntry) (rest : List AREntry) (v : BitVec 32) (memory : σ) :
    ∃ v', runFrom host (entry :: rest) (ready v) memory =
      goesOn host (fun rest => runFrom host rest (ready v')) memory
        (lineMeaning host keptCount entry rest memory) := by
  have hentry := runEntry_ready host entry v ⟨memory, []⟩
  unfold lineMeaning
  by_cases hself : 0x2000#32 ≤ entry.cmd_addr ∧ entry.cmd_addr < 0x3000#32
  · rw [if_pos hself] at hentry ⊢
    exact ⟨v, runFrom_stop host rfl (l := []) hentry⟩
  rw [if_neg hself] at hentry ⊢
  by_cases hzero : entry.cmd_addr = 0#32
  · rw [if_pos hzero] at hentry ⊢
    cases hcode : ZeroCode.ofData entry.value with
    | ZCODE_END =>
      rw [hcode] at hentry
      exact ⟨v, runFrom_stop host rfl (l := []) hentry⟩
    | ZCODE_NORM =>
      rw [hcode] at hentry
      exact ⟨v, runFrom_goOn host rfl (l := []) hentry⟩
    | ZCODE_ROW | unknown =>
      rw [hcode] at hentry
      exact ⟨v, runFrom_stop host rfl (l := []) hentry⟩
    | ZCODE_04 =>
      rw [hcode] at hentry
      by_cases hcopy : IsMemoryCopy entry.value
      · simp only [if_pos hcopy] at hentry ⊢
        have hfirst : runFrom host (entry :: rest) (ready v) memory = _ :=
          runFrom_goOn host rfl (l := []) hentry
        cases rest with
        | nil => exact ⟨v, hfirst⟩
        | cons operand rest =>
          refine ⟨entry.value, hfirst.trans ?_⟩
          by_cases hsize : operand.value &&& 0xFF0000#32 = 0#32
          · simp only [if_pos hsize, HostMemory.performAll_nil, runFrom_copy host _ hsize]
            rfl
          · simp only [if_neg hsize, HostMemory.performAll_nil, runFrom_badCopy host _ hsize]
            rfl
      · simp only [if_neg hcopy] at hentry ⊢
        have hfirst : runFrom host (entry :: rest) (ready v) memory = _ :=
          runFrom_goOn host rfl (l := []) hentry
        cases rest with
        | nil => exact ⟨v, hfirst⟩
        | cons operand rest =>
          refine ⟨entry.value, hfirst.trans ?_⟩
          simp only [HostMemory.performAll_nil, runFrom_slide host hcopy]
          rfl
  rw [if_neg hzero] at hentry ⊢
  cases htype : (ARAddr.mk entry.cmd_addr).type with
  | some type =>
    simp only [htype, conditionalCode_eq] at hentry ⊢
    refine ⟨v, (runFrom_goOn host rfl hentry).trans ?_⟩
    by_cases htest : testHolds host ⟨entry.cmd_addr⟩ type entry.value memory
    · simp only [if_pos htest]
      rfl
    · simp only [if_neg htest, runFrom_skipCount]
      rfl
  | none =>
    simp only [htype, normalCode_eq] at hentry ⊢
    cases hsub : NormalSubtype.ofBits (ARAddr.mk entry.cmd_addr).subtype with
    | SUB_RAM_WRITE | SUB_WRITE_POINTER | SUB_ADD_CODE =>
      simp only [hsub] at hentry ⊢
      exact ⟨v, runFrom_goOn host rfl hentry⟩
    | SUB_MASTER_CODE =>
      simp only [hsub] at hentry ⊢
      exact ⟨v, runFrom_stop host rfl (l := []) hentry⟩

theorem codeMeaning_cons (copyCount : BitVec 32 → Nat) (entry : AREntry) (rest : List AREntry)
    (memory : σ) :
    codeMeaning host copyCount (entry :: rest) memory =
      goesOn host (codeMeaning host copyCount) memory
        (lineMeaning host copyCount entry rest memory) := by
  rw [codeMeaning]
  split <;> rename_i h <;> rw [h] <;> rfl

theorem runFrom_eq (v : BitVec 32) (memory : σ) :
    runFrom host ops (ready v) memory = codeMeaning host keptCount ops memory := by
  induction hn : ops.length using Nat.strong_induction_on generalizing ops v memory with
  | _ n ih =>
    cases ops with
    | nil => rw [runFrom, codeMeaning]
    | cons entry rest =>
      obtain ⟨v', h⟩ := runFrom_ready host entry rest v memory
      rw [h, codeMeaning_cons]
      cases hline : lineMeaning host keptCount entry rest memory with
      | mk lines next =>
        cases next with
        | stop success => rfl
        | goOn rest' =>
          have hlt : rest'.length < n := by
            have := length_of_goOn host hline
            simp only [List.length_cons] at hn
            omega
          exact congrArg (RunResult.after · lines) (ih _ hlt rest' v' _ rfl)

/-! ## where the number of bytes is kept -/

theorem RunResult.after_inj {r r' : RunResult σ} {lines : List ExecutedLine}
    (h : r.after lines = r'.after lines) : r = r' := by
  obtain ⟨l, success, memory⟩ := r
  obtain ⟨l', success', memory'⟩ := r'
  simp only [RunResult.after, RunResult.mk.injEq, List.append_cancel_left_eq] at h
  simp only [h]

/-- A memory copy that is not refused has less than 256 bytes. -/
def CopyFits (entry : AREntry) (rest : List AREntry) : Prop :=
  ∀ operand ∈ rest.head?, entry.cmd_addr = 0#32 → ZeroCode.ofData entry.value = .ZCODE_04 →
    IsMemoryCopy entry.value → operand.value &&& 0xFF0000#32 = 0#32 →
    operand.value &&& 0x7F00#32 = 0#32

/-- So does every memory copy that is run. -/
def CopiesFit : List AREntry → σ → Prop
  | [], _ => True
  | entry :: rest, memory =>
    CopyFits entry rest ∧
      match _h : lineMeaning host documentedCount entry rest memory with
      | (_, .stop _) => True
      | (lines, .goOn rest') => CopiesFit rest' (host.runLines memory lines)
  termination_by ops => ops.length
  decreasing_by
    have := length_of_goOn host _h
    simp only [List.length_cons]
    omega

theorem keptCount_eq_iff (data : BitVec 32) :
    keptCount data = documentedCount data ↔ data &&& 0x7F00#32 = 0#32 := by
  have hxor : data &&& 0x7F00#32 = (data &&& 0xFF#32) ^^^ (data &&& 0x7FFF#32) := by
    rw [show (0x7F00#32) = 0xFF#32 ^^^ 0x7FFF#32 from rfl]
    ext i hi
    simp only [BitVec.getElem_and, BitVec.getElem_xor, Bool.and_xor_distrib_left]
  rw [hxor, BitVec.xor_eq_zero_iff, keptCount, documentedCount, BitVec.toNat_inj]

theorem lineMeaning_of_copyFits {rest : List AREntry} (h : CopyFits entry rest) (memory : σ) :
    lineMeaning host keptCount entry rest memory =
      lineMeaning host documentedCount entry rest memory := by
  refine ite_congr rfl (fun _ => rfl) fun _ => ite_congr rfl (fun hzero => ?_) fun _ => rfl
  cases hcode : ZeroCode.ofData entry.value with
  | ZCODE_END | ZCODE_NORM | ZCODE_ROW | unknown => rfl
  | ZCODE_04 =>
    cases rest with
    | nil => rfl
    | cons operand rest' =>
      refine ite_congr rfl (fun hcopy => ite_congr rfl (fun hsize => ?_) fun _ => rfl) fun _ => rfl
      have hfit := h operand rfl hzero hcode hcopy hsize
      rw [(keptCount_eq_iff operand.value).mpr hfit]

theorem lineMeaning_lines_ne {rest : List AREntry} (h : ¬ CopyFits entry rest) (memory : σ) :
    ∃ operand rest' kept documented, lineMeaning host keptCount entry rest memory =
        ([⟨entry, []⟩, ⟨operand, kept⟩], .goOn rest') ∧
      lineMeaning host documentedCount entry rest memory =
        ([⟨entry, []⟩, ⟨operand, documented⟩], .goOn rest') ∧ kept ≠ documented := by
  simp only [CopyFits, not_forall] at h
  obtain ⟨operand, hhead, hzero, hcode, hcopy, hsize, hcount⟩ := h
  obtain ⟨rest', rfl⟩ : ∃ rest', rest = operand :: rest' := by
    cases rest with
    | nil => cases hhead
    | cons o r => exact ⟨r, by rw [Option.mem_some.mp hhead]⟩
  have hself : ¬ (0x2000#32 ≤ entry.cmd_addr ∧ entry.cmd_addr < 0x3000#32) := by
    rw [hzero]
    decide
  have hline (copyCount : BitVec 32 → Nat) :
      lineMeaning host copyCount entry (operand :: rest') memory = ([⟨entry, []⟩,
          ⟨operand, copyWrites host (copyCount operand.value) entry.value operand memory⟩],
            .goOn rest') := by
    unfold lineMeaning
    simp only [if_neg hself, if_pos hzero, hcode, if_pos hcopy, if_pos hsize]
  refine ⟨operand, rest', _, _, hline keptCount, hline documentedCount, fun heq => hcount ?_⟩
  exact (keptCount_eq_iff operand.value).mp (copyWrites_count_inj host heq)

theorem codeMeaning_documented_iff (memory : σ) :
    codeMeaning host keptCount ops memory = documentedRun host ops memory ↔
      CopiesFit host ops memory := by
  unfold documentedRun
  induction hn : ops.length using Nat.strong_induction_on generalizing ops memory with
  | _ n ih =>
    cases ops with
    | nil => simp [codeMeaning, CopiesFit]
    | cons entry rest =>
      rw [codeMeaning_cons, codeMeaning_cons, CopiesFit]
      by_cases hfit : CopyFits entry rest
      · rw [lineMeaning_of_copyFits host hfit]
        split
        · next lines success hline => simp [hline, hfit, goesOn]
        · next lines rest' hline =>
          have hlt : rest'.length < n := by
            have := length_of_goOn host hline
            simp only [List.length_cons] at hn
            omega
          rw [hline, ← ih _ hlt rest' (host.runLines memory lines) rfl]
          refine ⟨fun h => ⟨hfit, RunResult.after_inj h⟩, fun h => ?_⟩
          exact congrArg (RunResult.after · lines) h.2
      · obtain ⟨operand, rest', kept, documented, hkept, hdoc, hne⟩ :=
          lineMeaning_lines_ne host hfit memory
        refine ⟨fun h => absurd ?_ hne, fun h => absurd h.1 hfit⟩
        -- the second line that is run shows the accesses of the copy
        rw [hkept, hdoc] at h
        have hlines := congrArg RunResult.lines h
        simp only [goesOn, RunResult.after, List.cons_append, List.cons.injEq,
          ExecutedLine.mk.injEq, true_and] at hlines
        exact hlines.1

/-- `RunCodeLocked` runs a code as it is documented exactly where every memory copy that is run has
less than 256 bytes. -/
theorem runCodeLocked_documented_iff (ops : List AREntry) (memory : σ) :
    runCodeLocked host ops memory = documentedRun host ops memory ↔ CopiesFit host ops memory := by
  rw [← codeMeaning_documented_iff, ← runFrom_eq host ops 0#32]
  rfl

/-! ## a copy of 256 bytes -/

/-- Memory of bytes, without anything behind it. -/
def flatHost : HostMemory (BitVec 32 → BitVec 8) where
  HostRead_U8 memory a := memory a
  HostRead_U16 memory a := memory a ++ memory (a + 1)
  HostRead_U32 memory a := memory a ++ memory (a + 1) ++ memory (a + 2) ++ memory (a + 3)
  HostWrite_U8 memory value a b := if b = a then value else memory b
  HostWrite_U16 memory value a b :=
    if b = a then value.extractLsb' 8 8 else if b = a + 1 then value.setWidth 8 else memory b
  HostWrite_U32 memory value a b :=
    if b = a then value.extractLsb' 24 8 else if b = a + 1 then value.extractLsb' 16 8
    else if b = a + 2 then value.extractLsb' 8 8 else if b = a + 3 then value.setWidth 8
    else memory b
  floatSum read _ := read

/-- 256 bytes from 0x80002000 to 0x80001000. -/
def longCopy : List AREntry := [⟨0#32, 0x86001000#32⟩, ⟨0x00002000#32, 0x00000100#32⟩]

theorem longCopy_not_documented : (runCodeLocked flatHost longCopy fun _ => 1).lines =
        [⟨⟨0#32, 0x86001000#32⟩, []⟩, ⟨⟨0x00002000#32, 0x00000100#32⟩, []⟩] ∧
      (runCodeLocked flatHost longCopy fun _ => 1) ≠
        documentedRun flatHost longCopy fun _ => 1 := by
  have hlines : (runCodeLocked flatHost longCopy fun _ => 1).lines =
      [⟨⟨0#32, 0x86001000#32⟩, []⟩, ⟨⟨0x00002000#32, 0x00000100#32⟩, []⟩] := by
    decide
  refine ⟨hlines, fun h => ?_⟩
  have hfit : CopiesFit flatHost longCopy fun _ => 1 := by
    rw [← codeMeaning_documented_iff, ← h, ← runFrom_eq flatHost longCopy 0#32]
    rfl
  rw [longCopy, CopiesFit] at hfit
  exact absurd (hfit.1 _ rfl rfl rfl rfl rfl) (by decide)

end DolphinCore.ActionReplay
