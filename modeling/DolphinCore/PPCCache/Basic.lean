import DolphinCore.Lib.FinLiteral
import Mathlib.Data.Fin.VecNotation
import DolphinCore.Lib.ByteMemory

/-!
# DolphinCore.PPCCache.Basic

The instruction cache of `Core/PowerPC/PPCCache.cpp`: 128 sets of 8 ways with the tags
and the valid bits of the console's cache, and three arrays that give the way of a line
without a search.

The value `0xff` of an entry of those arrays is `none`.  Words are kept in the order in
which they are returned, that is, swapped when a line is loaded.
-/

namespace DolphinCore.PPCCache

/-! ## memory -/

/-- What `Memory::GetPointer` reaches: RAM at 0, and EXRAM, if there is any, at
`0x10000000`. -/
structure Memory where
  bytes : Mem 32
  exram : Bool

/-- `GetPointer`; the two top bits of an address do not matter. -/
def getPointer (mem : Memory) (address : BitVec 32) : Option (BitVec 32) :=
  let address := address &&& 0x3FFFFFFF
  if address < 0x02000000 then some address
  else if mem.exram && address >>> 28 = 1 && address &&& 0x0fffffff < 0x04000000 then
    some (0x10000000 + (address &&& 0x03ffffff))
  else none

def getPointerForRange (mem : Memory) (address size : BitVec 32) : Option (BitVec 32) :=
  match getPointer mem address, getPointer mem (address + size - 1) with
  | some pointer, some _ => some pointer
  | _, _ => none

def wordAt (mem : Memory) (pointer : BitVec 32) : BitVec 32 :=
  BitVec.ofNat 32 (Mem.ofBytes (mem.bytes.read pointer 4))

/-- `Read_U32`; without a pointer there is nothing to read. -/
def readU32 (mem : Memory) (address : BitVec 32) : Option (BitVec 32) :=
  (getPointer mem address).map (wordAt mem)

/-- The words of a line. -/
abbrev Line := BitVec 3 → BitVec 32

def lineAt (mem : Memory) (pointer : BitVec 32) : Line :=
  fun k => wordAt mem (pointer + k.setWidth 32 <<< 2)

/-- `CopyFromEmu` of 32 bytes into a line, which stays as it is if the range is not valid. -/
def copyFromEmu (mem : Memory) (data : Line) (address : BitVec 32) : Line :=
  match getPointerForRange mem address 32 with
  | some pointer => lineAt mem pointer
  | none => data

/-! ## the cache -/

def icacheExramBit : BitVec 32 := 0x10000000

def icacheVmemBit : BitVec 32 := 0x20000000

/-- `InstructionCache`; only the low 8 bits of `valid` and the low 7 of `plru` are used,
and a tag is `addr >> 12`. -/
structure InstructionCache where
  data : BitVec 7 → Fin 8 → Line
  tags : BitVec 7 → Fin 8 → BitVec 20
  plru : BitVec 7 → BitVec 7
  valid : BitVec 7 → BitVec 8
  lookupTable : BitVec 20 → Option (Fin 8)
  lookupTableEx : BitVec 21 → Option (Fin 8)
  lookupTableVmem : BitVec 20 → Option (Fin 8)

/-- `s_plru_mask` -/
def plruMask (t : Fin 8) : BitVec 7 := ![11, 11, 19, 19, 37, 37, 69, 69] t

/-- `s_plru_value` -/
def plruValue (t : Fin 8) : BitVec 7 := ![11, 3, 17, 1, 36, 4, 64, 0] t

/-- `way_from_valid`: the lowest way that is not valid. -/
def wayFromValid (m : BitVec 8) : Fin 8 :=
  ((List.finRange 8).find? fun w : Fin 8 => !m.getLsbD w).getD 0

def wayFromPlru (m : BitVec 7) : Fin 8 :=
  let b := fun i => m.getLsbD i
  if b 0 then
    if b 2 then
      if b 6 then 7 else 6
    else if b 5 then 5
    else 4
  else if b 1 then
    if b 4 then 3 else 2
  else if b 3 then 1
  else 0

/-- The set of an address, `(addr >> 5) & 0x7f`. -/
def setOf (addr : BitVec 32) : BitVec 7 := (addr >>> 5).setWidth 7

def tagOf (addr : BitVec 32) : BitVec 20 := (addr >>> 12).setWidth 20

/-- The way one of the three lookup arrays gives for an address. -/
def lookup (c : InstructionCache) (addr : BitVec 32) : Option (Fin 8) :=
  if addr &&& icacheVmemBit ≠ 0 then c.lookupTableVmem ((addr >>> 5).setWidth 20)
  else if addr &&& icacheExramBit ≠ 0 then c.lookupTableEx ((addr >>> 5).setWidth 21)
  else c.lookupTable ((addr >>> 5).setWidth 20)

/-- Enters a way for an address into its lookup array. -/
def enter (c : InstructionCache) (addr : BitVec 32) (t : Fin 8) : InstructionCache :=
  if addr &&& icacheVmemBit ≠ 0 then
    { c with lookupTableVmem :=
        Function.update c.lookupTableVmem ((addr >>> 5).setWidth 20) (some t) }
  else if addr &&& icacheExramBit ≠ 0 then
    { c with lookupTableEx :=
        Function.update c.lookupTableEx ((addr >>> 5).setWidth 21) (some t) }
  else
    { c with lookupTable := Function.update c.lookupTable ((addr >>> 5).setWidth 20) (some t) }

/-- Removes the line a way holds from its lookup array. -/
def forget (c : InstructionCache) (set : BitVec 7) (t : Fin 8) : InstructionCache :=
  let tag : BitVec 32 := (c.tags set t).setWidth 32
  let line : BitVec 32 := tag <<< 7 ||| set.setWidth 32
  if tag &&& icacheVmemBit >>> 12 ≠ 0 then
    { c with lookupTableVmem := Function.update c.lookupTableVmem (line.setWidth 20) none }
  else if tag &&& icacheExramBit >>> 12 ≠ 0 then
    { c with lookupTableEx := Function.update c.lookupTableEx (line.setWidth 21) none }
  else { c with lookupTable := Function.update c.lookupTable (line.setWidth 20) none }

def reset (c : InstructionCache) : InstructionCache :=
  { c with
    valid := fun _ => 0
    plru := fun _ => 0
    lookupTable := fun _ => none
    lookupTableEx := fun _ => none
    lookupTableVmem := fun _ => none }

def init : InstructionCache :=
  reset {
    data := fun _ _ _ => 0
    tags := fun _ _ => 0
    plru := fun _ => 0
    valid := fun _ => 0
    lookupTable := fun _ => none
    lookupTableEx := fun _ => none
    lookupTableVmem := fun _ => none }

/-- The bits of `HID0` the cache looks at. -/
structure HID0 where
  ice : Bool
  ilock : Bool

/-- `Invalidate`: the whole set. -/
def invalidate (hid0 : HID0) (c : InstructionCache) (addr : BitVec 32) : InstructionCache :=
  if !hid0.ice then c
  else
    let set := setOf addr
    let c := (List.finRange 8).foldl
      (fun c' (i : Fin 8) => if (c.valid set).getLsbD i then forget c' set i else c') c
    { c with valid := Function.update c.valid set 0 }

/-- The way to load a line to. -/
def selectWay (c : InstructionCache) (set : BitVec 7) : Fin 8 :=
  if c.valid set ≠ 0xff then wayFromValid (c.valid set) else wayFromPlru (c.plru set)

def copyLine (mem : Memory) (c : InstructionCache) (addr : BitVec 32) (t : Fin 8) :
    InstructionCache :=
  let set := setOf addr
  { c with
    data := Function.update c.data set
      (Function.update (c.data set) t (copyFromEmu mem (c.data set t) (addr &&& ~~~0x1f))) }

/-- Loads the line of an address to way `t`. -/
def load (mem : Memory) (c : InstructionCache) (addr : BitVec 32) (t : Fin 8) : InstructionCache :=
  let set := setOf addr
  let c := copyLine mem c addr t
  let c := if (c.valid set).getLsbD t then forget c set t else c
  let c := enter c addr t
  { c with
    tags := Function.update c.tags set (Function.update (c.tags set) t (tagOf addr))
    valid := Function.update c.valid set (c.valid set ||| (1 : BitVec 8) <<< t.val) }

/-- The end of `ReadInstruction`: marks a way as used and reads it. -/
def useWay (c : InstructionCache) (addr : BitVec 32) (t : Fin 8) : BitVec 32 × InstructionCache :=
  let set := setOf addr
  (c.data set t ((addr >>> 2).setWidth 3),
    { c with plru := Function.update c.plru set (c.plru set &&& ~~~plruMask t ||| plruValue t) })

/-- `none` if there is no memory to read. -/
def readInstruction (hid0 : HID0) (mem : Memory) (c : InstructionCache) (addr : BitVec 32) :
    Option (BitVec 32 × InstructionCache) :=
  if !hid0.ice then (readU32 mem addr).map fun w => (w, c)
  else
    match lookup c addr with
    | some t => some (useWay c addr t)
    | none =>
      if hid0.ilock then (readU32 mem addr).map fun w => (w, c)
      else
        let t := selectWay c (setOf addr)
        some (useWay (load mem c addr t) addr t)

end DolphinCore.PPCCache
