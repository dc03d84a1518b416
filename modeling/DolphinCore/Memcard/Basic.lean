import DolphinCore.Lib.Endian

/-!
# DolphinCore.Memcard.Basic

`GCMemcard.cpp`: the two copies of the directory and of the block map of a memory card, the import and
the removal of files, and the read of their data.  Numbers are as they are after `BE16` and `BE32`.
`none` stands for an access outside of an array, or for a chain that has no end.
-/

namespace DolphinCore.Memcard

def MC_FST_BLOCKS : Nat := 5

def MBIT_TO_BLOCKS : Nat := 0x10

def BAT_SIZE : Nat := 0xFFB

def DIRLEN : Nat := 0x7F

def BLOCK_SIZE : Nat := 0x2000

/-- The codes that the modelled functions return. -/
inductive Code
  | SUCCESS
  | NOMEMCARD
  | OUTOFBLOCKS
  | OUTOFDIRENTRIES
  | TITLEPRESENT
  | FAIL
  | DELETE_FAIL
  deriving DecidableEq, Repr

/-! ## the data -/

structure GCMBlock where
  block : List Byte
  size : block.length = BLOCK_SIZE

/-- `GCMBlock`'s constructor -/
def GCMBlock.erase : GCMBlock := ⟨List.replicate BLOCK_SIZE 0xFF, List.length_replicate⟩

/-- `Header`, of which the 32 bytes up to the device are read. -/
structure Header where
  serial : List Byte

structure DEntry where
  Gamecode : Nat
  Filename : List Byte
  CopyCounter : Nat
  FirstBlock : Nat
  BlockCount : Nat
  /-- The other fields. -/
  Other : List Byte

/-- `DEntry`'s constructor -/
def DEntry.empty : DEntry :=
  ⟨0xFFFFFFFF, List.replicate 0x20 0xFF, 0xFF, 0xFFFF, 0xFFFF, List.replicate 0x17 0xFF⟩

structure Directory where
  Dir : Nat → DEntry
  UpdateCounter : Nat

structure BlockAlloc where
  Checksum : Nat
  Checksum_Inv : Nat
  UpdateCounter : Nat
  FreeBlocks : Nat
  LastAllocated : Nat
  Map : Nat → Nat

/-- The copy that a pointer leads to. -/
inductive Copy
  | main
  | backup
  deriving DecidableEq, Repr

/-- `GCMemcard`; the previous copies are the ones that are not current. -/
structure GCMemcard where
  m_valid : Bool
  maxBlock : Nat
  hdr : Header
  dir : Directory
  dir_backup : Directory
  CurrentDir : Copy
  bat : BlockAlloc
  bat_backup : BlockAlloc
  CurrentBat : Copy
  mc_data_blocks : Nat → GCMBlock

/-! ## the block map -/

namespace BlockAlloc

/-- `Map[i - MC_FST_BLOCKS]`, where the fields in front of the map are those of the packed structure. -/
def word (bat : BlockAlloc) (i : Nat) : Nat :=
  if MC_FST_BLOCKS ≤ i then bat.Map (i - MC_FST_BLOCKS)
  else if i = 4 then bat.LastAllocated
  else if i = 3 then bat.FreeBlocks
  else if i = 2 then bat.UpdateCounter
  else if i = 1 then bat.Checksum_Inv
  else bat.Checksum

def getNextBlock (bat : BlockAlloc) (Block : Nat) : Nat :=
  if Block < MC_FST_BLOCKS ∨ 4091 < Block then 0 else bat.Map (Block - MC_FST_BLOCKS)

/-- The blocks that `NextFreeBlock` looks at, in the order of its two loops. -/
def searchOrder (MaxBlock StartingBlock : Nat) : List Nat :=
  List.range' StartingBlock (MaxBlock - StartingBlock) ++
    List.range' MC_FST_BLOCKS (StartingBlock - MC_FST_BLOCKS)

def nextFreeBlock (bat : BlockAlloc) (MaxBlock StartingBlock : Nat) : Nat :=
  if bat.FreeBlocks = 0 then 0xFFFF
  else
    ((searchOrder (min MaxBlock BAT_SIZE) StartingBlock).find? fun i => bat.word i == 0).getD 0xFFFF

/-- The loop of `ClearBlocks`: the blocks, and what it has ended with. -/
def collectBlocks (bat : BlockAlloc) : Nat → Nat → Option (List Nat × Nat)
  | 0, _ => none
  | fuel + 1, FirstBlock =>
    if FirstBlock ≠ 0xFFFF ∧ FirstBlock ≠ 0 then
      (collectBlocks bat fuel (bat.getNextBlock FirstBlock)).map fun rest =>
        (FirstBlock :: rest.1, rest.2)
    else some ([], FirstBlock)

/-- `ClearBlocks`; a chain of 16-bit numbers without an end in `2 ^ 16` links has none. -/
def clearBlocks (bat : BlockAlloc) (FirstBlock BlockCount : Nat) : Option (Bool × BlockAlloc) :=
  (collectBlocks bat (2 ^ 16 + 1) FirstBlock).map fun collected =>
    if 0 < collected.2 then
      if collected.1.length ≠ BlockCount then (false, bat)
      else
        (true, { bat with
          Map := collected.1.foldl
            (fun map block => Function.update map (block - MC_FST_BLOCKS) 0) bat.Map
          FreeBlocks := (bat.FreeBlocks + BlockCount) % 2 ^ 16 })
    else (false, bat)

/-- `BE16` -/
def swap16 (n : Nat) : Nat := n % 2 ^ 8 * 2 ^ 8 + n / 2 ^ 8 % 2 ^ 8

/-- The end of `calc_checksumsBE`. -/
def finishChecksum (sum : Nat) : Nat := if swap16 (sum % 2 ^ 16) = 0xFFFF then 0 else swap16 (sum % 2 ^ 16)

/-- `BlockAlloc`'s constructor -/
def format (sizeMb : Nat) : BlockAlloc :=
  let FreeBlocks := (sizeMb * MBIT_TO_BLOCKS - MC_FST_BLOCKS) % 2 ^ 16
  let words := [0, FreeBlocks, 4] ++ List.replicate BAT_SIZE 0
  ⟨finishChecksum words.sum, finishChecksum (words.map (0xFFFF - ·)).sum, 0, FreeBlocks, 4, fun _ => 0⟩

end BlockAlloc

/-! ## the saves that are tied to a card -/

/-- Bytes are written into a block. -/
def GCMBlock.write (b : GCMBlock) : Nat → List Byte → GCMBlock
  | _, [] => b
  | offset, byte :: bytes =>
    GCMBlock.write ⟨b.block.set offset byte, List.length_set.trans b.size⟩ (offset + 1) bytes

/-- Bytes are written into `FileBuffer[i]`. -/
def writeBytes (i offset : Nat) (bytes : List Byte) (FileBuffer : List GCMBlock) : List GCMBlock :=
  FileBuffer.modify i fun b => b.write offset bytes

/-- The bytes of a name. -/
def nameBytes (name : String) : List Byte := name.toList.map fun c => BitVec.ofNat 8 c.toNat

/-- `strcmp(Filename, name) == 0` -/
def DEntry.hasName (direntry : DEntry) (name : String) : Bool :=
  direntry.Filename.take (name.length + 1) == nameBytes name ++ [0]

/-- `CARD_GetSerialNo`, as the four bytes of each number. -/
def Header.cardGetSerialNo (hdr : Header) : List Byte × List Byte :=
  let word (i : Nat) := (hdr.serial.drop (4 * i)).take 4
  let xor := List.zipWith fun a b : Byte => a ^^^ b
  (xor (xor (xor (word 0) (word 2)) (word 4)) (word 6),
    xor (xor (xor (word 1) (word 3)) (word 5)) (word 7))

/-- One step of the checksum of F-Zero GX. -/
def fzerogxStep (chksum : BitVec 16) (byte : Byte) : BitVec 16 :=
  (List.range 8).foldl
    (fun chksum _ => if chksum.getLsbD 0 then (chksum >>> 1) ^^^ 0x8408 else chksum >>> 1)
    (chksum ^^^ byte.zeroExtend 16)

def fzerogxMakeSaveGameValid (hdr : Header) (direntry : DEntry) (FileBuffer : List GCMBlock) :
    Option (List GCMBlock) :=
  if direntry.hasName "f_zero.dat" = false then some FileBuffer
  else if FileBuffer.length < 4 then none
  else
    let serial1 := hdr.cardGetSerialNo.1
    let serial2 := hdr.cardGetSerialNo.2
    let FileBuffer := writeBytes 1 0x0066 (serial1.take 2) FileBuffer
    let FileBuffer := writeBytes 3 0x1580 (serial2.take 2) FileBuffer
    let FileBuffer := writeBytes 1 0x0060 (serial1.drop 2) FileBuffer
    let FileBuffer := writeBytes 1 0x0200 (serial2.drop 2) FileBuffer
    let bytes := (FileBuffer.flatMap GCMBlock.block).take 0x8000
    let chksum := ~~~ (bytes.drop 2).foldl fzerogxStep 0xFFFF
    some (writeBytes 0 0 [(chksum >>> 8).truncate 8, chksum.truncate 8] FileBuffer)

/-- `crc32LUT[i]` -/
def crc32LUT (i : BitVec 32) : BitVec 32 :=
  (List.range 8).foldl
    (fun chksum _ => if chksum.getLsbD 0 then (chksum >>> 1) ^^^ 0xEDB88320 else chksum >>> 1) i

def psoMakeSaveGameValid (hdr : Header) (direntry : DEntry) (FileBuffer : List GCMBlock) :
    Option (List GCMBlock) :=
  if direntry.hasName "PSO_SYSTEM" = false ∧ direntry.hasName "PSO3_SYSTEM" = false then some FileBuffer
  else if FileBuffer.length < 2 then none
  else
    let pso3offset := if direntry.hasName "PSO_SYSTEM" then 0 else 0x10
    let FileBuffer := writeBytes 1 0x0158 hdr.cardGetSerialNo.1 FileBuffer
    let FileBuffer := writeBytes 1 0x015C hdr.cardGetSerialNo.2 FileBuffer
    let bytes := ((FileBuffer.drop 1).flatMap GCMBlock.block).take (0x0164 + pso3offset)
    let chksum := (bytes.drop 0x004C).foldl
      (fun (chksum : BitVec 32) (byte : Byte) => (chksum >>> 8) ^^^ crc32LUT ((chksum ^^^ byte.zeroExtend 32) &&& 0xFF))
      (0xDEBB20E3 : BitVec 32) ^^^ 0xFFFFFFFF
    some (writeBytes 1 0x0048 [(chksum >>> 24).truncate 8, (chksum >>> 16).truncate 8,
      (chksum >>> 8).truncate 8, chksum.truncate 8] FileBuffer)

/-! ## the card -/

namespace GCMemcard

/-- `*CurrentDir` -/
def currentDir (s : GCMemcard) : Directory :=
  match s.CurrentDir with
  | .main => s.dir
  | .backup => s.dir_backup

/-- `*CurrentBat` -/
def currentBat (s : GCMemcard) : BlockAlloc :=
  match s.CurrentBat with
  | .main => s.bat
  | .backup => s.bat_backup

/-- `*PreviousDir` is written, and the pointers are exchanged. -/
def updateDir (s : GCMemcard) (UpdatedDir : Directory) : GCMemcard :=
  match s.CurrentDir with
  | .main => { s with dir_backup := UpdatedDir, CurrentDir := .backup }
  | .backup => { s with dir := UpdatedDir, CurrentDir := .main }

/-- `*PreviousBat` is written, and the pointers are exchanged. -/
def updateBat (s : GCMemcard) (UpdatedBat : BlockAlloc) : GCMemcard :=
  match s.CurrentBat with
  | .main => { s with bat_backup := UpdatedBat, CurrentBat := .backup }
  | .backup => { s with bat := UpdatedBat, CurrentBat := .main }

def initDirBatPointers (s : GCMemcard) : GCMemcard :=
  { s with
    CurrentDir := if s.dir_backup.UpdateCounter < s.dir.UpdateCounter then .main else .backup
    CurrentBat := if s.bat_backup.UpdateCounter < s.bat.UpdateCounter then .main else .backup }

def format (hdr : Header) (SizeMb : Nat) : GCMemcard :=
  initDirBatPointers
    ⟨true, SizeMb * MBIT_TO_BLOCKS, hdr, ⟨fun _ => .empty, 0⟩, ⟨fun _ => .empty, 0⟩, .main,
      .format SizeMb, .format SizeMb, .main, fun _ => .erase⟩

def getNumFiles (s : GCMemcard) : Nat :=
  (List.range DIRLEN).countP fun i => decide ((s.currentDir.Dir i).Gamecode ≠ 0xFFFFFFFF)

def getFreeBlocks (s : GCMemcard) : Nat := if s.m_valid then s.currentBat.FreeBlocks else 0

def titlePresent (s : GCMemcard) (d : DEntry) : Nat :=
  ((List.range DIRLEN).find? fun i =>
    (s.currentDir.Dir i).Gamecode == d.Gamecode && (s.currentDir.Dir i).Filename == d.Filename).getD DIRLEN

def dEntryFirstBlock (s : GCMemcard) (index : Nat) : Nat :=
  if s.m_valid = false ∨ DIRLEN ≤ index then 0xFFFF
  else if s.maxBlock % 2 ^ 16 < (s.currentDir.Dir index).FirstBlock then 0xFFFF
  else (s.currentDir.Dir index).FirstBlock

def dEntryBlockCount (s : GCMemcard) (index : Nat) : Nat :=
  if s.m_valid = false ∨ DIRLEN ≤ index then 0xFFFF
  else if s.maxBlock % 2 ^ 16 < (s.currentDir.Dir index).BlockCount then 0xFFFF
  else (s.currentDir.Dir index).BlockCount

/-- The block is one of `mc_data_blocks`. -/
def hasBlock (s : GCMemcard) (block : Nat) : Prop := MC_FST_BLOCKS ≤ block ∧ block < s.maxBlock

instance (s : GCMemcard) (block : Nat) : Decidable (s.hasBlock block) :=
  inferInstanceAs (Decidable (_ ∧ _))

/-- The loop of `GetSaveData`. -/
def readBlocks (s : GCMemcard) : Nat → Nat → Option (Code × List GCMBlock)
  | 0, _ => some (.SUCCESS, [])
  | n + 1, nextBlock =>
    if nextBlock = 0 ∨ nextBlock = 0xFFFF then some (.FAIL, [])
    else if s.hasBlock nextBlock then
      (readBlocks s n (s.currentBat.getNextBlock nextBlock)).map fun rest =>
        (rest.1, s.mc_data_blocks (nextBlock - MC_FST_BLOCKS) :: rest.2)
    else none

def getSaveData (s : GCMemcard) (index : Nat) : Option (Code × List GCMBlock) :=
  if s.m_valid = false then some (.NOMEMCARD, [])
  else if s.dEntryFirstBlock index = 0xFFFF ∨ s.dEntryBlockCount index = 0xFFFF then some (.FAIL, [])
  else s.readBlocks (s.dEntryBlockCount index) (s.dEntryFirstBlock index)

/-! ## import and removal -/

/-- The index of the entry that `ImportFile` writes. -/
def freeEntry (d : Directory) : Option Nat :=
  (List.range DIRLEN).find? fun i => (d.Dir i).Gamecode == 0xFFFFFFFF

/-- `UpdatedDir` of `ImportFile` -/
def insertEntry (d : Directory) (direntry : DEntry) (firstBlock : Nat) : Directory :=
  ⟨match freeEntry d with
    | none => d.Dir
    | some i => Function.update d.Dir i
        { direntry with FirstBlock := firstBlock, CopyCounter := (direntry.CopyCounter + 1) % 2 ^ 8 },
    (d.UpdateCounter + 1) % 2 ^ 16⟩

/-- The loop of `ImportFile` over the blocks of the file. -/
def writeBlocks (s : GCMemcard) : Nat → List GCMBlock → Nat → BlockAlloc → (Nat → GCMBlock) →
    Option (BlockAlloc × (Nat → GCMBlock))
  | 0, _, _, UpdatedBat, data => some (UpdatedBat, data)
  | _ + 1, [], _, _, _ => none
  | n + 1, b :: saveBlocks, firstBlock, UpdatedBat, data =>
    if s.hasBlock firstBlock then
      let nextBlock :=
        if n = 0 then 0xFFFF
        else UpdatedBat.nextFreeBlock (s.maxBlock - MC_FST_BLOCKS) (firstBlock + 1)
      writeBlocks s n saveBlocks nextBlock
        { UpdatedBat with
          Map := Function.update UpdatedBat.Map (firstBlock - MC_FST_BLOCKS) nextBlock
          LastAllocated := firstBlock }
        (Function.update data (firstBlock - MC_FST_BLOCKS) b)
    else none

/-- The first block that `ImportFile` finds. -/
def firstFreeBlock (s : GCMemcard) : Nat :=
  s.currentBat.nextFreeBlock (s.maxBlock - MC_FST_BLOCKS) s.currentBat.LastAllocated

/-- The end of `ImportFile`: the directory and the map that it has put in the place of the current ones. -/
def finishImport (s : GCMemcard) (direntry : DEntry) (written : BlockAlloc × (Nat → GCMBlock)) :
    GCMemcard :=
  { (s.updateDir (insertEntry s.currentDir direntry s.firstFreeBlock)).updateBat
      { written.1 with
        FreeBlocks := (written.1.FreeBlocks + 2 ^ 16 - direntry.BlockCount % 2 ^ 16) % 2 ^ 16
        UpdateCounter := (written.1.UpdateCounter + 1) % 2 ^ 16 } with
    mc_data_blocks := written.2 }

/-- `ImportFile`, which also returns the blocks of the save as it leaves them. -/
def importFile (s : GCMemcard) (direntry : DEntry) (saveBlocks : List GCMBlock) :
    Option (Code × GCMemcard × List GCMBlock) :=
  if s.m_valid = false then some (.NOMEMCARD, s, saveBlocks)
  else if DIRLEN ≤ s.getNumFiles then some (.OUTOFDIRENTRIES, s, saveBlocks)
  else if s.currentBat.FreeBlocks < direntry.BlockCount then some (.OUTOFBLOCKS, s, saveBlocks)
  else if s.titlePresent direntry ≠ DIRLEN then some (.TITLEPRESENT, s, saveBlocks)
  else if s.firstFreeBlock = 0xFFFF then some (.OUTOFBLOCKS, s, saveBlocks)
  else
    (fzerogxMakeSaveGameValid s.hdr direntry saveBlocks).bind fun saveBlocks =>
    (psoMakeSaveGameValid s.hdr direntry saveBlocks).bind fun saveBlocks =>
    (s.writeBlocks direntry.BlockCount saveBlocks s.firstFreeBlock s.currentBat s.mc_data_blocks).map
      fun written => (.SUCCESS, s.finishImport direntry written, saveBlocks)

def removeFile (s : GCMemcard) (index : Nat) : Option (Code × GCMemcard) :=
  if s.m_valid = false then some (.NOMEMCARD, s)
  else if DIRLEN ≤ index then some (.DELETE_FAIL, s)
  else
    (s.currentBat.clearBlocks (s.dir.Dir index).FirstBlock (s.dir.Dir index).BlockCount).map
      fun cleared =>
        if cleared.1 then
          let UpdatedBat := { cleared.2 with
            UpdateCounter := (cleared.2.UpdateCounter + 1) % 2 ^ 16 }
          let UpdatedDir : Directory :=
            ⟨Function.update s.currentDir.Dir index .empty, (s.currentDir.UpdateCounter + 1) % 2 ^ 16⟩
          (.SUCCESS, (s.updateBat UpdatedBat).updateDir UpdatedDir)
        else (.DELETE_FAIL, s)

end GCMemcard

end DolphinCore.Memcard
