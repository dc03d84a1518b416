import DolphinCore.Common.File
import DolphinCore.FifoPlayer.FifoDataFile

/-!
# DolphinCore.FifoPlayer.SaveLoad

The file of a recording: a header, a list of frames, the registers and the
texture memory, and then for each frame its data, a list of its updates and
their data. The lists are reserved first and filled in later.

Reserved fields are written as they are in memory, and memory that is not
initialized holds anything.
-/

namespace DolphinCore.FifoPlayer

open Endian

/-! ## structures in the file -/

def FILE_ID : BitVec 32 := 0x0d01f1f0
def VERSION_NUMBER : BitVec 32 := 4
def MIN_LOADER_VERSION : BitVec 32 := 1

structure FileHeader where
  fileId : BitVec 32
  file_version : BitVec 32
  min_loader_version : BitVec 32
  bpMemOffset : BitVec 64
  bpMemSize : BitVec 32
  cpMemOffset : BitVec 64
  cpMemSize : BitVec 32
  xfMemOffset : BitVec 64
  xfMemSize : BitVec 32
  xfRegsOffset : BitVec 64
  xfRegsSize : BitVec 32
  frameListOffset : BitVec 64
  frameCount : BitVec 32
  flags : BitVec 32
  texMemOffset : BitVec 64
  texMemSize : BitVec 32
  reserved : Fin 40 → Byte

structure FileFrameInfo where
  fifoDataOffset : BitVec 64
  fifoDataSize : BitVec 32
  fifoStart : BitVec 32
  fifoEnd : BitVec 32
  memoryUpdatesOffset : BitVec 64
  numMemoryUpdates : BitVec 32
  reserved : Fin 32 → Byte

structure FileMemoryUpdate where
  fifoPosition : BitVec 32
  address : BitVec 32
  dataOffset : BitVec 64
  dataSize : BitVec 32
  type : BitVec 8
  reserved : Fin 3 → Byte

namespace FileHeader

def widths : List Nat := [4, 4, 4, 8, 4, 8, 4, 8, 4, 8, 4, 8, 4, 4, 8, 4]

def values (h : FileHeader) : List Nat :=
  [h.fileId.toNat, h.file_version.toNat, h.min_loader_version.toNat,
    h.bpMemOffset.toNat, h.bpMemSize.toNat, h.cpMemOffset.toNat, h.cpMemSize.toNat,
    h.xfMemOffset.toNat, h.xfMemSize.toNat, h.xfRegsOffset.toNat, h.xfRegsSize.toNat,
    h.frameListOffset.toNat, h.frameCount.toNat, h.flags.toNat,
    h.texMemOffset.toNat, h.texMemSize.toNat]

def toBytes (h : FileHeader) : List Byte := putFields widths h.values ++ List.ofFn h.reserved

def ofBytes (bs : List Byte) : FileHeader :=
  let v := getFields widths bs
  let w32 (i : Nat) := BitVec.ofNat 32 (v.getD i 0)
  let w64 (i : Nat) := BitVec.ofNat 64 (v.getD i 0)
  ⟨w32 0, w32 1, w32 2, w64 3, w32 4, w64 5, w32 6, w64 7, w32 8, w64 9, w32 10, w64 11, w32 12,
    w32 13, w64 14, w32 15, fun i => bs.getD (88 + i) 0⟩

end FileHeader

namespace FileFrameInfo

def widths : List Nat := [8, 4, 4, 4, 8, 4]

def values (x : FileFrameInfo) : List Nat :=
  [x.fifoDataOffset.toNat, x.fifoDataSize.toNat, x.fifoStart.toNat, x.fifoEnd.toNat,
    x.memoryUpdatesOffset.toNat, x.numMemoryUpdates.toNat]

def toBytes (x : FileFrameInfo) : List Byte := putFields widths x.values ++ List.ofFn x.reserved

def ofBytes (bs : List Byte) : FileFrameInfo :=
  let v := getFields widths bs
  let w32 (i : Nat) := BitVec.ofNat 32 (v.getD i 0)
  let w64 (i : Nat) := BitVec.ofNat 64 (v.getD i 0)
  ⟨w64 0, w32 1, w32 2, w32 3, w64 4, w32 5, fun i => bs.getD (32 + i) 0⟩

end FileFrameInfo

namespace FileMemoryUpdate

def widths : List Nat := [4, 4, 8, 4, 1]

def values (x : FileMemoryUpdate) : List Nat :=
  [x.fifoPosition.toNat, x.address.toNat, x.dataOffset.toNat, x.dataSize.toNat, x.type.toNat]

def toBytes (x : FileMemoryUpdate) : List Byte := putFields widths x.values ++ List.ofFn x.reserved

def ofBytes (bs : List Byte) : FileMemoryUpdate :=
  let v := getFields widths bs
  let w32 (i : Nat) := BitVec.ofNat 32 (v.getD i 0)
  ⟨w32 0, w32 1, BitVec.ofNat 64 (v.getD 2 0), w32 3, BitVec.ofNat 8 (v.getD 4 0),
    fun i => bs.getD (21 + i) 0⟩

end FileMemoryUpdate

/-- The value of a type. -/
def MemoryUpdateType.value : MemoryUpdateType → BitVec 8
  | .TEXTURE_MAP => 0x01
  | .XF_DATA => 0x02
  | .VERTEX_STREAM => 0x04
  | .TMEM => 0x08

/-- A number that is the value of no type is none here. -/
def MemoryUpdateType.ofValue (b : BitVec 8) : Option MemoryUpdateType :=
  match b.toNat with
  | 0x01 => some .TEXTURE_MAP
  | 0x02 => some .XF_DATA
  | 0x04 => some .VERTEX_STREAM
  | 0x08 => some .TMEM
  | _ => none

/-! ## writing -/

/-- Reserved fields, which nobody sets: of the header, of each frame, of each of its updates. -/
structure Unset where
  header : Fin 40 → Byte
  frame : Nat → Fin 32 → Byte
  update : Nat → Nat → Fin 3 → Byte

/-- The entry of an update whose data is at `dataOffset`. -/
def updateEntry (reserved : Fin 3 → Byte) (dataOffset : Nat) (u : MemoryUpdate) :
    FileMemoryUpdate :=
  ⟨u.fifoPosition, u.address, BitVec.ofNat 64 dataOffset, BitVec.ofNat 32 u.data.length,
    u.type.value, reserved⟩

/-- From the `i`-th update on: its data at the end of the file, its entry in the list. -/
def writeUpdates (reserved : Nat → Fin 3 → Byte) (updateListOffset : Nat) :
    Nat → List MemoryUpdate → IOFile → Option IOFile
  | _, [], file => some file
  | i, srcUpdate :: us, file =>
    let file := file.SeekEnd
    let dataOffset := file.Tell
    (file.WriteBytes srcUpdate.data).bind fun file =>
    (file.Seek ((updateListOffset + i * 24) % 2 ^ 64)).bind fun file =>
    (file.WriteBytes (updateEntry (reserved i) dataOffset srcUpdate).toBytes).bind fun file =>
    writeUpdates reserved updateListOffset (i + 1) us file

/-- `WriteMemoryUpdates`, with the offset of the list. -/
def WriteMemoryUpdates (reserved : Nat → Fin 3 → Byte) (memUpdates : List MemoryUpdate)
    (file : IOFile) : Option (Nat × IOFile) :=
  let updateListOffset := file.Tell
  (file.PadFile (memUpdates.length * 24)).bind fun file =>
  (writeUpdates reserved updateListOffset 0 memUpdates file).map fun file =>
    (updateListOffset, file)

/-- The entry of a frame. -/
def frameEntry (reserved : Fin 32 → Byte) (dataOffset memoryUpdatesOffset : Nat)
    (frame : FifoFrameInfo) : FileFrameInfo :=
  ⟨BitVec.ofNat 64 dataOffset, BitVec.ofNat 32 frame.fifoData.length, frame.fifoStart,
    frame.fifoEnd, BitVec.ofNat 64 memoryUpdatesOffset, BitVec.ofNat 32 frame.memoryUpdates.length,
    reserved⟩

/-- From the `i`-th frame on. -/
def writeFrames (unset : Unset) (frameListOffset : Nat) :
    Nat → List FifoFrameInfo → IOFile → Option IOFile
  | _, [], file => some file
  | i, srcFrame :: frames, file =>
    let file := file.SeekEnd
    let dataOffset := file.Tell
    (file.WriteBytes srcFrame.fifoData).bind fun file =>
    (WriteMemoryUpdates (unset.update i) srcFrame.memoryUpdates file).bind
      fun (memoryUpdatesOffset, file) =>
    (file.Seek ((frameListOffset + i * 64) % 2 ^ 64)).bind fun file =>
    let dstFrame := frameEntry (unset.frame i) dataOffset memoryUpdatesOffset srcFrame
    (file.WriteBytes dstFrame.toBytes).bind fun file =>
    writeFrames unset frameListOffset (i + 1) frames file

/-- An array of words as it is in memory. -/
def words {n : Nat} (mem : Fin n → BitVec 32) : List Byte :=
  (List.ofFn mem).flatMap fun word => toLE 4 word.toNat

/-- The header of a file whose parts begin at these offsets. -/
def fileHeader (unset : Unset) (f : FifoDataFile) (frameListOffset bpMemOffset cpMemOffset
    xfMemOffset xfRegsOffset texMemOffset : Nat) : FileHeader where
  fileId := FILE_ID
  file_version := VERSION_NUMBER
  min_loader_version := MIN_LOADER_VERSION
  bpMemOffset := BitVec.ofNat 64 bpMemOffset
  bpMemSize := BitVec.ofNat 32 BP_MEM_SIZE
  cpMemOffset := BitVec.ofNat 64 cpMemOffset
  cpMemSize := BitVec.ofNat 32 CP_MEM_SIZE
  xfMemOffset := BitVec.ofNat 64 xfMemOffset
  xfMemSize := BitVec.ofNat 32 XF_MEM_SIZE
  xfRegsOffset := BitVec.ofNat 64 xfRegsOffset
  xfRegsSize := BitVec.ofNat 32 XF_REGS_SIZE
  frameListOffset := BitVec.ofNat 64 frameListOffset
  frameCount := BitVec.ofNat 32 f.m_Frames.length
  flags := f.m_Flags
  texMemOffset := BitVec.ofNat 64 texMemOffset
  texMemSize := BitVec.ofNat 32 TEX_MEM_SIZE
  reserved := unset.header

/-- `Save`: the file that was written. -/
def FifoDataFile.Save (unset : Unset) (f : FifoDataFile) : Option IOFile :=
  -- space for the header and the frame list
  (IOFile.create.PadFile 128).bind fun file =>
  let frameListOffset := file.Tell
  (file.PadFile (f.m_Frames.length * 64)).bind fun file =>
  let bpMemOffset := file.Tell
  (file.WriteBytes (words f.m_BPMem)).bind fun file =>
  let cpMemOffset := file.Tell
  (file.WriteBytes (words f.m_CPMem)).bind fun file =>
  let xfMemOffset := file.Tell
  (file.WriteBytes (words f.m_XFMem)).bind fun file =>
  let xfRegsOffset := file.Tell
  (file.WriteBytes (words f.m_XFRegs)).bind fun file =>
  let texMemOffset := file.Tell
  (file.WriteBytes (List.ofFn f.m_TexMem)).bind fun file =>
  let header := fileHeader unset f frameListOffset bpMemOffset cpMemOffset xfMemOffset xfRegsOffset
    texMemOffset
  (file.Seek 0).bind fun file =>
  (file.WriteBytes header.toBytes).bind fun file =>
  writeFrames unset frameListOffset 0 f.m_Frames file

/-! ## reading -/

/-- What memory holds that is not initialized: for each read, by its position in the file, the
bytes of the buffer. -/
abbrev Stale := Nat → Nat → Byte

/-- Words that are not read. -/
def staleWords (stale : Stale) {n : Nat} (i : Fin n) : BitVec 32 :=
  BitVec.ofNat 32 (fromLE ((List.range 4).map fun k => stale 0 (4 * i + k)))

/-- A buffer of `n` bytes after a read at `off`; where the file ends it stays as it was. -/
def readBuffer (stale : Stale) (file : IOFile) (n : Nat) : List Byte × IOFile :=
  let (got, next) := file.ReadBytes n
  ((List.range n).map fun i => got.getD i (stale file.pos i), next)

/-- From the `i`-th update on, up to the number of updates. -/
def readUpdates (stale : Stale) (fileOffset : Nat) :
    Nat → Nat → IOFile → Option (List MemoryUpdate × IOFile)
  | _, 0, file => some ([], file)
  | i, n + 1, file =>
    let (bytes, file) := readBuffer stale (file.seekTo ((fileOffset + i * 24) % 2 ^ 64)) 24
    let srcUpdate := FileMemoryUpdate.ofBytes bytes
    (MemoryUpdateType.ofValue srcUpdate.type).bind fun type =>
    -- the data is zero before it is read
    let (data, file) := readBuffer (fun _ _ => 0) (file.seekTo srcUpdate.dataOffset.toNat)
      srcUpdate.dataSize.toNat
    (readUpdates stale fileOffset (i + 1) n file).map fun (us, file) =>
      (⟨srcUpdate.fifoPosition, srcUpdate.address, data, type⟩ :: us, file)

def ReadMemoryUpdates (stale : Stale) (fileOffset numUpdates : Nat) (file : IOFile) :
    Option (List MemoryUpdate × IOFile) :=
  readUpdates stale fileOffset 0 numUpdates file

/-- From the `i`-th frame on, up to the number of frames. -/
def readFrames (stale : Stale) (frameListOffset : Nat) :
    Nat → Nat → IOFile → Option (List FifoFrameInfo)
  | _, 0, _ => some []
  | i, n + 1, file =>
    let (bytes, file) := readBuffer stale (file.seekTo ((frameListOffset + i * 64) % 2 ^ 64)) 64
    let srcFrame := FileFrameInfo.ofBytes bytes
    let (fifoData, file) := readBuffer (fun _ _ => 0) (file.seekTo srcFrame.fifoDataOffset.toNat)
      srcFrame.fifoDataSize.toNat
    (ReadMemoryUpdates stale srcFrame.memoryUpdatesOffset.toNat srcFrame.numMemoryUpdates.toNat
        file).bind fun (memoryUpdates, file) =>
    (readFrames stale frameListOffset (i + 1) n file).map fun frames =>
      ⟨fifoData, srcFrame.fifoStart, srcFrame.fifoEnd, memoryUpdates⟩ :: frames

/-- An array of `n` words, of which `size` are read at an offset. -/
def readWords (stale : Stale) (file : IOFile) (offset : BitVec 64) (n : Nat) (size : BitVec 32) :
    (Fin n → BitVec 32) × IOFile :=
  let file := file.seekTo offset.toNat
  let (got, next) := file.ReadBytes (4 * min n size.toNat)
  let byte (i : Nat) := got.getD i (stale file.pos i)
  (fun i => BitVec.ofNat 32 (fromLE ((List.range 4).map fun k => byte (4 * i + k))), next)

def FifoDataFile.Load (stale : Stale) (data : List Byte) (flagsOnly : Bool) : Option FifoDataFile :=
  let (bytes, file) := readBuffer stale (.openRead data) 128
  let header := FileHeader.ofBytes bytes
  if header.fileId ≠ FILE_ID ∨ VERSION_NUMBER < header.min_loader_version then none
  else if flagsOnly then
    some ⟨staleWords stale, staleWords stale, staleWords stale, staleWords stale,
      fun i => stale 0 i, header.flags, header.file_version, []⟩
  else
    let (bpMem, file) := readWords stale file header.bpMemOffset BP_MEM_SIZE header.bpMemSize
    let (cpMem, file) := readWords stale file header.cpMemOffset CP_MEM_SIZE header.cpMemSize
    let (xfMem, file) := readWords stale file header.xfMemOffset XF_MEM_SIZE header.xfMemSize
    let (xfRegs, file) := readWords stale file header.xfRegsOffset XF_REGS_SIZE header.xfRegsSize
    let (texMem, file) : (Fin TEX_MEM_SIZE → Byte) × IOFile :=
      -- texture memory saving was added in version 4
      if 4 ≤ header.file_version then
        let (got, next) := (file.seekTo header.texMemOffset.toNat).ReadBytes
          (min TEX_MEM_SIZE header.texMemSize.toNat)
        (fun i => got.getD i 0, next)
      else (fun _ => 0, file)
    (readFrames stale header.frameListOffset.toNat 0 header.frameCount.toNat file).map fun frames =>
      ⟨bpMem, cpMem, xfMem, xfRegs, texMem, header.flags, header.file_version, frames⟩

end DolphinCore.FifoPlayer
