import DolphinCore.Lib.FinLiteral
import DolphinCore.Lib.StdString

/-!
# DolphinCore.DiscIO.SectorReader

`SectorReader` of `DiscIO/Blob.cpp`: reads of bytes at any offset from a source of blocks,
through 32 cache lines that hold a chunk of blocks each.

Numbers of bytes and blocks are natural numbers, reduced where the code's `u32` and `u64`
may wrap.  A function that writes outside a buffer, divides by zero or does not end gives
`none`.
-/

namespace DolphinCore.DiscIO

/-- A number as a `u32`. -/
def u32 (n : Nat) : Nat := n % 2 ^ 32

/-- A number as a `u64`. -/
def u64 (n : Nat) : Nat := n % 2 ^ 64

/-- The difference of two `u32`. -/
def u32Sub (m n : Nat) : Nat := u32 (m + 2 ^ 32 - n)

/-- The difference of two `u64`. -/
def u64Sub (m n : Nat) : Nat := u64 (m + 2 ^ 64 - n)

theorem u32_eq {n : Nat} (h : n < 2 ^ 32) : u32 n = n := Nat.mod_eq_of_lt h

theorem u64_eq {n : Nat} (h : n < 2 ^ 64) : u64 n = n := Nat.mod_eq_of_lt h

theorem u32_lt (n : Nat) : u32 n < 2 ^ 32 := Nat.mod_lt n (by omega)

theorem u32Sub_eq {m n : Nat} (h : n ≤ m) (hm : m < 2 ^ 32) : u32Sub m n = m - n := by
  rw [u32Sub, u32]
  omega

theorem u64Sub_eq {m n : Nat} (h : n ≤ m) (hm : m < 2 ^ 64) : u64Sub m n = m - n := by
  rw [u64Sub, u64]
  omega

theorem u64Sub_pos {m n : Nat} (h : m < n) (hn : n < 2 ^ 64) : 0 < u64Sub m n := by
  rw [u64Sub, u64]
  omega

/-! ## the source of the blocks -/

/-- How many blocks of a size hold the data. -/
def blockCount (dataSize blockSize : Nat) : Nat := (dataSize + blockSize - 1) / blockSize

/-- What a derived class provides: `GetDataSize` and `GetBlock`, which gives the bytes it
writes to `out`, or nothing where it returns false. -/
structure BlockDevice where
  getDataSize : Nat
  getBlock : Nat → Option (List Byte)

/-- A device that keeps its promises: a size files and devices can have, and a block for every
number below the end.  What it does from the end on is not known. -/
structure BlockSource (blockSize : Nat) extends BlockDevice where
  dataSize_lt : getDataSize < 2 ^ 63
  length_getBlock : ∀ n b, getBlock n = some b → b.length = blockSize
  isSome_getBlock : ∀ n < blockCount getDataSize blockSize, (getBlock n).isSome

namespace BlockSource

variable {blockSize : Nat} (src : BlockSource blockSize)

/-- The number of the block behind the last one. -/
def endBlock : Nat := blockCount src.getDataSize blockSize

/-- The bytes of consecutive blocks. -/
def bytes (n cnt : Nat) : List Byte := (List.range' n cnt).flatMap fun n => (src.getBlock n).getD []

/-- All the bytes of the source. -/
def allBytes : List Byte := src.bytes 0 src.endBlock

end BlockSource

/-! ## the cache -/

structure Cache where
  data : List Byte
  blockIdx : Nat
  numBlocks : Nat
  lruSreg : BitVec 32

namespace Cache

def reset (c : Cache) : Cache := { c with blockIdx := 0, numBlocks := 0, lruSreg := 0 }

def markUsed (c : Cache) : Cache := { c with lruSreg := c.lruSreg ||| 0x80000000 }

def fill (c : Cache) (block count : Nat) : Cache :=
  markUsed { c with blockIdx := block, numBlocks := count }

def contains (c : Cache) (block : Nat) : Bool :=
  c.blockIdx ≤ block && block - c.blockIdx < c.numBlocks

def shiftLRU (c : Cache) : Cache := { c with lruSreg := c.lruSreg >>> 1 }

def isLessRecentlyUsedThan (c other : Cache) : Bool := c.lruSreg < other.lruSreg

end Cache

abbrev cacheLines : Nat := 32

/-- `SectorReader`, and the numbers of the blocks `GetBlock` has been asked for. -/
structure SectorReader where
  blockSize : Nat
  chunkBlocks : Nat
  cache : Fin cacheLines → Cache
  asked : List Nat

namespace SectorReader

def init : SectorReader where
  blockSize := 0
  chunkBlocks := 1
  cache := fun _ => ⟨[], 0, 0, 0⟩
  asked := []

/-- `resize` of a vector of bytes. -/
def resize (data : List Byte) (n : Nat) : List Byte :=
  data.take n ++ List.replicate (n - data.length) 0

/-- The size of a cache line in bytes, a `u32`. -/
def lineSize (blockSize chunkBlocks : Nat) : Nat := u32 (chunkBlocks * blockSize)

def setSectorSize (r : SectorReader) (blocksize : BitVec 32) : SectorReader :=
  let blockSize := (max blocksize.toInt 0).toNat
  { r with
    blockSize := blockSize
    cache := fun i =>
      { (r.cache i).reset with
        data := resize (r.cache i).data (lineSize blockSize r.chunkBlocks) } }

def setChunkSize (r : SectorReader) (blockCnt : BitVec 32) : SectorReader :=
  setSectorSize { r with chunkBlocks := (max blockCnt.toInt 1).toNat } (BitVec.ofNat 32 r.blockSize)

def findCacheLine (r : SectorReader) (blockNum : Nat) : Option (Fin cacheLines × SectorReader) :=
  ((List.finRange cacheLines).find? fun i => (r.cache i).contains blockNum).map fun i =>
    (i, { r with cache := Function.update r.cache i (r.cache i).markUsed })

/-- One round of the search for the least recently used line. -/
def shiftLine (s : Fin cacheLines × (Fin cacheLines → Cache)) (line : Fin cacheLines) :
    Fin cacheLines × (Fin cacheLines → Cache) :=
  let (oldest, cache) := s
  if (cache line).isLessRecentlyUsedThan (cache oldest) then
    (line, Function.update cache oldest (cache oldest).shiftLRU)
  else (oldest, Function.update cache line (cache line).shiftLRU)

/-- The least recently used line, and the lines after the search. -/
def oldestLine (cache : Fin cacheLines → Cache) : Fin cacheLines × (Fin cacheLines → Cache) :=
  (List.finRange cacheLines).tail.foldl shiftLine (0, cache)

def getEmptyCacheLine (r : SectorReader) : Fin cacheLines × SectorReader :=
  let s := oldestLine r.cache
  (s.1, { r with cache := Function.update s.2 s.1 (s.2 s.1).reset })

/-- Writes bytes into a buffer. -/
def writeAt (buffer : List Byte) (pos : Nat) (bytes : List Byte) : Option (List Byte) :=
  if pos + bytes.length ≤ buffer.length then
    some (buffer.take pos ++ bytes ++ buffer.drop (pos + bytes.length))
  else none

/-- `std::fill` with zeros. -/
def fillZero (buffer : List Byte) (first last : Nat) : Option (List Byte) :=
  if first ≤ last then writeAt buffer first (List.replicate (last - first) 0) else none

variable (dev : BlockDevice)

/-- `ReadMultipleAlignedBlocks`: whether all blocks were read, the buffer, and the numbers
asked for. -/
def readMultipleAlignedBlocks (blockSize blockNum : Nat) :
    Nat → Nat → List Byte → Option (Bool × List Byte × List Nat)
  | 0, _, buffer => some (true, buffer, [])
  | cnt + 1, pos, buffer =>
    match dev.getBlock blockNum with
    | none => some (false, buffer, [blockNum])
    | some bytes =>
      match writeAt buffer pos bytes with
      | none => none
      | some buffer =>
        (readMultipleAlignedBlocks blockSize (u64 (blockNum + 1)) cnt (pos + blockSize) buffer).map
          fun (ok, buffer, asked) => (ok, buffer, blockNum :: asked)

/-- The end of `ReadChunk` for a source whose size is not known. -/
def probeBlocks (blockSize blockNum : Nat) : Nat → Nat → Nat → List Byte →
    Option (Nat × List Byte × List Nat)
  | 0, i, _, buffer => some (i, buffer, [])
  | cnt + 1, i, pos, buffer =>
    match dev.getBlock (u64 (blockNum + i)) with
    | none =>
      (fillZero buffer pos (pos + (cnt + 1) * blockSize)).map fun buffer =>
        (i, buffer, [u64 (blockNum + i)])
    | some bytes =>
      match writeAt buffer pos bytes with
      | none => none
      | some buffer =>
        (probeBlocks blockSize blockNum cnt (i + 1) (pos + blockSize) buffer).map
          fun (n, buffer, asked) => (n, buffer, u64 (blockNum + i) :: asked)

/-- The end `ReadChunk` computes from the size of the data. -/
def dataEnd (dataSize blockSize : Nat) : Nat :=
  u64Sub (u64 (dataSize + blockSize)) 1 / blockSize

/-- The clamp of `ReadChunk` for the end of a disc. -/
def clampBlocks (endBlock blockNum chunkBlocks : Nat) : Nat :=
  if endBlock = 0 then chunkBlocks
  else u32 (min chunkBlocks (u64Sub endBlock blockNum))

/-- `ReadChunk` behind the clamp. -/
def readBlocks (r : SectorReader) (buffer : List Byte) (endBlock blockNum cntBlocks : Nat) :
    Option (Nat × List Byte × List Nat) :=
  match readMultipleAlignedBlocks dev r.blockSize blockNum cntBlocks 0 buffer with
  | none => none
  | some (true, buffer, asked) =>
    if cntBlocks < r.chunkBlocks then
      (fillZero buffer (u32 (cntBlocks * r.blockSize)) (u32 (r.chunkBlocks * r.blockSize))).map
        fun buffer => (cntBlocks, buffer, asked)
    else some (cntBlocks, buffer, asked)
  | some (false, buffer, asked) =>
    if endBlock = 0 then
      (probeBlocks dev r.blockSize blockNum cntBlocks 0 0 buffer).map
        fun (n, buffer, asked') => (n, buffer, asked ++ asked')
    else some (0, buffer, asked)

/-- `ReadChunk`: the number of blocks read, the buffer, and the numbers asked for. -/
def readChunk (r : SectorReader) (buffer : List Byte) (chunkNum : Nat) :
    Option (Nat × List Byte × List Nat) :=
  let blockNum := u64 (chunkNum * r.chunkBlocks)
  let endBlock := dataEnd dev.getDataSize r.blockSize
  readBlocks dev r buffer endBlock blockNum (clampBlocks endBlock blockNum r.chunkBlocks)

/-- The end of `GetCacheLine`: the line holds the blocks that were read, and may still miss the
one asked for. -/
def fillLine (r : SectorReader) (i : Fin cacheLines) (line : Cache)
    (block count blockNum : Nat) : Option (Fin cacheLines) × SectorReader :=
  let line := line.fill block count
  let r := { r with cache := Function.update r.cache i line }
  if line.contains blockNum then (some i, r) else (none, r)

/-- `GetCacheLine` on a miss, for the line that was emptied. -/
def faultIn (blockNum : Nat) (i : Fin cacheLines) (r : SectorReader) :
    Option (Option (Fin cacheLines) × SectorReader) :=
  let chunkIdx := blockNum / r.chunkBlocks
  (readChunk dev r (r.cache i).data chunkIdx).map fun (blocksRead, data, asked) =>
    let line := { r.cache i with data := data }
    let r := { r with asked := r.asked ++ asked }
    if blocksRead = 0 then (none, { r with cache := Function.update r.cache i line })
    else fillLine r i line (u64 (chunkIdx * r.chunkBlocks)) blocksRead blockNum

def getCacheLine (r : SectorReader) (blockNum : Nat) :
    Option (Option (Fin cacheLines) × SectorReader) :=
  match r.findCacheLine blockNum with
  | some (i, r) => some (some i, r)
  | none => faultIn dev blockNum r.getEmptyCacheLine.1 r.getEmptyCacheLine.2

/-- The loop of `Read`: what it returns, and the bytes written to `out_ptr`. -/
def readLoop : Nat → Nat → Nat → Nat → List Byte → SectorReader →
    Option (Bool × List Byte × SectorReader)
  | 0, _, _, _, _, _ => none
  | fuel + 1, offset, remain, positionInBlock, out, r =>
    if remain = 0 then some (true, out, r)
    else
      let block := offset / r.blockSize
      match getCacheLine dev r block with
      | none => none
      | some (none, r) => some (false, out, r)
      | some (some i, r) =>
        let cache := r.cache i
        let readOffset := u32 (u32 (block - cache.blockIdx) * r.blockSize + positionInBlock)
        let canRead := u32Sub (u32 (r.blockSize * cache.numBlocks)) readOffset
        let wasRead := min canRead remain
        if readOffset + wasRead ≤ cache.data.length then
          readLoop fuel (u64 (offset + wasRead)) (remain - wasRead) 0
            (out ++ (cache.data.drop readOffset).take wasRead) r
        else none

def read (r : SectorReader) (offset size : BitVec 64) : Option (Bool × List Byte × SectorReader) :=
  if r.blockSize = 0 then none
  else readLoop dev (size.toNat + 1) offset.toNat size.toNat (offset.toNat % r.blockSize) [] r

/-- A sequence of calls of `Read`. -/
def readAll : List (BitVec 64 × BitVec 64) → SectorReader →
    Option (List (Bool × List Byte) × SectorReader)
  | [], r => some ([], r)
  | (offset, size) :: calls, r =>
    match read dev r offset size with
    | none => none
    | some (ok, out, r) =>
      (readAll calls r).map fun (results, r) => ((ok, out) :: results, r)

end SectorReader

end DolphinCore.DiscIO
