import DolphinCore.DiscIO.SectorReader
import DolphinCore.Lib.Endian

/-!
# DolphinCore.DiscIO.CompressedBlob

GCZ images (`DiscIO/CompressedBlob.cpp`): `CompressFileToBlob` without scrubbing,
`CompressedBlobReader`, and `DecompressBlobToFile`.

A file is the list of its bytes.  A function that fails, is cancelled or leaves the bounds of
a buffer gives `none`; what it tells the user is kept where it does not end the function.
-/

namespace DolphinCore.DiscIO

open Endian

/-! ## the hash -/

/-- The inner loop of `HashAdler32`. -/
def adlerSum (s : BitVec 32 × BitVec 32) (data : List Byte) : BitVec 32 × BitVec 32 :=
  data.foldl (fun (a, b) x => (a + x.setWidth 32, b + (a + x.setWidth 32))) s

def adlerReduce (x : BitVec 32) : BitVec 32 := (x &&& 0xffff) + (x >>> 16) * (65536 - 65521)

/-- The outer loop of `HashAdler32`, with one round for each unit of fuel. -/
def adlerRounds : Nat → BitVec 32 × BitVec 32 → List Byte → BitVec 32 × BitVec 32
  | 0, s, _ => s
  | fuel + 1, s, data =>
    if data = [] then s
    else
      let (a, b) := adlerSum s (data.take 5550)
      adlerRounds fuel (adlerReduce a, adlerReduce b) (data.drop 5550)

def hashAdler32 (data : List Byte) : BitVec 32 :=
  let (a, b) := adlerRounds data.length (1, 0) data
  let a := if 65521 ≤ a then a - 65521 else a
  let b := adlerReduce b
  let b := if 65521 ≤ b then b - 65521 else b
  (b <<< 16) ||| a

/-! ## zlib -/

/-- What is used of zlib: `deflate` with `Z_FINISH` and room for `avail_out` bytes gives the
stream if it ends there; `inflate` gives the bytes it writes and whether the stream ended. -/
structure Codec where
  deflate : List Byte → Nat → Option (List Byte)
  inflate : List Byte → Nat → List Byte × Bool

/-- Inflating inverts deflating; a stream is not empty and keeps to its room. -/
structure Codec.Lawful (codec : Codec) : Prop where
  length_deflate : ∀ data n out, codec.deflate data n = some out → 0 < out.length ∧ out.length ≤ n
  inflate_deflate : ∀ data n out, codec.deflate data n = some out →
    codec.inflate out data.length = (data, true)

/-! ## the format -/

/-- The bit of a block pointer that marks a stored block. -/
def setTopBit (n : Nat) : Nat := n % 2 ^ 63 + 2 ^ 63

def clearTopBit (n : Nat) : Nat := n % 2 ^ 63

def topBit (n : Nat) : Bool := 2 ^ 63 ≤ n

abbrev GCZ_MAGIC : Nat := 0xB10BC001

structure CompressedBlobHeader where
  magicCookie : Nat
  subType : Nat
  compressedDataSize : Nat
  dataSize : Nat
  blockSize : Nat
  numBlocks : Nat
  deriving DecidableEq

namespace CompressedBlobHeader

def toBytes (h : CompressedBlobHeader) : List Byte :=
  toLE 4 h.magicCookie ++ (toLE 4 h.subType ++ (toLE 8 h.compressedDataSize ++
    (toLE 8 h.dataSize ++ (toLE 4 h.blockSize ++ toLE 4 h.numBlocks))))

def ofBytes (bytes : List Byte) : CompressedBlobHeader where
  magicCookie := fromLE (bytes.take 4)
  subType := fromLE ((bytes.drop 4).take 4)
  compressedDataSize := fromLE ((bytes.drop 8).take 8)
  dataSize := fromLE ((bytes.drop 16).take 8)
  blockSize := fromLE ((bytes.drop 24).take 4)
  numBlocks := fromLE ((bytes.drop 28).take 4)

end CompressedBlobHeader

def isGCZBlob (file : List Byte) : Bool :=
  32 ≤ file.length && (CompressedBlobHeader.ofBytes file).magicCookie = GCZ_MAGIC

/-! ## compression -/

/-- A block as it is read for compression, with zeros behind the end of the file. -/
def inBlock (infile : List Byte) (blockSize i : Nat) : List Byte :=
  let read := (infile.drop (i * blockSize)).take blockSize
  read ++ List.replicate (blockSize - read.length) 0

/-- Whether a block is stored, and what is written of it. -/
def compressBlock (codec : Codec) (blockSize : Nat) (inBuf : List Byte) : Bool × List Byte :=
  match codec.deflate inBuf blockSize with
  | none => (true, inBuf)
  | some outBuf => if blockSize - outBuf.length < 10 then (true, inBuf) else (false, outBuf)

structure BlobBlock where
  pointer : Nat
  hash : Nat
  data : List Byte

/-- How often the callback is called. -/
def progressMonitor (rounds parts : Nat) : Nat := max 1 (rounds / parts)

/-- The loop of `CompressFileToBlob`: the blocks, and the position behind the last one. -/
def compressBlocks (codec : Codec) (callback : Nat → Bool) (monitor : Nat) (infile : List Byte)
    (blockSize : Nat) : Nat → Nat → Nat → Option (List BlobBlock × Nat)
  | 0, _, position => some ([], position)
  | cnt + 1, i, position =>
    if i % monitor = 0 ∧ callback i = false then none
    else
      let (stored, buf) := compressBlock codec blockSize (inBlock infile blockSize i)
      let block : BlobBlock :=
        { pointer := if stored then setTopBit position else position
          hash := (hashAdler32 buf).toNat
          data := buf }
      (compressBlocks codec callback monitor infile blockSize cnt (i + 1) (position + buf.length)).map
        fun (blocks, position) => (block :: blocks, position)

/-- The file that is written: the header, the two tables and the blocks. -/
def blobBytes (header : CompressedBlobHeader) (blocks : List BlobBlock) : List Byte :=
  header.toBytes ++ ((blocks.flatMap fun b => toLE 8 b.pointer) ++
    ((blocks.flatMap fun b => toLE 4 b.hash) ++ blocks.flatMap BlobBlock.data))

/-- How many blocks a file has. -/
def numBlocksOf (dataSize blockSize : Nat) : Nat := u32 ((dataSize + (blockSize - 1)) / blockSize)

/-- `CompressFileToBlob` with `sub_type` 0.  The search for the magic number leaves a file that is
shorter than a header in a failed state; no file has `2 ^ 63` bytes. -/
def compressFileToBlob (codec : Codec) (callback : Nat → Bool) (infile : List Byte)
    (blockSize : BitVec 32) : Option (List Byte) :=
  if isGCZBlob infile then none
  else if infile.length < 32 then none
  else if blockSize.toInt ≤ 0 then none
  else
    let numBlocks := numBlocksOf infile.length blockSize.toNat
    (compressBlocks codec callback (progressMonitor numBlocks 1000) infile blockSize.toNat
      numBlocks 0 0).bind fun (blocks, position) =>
        let header : CompressedBlobHeader :=
          { magicCookie := GCZ_MAGIC
            subType := 0
            compressedDataSize := position
            dataSize := infile.length
            blockSize := blockSize.toNat
            numBlocks := numBlocks }
        if (blobBytes header blocks).length < 2 ^ 63 then some (blobBytes header blocks) else none

/-! ## the reader -/

structure CompressedBlobReader where
  header : CompressedBlobHeader
  blockPointers : List Nat
  hashes : List Nat
  dataOffset : Nat
  file : List Byte

/-- What `GetBlock` tells the user. -/
inductive Alert where
  | illegalBlockNumber
  | uncompressedBlockWithWrongSize
  | truncated
  | corrupt
  | weHaveAProblem
  | outOfDataAndNotAtEnd
  | wrongBlockSize
  deriving DecidableEq

/-- An `int` that is added to a `u64`. -/
def intToU64 (n : Nat) : Nat := if u32 n < 2 ^ 31 then u32 n else u32 n + (2 ^ 64 - 2 ^ 32)

namespace CompressedBlobReader

/-- A table of numbers. -/
def readTable (file : List Byte) (start size n : Nat) : List Nat :=
  (List.range n).map fun i => fromLE (((file.drop start).drop (size * i)).take size)

/-- The constructor, for a file that holds its tables. -/
def create (file : List Byte) : Option CompressedBlobReader :=
  if isGCZBlob file then
    let header := CompressedBlobHeader.ofBytes file
    if 32 + 12 * header.numBlocks ≤ file.length then
      some
        { header := header
          blockPointers := readTable file 32 8 header.numBlocks
          hashes := readTable file (32 + 8 * header.numBlocks) 4 header.numBlocks
          dataOffset := intToU64 (32 + 8 * header.numBlocks + 4 * header.numBlocks)
          file := file }
    else none
  else none

/-- `GetBlockCompressedSize`, for a number with a block pointer. -/
def getBlockCompressedSize (r : CompressedBlobReader) (blockNum : Nat) : Nat :=
  let start := r.blockPointers.getD blockNum 0
  if blockNum < r.header.numBlocks - 1 then u64Sub (r.blockPointers.getD (blockNum + 1) 0) start
  else u64Sub r.header.compressedDataSize start

/-- The end of `GetBlock`, for the bytes that were read. -/
def decodeBlock (codec : Codec) (r : CompressedBlobReader) (uncompressed : Bool)
    (buf : List Byte) : List Alert × Option (List Byte) :=
  if uncompressed then ([], some buf)
  else
    let (out, ended) := codec.inflate buf r.header.blockSize
    let alerts := (if r.header.blockSize < buf.length then [Alert.weHaveAProblem] else []) ++
      if ended then [] else [Alert.outOfDataAndNotAtEnd]
    if out.length = r.header.blockSize then (alerts, some out)
    else (alerts ++ [Alert.wrongBlockSize], none)

/-- `GetBlock`: what the user is told, and the bytes written.  There is no block behind the
table of pointers, and none that is longer than the buffer of zlib. -/
def getBlock (codec : Codec) (r : CompressedBlobReader) (blockNum : Nat) :
    List Alert × Option (List Byte) :=
  if r.blockPointers.length ≤ blockNum then ([Alert.illegalBlockNumber], none)
  else
    let compBlockSize := u32 (r.getBlockCompressedSize blockNum)
    let offset := u64 (r.blockPointers.getD blockNum 0 + r.dataOffset)
    let wrongSize := if topBit offset ∧ compBlockSize ≠ r.header.blockSize then
      [Alert.uncompressedBlockWithWrongSize] else []
    if u32 (r.header.blockSize + 64) < compBlockSize then (wrongSize, none)
    else
      let buf := (r.file.drop (clearTopBit offset)).take compBlockSize
      if buf.length < compBlockSize then (wrongSize ++ [Alert.truncated], none)
      else
        let corrupt := if (hashAdler32 buf).toNat ≠ r.hashes.getD blockNum 0 then
          [Alert.corrupt] else []
        let (alerts, out) := decodeBlock codec r (topBit offset) buf
        (wrongSize ++ (corrupt ++ alerts), out)

/-- The blocks behind the cache. -/
def dev (codec : Codec) (r : CompressedBlobReader) : BlockDevice where
  getDataSize := r.header.dataSize
  getBlock blockNum := (r.getBlock codec blockNum).2

/-- The cache after the constructor. -/
def sectors (r : CompressedBlobReader) : SectorReader :=
  SectorReader.init.setSectorSize (BitVec.ofNat 32 r.header.blockSize)

end CompressedBlobReader

/-! ## decompression -/

abbrev BUFFER_BLOCKS : Nat := 32

/-- The loop of `DecompressBlobToFile`: what is written.  A read that fails leaves the buffer as
far as it came. -/
def decompressBuffers (dev : BlockDevice) (callback : Nat → Bool) (monitor : Nat)
    (bufferSize lastBufferSize numBuffers : Nat) :
    Nat → Nat → SectorReader → List Byte → List Byte → Option (List Byte)
  | 0, _, _, _, out => some out
  | cnt + 1, i, r, buffer, out =>
    if i % monitor = 0 ∧ callback i = false then none
    else
      let sz := if i = numBuffers - 1 then lastBufferSize else bufferSize
      (SectorReader.read dev r (BitVec.ofNat 64 (i * bufferSize)) (BitVec.ofNat 64 sz)).bind
        fun (_, bytes, r) =>
          let buffer := bytes ++ buffer.drop bytes.length
          decompressBuffers dev callback monitor bufferSize lastBufferSize numBuffers cnt (i + 1) r
            buffer (out ++ buffer.take sz)

def decompressBlobToFile (codec : Codec) (callback : Nat → Bool) (infile : List Byte) :
    Option (List Byte) :=
  (CompressedBlobReader.create infile).bind fun reader =>
    let bufferSize := reader.header.blockSize * BUFFER_BLOCKS
    let lastBufferSize := reader.header.blockSize * (reader.header.numBlocks % BUFFER_BLOCKS)
    let numBuffers := u32 ((reader.header.numBlocks + BUFFER_BLOCKS - 1) / BUFFER_BLOCKS)
    (decompressBuffers (reader.dev codec) callback (progressMonitor numBuffers 100) bufferSize
      lastBufferSize numBuffers numBuffers 0 reader.sectors (List.replicate bufferSize 0) []).map
        fun out => SectorReader.resize out reader.header.dataSize

end DolphinCore.DiscIO
