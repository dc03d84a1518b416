import DolphinCore.DiscIO.FileSystemGCWii

/-!
# DolphinCore.DiscIO.DiscScrubber

`DiscScrubber.cpp`: the calls of `MarkAsUsed` and `MarkAsUsedE` that the parsers of a Wii disc make, the
table of free clusters that they leave, and the blocks that are read under that table.  `none` stands
for an access outside of the table.  Every offset is the sum of few shifted words, so that no sum of 64
bits wraps.
-/

namespace DolphinCore.DiscIO

def CLUSTER_SIZE : Nat := 0x8000

/-- The bytes of a cluster that are not hashes. -/
def CLUSTER_DATA_SIZE : Nat := 0x7c00

/-! ## the disc -/

/-- `Partition`, whose offset is a shifted word of the partition table. -/
structure Partition where
  offset : Nat
  offset_lt : offset < 2 ^ 34
  deriving DecidableEq

/-- What the scrubber reads of the disc. -/
structure Volume where
  /-- `GetSize` -/
  size : Nat
  /-- `GetPartitions` -/
  partitions : List Partition
  /-- `ReadSwapped<u32>`, where no partition stands for `PARTITION_NONE`. -/
  readSwapped : Nat → Option Partition → Option (BitVec 32)
  /-- The file system table of a partition. -/
  table : Partition → Option (List Byte)

namespace Volume

def readSwappedAndShifted (v : Volume) (offset : Nat) (partition : Option Partition) : Option Nat :=
  (v.readSwapped offset partition).map fun word => word.toNat * 4

def getFileSystem (v : Volume) (partition : Partition) : Option FileInfoGCWii :=
  (v.table partition).bind fun fst =>
    if fileSystemValid (2 * fst.length + 1) fst 2 = some true then rootInfo fst 2 else none

/-- The loop over the segments of an executable. -/
def segmentsEnd (v : Volume) (partition : Partition) (offsets sizes : Nat) :
    List Nat → BitVec 32 → Option (BitVec 32)
  | [], dol_size => some dol_size
  | i :: is, dol_size =>
    (v.readSwapped (offsets + i * 4) partition).bind fun offset =>
      (v.readSwapped (sizes + i * 4) partition).bind fun size =>
        segmentsEnd v partition offsets sizes is
          (if offset + size < dol_size then dol_size else offset + size)

def getBootDOLSize (v : Volume) (partition : Partition) (dol_offset : Nat) : Option (BitVec 32) :=
  (segmentsEnd v partition dol_offset (dol_offset + 0x90) (List.range 7) 0).bind
    (segmentsEnd v partition (dol_offset + 0x1c) (dol_offset + 0xac) (List.range 11))

end Volume

/-! ## the parsers -/

/-- A call of `MarkAsUsed` or of `MarkAsUsedE`. -/
inductive Call
  | markAsUsed (offset size : Nat)
  | markAsUsedE (partition_data_offset offset size : Nat)
  deriving DecidableEq, Repr

/-- `PartitionHeader`, after the reads of `ParseDisc`. -/
structure PartitionHeader where
  tmd_size : BitVec 32
  tmd_offset : Nat
  cert_chain_size : BitVec 32
  cert_chain_offset : Nat
  h3_offset : Nat
  data_offset : Nat
  data_size : Nat

/-- The reads of `ParseDisc` for a partition. -/
def readPartitionHeader (v : Volume) (partition : Partition) : Option PartitionHeader :=
  (v.readSwapped (partition.offset + 0x2a4) none).bind fun tmd_size =>
  (v.readSwappedAndShifted (partition.offset + 0x2a8) none).bind fun tmd_offset =>
  (v.readSwapped (partition.offset + 0x2ac) none).bind fun cert_chain_size =>
  (v.readSwappedAndShifted (partition.offset + 0x2b0) none).bind fun cert_chain_offset =>
  (v.readSwappedAndShifted (partition.offset + 0x2b4) none).bind fun h3_offset =>
  (v.readSwappedAndShifted (partition.offset + 0x2b8) none).bind fun data_offset =>
  (v.readSwappedAndShifted (partition.offset + 0x2bc) none).map fun data_size =>
    ⟨tmd_size, tmd_offset, cert_chain_size, cert_chain_offset, h3_offset, data_offset, data_size⟩

/-- The calls of `ParseDisc` for a partition. -/
def PartitionHeader.calls (header : PartitionHeader) (partition : Partition) : List Call :=
  [.markAsUsed partition.offset 0x2c0,
    .markAsUsed (partition.offset + header.tmd_offset) header.tmd_size.toNat,
    .markAsUsed (partition.offset + header.cert_chain_offset) header.cert_chain_size.toNat,
    .markAsUsed (partition.offset + header.h3_offset) 0x18000]

/-- `ParseFileSystemData`, from the child at `child` on. -/
def parseFileSystemData (partition_data_offset : Nat) (f : FileInfoGCWii) :
    Nat → Nat → Nat → Option (List Call)
  | 0, _, _ => none
  | fuel + 1, child, last =>
    if child = last then some []
    else
      (f.entry child).isDirectory.bind fun directory =>
        (f.entry child).getNextIndex.bind fun next =>
          (if directory then parseFileSystemData partition_data_offset f fuel (child + 1) next
          else
            (f.entry child).getOffset.bind fun offset =>
              (f.entry child).getSize.map fun size =>
                [Call.markAsUsedE partition_data_offset offset size]).bind fun calls =>
            (parseFileSystemData partition_data_offset f fuel next last).map (calls ++ ·)

/-- The size that is marked for the partition header and the apploader, from the words for the size of
the apploader and of its trailer. -/
abbrev ApploaderSize := Partition → BitVec 32 → BitVec 32 → Nat

/-- What the words say. -/
def namedApploader : ApploaderSize := fun _ apploader_size apploader_trailer_size =>
  0x2440 + apploader_size.toNat + apploader_trailer_size.toNat

/-- Both words are read into `apploader_size`, and `apploader_trailer_size` is what the memory of the
header of this partition held before. -/
def markedApploader (uninitialised : Partition → BitVec 32) : ApploaderSize :=
  fun partition _ apploader_size => (0x2440 + apploader_size + uninitialised partition).toNat

/-- `ParsePartitionData`: its calls, and its result. -/
def parsePartitionData (v : Volume) (apploader : ApploaderSize) (partition : Partition)
    (header : PartitionHeader) : Option (List Call × Bool) :=
  match v.getFileSystem partition with
  | none => some ([], false)
  | some filesystem =>
    let partition_data_offset := partition.offset + header.data_offset
    match v.readSwapped (0x2440 + 0x14) partition, v.readSwapped (0x2440 + 0x18) partition with
    | some first, some second =>
      let apploader_calls := [Call.markAsUsedE partition_data_offset 0 (apploader partition first second)]
      match v.readSwappedAndShifted 0x420 partition with
      | none => some (apploader_calls, false)
      | some dol_offset =>
        match v.getBootDOLSize partition dol_offset with
        | none => some (apploader_calls, false)
        | some dol_size =>
          let dol_calls := apploader_calls ++
            [Call.markAsUsedE partition_data_offset dol_offset dol_size.toNat]
          match v.readSwappedAndShifted 0x424 partition, v.readSwappedAndShifted 0x428 partition with
          | some fst_offset, some fst_size =>
            let fst_calls := dol_calls ++ [Call.markAsUsedE partition_data_offset fst_offset fst_size]
            filesystem.getNextIndex.bind fun last =>
              (parseFileSystemData partition_data_offset filesystem (last + 1) 1 last).map fun files =>
                (fst_calls ++ files, true)
          | _, _ => some (dol_calls, false)
    | _, _ => some ([], false)

/-- The loop of `ParseDisc`. -/
def parsePartitions (v : Volume) (apploader : ApploaderSize) :
    List Partition → Option (List Call × Bool)
  | [] => some ([], true)
  | partition :: partitions =>
    match readPartitionHeader v partition with
    | none => some ([], false)
    | some header =>
      (parsePartitionData v apploader partition header).bind fun parsed =>
        if parsed.2 then
          (parsePartitions v apploader partitions).map fun rest =>
            (header.calls partition ++ (parsed.1 ++ rest.1), rest.2)
        else some (header.calls partition ++ parsed.1, false)

/-- `ParseDisc`: its calls, and its result. -/
def parseDisc (v : Volume) (apploader : ApploaderSize) : Option (List Call × Bool) :=
  (parsePartitions v apploader v.partitions).map fun parsed =>
    (.markAsUsed 0 0x50000 :: parsed.1, parsed.2)

/-! ## the table -/

/-- The loop of `MarkAsUsed`, which ends within the given number of turns. -/
def markLoop (m_file_size end_offset : Nat) : Nat → Nat → List Bool → Option (List Bool)
  | 0, _, _ => none
  | turns + 1, current_offset, m_free_table =>
    if current_offset < end_offset ∧ current_offset < m_file_size then
      if current_offset / CLUSTER_SIZE < m_free_table.length then
        markLoop m_file_size end_offset turns (current_offset + CLUSTER_SIZE)
          (m_free_table.set (current_offset / CLUSTER_SIZE) false)
      else none
    else some m_free_table

def markAsUsed (m_file_size offset size : Nat) (m_free_table : List Bool) : Option (List Bool) :=
  markLoop m_file_size (offset + size) (size / CLUSTER_SIZE + 2) offset m_free_table

/-- `first_cluster_start` and `last_cluster_end` of `MarkAsUsedE`. -/
def clusterBounds (partition_data_offset offset size : Nat) : Nat × Nat :=
  let first_cluster_start := offset / CLUSTER_DATA_SIZE * CLUSTER_SIZE + partition_data_offset
  (first_cluster_start,
    if size = 0 then first_cluster_start
    else ((offset + size - 1) / CLUSTER_DATA_SIZE + 1) * CLUSTER_SIZE + partition_data_offset)

/-- The offset and the size that a call passes to `MarkAsUsed`. -/
def Call.range : Call → Nat × Nat
  | .markAsUsed offset size => (offset, size)
  | .markAsUsedE partition_data_offset offset size =>
    let bounds := clusterBounds partition_data_offset offset size
    (bounds.1, bounds.2 - bounds.1)

/-- The calls in order. -/
def markCalls (m_file_size : Nat) : List Call → List Bool → Option (List Bool)
  | [], m_free_table => some m_free_table
  | call :: calls, m_free_table =>
    (markAsUsed m_file_size call.range.1 call.range.2 m_free_table).bind (markCalls m_file_size calls)

/-! ## the scrubber -/

structure DiscScrubber where
  m_free_table : List Bool
  m_block_count : Nat
  m_block_size : Nat
  m_is_scrubbing : Bool

/-- `SetupScrub`, for a block size that divides the size of a cluster. -/
def setupScrub (v : Volume) (uninitialised : Partition → BitVec 32) (block_size : Nat) :
    Option DiscScrubber :=
  (parseDisc v (markedApploader uninitialised)).bind fun parsed =>
    (markCalls v.size parsed.1 (List.replicate (v.size / CLUSTER_SIZE) true)).map fun m_free_table =>
      ⟨m_free_table, 0, block_size, parsed.2⟩

/-- A block that `GetNextBlock` has handed out, and if it has been freed. -/
structure NextBlock where
  freed : Bool
  buffer : List Byte
  deriving DecidableEq

namespace DiscScrubber

/-- `GetNextBlock`, where the file is what is left of it. -/
def getNextBlock (s : DiscScrubber) (file : List Byte) :
    Option (NextBlock × DiscScrubber × List Byte) :=
  let i := s.m_block_count * s.m_block_size / CLUSTER_SIZE
  (if s.m_is_scrubbing then s.m_free_table[i]? else some false).map fun freed =>
    (⟨freed, if freed then List.replicate s.m_block_size 0 else file.take s.m_block_size⟩,
      { s with m_block_count := s.m_block_count + 1 }, file.drop s.m_block_size)

/-- The next blocks of a file. -/
def getNextBlocks : Nat → DiscScrubber → List Byte → Option (List NextBlock)
  | 0, _, _ => some []
  | n + 1, s, file =>
    (s.getNextBlock file).bind fun next => (getNextBlocks n next.2.1 next.2.2).map (next.1 :: ·)

end DiscScrubber

end DolphinCore.DiscIO
