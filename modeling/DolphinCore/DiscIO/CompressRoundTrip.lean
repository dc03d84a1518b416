import DolphinCore.DiscIO.CompressedBlob
import DolphinCore.DiscIO.ReadSequence

/-!
# DolphinCore.DiscIO.CompressRoundTrip

What becomes of a file that is compressed and decompressed: the reader of the blob gives the
blocks of the file, so a call of `Read` gives the bytes of the file, and `DecompressBlobToFile`
writes them, except for the last 32 blocks where the number of blocks is a multiple of 32.
-/

namespace DolphinCore.DiscIO

open Endian CompressedBlobReader

/-! ## the header -/

namespace CompressedBlobHeader

/-- The fields keep to their widths. -/
structure Fits (h : CompressedBlobHeader) : Prop where
  magicCookie : h.magicCookie < 256 ^ 4
  subType : h.subType < 256 ^ 4
  compressedDataSize : h.compressedDataSize < 256 ^ 8
  dataSize : h.dataSize < 256 ^ 8
  blockSize : h.blockSize < 256 ^ 4
  numBlocks : h.numBlocks < 256 ^ 4

@[simp] theorem length_toBytes (h : CompressedBlobHeader) : h.toBytes.length = 32 := by
  simp only [toBytes, List.length_append, length_toLE]

theorem ofBytes_toBytes {h : CompressedBlobHeader} (hf : h.Fits) (s : List Byte) :
    ofBytes (h.toBytes ++ s) = h := by
  have h₁ := fromLE_toLE_of_lt hf.magicCookie
  have h₂ := fromLE_toLE_of_lt hf.subType
  have h₃ := fromLE_toLE_of_lt hf.compressedDataSize
  have h₄ := fromLE_toLE_of_lt hf.dataSize
  have h₅ := fromLE_toLE_of_lt hf.blockSize
  have h₆ := fromLE_toLE_of_lt hf.numBlocks
  cases h
  simp only [ofBytes, toBytes, toLE, List.cons_append, List.nil_append, List.drop_succ_cons,
    List.take_succ_cons, List.take_zero, List.drop_zero]
  simp only [toLE] at h₁ h₂ h₃ h₄ h₅ h₆
  rw [h₁, h₂, h₃, h₄, h₅, h₆]

end CompressedBlobHeader

/-! ## the blocks that are written -/

section Blocks

variable (codec : Codec) (infile : List Byte) (blockSize : Nat)

/-- What is written of a block. -/
def written (i : Nat) : List Byte := (compressBlock codec blockSize (inBlock infile blockSize i)).2

/-- Whether a block is stored. -/
def stored (i : Nat) : Bool := (compressBlock codec blockSize (inBlock infile blockSize i)).1

/-- Where a block is written, from the first block on. -/
def positionOf : Nat → Nat
  | 0 => 0
  | i + 1 => positionOf i + (written codec infile blockSize i).length

/-- The mark of a stored block. -/
def flagOf (i : Nat) : Nat := if stored codec infile blockSize i then 2 ^ 63 else 0

theorem flagOf_eq (i : Nat) :
    flagOf codec infile blockSize i = 0 ∨ flagOf codec infile blockSize i = 2 ^ 63 := by
  rw [flagOf]
  split
  · exact Or.inr rfl
  · exact Or.inl rfl

/-- The block and its entries of the tables. -/
def blobBlock (i : Nat) : BlobBlock where
  pointer := if stored codec infile blockSize i then setTopBit (positionOf codec infile blockSize i)
    else positionOf codec infile blockSize i
  hash := (hashAdler32 (written codec infile blockSize i)).toNat
  data := written codec infile blockSize i

variable {codec infile blockSize}

variable (codec infile blockSize) in
theorem compressBlocks_eq (monitor : Nat) : (cnt i : Nat) →
    compressBlocks codec (fun _ => true) monitor infile blockSize cnt i
      (positionOf codec infile blockSize i) =
      some ((List.range' i cnt).map (blobBlock codec infile blockSize),
        positionOf codec infile blockSize (i + cnt))
  | 0, i => rfl
  | cnt + 1, i => by
    rw [compressBlocks, if_neg (by simp)]
    have ih := compressBlocks_eq monitor cnt (i + 1)
    rw [positionOf] at ih
    dsimp only
    rw [← written, ih, Option.map_some, List.range'_succ, List.map_cons, Nat.add_right_comm]
    rfl

variable (infile blockSize) in
theorem length_inBlock (i : Nat) : (inBlock infile blockSize i).length = blockSize := by
  rw [inBlock, List.length_append, List.length_replicate, List.length_take]
  omega

theorem compressBlock_cases (hlaw : codec.Lawful) (blockSize : Nat) (inBuf : List Byte) :
    compressBlock codec blockSize inBuf = (true, inBuf) ∨
      ∃ out, compressBlock codec blockSize inBuf = (false, out) ∧
        codec.deflate inBuf blockSize = some out ∧ 0 < out.length ∧ out.length ≤ blockSize := by
  rw [compressBlock]
  split
  · exact Or.inl rfl
  next out hout =>
    split
    · exact Or.inl rfl
    · have hlen := hlaw.length_deflate _ _ _ hout
      exact Or.inr ⟨out, rfl, hout, hlen.1, hlen.2⟩

theorem length_written (hlaw : codec.Lawful) (hb : 0 < blockSize) (infile : List Byte) (i : Nat) :
    0 < (written codec infile blockSize i).length ∧
      (written codec infile blockSize i).length ≤ blockSize := by
  rw [written]
  rcases compressBlock_cases hlaw blockSize (inBlock infile blockSize i) with
    h | ⟨out, h, _, hpos, hle⟩
  · rw [h]
    rw [length_inBlock]
    exact ⟨hb, Nat.le_refl _⟩
  · rw [h]
    exact ⟨hpos, hle⟩

theorem length_written_of_stored (hlaw : codec.Lawful) {i : Nat}
    (h : stored codec infile blockSize i = true) :
    (written codec infile blockSize i).length = blockSize := by
  rw [stored] at h
  rw [written]
  rcases compressBlock_cases hlaw blockSize (inBlock infile blockSize i) with hc | ⟨out, hc, _⟩
  · rw [hc]
    exact length_inBlock infile blockSize i
  · rw [hc] at h
    cases h

theorem positionOf_le (hlaw : codec.Lawful) (hb : 0 < blockSize) (infile : List Byte) : (i : Nat) →
    positionOf codec infile blockSize i ≤ i * blockSize
  | 0 => Nat.zero_le _
  | i + 1 => by
    have hlen := (length_written hlaw hb infile i).2
    have ih := positionOf_le hlaw hb infile i
    rw [positionOf, Nat.succ_mul]
    omega

theorem length_flatMap_written : (n : Nat) →
    ((List.range n).flatMap (written codec infile blockSize)).length = positionOf codec infile blockSize n
  | 0 => rfl
  | n + 1 => by
    rw [List.range_succ, List.flatMap_append, List.length_append, length_flatMap_written n,
      List.flatMap_singleton, positionOf]

theorem take_drop_written {n i : Nat} (hi : i < n) :
    (((List.range n).flatMap (written codec infile blockSize)).drop
      (positionOf codec infile blockSize i)).take (written codec infile blockSize i).length =
      written codec infile blockSize i := by
  obtain ⟨m, rfl⟩ := Nat.exists_eq_add_of_lt hi
  have hsplit : List.range (i + m + 1) = List.range i ++ (i :: (List.range' (i + 1) m)) := by
    have h := List.range'_append_1 (s := 0) (m := i) (n := m + 1)
    rw [Nat.zero_add] at h
    rw [List.range_eq_range', List.range_eq_range', ← List.range'_succ, Nat.add_assoc, ← h]
  rw [hsplit, List.flatMap_append, List.flatMap_cons, ← length_flatMap_written i, List.drop_left,
    List.take_left]

end Blocks

/-! ## the blob -/

section Blob

variable (codec : Codec) (infile : List Byte) (blockSize : Nat)

/-- The number of the blocks of a file, before it is cut to a `u32`. -/
def fileBlocks : Nat := (infile.length + (blockSize - 1)) / blockSize

/-- The header of the blob. -/
def blobHeader (n : Nat) : CompressedBlobHeader where
  magicCookie := GCZ_MAGIC
  subType := 0
  compressedDataSize := positionOf codec infile blockSize n
  dataSize := infile.length
  blockSize := blockSize
  numBlocks := n

/-- The blob of a file of `n` blocks. -/
def blob (n : Nat) : List Byte :=
  blobBytes (blobHeader codec infile blockSize n)
    ((List.range n).map (blobBlock codec infile blockSize))

/-- The reader of the blob. -/
def blobReader (n : Nat) : CompressedBlobReader where
  header := blobHeader codec infile blockSize n
  blockPointers := (List.range n).map fun i => (blobBlock codec infile blockSize i).pointer
  hashes := (List.range n).map fun i => (blobBlock codec infile blockSize i).hash
  dataOffset := intToU64 (32 + 8 * n + 4 * n)
  file := blob codec infile blockSize n

variable {codec infile blockSize} {n : Nat}

theorem blob_eq : blob codec infile blockSize n = (blobHeader codec infile blockSize n).toBytes ++
    (((List.range n).flatMap fun i => toLE 8 (blobBlock codec infile blockSize i).pointer) ++
      (((List.range n).flatMap fun i => toLE 4 (blobBlock codec infile blockSize i).hash) ++
        (List.range n).flatMap (written codec infile blockSize))) := by
  rw [blob, blobBytes, List.flatMap_map, List.flatMap_map, List.flatMap_map]
  rfl

variable (codec infile blockSize n) in
theorem length_blob : (blob codec infile blockSize n).length =
    32 + 12 * n + positionOf codec infile blockSize n := by
  rw [blob_eq, List.length_append, List.length_append, List.length_append,
    CompressedBlobHeader.length_toBytes, length_flatMap_of_length fun _ => length_toLE 8 _,
    length_flatMap_of_length fun _ => length_toLE 4 _, length_flatMap_written, List.length_range]
  omega

/-- The sizes a blob has. -/
structure BlobSizes (codec : Codec) (infile : List Byte) (blockSize n : Nat) : Prop where
  infile_lt : infile.length < 2 ^ 63
  blockSize_pos : 0 < blockSize
  blockSize_lt : blockSize < 2 ^ 31
  numBlocks_lt : n < 2 ^ 32
  blob_lt : (blob codec infile blockSize n).length < 2 ^ 63

variable (codec infile blockSize) in
theorem position_mono {i : Nat} (hi : i ≤ n) :
    positionOf codec infile blockSize i ≤ positionOf codec infile blockSize n := by
  induction hi with
  | refl => exact Nat.le_refl _
  | step _ ih => exact Nat.le_trans ih (Nat.le_add_right _ _)

theorem BlobSizes.position_lt (hs : BlobSizes codec infile blockSize n) {i : Nat} (hi : i ≤ n) :
    positionOf codec infile blockSize i < 2 ^ 63 := by
  have hmono := position_mono codec infile blockSize hi
  have hlt := hs.blob_lt
  rw [length_blob] at hlt
  omega

theorem BlobSizes.fits (hs : BlobSizes codec infile blockSize n) :
    (blobHeader codec infile blockSize n).Fits := by
  have hpos := hs.position_lt (Nat.le_refl n)
  have hlen := hs.infile_lt
  have hb := hs.blockSize_lt
  have hn := hs.numBlocks_lt
  have hmagic : GCZ_MAGIC < 256 ^ 4 := by decide
  constructor <;> rw [blobHeader]
  all_goals dsimp only
  all_goals omega

theorem ofBytes_blob (hs : BlobSizes codec infile blockSize n) :
    CompressedBlobHeader.ofBytes (blob codec infile blockSize n) = blobHeader codec infile blockSize n := by
  exact CompressedBlobHeader.ofBytes_toBytes hs.fits _

variable (codec infile blockSize n) in
theorem drop_pointers : (blob codec infile blockSize n).drop 32 =
    ((List.range n).flatMap fun i => toLE 8 (blobBlock codec infile blockSize i).pointer) ++
      (((List.range n).flatMap fun i => toLE 4 (blobBlock codec infile blockSize i).hash) ++
        (List.range n).flatMap (written codec infile blockSize)) := by
  rw [blob_eq]
  exact List.drop_left' (CompressedBlobHeader.length_toBytes _)

variable (codec infile blockSize n) in
theorem drop_hashes : (blob codec infile blockSize n).drop (32 + 8 * n) =
    ((List.range n).flatMap fun i => toLE 4 (blobBlock codec infile blockSize i).hash) ++
      (List.range n).flatMap (written codec infile blockSize) := by
  rw [← List.drop_drop, drop_pointers codec]
  apply List.drop_left'
  rw [length_flatMap_of_length fun _ => length_toLE 8 _, List.length_range]

theorem drop_data : (blob codec infile blockSize n).drop (32 + 12 * n) =
    (List.range n).flatMap (written codec infile blockSize) := by
  rw [show 32 + 12 * n = 32 + 8 * n + 4 * n by omega, ← List.drop_drop, drop_hashes]
  apply List.drop_left'
  rw [length_flatMap_of_length fun _ => length_toLE 4 _, List.length_range]

theorem readTable_eq {f : Nat → Nat} {file rest : List Byte} {start size : Nat}
    (hfile : file.drop start = ((List.range n).flatMap fun i => toLE size (f i)) ++ rest)
    (hf : ∀ i < n, f i < 256 ^ size) : readTable file start size n = (List.range n).map f := by
  apply List.map_congr_left
  intro i hi
  rw [List.mem_range] at hi
  have hi' : i < (List.range n).length := by rwa [List.length_range]
  rw [hfile, take_drop_flatMap (fun _ => length_toLE size _) (List.range n) i hi' rest,
    List.getElem_range, fromLE_toLE_of_lt (hf i hi)]

theorem pointer_lt (hs : BlobSizes codec infile blockSize n) {i : Nat} (hi : i ≤ n) :
    (blobBlock codec infile blockSize i).pointer < 256 ^ 8 := by
  have hpos := hs.position_lt hi
  rw [blobBlock]
  dsimp only
  split
  · rw [setTopBit]
    omega
  · omega

theorem hash_lt (i : Nat) : (blobBlock codec infile blockSize i).hash < 256 ^ 4 :=
  (hashAdler32 (written codec infile blockSize i)).isLt

theorem create_blob (hs : BlobSizes codec infile blockSize n) :
    create (blob codec infile blockSize n) = some (blobReader codec infile blockSize n) := by
  have hlen := length_blob codec infile blockSize n
  have hgcz : isGCZBlob (blob codec infile blockSize n) = true := by
    rw [isGCZBlob, ofBytes_blob hs, Bool.and_eq_true, decide_eq_true_eq]
    exact ⟨by omega, by rw [blobHeader]; exact decide_eq_true rfl⟩
  have hpointers := readTable_eq (drop_pointers codec infile blockSize n)
    fun i hi => pointer_lt hs (Nat.le_of_lt hi)
  have hhashes := readTable_eq (drop_hashes codec infile blockSize n) fun i _ => hash_lt i
  rw [create, if_pos hgcz, ofBytes_blob hs]
  rw [if_pos (by rw [blobHeader, hlen]; exact Nat.le_add_right _ _)]
  rw [blobReader, ← hpointers, ← hhashes]
  rfl

/-! ## the blocks of the reader -/

theorem pointer_eq (hs : BlobSizes codec infile blockSize n) {i : Nat} (hi : i ≤ n) :
    (blobBlock codec infile blockSize i).pointer = positionOf codec infile blockSize i +
      flagOf codec infile blockSize i := by
  have hpos := hs.position_lt hi
  rw [blobBlock, flagOf]
  split
  · rw [setTopBit, Nat.mod_eq_of_lt hpos]
  · rfl

theorem getD_map_range (f : Nat → Nat) {i : Nat} (hi : i < n) :
    ((List.range n).map f).getD i 0 = f i := by
  rw [List.getD_eq_getElem?_getD, List.getElem?_map, List.getElem?_range hi]
  rfl

theorem getD_pointers {i : Nat} (hi : i < n) :
    (blobReader codec infile blockSize n).blockPointers.getD i 0 =
      (blobBlock codec infile blockSize i).pointer :=
  getD_map_range (fun i => (blobBlock codec infile blockSize i).pointer) hi

theorem getD_hashes {i : Nat} (hi : i < n) : (blobReader codec infile blockSize n).hashes.getD i 0 =
      (blobBlock codec infile blockSize i).hash :=
  getD_map_range (fun i => (blobBlock codec infile blockSize i).hash) hi

theorem u32_u64Sub {p len : Nat} (f f' : Nat) (hlen : len < 2 ^ 32)
    (hf : f = 0 ∨ f = 2 ^ 63) (hf' : f' = 0 ∨ f' = 2 ^ 63) :
    u32 (u64Sub (p + len + f') (p + f)) = len := by
  rw [u32, u64Sub, u64]
  omega

theorem compressedSize_eq (hlaw : codec.Lawful) (hs : BlobSizes codec infile blockSize n) {i : Nat}
    (hi : i < n) : u32 ((blobReader codec infile blockSize n).getBlockCompressedSize i) =
      (written codec infile blockSize i).length := by
  have hlen := (length_written hlaw hs.blockSize_pos infile i).2
  have hb := hs.blockSize_lt
  rw [getBlockCompressedSize, getD_pointers hi, pointer_eq hs (Nat.le_of_lt hi)]
  by_cases hnext : i < n - 1
  · rw [getD_pointers (by omega : i + 1 < n), pointer_eq hs (by omega), positionOf, blobReader,
      if_pos (by rw [blobHeader]; exact hnext)]
    exact u32_u64Sub _ _ (by omega) (flagOf_eq codec infile blockSize i)
      (flagOf_eq codec infile blockSize (i + 1))
  · have hlast : n = i + 1 := by omega
    rw [blobReader, if_neg (by rw [blobHeader]; exact hnext), blobHeader, hlast, positionOf]
    exact u32_u64Sub _ 0 (by omega) (flagOf_eq codec infile blockSize i) (Or.inl rfl)

theorem topBit_add {p : Nat} (hp : p < 2 ^ 63) (i : Nat) :
    topBit (p + flagOf codec infile blockSize i) = stored codec infile blockSize i := by
  rw [topBit, flagOf]
  cases stored codec infile blockSize i with
  | true => exact decide_eq_true (by rw [if_pos rfl]; omega)
  | false => exact decide_eq_false (by rw [if_neg Bool.false_ne_true]; omega)

theorem clearTopBit_add {p : Nat} (hp : p < 2 ^ 63) (i : Nat) :
    clearTopBit (p + flagOf codec infile blockSize i) = p := by
  rw [clearTopBit]
  rcases flagOf_eq codec infile blockSize i with h | h <;>
    rw [h] <;> omega

theorem decodeBlock_written (hlaw : codec.Lawful) (infile : List Byte) (blockSize n i : Nat) :
    decodeBlock codec (blobReader codec infile blockSize n) (stored codec infile blockSize i)
      (written codec infile blockSize i) = ([], some (inBlock infile blockSize i)) := by
  have hlen := length_inBlock infile blockSize i
  rw [stored, written]
  rcases compressBlock_cases hlaw blockSize (inBlock infile blockSize i) with
    h | ⟨out, h, hdeflate, hpos, hle⟩
  · rw [h]
    rfl
  · have hinflate := hlaw.inflate_deflate _ _ _ hdeflate
    have hsize : (blobReader codec infile blockSize n).header.blockSize = blockSize := rfl
    rw [hlen] at hinflate
    rw [h, decodeBlock, if_neg Bool.false_ne_true, hsize, hinflate]
    dsimp only
    rw [if_neg (Nat.not_lt.mpr hle), if_pos rfl, if_pos hlen]
    rfl

theorem getBlock_blobReader (hlaw : codec.Lawful) (hs : BlobSizes codec infile blockSize n)
    (hoffset : 32 + 12 * n < 2 ^ 31) {i : Nat} (hi : i < n) :
    (blobReader codec infile blockSize n).getBlock codec i = ([], some (inBlock infile blockSize i)) := by
  have hlen := (length_written hlaw hs.blockSize_pos infile i).2
  have hb := hs.blockSize_lt
  have hblob := hs.blob_lt
  have hflag := flagOf_eq codec infile blockSize i
  have hmono := position_mono codec infile blockSize (Nat.le_of_lt hi)
  rw [length_blob] at hblob
  have hsum : positionOf codec infile blockSize i + (32 + 12 * n) < 2 ^ 63 := by omega
  have hoff : u64 ((blobReader codec infile blockSize n).blockPointers.getD i 0 +
      (blobReader codec infile blockSize n).dataOffset) =
        positionOf codec infile blockSize i + (32 + 12 * n) + flagOf codec infile blockSize i := by
    have hint : intToU64 (32 + 8 * n + 4 * n) = 32 + 12 * n := by
      rw [intToU64, u32_eq (by omega), if_pos (by omega)]
      omega
    rw [getD_pointers hi, pointer_eq hs (Nat.le_of_lt hi), blobReader]
    dsimp only
    rw [hint, u64_eq (by omega)]
    omega
  have hbuf : ((blobReader codec infile blockSize n).file.drop
      (positionOf codec infile blockSize i + (32 + 12 * n))).take
        (written codec infile blockSize i).length = written codec infile blockSize i := by
    rw [blobReader, Nat.add_comm, ← List.drop_drop, drop_data, take_drop_written hi]
  have hdecode := decodeBlock_written hlaw infile blockSize n i
  rw [getBlock, if_neg (by rw [blobReader, List.length_map, List.length_range]; omega),
    compressedSize_eq hlaw hs hi, hoff]
  dsimp only
  have hsize : (blobReader codec infile blockSize n).header.blockSize = blockSize := rfl
  have hhash : (hashAdler32 (written codec infile blockSize i)).toNat =
      (blobBlock codec infile blockSize i).hash := rfl
  have hright : ¬ (stored codec infile blockSize i = true ∧
      (written codec infile blockSize i).length ≠ blockSize) :=
    fun h => h.2 (length_written_of_stored hlaw h.1)
  rw [topBit_add hsum, clearTopBit_add hsum, hbuf, hdecode, getD_hashes hi, hsize, hhash,
    if_neg hright, if_neg (by rw [u32_eq (by omega)]; omega), if_neg (Nat.lt_irrefl _),
    if_neg (fun h => h rfl)]
  rfl

theorem getBlock_of_le {i : Nat} (hi : n ≤ i) :
    ((blobReader codec infile blockSize n).getBlock codec i).2 = none := by
  rw [getBlock, if_pos (by rw [blobReader, List.length_map, List.length_range]; exact hi)]

theorem getBlock_zero (hlaw : codec.Lawful) (hs : BlobSizes codec infile blockSize n)
    (hoffset : 2 ^ 31 ≤ 32 + 12 * n) (hoffset' : 32 + 12 * n < 2 ^ 32) :
    ((blobReader codec infile blockSize n).getBlock codec 0).2 = none := by
  have hlen := (length_written hlaw hs.blockSize_pos infile 0)
  have hb := hs.blockSize_lt
  have hflag := flagOf_eq codec infile blockSize 0
  have hle := positionOf_le hlaw hs.blockSize_pos infile n
  have hmul : n * blockSize ≤ 2 ^ 29 * 2 ^ 31 := Nat.mul_le_mul (by omega) (Nat.le_of_lt hb)
  have hoff : clearTopBit (u64 ((blobReader codec infile blockSize n).blockPointers.getD 0 0 +
      (blobReader codec infile blockSize n).dataOffset)) = 32 + 12 * n + (2 ^ 63 - 2 ^ 32) := by
    have hint : intToU64 (32 + 8 * n + 4 * n) = 32 + 12 * n + (2 ^ 64 - 2 ^ 32) := by
      rw [intToU64, u32_eq (by omega), if_neg (by omega)]
      omega
    rw [getD_pointers (by omega : 0 < n), pointer_eq hs (Nat.zero_le n), blobReader, positionOf]
    dsimp only
    rw [hint, clearTopBit, u64]
    omega
  have hfile : (blobReader codec infile blockSize n).file.drop (32 + 12 * n + (2 ^ 63 - 2 ^ 32)) = [] := by
    apply List.drop_eq_nil_of_le
    have hblob := length_blob codec infile blockSize n
    rw [blobReader]
    dsimp only
    omega
  have hsize : (blobReader codec infile blockSize n).header.blockSize = blockSize := rfl
  rw [getBlock, if_neg (by rw [blobReader, List.length_map, List.length_range]; omega),
    compressedSize_eq hlaw hs (by omega)]
  dsimp only
  rw [hoff, hfile, hsize, if_neg (by rw [u32_eq (by omega)]; omega),
    if_pos (by rw [List.take_nil]; exact hlen.1)]

end Blob

end DolphinCore.DiscIO
