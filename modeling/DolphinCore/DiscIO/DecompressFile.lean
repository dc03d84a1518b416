import DolphinCore.DiscIO.CompressRoundTrip

/-!
# DolphinCore.DiscIO.DecompressFile

The reader of a blob as a source of blocks: `Read` gives the bytes of the file that was
compressed, and `DecompressBlobToFile` writes them, up to its last buffer.  The size of that
buffer is taken from the number of blocks modulo 32, so it is empty where it should be full.
-/

namespace DolphinCore.DiscIO

open Endian CompressedBlobReader SectorReader

variable {n : Nat}

section Source

variable {codec : Codec} {infile : List Byte} {blockSize : Nat}

theorem fileBlocks_eq (hb : 0 < blockSize) :
    fileBlocks infile blockSize = blockCount infile.length blockSize := by
  rw [fileBlocks, blockCount, Nat.add_sub_assoc hb]

theorem length_le_fileBlocks_mul (infile : List Byte) (hb : 0 < blockSize) :
    infile.length ≤ fileBlocks infile blockSize * blockSize := by
  have h := Nat.lt_div_mul_add hb (a := infile.length + (blockSize - 1))
  rw [fileBlocks]
  omega

theorem mul_lt_length (hb : 0 < blockSize) (hn : n < fileBlocks infile blockSize) :
    n * blockSize < infile.length := by
  have h := Nat.div_mul_le_self (infile.length + (blockSize - 1)) blockSize
  have hmul := Nat.mul_le_mul_right blockSize (Nat.succ_le_of_lt hn)
  rw [Nat.succ_mul, fileBlocks] at hmul
  omega

theorem dev_getBlock {n i : Nat} (hlaw : codec.Lawful) (hs : BlobSizes codec infile blockSize n)
    (hoffset : 32 + 12 * n < 2 ^ 31) (hi : i < n) :
    ((blobReader codec infile blockSize n).dev codec).getBlock i = some (inBlock infile blockSize i) :=
  congrArg Prod.snd (getBlock_blobReader hlaw hs hoffset hi)

theorem dev_getBlock_of_le {n i : Nat} (hi : n ≤ i) :
    ((blobReader codec infile blockSize n).dev codec).getBlock i = none :=
  getBlock_of_le hi

variable (hlaw : codec.Lawful)
  (hs : BlobSizes codec infile blockSize (fileBlocks infile blockSize))
  (hoffset : 32 + 12 * fileBlocks infile blockSize < 2 ^ 31)

/-- The reader of a blob keeps the promises of a source of blocks. -/
def gczSource : BlockSource blockSize where
  toBlockDevice := (blobReader codec infile blockSize (fileBlocks infile blockSize)).dev codec
  dataSize_lt := hs.infile_lt
  length_getBlock n b h := by
    rcases Nat.lt_or_ge n (fileBlocks infile blockSize) with hn | hn
    · rw [dev_getBlock hlaw hs hoffset hn] at h
      cases h
      exact length_inBlock infile blockSize n
    · rw [dev_getBlock_of_le hn] at h
      cases h
  isSome_getBlock n hn := by
    have hn' : n < fileBlocks infile blockSize := by
      rw [fileBlocks_eq hs.blockSize_pos]
      exact hn
    rw [dev_getBlock hlaw hs hoffset hn']
    rfl

theorem gczSource_endBlock : (gczSource hlaw hs hoffset).endBlock = fileBlocks infile blockSize :=
  (fileBlocks_eq hs.blockSize_pos).symm

theorem gczSource_bytes : (n : Nat) → n ≤ fileBlocks infile blockSize →
    (gczSource hlaw hs hoffset).bytes 0 n =
      infile.take (n * blockSize) ++ List.replicate (n * blockSize - infile.length) 0
  | 0, _ => by simp
  | n + 1, hn => by
    have hlt := mul_lt_length hs.blockSize_pos hn
    have hblock : (((gczSource hlaw hs hoffset).getBlock n).getD []) = inBlock infile blockSize n := by
      rw [gczSource, dev_getBlock hlaw hs hoffset hn]
      rfl
    rw [BlockSource.bytes_add, gczSource_bytes n (Nat.le_of_succ_le hn), Nat.zero_add,
      BlockSource.bytes_succ, BlockSource.bytes_zero, List.append_nil, hblock, inBlock,
      Nat.sub_eq_zero_of_le (Nat.le_of_lt hlt), List.replicate_zero, List.append_nil,
      ← List.append_assoc, ← List.take_add, List.length_take, List.length_drop, Nat.succ_mul]
    congr 2
    omega

theorem gczSource_allBytes : (gczSource hlaw hs hoffset).allBytes =
    infile ++ List.replicate (fileBlocks infile blockSize * blockSize - infile.length) 0 := by
  rw [BlockSource.allBytes, gczSource_endBlock, gczSource_bytes hlaw hs hoffset _ (Nat.le_refl _),
    List.take_of_length_le (length_le_fileBlocks_mul infile hs.blockSize_pos)]

theorem take_drop_allBytes {offset size : Nat} (h : offset + size ≤ infile.length) :
    ((gczSource hlaw hs hoffset).allBytes.drop offset).take size = (infile.drop offset).take size := by
  rw [gczSource_allBytes, List.drop_append_of_le_length (by omega),
    List.take_append_of_le_length (by rw [List.length_drop]; omega)]

theorem gczSource_sizes (hlen : 0 < infile.length) : Sizes (gczSource hlaw hs hoffset) 1 :=
  ⟨hlen, hs.blockSize_pos, hs.blockSize_lt, Nat.one_pos, by omega⟩

theorem toNat_toInt_ofNat (h : n < 2 ^ 31) : (max (BitVec.ofNat 32 n).toInt 0).toNat = n := by
  have htoNat : (BitVec.ofNat 32 n).toNat = n := by
    rw [BitVec.toNat_ofNat]
    omega
  rw [BitVec.toInt_eq_toNat_of_lt (by omega), htoNat]
  omega

theorem sectors_ok : ReaderOk (gczSource hlaw hs hoffset) 1
    (blobReader codec infile blockSize (fileBlocks infile blockSize)).sectors := by
  have hsize := toNat_toInt_ofNat hs.blockSize_lt
  refine ⟨hsize, rfl, fun i => ⟨?_, fun h => absurd h (Nat.lt_irrefl 0)⟩,
    fun _ h => absurd h List.not_mem_nil⟩
  rw [sectors, setSectorSize]
  rw [length_resize]
  exact congrArg (lineSize · 1) hsize

/-! ## reading -/

theorem readAll_gczSource (hlen : 0 < infile.length) : (calls : List (BitVec 64 × BitVec 64)) →
    (r : SectorReader) → ReaderOk (gczSource hlaw hs hoffset) 1 r →
    (∀ call ∈ calls, call.1.toNat + call.2.toNat ≤ infile.length) →
    ∃ r', readAll (gczSource hlaw hs hoffset).toBlockDevice calls r =
      some (calls.map fun call => (true, (infile.drop call.1.toNat).take call.2.toNat), r')
  | [], r, _, _ => ⟨r, rfl⟩
  | (offset, size) :: calls, r, hr, h => by
    have hin := h _ (List.mem_cons_self ..)
    have hle : offset.toNat + size.toNat ≤ (gczSource hlaw hs hoffset).endBlock * blockSize := by
      rw [gczSource_endBlock]
      exact Nat.le_trans hin (length_le_fileBlocks_mul infile hs.blockSize_pos)
    obtain ⟨r₁, hr₁, hread⟩ := read_eq (gczSource_sizes hlaw hs hoffset hlen) hr hle
    obtain ⟨r', hrest⟩ := readAll_gczSource hlen calls r₁ hr₁
      fun call hcall => h call (List.mem_cons_of_mem _ hcall)
    refine ⟨r', ?_⟩
    rw [readAll, hread]
    dsimp only
    rw [hrest, take_drop_allBytes hlaw hs hoffset hin]
    rfl

/-! ## decompressing -/

/-- The loop writes the full buffers and the last one. -/
theorem decompressBuffers_eq {src : BlockSource blockSize} (hsizes : Sizes src 1)
    (monitor : Nat) {bufferSize last numBuffers : Nat} (hlast : last ≤ bufferSize)
    (hend : (numBuffers - 1) * bufferSize + last ≤ src.endBlock * blockSize) :
    (cnt i : Nat) → i + cnt + 1 = numBuffers → (r : SectorReader) → ReaderOk src 1 r →
    (buffer : List Byte) → buffer.length = bufferSize →
    decompressBuffers src.toBlockDevice (fun _ => true) monitor bufferSize last numBuffers (cnt + 1) i
        r buffer (src.allBytes.take (i * bufferSize)) =
      some (src.allBytes.take ((numBuffers - 1) * bufferSize + last))
  | cnt, i, hi, r, hr, buffer, hbuffer => by
    have hlt := src.endBlock_mul_lt hsizes.blockSize_pos hsizes.blockSize_lt
    have hall := src.length_allBytes
    obtain ⟨sz, hsz⟩ : ∃ sz, sz = if i = numBuffers - 1 then last else bufferSize := ⟨_, rfl⟩
    have hle : sz ≤ bufferSize ∧ i * bufferSize + sz ≤ (numBuffers - 1) * bufferSize + last := by
      rw [hsz]
      split
      next heq => exact ⟨hlast, by rw [heq]⟩
      next hne =>
        have hmul := Nat.mul_le_mul_right bufferSize (by omega : i + 1 ≤ numBuffers - 1)
        rw [Nat.succ_mul] at hmul
        exact ⟨Nat.le_refl _, by omega⟩
    have hoff : (BitVec.ofNat 64 (i * bufferSize)).toNat = i * bufferSize := by
      rw [BitVec.toNat_ofNat]
      omega
    have hsize : (BitVec.ofNat 64 sz).toNat = sz := by
      rw [BitVec.toNat_ofNat]
      omega
    have hin : (BitVec.ofNat 64 (i * bufferSize)).toNat + (BitVec.ofNat 64 sz).toNat ≤
        src.endBlock * blockSize := by
      omega
    obtain ⟨r', hr', hread⟩ := read_eq hsizes hr hin
    have hbytes : ((src.allBytes.drop (i * bufferSize)).take sz).length = sz := by
      rw [List.length_take, List.length_drop]
      omega
    have hout : src.allBytes.take (i * bufferSize) ++
        ((src.allBytes.drop (i * bufferSize)).take sz ++ buffer.drop sz).take sz =
          src.allBytes.take (i * bufferSize + sz) := by
      rw [List.take_left' hbytes, ← List.take_add]
    rw [decompressBuffers, if_neg (by simp)]
    dsimp only
    rw [← hsz, hread, Option.bind_some, hoff, hsize]
    rw [hbytes, hout]
    cases cnt with
    | zero =>
      have heq : i = numBuffers - 1 := by omega
      rw [decompressBuffers, hsz, if_pos heq, heq]
    | succ cnt =>
      rw [hsz, if_neg (by omega), ← Nat.succ_mul]
      refine decompressBuffers_eq hsizes monitor hlast hend cnt (i + 1) (by omega) r' hr' _ ?_
      rw [List.length_append, List.length_drop, List.length_take, List.length_drop]
      rw [if_neg (by omega)] at hsz
      omega

/-- How many bytes `DecompressBlobToFile` writes before it sets the size of the file. -/
def writtenSize (n blockSize : Nat) : Nat :=
  ((n + BUFFER_BLOCKS - 1) / BUFFER_BLOCKS - 1) * (blockSize * BUFFER_BLOCKS) +
    blockSize * (n % BUFFER_BLOCKS)

theorem writtenSize_of_mod_ne_zero (h : n % BUFFER_BLOCKS ≠ 0) :
    writtenSize n blockSize = n * blockSize := by
  have hdiv : (n + BUFFER_BLOCKS - 1) / BUFFER_BLOCKS - 1 = n / BUFFER_BLOCKS := by
    rw [BUFFER_BLOCKS] at *
    omega
  rw [writtenSize, hdiv, Nat.mul_comm blockSize BUFFER_BLOCKS, ← Nat.mul_assoc,
    Nat.mul_comm blockSize, ← Nat.add_mul, Nat.div_add_mod']

theorem writtenSize_of_mod_eq_zero (hn : 0 < n) (h : n % BUFFER_BLOCKS = 0) :
    writtenSize n blockSize = (n - BUFFER_BLOCKS) * blockSize := by
  have hdiv : ((n + BUFFER_BLOCKS - 1) / BUFFER_BLOCKS - 1) * BUFFER_BLOCKS = n - BUFFER_BLOCKS := by
    rw [BUFFER_BLOCKS] at *
    omega
  rw [writtenSize, h, Nat.mul_zero, Nat.add_zero, Nat.mul_comm blockSize BUFFER_BLOCKS,
    ← Nat.mul_assoc, hdiv]

theorem writtenSize_le (hn : 0 < n) : writtenSize n blockSize ≤ n * blockSize := by
  by_cases h : n % BUFFER_BLOCKS = 0
  · rw [writtenSize_of_mod_eq_zero hn h]
    exact Nat.mul_le_mul_right _ (Nat.sub_le _ _)
  · exact Nat.le_of_eq (writtenSize_of_mod_ne_zero h)

theorem decompressBlobToFile_eq (hlen : 0 < infile.length) :
    decompressBlobToFile codec (fun _ => true)
        (blob codec infile blockSize (fileBlocks infile blockSize)) =
      some (resize ((gczSource hlaw hs hoffset).allBytes.take
        (writtenSize (fileBlocks infile blockSize) blockSize)) infile.length) := by
  have hb := hs.blockSize_pos
  have hn : 0 < fileBlocks infile blockSize := by
    by_contra h
    have hle := length_le_fileBlocks_mul infile hb
    rw [Nat.eq_zero_of_not_pos h, Nat.zero_mul] at hle
    omega
  have hsize : (blobReader codec infile blockSize (fileBlocks infile blockSize)).header.blockSize =
      blockSize := rfl
  have hblocks : (blobReader codec infile blockSize (fileBlocks infile blockSize)).header.numBlocks =
      fileBlocks infile blockSize := rfl
  have hdata : (blobReader codec infile blockSize (fileBlocks infile blockSize)).header.dataSize =
      infile.length := rfl
  have hbuffers : u32 ((fileBlocks infile blockSize + BUFFER_BLOCKS - 1) / BUFFER_BLOCKS) =
      (fileBlocks infile blockSize + BUFFER_BLOCKS - 1) / BUFFER_BLOCKS := by
    rw [BUFFER_BLOCKS]
    exact u32_eq (by omega)
  have hlast : blockSize * (fileBlocks infile blockSize % BUFFER_BLOCKS) ≤ blockSize * BUFFER_BLOCKS :=
    Nat.mul_le_mul_left _ (Nat.le_of_lt (Nat.mod_lt _ (by decide)))
  have hend : writtenSize (fileBlocks infile blockSize) blockSize ≤
      (gczSource hlaw hs hoffset).endBlock * blockSize := by
    rw [gczSource_endBlock]
    exact writtenSize_le hn
  obtain ⟨m, hm⟩ : ∃ m, (fileBlocks infile blockSize + BUFFER_BLOCKS - 1) / BUFFER_BLOCKS = m + 1 := by
    refine ⟨(fileBlocks infile blockSize - 1) / BUFFER_BLOCKS, ?_⟩
    rw [BUFFER_BLOCKS]
    omega
  have hloop := decompressBuffers_eq (gczSource_sizes hlaw hs hoffset hlen) (progressMonitor
    ((fileBlocks infile blockSize + BUFFER_BLOCKS - 1) / BUFFER_BLOCKS) 100) hlast hend m 0
    (by rw [hm, Nat.zero_add]) _ (sectors_ok hlaw hs hoffset)
    (List.replicate (blockSize * BUFFER_BLOCKS) 0) (List.length_replicate ..)
  rw [Nat.zero_mul, List.take_zero, ← hm] at hloop
  rw [decompressBlobToFile, create_blob hs, Option.bind_some]
  rw [hsize, hblocks, hdata, hbuffers]
  exact congrArg (Option.map _) hloop

theorem resize_take_eq_iff (zeros : List Byte) (t : Nat) :
    resize ((infile ++ zeros).take t) infile.length = infile ↔ ∀ b ∈ infile.drop t, b = 0 := by
  rcases Nat.le_total infile.length t with ht | ht
  · have hfull : resize ((infile ++ zeros).take t) infile.length = infile := by
      have hlen : infile.length ≤ ((infile ++ zeros).take t).length := by
        rw [List.length_take, List.length_append]
        omega
      rw [resize, Nat.sub_eq_zero_of_le hlen, List.replicate_zero, List.append_nil, List.take_take,
        Nat.min_eq_left ht, List.take_left]
    rw [List.drop_of_length_le ht]
    exact ⟨fun _ b hb => absurd hb List.not_mem_nil, fun _ => hfull⟩
  · have hcut : resize ((infile ++ zeros).take t) infile.length =
        infile.take t ++ List.replicate (infile.length - t) 0 := by
      rw [resize, List.take_append_of_le_length ht, List.take_take, Nat.min_eq_right ht,
        List.length_take, Nat.min_eq_left ht]
    have hsplit : infile.take t ++ List.replicate (infile.length - t) 0 = infile ↔
        infile.drop t = List.replicate (infile.length - t) 0 := by
      constructor
      · intro h
        have h' := congrArg (List.drop t) h
        rw [List.drop_left' (by rw [List.length_take, Nat.min_eq_left ht])] at h'
        exact h'.symm
      · intro h
        rw [← h, List.take_append_drop]
    rw [hcut, hsplit, List.eq_replicate_iff, List.length_drop]
    exact ⟨fun h => h.2, fun h => ⟨rfl, h⟩⟩

end Source

/-! ## a block that cannot be read -/

section Missing

variable {dev : BlockDevice} {r : SectorReader} {k : Nat}

/-- A reader of single blocks that has read nothing yet. -/
structure Fresh (r : SectorReader) : Prop where
  chunkBlocks_eq : r.chunkBlocks = 1
  numBlocks_eq : ∀ i, (r.cache i).numBlocks = 0

theorem findCacheLine_fresh (hr : Fresh r) (block : Nat) : r.findCacheLine block = none := by
  rw [findCacheLine, Option.map_eq_none_iff, List.find?_eq_none]
  intro i _ h
  rw [Cache.contains, hr.numBlocks_eq i, Bool.and_eq_true, decide_eq_true_eq, decide_eq_true_eq] at h
  exact Nat.not_lt_zero _ h.2

theorem readChunk_missing (hr : r.chunkBlocks = 1) (hk : k < dataEnd dev.getDataSize r.blockSize)
    (hend : dataEnd dev.getDataSize r.blockSize < 2 ^ 64) (hmiss : dev.getBlock k = none)
    (buffer : List Byte) : readChunk dev r buffer k = some (0, buffer, [k]) := by
  have hclamp : clampBlocks (dataEnd dev.getDataSize r.blockSize) k 1 = 1 := by
    rw [clampBlocks, if_neg (by omega), u64Sub_eq (Nat.le_of_lt hk) hend,
      Nat.min_eq_left (by omega)]
    exact u32_eq (by omega)
  rw [readChunk, hr, Nat.mul_one, u64_eq (by omega), readBlocks, hclamp, readMultipleAlignedBlocks,
    hmiss]
  exact if_neg (by omega)

theorem read_missing (hr : Fresh r) (hb : 0 < r.blockSize) {offset : BitVec 64}
    (hk : offset.toNat / r.blockSize = k) (hlt : k < dataEnd dev.getDataSize r.blockSize)
    (hend : dataEnd dev.getDataSize r.blockSize < 2 ^ 64) (hmiss : dev.getBlock k = none) :
    ∃ r', read dev r offset 1 = some (false, [], r') := by
  have hsize : r.getEmptyCacheLine.2.blockSize = r.blockSize := rfl
  have hchunk : r.getEmptyCacheLine.2.chunkBlocks = 1 := hr.chunkBlocks_eq
  have hread := readChunk_missing (r := r.getEmptyCacheLine.2) hchunk (by rwa [hsize])
    (by rwa [hsize]) hmiss
  have hline : ∃ r', getCacheLine dev r k = some (none, r') := by
    apply Exists.intro
    rw [getCacheLine, findCacheLine_fresh hr]
    rw [faultIn, hchunk, Nat.div_one, hread, Option.map_some]
    exact congrArg some (if_pos rfl)
  obtain ⟨r', hline⟩ := hline
  refine ⟨r', ?_⟩
  rw [SectorReader.read, if_neg (Nat.ne_of_gt hb), show (1 : BitVec 64).toNat = 1 from rfl, readLoop,
    if_neg Nat.one_ne_zero, hk]
  dsimp only
  rw [hline]

end Missing

/-! ## compressing and decompressing a file -/

/-- `CompressFileToBlob` followed by `DecompressBlobToFile` gives the file again, and so do calls
of `Read` on the blob. -/
def RoundTrips (codec : Codec) (infile : List Byte) (blockSize : BitVec 32) : Prop :=
  ∃ blob reader, compressFileToBlob codec (fun _ => true) infile blockSize = some blob ∧
    decompressBlobToFile codec (fun _ => true) blob = some infile ∧
    create blob = some reader ∧
    ∀ calls : List (BitVec 64 × BitVec 64),
      (∀ call ∈ calls, call.1.toNat + call.2.toNat ≤ infile.length) →
        ∃ r', readAll (reader.dev codec) calls reader.sectors =
          some (calls.map fun call => (true, (infile.drop call.1.toNat).take call.2.toNat), r')

/-- A file and a block size that are taken, with a table of blocks the reader can get behind, and
with nothing but zeros in the last 32 blocks where these are not written. -/
def Compressible (infile : List Byte) (blockSize : BitVec 32) : Prop :=
  (isGCZBlob infile = false ∧ 32 ≤ infile.length ∧ 0 < blockSize.toInt) ∧
    32 + 12 * fileBlocks infile blockSize.toNat < 2 ^ 31 ∧
    (fileBlocks infile blockSize.toNat % BUFFER_BLOCKS = 0 →
      ∀ b ∈ infile.drop ((fileBlocks infile blockSize.toNat - BUFFER_BLOCKS) * blockSize.toNat), b = 0)

theorem compressFileToBlob_eq {codec : Codec} {infile : List Byte} {blockSize : BitVec 32}
    (h : isGCZBlob infile = false ∧ 32 ≤ infile.length ∧ 0 < blockSize.toInt) :
    compressFileToBlob codec (fun _ => true) infile blockSize =
      if (blob codec infile blockSize.toNat (numBlocksOf infile.length blockSize.toNat)).length < 2 ^ 63
      then some (blob codec infile blockSize.toNat (numBlocksOf infile.length blockSize.toNat))
      else none := by
  have hblocks := compressBlocks_eq codec infile blockSize.toNat
    (progressMonitor (numBlocksOf infile.length blockSize.toNat) 1000)
    (numBlocksOf infile.length blockSize.toNat) 0
  have hzero : positionOf codec infile blockSize.toNat 0 = 0 := rfl
  rw [hzero, Nat.zero_add, ← List.range_eq_range'] at hblocks
  rw [compressFileToBlob, h.1, if_neg Bool.false_ne_true, if_neg (by omega), if_neg (by omega)]
  dsimp only
  rw [hblocks]
  rfl

section File

variable {codec : Codec} {infile : List Byte} {blockSize : BitVec 32}

theorem toNat_of_toInt_pos (h : 0 < blockSize.toInt) : 0 < blockSize.toNat ∧ blockSize.toNat < 2 ^ 31 := by
  have hlt := BitVec.toInt_lt (x := blockSize)
  rw [BitVec.toInt_eq_toNat_cond] at h hlt
  split at h <;> omega

theorem of_compressFileToBlob {file : List Byte}
    (h : compressFileToBlob codec (fun _ => true) infile blockSize = some file) :
    (isGCZBlob infile = false ∧ 32 ≤ infile.length ∧ 0 < blockSize.toInt) ∧
      file = blob codec infile blockSize.toNat (numBlocksOf infile.length blockSize.toNat) ∧
      file.length < 2 ^ 63 := by
  have htaken : isGCZBlob infile = false ∧ 32 ≤ infile.length ∧ 0 < blockSize.toInt := by
    rw [compressFileToBlob] at h
    split at h
    · cases h
    next hgcz =>
      split at h
      · cases h
      · split at h
        · cases h
        · exact ⟨Bool.eq_false_iff.mpr hgcz, by omega, by omega⟩
  rw [compressFileToBlob_eq htaken] at h
  split at h
  next hlt =>
    cases h
    exact ⟨htaken, rfl, hlt⟩
  · cases h

theorem decompressBlobToFile_eq_iff (hlaw : codec.Lawful) {bs : Nat}
    (hs : BlobSizes codec infile bs (fileBlocks infile bs))
    (hoffset : 32 + 12 * fileBlocks infile bs < 2 ^ 31) (hlen : 0 < infile.length) :
    decompressBlobToFile codec (fun _ => true) (blob codec infile bs (fileBlocks infile bs)) =
        some infile ↔
      (fileBlocks infile bs % BUFFER_BLOCKS = 0 →
        ∀ b ∈ infile.drop ((fileBlocks infile bs - BUFFER_BLOCKS) * bs), b = 0) := by
  have hle := length_le_fileBlocks_mul infile hs.blockSize_pos
  have hn : 0 < fileBlocks infile bs := by
    by_contra h
    rw [Nat.eq_zero_of_not_pos h, Nat.zero_mul] at hle
    omega
  rw [decompressBlobToFile_eq hlaw hs hoffset hlen, gczSource_allBytes, Option.some_inj,
    resize_take_eq_iff]
  by_cases hmod : fileBlocks infile bs % BUFFER_BLOCKS = 0
  · rw [writtenSize_of_mod_eq_zero hn hmod]
    exact ⟨fun h _ => h, fun h => h hmod⟩
  · rw [writtenSize_of_mod_ne_zero hmod, List.drop_of_length_le hle]
    exact ⟨fun _ h => absurd h hmod, fun _ b hb => absurd hb List.not_mem_nil⟩

/-- A block that the reader of the blob does not find. -/
theorem not_roundTrips_of_missing {n k : Nat} (hs : BlobSizes codec infile blockSize.toNat n)
    (hn : n = numBlocksOf infile.length blockSize.toNat)
    (hk : k < fileBlocks infile blockSize.toNat)
    (hmiss : ((blobReader codec infile blockSize.toNat n).getBlock codec k).2 = none) :
    ¬ RoundTrips codec infile blockSize := by
  rintro ⟨file, reader, hcompress, _, hcreate, hread⟩
  obtain ⟨_, rfl, _⟩ := of_compressFileToBlob hcompress
  rw [← hn, create_blob hs] at hcreate
  cases hcreate
  have hb := hs.blockSize_pos
  have hlt := mul_lt_length hb hk
  have hlen := hs.infile_lt
  have hbs := hs.blockSize_lt
  have hoff : (BitVec.ofNat 64 (k * blockSize.toNat)).toNat = k * blockSize.toNat := by
    rw [BitVec.toNat_ofNat]
    omega
  have hsize : (blobReader codec infile blockSize.toNat n).sectors.blockSize = blockSize.toNat :=
    toNat_toInt_ofNat hbs
  have hfresh : Fresh (blobReader codec infile blockSize.toNat n).sectors := ⟨rfl, fun _ => rfl⟩
  have hend : dataEnd ((blobReader codec infile blockSize.toNat n).dev codec).getDataSize
      blockSize.toNat = fileBlocks infile blockSize.toNat := by
    have hdata : ((blobReader codec infile blockSize.toNat n).dev codec).getDataSize =
      infile.length := rfl
    rw [hdata, dataEnd, u64_eq (by omega), u64Sub_eq (by omega) (by omega), fileBlocks,
      Nat.add_sub_assoc hb]
  have hblocks : fileBlocks infile blockSize.toNat < 2 ^ 64 := by
    have h := Nat.div_le_self (infile.length + (blockSize.toNat - 1)) blockSize.toNat
    rw [fileBlocks]
    omega
  have hdiv : (BitVec.ofNat 64 (k * blockSize.toNat)).toNat /
      (blobReader codec infile blockSize.toNat n).sectors.blockSize = k := by
    rw [hoff, hsize]
    exact Nat.mul_div_cancel k hb
  have hmiss' : ((blobReader codec infile blockSize.toNat n).dev codec).getBlock k = none := hmiss
  obtain ⟨r', hfail⟩ := read_missing hfresh (by rwa [hsize]) hdiv (by rwa [hsize, hend])
    (by rwa [hsize, hend]) hmiss'
  obtain ⟨r'', hcalls⟩ := hread [(BitVec.ofNat 64 (k * blockSize.toNat), 1)] (by
    intro call hcall
    rw [List.mem_singleton.mp hcall, hoff]
    exact hlt)
  rw [readAll, hfail] at hcalls
  cases hcalls

theorem blobSizes_of_lt (hs : infile.length < 2 ^ 63) (hpos : 0 < blockSize.toInt) (hn : n < 2 ^ 32)
    (hlt : (blob codec infile blockSize.toNat n).length < 2 ^ 63) :
    BlobSizes codec infile blockSize.toNat n :=
  ⟨hs, (toNat_of_toInt_pos hpos).1, (toNat_of_toInt_pos hpos).2, hn, hlt⟩

end File

/-- What zlib does with blocks of one byte: no stream fits into one byte. -/
def storeOnly : Codec where
  deflate _ _ := none
  inflate _ _ := ([], false)

theorem storeOnly_lawful : storeOnly.Lawful :=
  ⟨(fun _ _ _ h => nomatch h), (fun _ _ _ h => nomatch h)⟩

end DolphinCore.DiscIO
