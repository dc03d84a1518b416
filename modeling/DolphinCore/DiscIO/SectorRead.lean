import DolphinCore.DiscIO.SectorReader

/-!
# DolphinCore.DiscIO.SectorRead

What `SectorReader::Read` returns, whatever the cache holds from the calls before: the bytes
of the blocks, as long as no call starts in a chunk behind the end of the source.  For such a
call the number of blocks up to the end is negative, and `GetBlock` is asked for blocks that
do not exist.
-/

namespace DolphinCore.DiscIO

namespace BlockSource

variable {blockSize : Nat} (src : BlockSource blockSize)

theorem length_getD {n : Nat} (hn : n < src.endBlock) : ((src.getBlock n).getD []).length = blockSize := by
  obtain ⟨b, hb⟩ := Option.isSome_iff_exists.mp (src.isSome_getBlock n hn)
  rw [hb, Option.getD_some]
  exact src.length_getBlock n b hb

@[simp] theorem bytes_zero (n : Nat) : src.bytes n 0 = [] := rfl

theorem bytes_succ (n cnt : Nat) :
    src.bytes n (cnt + 1) = (src.getBlock n).getD [] ++ src.bytes (n + 1) cnt := by
  rfl

theorem bytes_add : (m n cnt : Nat) → src.bytes n (m + cnt) = src.bytes n m ++ src.bytes (n + m) cnt
  | 0, n, cnt => by simp
  | m + 1, n, cnt => by
    rw [Nat.add_right_comm, bytes_succ, bytes_add m, bytes_succ, List.append_assoc,
      Nat.add_right_comm n 1, Nat.add_assoc n]

theorem length_bytes : (cnt n : Nat) → n + cnt ≤ src.endBlock →
    (src.bytes n cnt).length = cnt * blockSize
  | 0, _, _ => by simp
  | cnt + 1, n, h => by
    rw [bytes_succ, List.length_append, src.length_getD (by omega),
      length_bytes cnt (n + 1) (by omega), Nat.add_mul, Nat.one_mul, Nat.add_comm]

theorem length_allBytes : src.allBytes.length = src.endBlock * blockSize :=
  src.length_bytes _ _ (by omega)

theorem bytes_eq_drop_take {n cnt : Nat} (h : n + cnt ≤ src.endBlock) :
    src.bytes n cnt = (src.allBytes.drop (n * blockSize)).take (cnt * blockSize) := by
  have hsplit : src.allBytes = src.bytes 0 n ++ (src.bytes n cnt ++
      src.bytes (n + cnt) (src.endBlock - (n + cnt))) := by
    rw [allBytes, ← src.bytes_add cnt n, show src.endBlock = n + (cnt + (src.endBlock - (n + cnt))) by omega,
      bytes_add, Nat.zero_add]
    congr 3
    omega
  rw [hsplit, ← src.length_bytes n 0 (by omega), List.drop_left, ← src.length_bytes cnt n h,
    List.take_left]

theorem endBlock_mul_lt (hb : 0 < blockSize) (hb' : blockSize < 2 ^ 31) :
    src.endBlock * blockSize < 2 ^ 64 := by
  have h := Nat.div_mul_le_self (src.getDataSize + blockSize - 1) blockSize
  have hlt := src.dataSize_lt
  rw [endBlock, blockCount]
  omega

theorem endBlock_pos (hb : 0 < blockSize) (hpos : 0 < src.getDataSize) : 0 < src.endBlock := by
  exact Nat.div_pos (by omega) hb

theorem endBlock_lt (hb : 0 < blockSize) (hb' : blockSize < 2 ^ 31) : src.endBlock < 2 ^ 64 :=
  Nat.lt_of_le_of_lt (Nat.le_mul_of_pos_right _ hb) (src.endBlock_mul_lt hb hb')

end BlockSource

namespace SectorReader

variable {blockSize : Nat} (src : BlockSource blockSize)

/-! ## writing a chunk -/

theorem writeAt_of_le {buffer bytes : List Byte} {pos : Nat}
    (h : pos + bytes.length ≤ buffer.length) :
    writeAt buffer pos bytes =
      some (buffer.take pos ++ bytes ++ buffer.drop (pos + bytes.length)) := if_pos h

theorem writeAt_of_lt {buffer bytes : List Byte} {pos : Nat}
    (h : buffer.length < pos + bytes.length) : writeAt buffer pos bytes = none :=
  if_neg (Nat.not_le.mpr h)

theorem readMultipleAlignedBlocks_eq : (cnt n pos : Nat) → (buffer : List Byte) →
    n + cnt ≤ src.endBlock → src.endBlock < 2 ^ 64 → pos + cnt * blockSize ≤ buffer.length →
    readMultipleAlignedBlocks src.toBlockDevice blockSize n cnt pos buffer =
      some (true, buffer.take pos ++ src.bytes n cnt ++ buffer.drop (pos + cnt * blockSize),
        List.range' n cnt)
  | 0, n, pos, buffer, _, _, _ => by
    rw [readMultipleAlignedBlocks, src.bytes_zero, List.append_nil, Nat.zero_mul, Nat.add_zero,
      List.take_append_drop]
    rfl
  | cnt + 1, n, pos, buffer, hn, hend, hlen => by
    obtain ⟨b, hb⟩ := Option.isSome_iff_exists.mp (src.isSome_getBlock n (by
      have : n < src.endBlock := by omega
      exact this))
    have hbl := src.length_getBlock n b hb
    rw [Nat.add_mul, Nat.one_mul] at hlen
    have hmod : u64 (n + 1) = n + 1 := u64_eq (by omega)
    have hpos : (buffer.take pos ++ b).length = pos + blockSize := by
      rw [List.length_append, List.length_take, hbl]
      omega
    have hbuf : (buffer.take pos ++ b ++ buffer.drop (pos + b.length)).length = buffer.length := by
      rw [List.length_append, hpos, List.length_drop]
      omega
    rw [readMultipleAlignedBlocks, hb]
    dsimp only
    rw [writeAt_of_le (by omega), hmod]
    dsimp only
    rw [readMultipleAlignedBlocks_eq cnt (n + 1) (pos + blockSize) _ (by omega) hend (by omega),
      ← hpos, List.take_left, ← List.drop_drop, List.drop_left]
    rw [Option.map_some, src.bytes_succ, hb, Option.getD_some, List.drop_drop, List.append_assoc,
      List.append_assoc, List.append_assoc, List.append_assoc, hbl, List.range'_succ,
      Nat.add_mul, Nat.one_mul, Nat.add_assoc pos, Nat.add_comm blockSize]

theorem readMultipleAlignedBlocks_eq_none : (cnt n pos : Nat) → (buffer : List Byte) →
    n + cnt ≤ src.endBlock → src.endBlock < 2 ^ 64 → pos ≤ buffer.length →
    buffer.length < pos + cnt * blockSize →
    readMultipleAlignedBlocks src.toBlockDevice blockSize n cnt pos buffer = none
  | 0, n, pos, buffer, _, _, hpos, hlen => by
    omega
  | cnt + 1, n, pos, buffer, hn, hend, hpos, hlen => by
    obtain ⟨b, hb⟩ := Option.isSome_iff_exists.mp (src.isSome_getBlock n (by
      have : n < src.endBlock := by omega
      exact this))
    have hbl := src.length_getBlock n b hb
    rw [Nat.add_mul, Nat.one_mul] at hlen
    rw [readMultipleAlignedBlocks, hb]
    dsimp only
    by_cases hfit : pos + blockSize ≤ buffer.length
    · have hmod : u64 (n + 1) = n + 1 := u64_eq (by omega)
      rw [writeAt_of_le (by omega), hmod]
      dsimp only
      have hbuf : (buffer.take pos ++ b ++ buffer.drop (pos + b.length)).length = buffer.length := by
        rw [List.length_append, List.length_append, List.length_take, List.length_drop]
        omega
      rw [readMultipleAlignedBlocks_eq_none cnt (n + 1) (pos + blockSize) _ (by omega) hend
        (by omega) (by omega)]
      rfl
    · rw [writeAt_of_lt (by omega)]

theorem readMultipleAlignedBlocks_asked {n cnt pos : Nat} {buffer buffer' : List Byte} {ok : Bool}
    {asked : List Nat} (hcnt : 0 < cnt)
    (h : readMultipleAlignedBlocks src.toBlockDevice blockSize n cnt pos buffer = some (ok, buffer', asked)) : n ∈ asked := by
  obtain ⟨cnt, rfl⟩ := Nat.exists_eq_succ_of_ne_zero (Nat.ne_of_gt hcnt)
  rw [readMultipleAlignedBlocks] at h
  split at h
  · cases h
    exact List.mem_singleton_self n
  · split at h
    · cases h
    · obtain ⟨⟨ok', buffer'', asked'⟩, _, heq⟩ := Option.map_eq_some_iff.mp h
      cases heq
      exact List.mem_cons_self ..

/-! ## the cache lines -/

/-- The blocks of a chunk that are in front of the end. -/
def blocksOf (chunk k : Nat) : Nat := min chunk (src.endBlock - k * chunk)

/-- The blocks of a chunk fit into a cache line, whose size is a `u32`. -/
def Fits (chunk k : Nat) : Prop := blocksOf src chunk k * blockSize ≤ lineSize blockSize chunk

instance (chunk k : Nat) : Decidable (Fits src chunk k) := inferInstanceAs (Decidable (_ ≤ _))

/-- A line in use holds the blocks of one chunk. -/
structure LineOk (chunk : Nat) (c : Cache) : Prop where
  length_data : c.data.length = lineSize blockSize chunk
  filled : 0 < c.numBlocks → ∃ k, c.blockIdx = k * chunk ∧ k * chunk < src.endBlock ∧
    Fits src chunk k ∧ c.numBlocks = blocksOf src chunk k ∧
    c.data.take (c.numBlocks * blockSize) = src.bytes c.blockIdx c.numBlocks

/-- What every call of `Read` keeps. -/
structure ReaderOk (chunk : Nat) (r : SectorReader) : Prop where
  blockSize_eq : r.blockSize = blockSize
  chunkBlocks_eq : r.chunkBlocks = chunk
  line : ∀ i, LineOk src chunk (r.cache i)
  asked_lt : ∀ n ∈ r.asked, n < src.endBlock

variable {src} {chunk : Nat}

variable {block : Nat} {i : Fin cacheLines} {c : Cache} {r' : SectorReader}
  {o : Option (Fin cacheLines)}

namespace LineOk

theorem markUsed (h : LineOk src chunk c) : LineOk src chunk c.markUsed := ⟨h.length_data, h.filled⟩

theorem shiftLRU (h : LineOk src chunk c) : LineOk src chunk c.shiftLRU := ⟨h.length_data, h.filled⟩

theorem reset (h : LineOk src chunk c) : LineOk src chunk c.reset :=
  ⟨h.length_data, fun h => absurd h (Nat.lt_irrefl 0)⟩

theorem of_contains (h : LineOk src chunk c) (hin : c.contains block = true) :
    block < src.endBlock ∧ Fits src chunk (block / chunk) ∧
      c.blockIdx = block / chunk * chunk ∧ c.numBlocks = blocksOf src chunk (block / chunk) ∧
      c.data.take (c.numBlocks * blockSize) = src.bytes c.blockIdx c.numBlocks := by
  rw [Cache.contains, Bool.and_eq_true, decide_eq_true_eq, decide_eq_true_eq] at hin
  obtain ⟨k, hidx, hlt, hfits, hnum, hbytes⟩ := h.filled (by omega)
  have hcnt : c.numBlocks ≤ chunk := by
    rw [hnum]
    exact Nat.min_le_left _ _
  have hcnt' : c.numBlocks ≤ src.endBlock - k * chunk := by
    rw [hnum]
    exact Nat.min_le_right _ _
  have hk : block / chunk = k := by
    apply Nat.div_eq_of_lt_le
    · omega
    · rw [Nat.add_mul, Nat.one_mul]
      omega
  rw [hk]
  exact ⟨by omega, hfits, hidx, hnum, hbytes⟩

end LineOk

theorem update_lineOk {cache : Fin cacheLines → Cache} (h : ∀ j, LineOk src chunk (cache j))
    (hc : LineOk src chunk c) (j : Fin cacheLines) :
    LineOk src chunk (Function.update cache i c j) := by
  by_cases hj : j = i
  · rw [hj, Function.update_self]
    exact hc
  · rw [Function.update_of_ne hj]
    exact h j

theorem shiftLine_lineOk {s : Fin cacheLines × (Fin cacheLines → Cache)} (line : Fin cacheLines)
    (h : ∀ j, LineOk src chunk (s.2 j)) (j : Fin cacheLines) :
    LineOk src chunk ((shiftLine s line).2 j) := by
  rw [shiftLine]
  split
  · exact update_lineOk h (h _).shiftLRU j
  · exact update_lineOk h (h _).shiftLRU j

theorem foldl_shiftLine_lineOk : (lines : List (Fin cacheLines)) →
    (s : Fin cacheLines × (Fin cacheLines → Cache)) → (∀ j, LineOk src chunk (s.2 j)) →
    ∀ j, LineOk src chunk ((lines.foldl shiftLine s).2 j)
  | [], _, h => h
  | line :: lines, s, h =>
    foldl_shiftLine_lineOk lines (shiftLine s line) (shiftLine_lineOk line h)

theorem oldestLine_lineOk {cache : Fin cacheLines → Cache} (h : ∀ j, LineOk src chunk (cache j)) :
    ∀ j, LineOk src chunk ((oldestLine cache).2 j) := by
  rw [oldestLine]
  generalize (List.finRange cacheLines).tail = lines
  exact foldl_shiftLine_lineOk lines (0, cache) h

namespace ReaderOk

variable {r : SectorReader}

theorem update (h : ReaderOk src chunk r) (hc : LineOk src chunk c) :
    ReaderOk src chunk { r with cache := Function.update r.cache i c } :=
  ⟨h.blockSize_eq, h.chunkBlocks_eq, update_lineOk h.line hc, h.asked_lt⟩

theorem getEmptyCacheLine (h : ReaderOk src chunk r) :
    ReaderOk src chunk r.getEmptyCacheLine.2 := by
  have hold := oldestLine_lineOk h.line
  rw [SectorReader.getEmptyCacheLine]
  generalize oldestLine r.cache = s at hold ⊢
  exact ⟨h.blockSize_eq, h.chunkBlocks_eq, update_lineOk hold (hold _).reset, h.asked_lt⟩

end ReaderOk

/-! ## a chunk -/

/-- A size of the data that is known, and the sizes `SetSectorSize` and `SetChunkSize` leave for
a sector size that is positive. -/
structure Sizes (src : BlockSource blockSize) (chunk : Nat) : Prop where
  dataSize_pos : 0 < src.getDataSize
  blockSize_pos : 0 < blockSize
  blockSize_lt : blockSize < 2 ^ 31
  chunk_pos : 0 < chunk
  chunk_lt : chunk < 2 ^ 31

theorem dataEnd_eq (hs : Sizes src chunk) : dataEnd src.getDataSize blockSize = src.endBlock := by
  have hlt := src.dataSize_lt
  have hb := hs.blockSize_pos
  have hb' := hs.blockSize_lt
  rw [dataEnd, u64_eq (by omega), u64Sub_eq (by omega) (by omega), BlockSource.endBlock, blockCount]

theorem clampBlocks_eq (hs : Sizes src chunk) {k : Nat} (hk : k * chunk ≤ src.endBlock) :
    clampBlocks src.endBlock (k * chunk) chunk = blocksOf src chunk k := by
  have hend := src.endBlock_lt hs.blockSize_pos hs.blockSize_lt
  have hpos := src.endBlock_pos hs.blockSize_pos hs.dataSize_pos
  have hc := hs.chunk_lt
  rw [clampBlocks, if_neg (Nat.ne_of_gt hpos), u64Sub_eq hk hend, blocksOf]
  exact u32_eq (by omega)

theorem clampBlocks_pos (hs : Sizes src chunk) {k : Nat} (hk : src.endBlock < k * chunk)
    (hlt : k * chunk < 2 ^ 64) : 0 < clampBlocks src.endBlock (k * chunk) chunk := by
  have hpos := src.endBlock_pos hs.blockSize_pos hs.dataSize_pos
  have hc := hs.chunk_pos
  have hc' := hs.chunk_lt
  have hdiff := u64Sub_pos hk hlt
  rw [clampBlocks, if_neg (Nat.ne_of_gt hpos), u32_eq (by omega)]
  omega

theorem blocksOf_le (src : BlockSource blockSize) (chunk k : Nat) :
    blocksOf src chunk k ≤ src.endBlock - k * chunk := Nat.min_le_right _ _

variable {r : SectorReader} {buffer : List Byte} {k : Nat}

theorem fillZero_eq (hlen : buffer.length = lineSize blockSize chunk) {cnt : Nat}
    (hfit : cnt * blockSize ≤ lineSize blockSize chunk) :
    ∃ data, fillZero buffer (u32 (cnt * blockSize)) (u32 (chunk * blockSize)) = some data ∧
      data.length = lineSize blockSize chunk ∧
      data.take (cnt * blockSize) = buffer.take (cnt * blockSize) := by
  have hlt : lineSize blockSize chunk < 2 ^ 32 := u32_lt _
  have hmod : u32 (cnt * blockSize) = cnt * blockSize := u32_eq (by omega)
  rw [hmod, ← lineSize, fillZero, if_pos hfit, writeAt_of_le (by
    rw [List.length_replicate]
    omega)]
  refine ⟨_, rfl, ?_, ?_⟩
  · rw [List.length_append, List.length_append, List.length_take, List.length_replicate,
      List.length_drop]
    omega
  · rw [List.append_assoc, List.take_append_of_le_length (by
      rw [List.length_take]
      omega), List.take_take, Nat.min_self]

theorem readChunk_eq (hs : Sizes src chunk) (hr : ReaderOk src chunk r)
    (hlen : buffer.length = lineSize blockSize chunk) (hk : k * chunk ≤ src.endBlock)
    (hfit : Fits src chunk k) :
    ∃ data asked, readChunk src.toBlockDevice r buffer k = some (blocksOf src chunk k, data, asked) ∧
      data.length = lineSize blockSize chunk ∧
      data.take (blocksOf src chunk k * blockSize) = src.bytes (k * chunk) (blocksOf src chunk k) ∧
      ∀ n ∈ asked, n < src.endBlock := by
  have hend := src.endBlock_lt hs.blockSize_pos hs.blockSize_lt
  have hle := blocksOf_le src chunk k
  have hbytes : (src.bytes (k * chunk) (blocksOf src chunk k)).length =
      blocksOf src chunk k * blockSize := src.length_bytes _ _ (by omega)
  have hfit' : blocksOf src chunk k * blockSize ≤ lineSize blockSize chunk := hfit
  have hasked : ∀ n ∈ List.range' (k * chunk) (blocksOf src chunk k), n < src.endBlock := by
    intro n hn
    rw [List.mem_range'_1] at hn
    omega
  rw [readChunk, readBlocks, hr.blockSize_eq, hr.chunkBlocks_eq, u64_eq (n := k * chunk) (by omega),
    dataEnd_eq hs, clampBlocks_eq hs hk,
    readMultipleAlignedBlocks_eq src _ _ 0 buffer (by omega) hend (by omega), Nat.zero_add,
    List.take_zero, List.nil_append]
  dsimp only
  split
  · have hlen' : (src.bytes (k * chunk) (blocksOf src chunk k) ++
        buffer.drop (blocksOf src chunk k * blockSize)).length = lineSize blockSize chunk := by
      rw [List.length_append, List.length_drop, hbytes]
      omega
    obtain ⟨data, hdata, hdl, htake⟩ := fillZero_eq hlen' hfit'
    refine ⟨data, _, by rw [hdata]; rfl, hdl, ?_, hasked⟩
    rw [htake, ← hbytes, List.take_left]
  · refine ⟨_, _, rfl, ?_, ?_, hasked⟩
    · rw [List.length_append, List.length_drop, hbytes]
      omega
    · rw [← hbytes, List.take_left]

theorem readChunk_not_fits (hs : Sizes src chunk) (hr : ReaderOk src chunk r)
    (hlen : buffer.length = lineSize blockSize chunk) (hk : k * chunk ≤ src.endBlock)
    (hfit : ¬ Fits src chunk k) : readChunk src.toBlockDevice r buffer k = none := by
  have hend := src.endBlock_lt hs.blockSize_pos hs.blockSize_lt
  have hle := blocksOf_le src chunk k
  rw [Fits] at hfit
  rw [readChunk, readBlocks, hr.blockSize_eq, hr.chunkBlocks_eq, u64_eq (n := k * chunk) (by omega),
    dataEnd_eq hs, clampBlocks_eq hs hk,
    readMultipleAlignedBlocks_eq_none src _ _ 0 buffer (by omega) hend (by omega) (by omega)]

theorem readChunk_beyond (hs : Sizes src chunk) (hr : ReaderOk src chunk r)
    (hk : src.endBlock < k * chunk) (hlt : k * chunk < 2 ^ 64) {n : Nat} {data : List Byte}
    {asked : List Nat} (h : readChunk src.toBlockDevice r buffer k = some (n, data, asked)) :
    k * chunk ∈ asked := by
  have hpos := src.endBlock_pos hs.blockSize_pos hs.dataSize_pos
  have hcnt := clampBlocks_pos hs hk hlt
  rw [readChunk, readBlocks, hr.blockSize_eq, hr.chunkBlocks_eq, u64_eq hlt, dataEnd_eq hs] at h
  split at h
  · cases h
  next hread =>
    have hmem := readMultipleAlignedBlocks_asked src hcnt hread
    split at h
    · obtain ⟨_, _, heq⟩ := Option.map_eq_some_iff.mp h
      cases heq
      exact hmem
    · cases h
      exact hmem
  next hread =>
    rw [if_neg (Nat.ne_of_gt hpos)] at h
    cases h
    exact readMultipleAlignedBlocks_asked src hcnt hread

/-! ## a line of the cache -/

theorem contains_of_findCacheLine (h : r.findCacheLine block = some (i, r')) :
    (r.cache i).contains block = true := by
  obtain ⟨j, hj, heq⟩ := Option.map_eq_some_iff.mp h
  cases heq
  exact List.find?_some (p := fun j => (r.cache j).contains block) hj

theorem eq_of_findCacheLine (h : r.findCacheLine block = some (i, r')) :
    r' = { r with cache := Function.update r.cache i (r.cache i).markUsed } := by
  obtain ⟨j, hj, heq⟩ := Option.map_eq_some_iff.mp h
  cases heq
  rfl

theorem numBlocks_getEmptyCacheLine (r : SectorReader) :
    (r.getEmptyCacheLine.2.cache r.getEmptyCacheLine.1).numBlocks = 0 := by
  rw [getEmptyCacheLine]
  generalize oldestLine r.cache = s
  dsimp only
  rw [Function.update_self]
  rfl

/-- The chunk of a block begins in front of the end or at it, and fits into a line. -/
def ChunkOk (src : BlockSource blockSize) (chunk block : Nat) : Prop :=
  block / chunk * chunk ≤ src.endBlock ∧ Fits src chunk (block / chunk)

theorem lineOk_fill (hk : k * chunk < src.endBlock)
    (hlen : c.data.length = lineSize blockSize chunk) (hfit : Fits src chunk k)
    (htake : c.data.take (blocksOf src chunk k * blockSize) =
      src.bytes (k * chunk) (blocksOf src chunk k)) :
    LineOk src chunk (c.fill (k * chunk) (blocksOf src chunk k)) :=
  ⟨hlen, fun _ => ⟨k, rfl, hk, hfit, rfl, htake⟩⟩

theorem fillLine_eq (hr : ReaderOk src chunk r) (hc : 0 < chunk)
    (hlt : block / chunk * chunk < src.endBlock) (hlen : c.data.length = lineSize blockSize chunk)
    (hfit : Fits src chunk (block / chunk))
    (htake : c.data.take (blocksOf src chunk (block / chunk) * blockSize) =
      src.bytes (block / chunk * chunk) (blocksOf src chunk (block / chunk))) :
    ∃ r', ReaderOk src chunk r' ∧ ((block < src.endBlock ∧ (r'.cache i).contains block = true ∧
          fillLine r i c (block / chunk * chunk) (blocksOf src chunk (block / chunk)) block =
            (some i, r')) ∨
        (src.endBlock ≤ block ∧
          fillLine r i c (block / chunk * chunk) (blocksOf src chunk (block / chunk)) block =
            (none, r'))) := by
  have hline := lineOk_fill hlt hlen hfit htake
  have hcnt : blocksOf src chunk (block / chunk) =
    min chunk (src.endBlock - block / chunk * chunk) := rfl
  have hdiv := Nat.div_mul_le_self block chunk
  have hdiv' := Nat.lt_div_mul_add hc (a := block)
  refine ⟨_, hr.update (i := i) hline, ?_⟩
  dsimp only
  rw [Function.update_self]
  by_cases hblock : block < src.endBlock
  · have hin : (c.fill (block / chunk * chunk) (blocksOf src chunk (block / chunk))).contains block =
        true := by
      rw [Cache.contains, Bool.and_eq_true, decide_eq_true_eq, decide_eq_true_eq]
      refine ⟨hdiv, ?_⟩
      show block - block / chunk * chunk < blocksOf src chunk (block / chunk)
      omega
    exact Or.inl ⟨hblock, hin, if_pos hin⟩
  · have hout : ¬ (c.fill (block / chunk * chunk) (blocksOf src chunk (block / chunk))).contains block =
        true := fun hin => hblock (hline.of_contains hin).1
    exact Or.inr ⟨Nat.not_lt.mp hblock, if_neg hout⟩

theorem faultIn_eq (hs : Sizes src chunk) (hr : ReaderOk src chunk r)
    (hzero : (r.cache i).numBlocks = 0) (hok : ChunkOk src chunk block) :
    ∃ r', ReaderOk src chunk r' ∧
      ((block < src.endBlock ∧ faultIn src.toBlockDevice block i r = some (some i, r') ∧
          (r'.cache i).contains block = true) ∨
        (src.endBlock ≤ block ∧ faultIn src.toBlockDevice block i r = some (none, r'))) := by
  obtain ⟨hle, hfit⟩ := hok
  obtain ⟨data, asked, hread, hlen, htake, hasked⟩ :=
    readChunk_eq hs hr (hr.line i).length_data hle hfit
  have hasked' : ∀ n ∈ r.asked ++ asked, n < src.endBlock := by
    intro n hn
    exact (List.mem_append.mp hn).elim (hr.asked_lt n) (hasked n)
  have hend := src.endBlock_lt hs.blockSize_pos hs.blockSize_lt
  have hmod : u64 (block / chunk * chunk) = block / chunk * chunk := u64_eq (by omega)
  have hdiv := Nat.div_mul_le_self block chunk
  have hcnt : blocksOf src chunk (block / chunk) =
    min chunk (src.endBlock - block / chunk * chunk) := rfl
  have hpos := hs.chunk_pos
  have hr₁ : ReaderOk src chunk { r with chunkBlocks := chunk, asked := r.asked ++ asked } :=
    ⟨hr.blockSize_eq, rfl, hr.line, hasked'⟩
  have hline : LineOk src chunk { r.cache i with data := data } :=
    ⟨hlen, fun h => absurd hzero (Nat.ne_of_gt h)⟩
  rw [faultIn]
  dsimp only
  rw [hr.chunkBlocks_eq, hread, Option.map_some, hmod]
  by_cases hnone : blocksOf src chunk (block / chunk) = 0
  · rw [if_pos hnone]
    exact ⟨_, hr₁.update (i := i) hline, Or.inr ⟨by omega, rfl⟩⟩
  · rw [if_neg hnone]
    obtain ⟨r', hr', hcase⟩ := fillLine_eq hr₁ (i := i) (c := { r.cache i with data := data })
      hpos (by omega) hlen hfit htake
    refine ⟨r', hr', hcase.imp ?_ ?_⟩
    · rintro ⟨hlt, hin, heq⟩
      exact ⟨hlt, congrArg some heq, hin⟩
    · rintro ⟨hle, heq⟩
      exact ⟨hle, congrArg some heq⟩

theorem getCacheLine_eq (hs : Sizes src chunk) (hr : ReaderOk src chunk r)
    (hok : ChunkOk src chunk block) : ∃ r', ReaderOk src chunk r' ∧
      ((block < src.endBlock ∧ ∃ i, getCacheLine src.toBlockDevice r block = some (some i, r') ∧
          (r'.cache i).contains block = true) ∨
        (src.endBlock ≤ block ∧ getCacheLine src.toBlockDevice r block = some (none, r'))) := by
  cases hfind : r.findCacheLine block with
  | some p =>
    obtain ⟨i, r'⟩ := p
    have hin := contains_of_findCacheLine hfind
    refine ⟨r', ?_, Or.inl ⟨((hr.line i).of_contains hin).1, i, ?_, ?_⟩⟩
    · rw [eq_of_findCacheLine hfind]
      exact hr.update (hr.line i).markUsed
    · rw [getCacheLine, hfind]
    · rw [eq_of_findCacheLine hfind]
      dsimp only
      rw [Function.update_self]
      exact hin
  | none =>
    obtain ⟨r', hr', hcase⟩ :=
      faultIn_eq hs hr.getEmptyCacheLine (numBlocks_getEmptyCacheLine r) hok
    rw [getCacheLine, hfind]
    refine ⟨r', hr', hcase.imp ?_ id⟩
    rintro ⟨hlt, heq, hin⟩
    exact ⟨hlt, _, heq, hin⟩

/-- `GetBlock` has been asked for a block from the end on. -/
def AskedBeyond (src : BlockSource blockSize) (r : SectorReader) : Prop :=
  ∃ n ∈ r.asked, src.endBlock ≤ n

theorem asked_fillLine (r : SectorReader) (i : Fin cacheLines) (c : Cache) (n cnt block : Nat) :
    (fillLine r i c n cnt block).2.asked = r.asked := by
  rw [fillLine]
  split <;> rfl

theorem asked_faultIn (h : faultIn src.toBlockDevice block i r = some (o, r')) :
    ∃ n data asked, readChunk src.toBlockDevice r (r.cache i).data (block / r.chunkBlocks) = some (n, data, asked) ∧
      r'.asked = r.asked ++ asked := by
  obtain ⟨⟨n, data, asked⟩, hread, heq⟩ := Option.map_eq_some_iff.mp h
  refine ⟨n, data, asked, hread, ?_⟩
  dsimp only at heq
  split at heq
  · cases heq
    rfl
  · have hasked := congrArg (fun p => p.2.asked) heq
    rw [← hasked, asked_fillLine]

theorem asked_getCacheLine (h : getCacheLine src.toBlockDevice r block = some (o, r')) :
    r.asked ⊆ r'.asked := by
  rw [getCacheLine] at h
  split at h
  next i r₁ hfind =>
    cases h
    rw [eq_of_findCacheLine hfind]
    exact List.Subset.refl _
  next =>
    obtain ⟨n, data, asked, _, heq⟩ := asked_faultIn h
    rw [heq]
    exact List.subset_append_left _ _

theorem getCacheLine_not_ok (hs : Sizes src chunk) (hr : ReaderOk src chunk r)
    (hblock : block < 2 ^ 64) (hok : ¬ ChunkOk src chunk block)
    (h : getCacheLine src.toBlockDevice r block = some (o, r')) : AskedBeyond src r' := by
  have hdiv := Nat.div_mul_le_self block chunk
  rw [getCacheLine] at h
  split at h
  next i r₁ hfind =>
    obtain ⟨hlt, hfit, _⟩ := (hr.line i).of_contains (contains_of_findCacheLine hfind)
    exact absurd ⟨by omega, hfit⟩ hok
  next =>
    have hr' := hr.getEmptyCacheLine
    obtain ⟨n, data, asked, hread, heq⟩ := asked_faultIn h
    rw [hr'.chunkBlocks_eq] at hread
    by_cases hle : block / chunk * chunk ≤ src.endBlock
    · rw [readChunk_not_fits hs hr' (hr'.line _).length_data hle fun hfit => hok ⟨hle, hfit⟩] at hread
      cases hread
    · have hmem := readChunk_beyond hs hr' (by omega) (by omega) hread
      refine ⟨block / chunk * chunk, ?_, by omega⟩
      rw [heq]
      exact List.mem_append_right _ hmem

end SectorReader

end DolphinCore.DiscIO
