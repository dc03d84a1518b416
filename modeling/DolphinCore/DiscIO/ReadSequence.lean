import DolphinCore.DiscIO.SectorRead

/-!
# DolphinCore.DiscIO.ReadSequence

Sequences of calls of `SectorReader::Read`: one round of the loop gives the bytes up to the
end of a chunk, whatever was in the cache before; so a call gives the bytes of its range, and
every call of a sequence does, exactly if the chunks the calls ask for begin in front of the
end or at it and fit into a cache line.
-/

namespace DolphinCore.DiscIO.SectorReader

variable {blockSize chunk : Nat} {src : BlockSource blockSize} {r : SectorReader}

/-! ## a round of the loop -/

/-- The end of the blocks in the chunk of an offset. -/
def lineEnd (src : BlockSource blockSize) (chunk offset : Nat) : Nat :=
  min (offset / blockSize / chunk * chunk + chunk) src.endBlock * blockSize

theorem lineEnd_le (src : BlockSource blockSize) (chunk offset : Nat) : lineEnd src chunk offset ≤ src.endBlock * blockSize :=
  Nat.mul_le_mul_right _ (Nat.min_le_right _ _)

theorem lt_lineEnd (hs : Sizes src chunk) {offset : Nat} (h : offset / blockSize < src.endBlock) :
    offset < lineEnd src chunk offset := by
  have hlt := Nat.lt_div_mul_add hs.chunk_pos (a := offset / blockSize)
  have hle : offset / blockSize + 1 ≤ min (offset / blockSize / chunk * chunk + chunk) src.endBlock := by
    omega
  have hmul := Nat.mul_le_mul_right blockSize hle
  have hdiv := Nat.lt_div_mul_add hs.blockSize_pos (a := offset)
  rw [Nat.add_mul, Nat.one_mul] at hmul
  rw [lineEnd]
  omega

theorem take_drop_take {l : List Byte} {n i j : Nat} (h : i + j ≤ n) :
    ((l.take n).drop i).take j = (l.drop i).take j := by
  rw [List.drop_take, List.take_take, Nat.min_eq_left (by omega)]

theorem lineEnd_eq {c : Cache} {offset : Nat} (h : LineOk src chunk c)
    (hin : c.contains (offset / blockSize) = true) :
    lineEnd src chunk offset = c.blockIdx * blockSize + c.numBlocks * blockSize := by
  obtain ⟨hlt, _, hidx, hnum, _⟩ := h.of_contains hin
  have hle := Nat.div_mul_le_self (offset / blockSize) chunk
  rw [lineEnd, ← Nat.add_mul, hidx, hnum, blocksOf]
  congr 1
  omega

theorem line_bytes {c : Cache} {block pos w : Nat} (h : LineOk src chunk c)
    (hin : c.contains block = true)
    (hw : (block - c.blockIdx) * blockSize + pos + w ≤ c.numBlocks * blockSize) :
    (c.data.drop ((block - c.blockIdx) * blockSize + pos)).take w =
      (src.allBytes.drop (block * blockSize + pos)).take w := by
  obtain ⟨hlt, _, hidx, hnum, hbytes⟩ := h.of_contains hin
  have hle : c.blockIdx ≤ block := by
    rw [hidx]
    exact Nat.div_mul_le_self _ _
  have hcnt : c.numBlocks ≤ src.endBlock - c.blockIdx := by
    rw [hnum, hidx]
    exact blocksOf_le src chunk _
  have hmul := Nat.mul_le_mul_right blockSize hle
  rw [← take_drop_take hw, hbytes, src.bytes_eq_drop_take (by omega), take_drop_take hw,
    List.drop_drop, Nat.sub_mul]
  congr 2
  omega

/-- A block in front of the end: the loop goes on behind its chunk, or is at its end. -/
theorem readLoop_step (hs : Sizes src chunk) (hr : ReaderOk src chunk r)
    (fuel : Nat) (out : List Byte) {offset remain pos : Nat} (hremain : 0 < remain)
    (hpos : pos = offset % blockSize) (hok : ChunkOk src chunk (offset / blockSize))
    (hlt : offset / blockSize < src.endBlock) :
    ∃ r', ReaderOk src chunk r' ∧ r.asked ⊆ r'.asked ∧
      ∀ w, w = min (lineEnd src chunk offset - offset) remain →
        readLoop src.toBlockDevice (fuel + 1) offset remain pos out r =
          readLoop src.toBlockDevice fuel (offset + w) (remain - w) 0 (out ++ (src.allBytes.drop offset).take w) r' := by
  obtain ⟨r', hr', hcase⟩ := getCacheLine_eq hs hr hok
  rcases hcase with ⟨_, i, hget, hin⟩ | ⟨hle, _⟩
  · refine ⟨r', hr', asked_getCacheLine hget, ?_⟩
    rintro w hw
    have hline := hr'.line i
    obtain ⟨_, hfit, hidx, hnum, _⟩ := hline.of_contains hin
    have hin' := hin
    rw [Cache.contains, Bool.and_eq_true, decide_eq_true_eq, decide_eq_true_eq] at hin'
    obtain ⟨hidxle, hsub⟩ := hin'
    have hbs := hs.blockSize_pos
    have hend := src.endBlock_mul_lt hbs hs.blockSize_lt
    have hle := lineEnd_le src chunk offset
    have hoffset := lt_lineEnd hs hlt
    have hlineEnd := lineEnd_eq hline hin
    have hdiv := Nat.div_add_mod' offset blockSize
    have hblock := Nat.mul_le_mul_right blockSize hidxle
    have hsize : (r'.cache i).numBlocks * blockSize < 2 ^ 32 := by
      rw [hnum]
      exact Nat.lt_of_le_of_lt hfit (u32_lt _)
    have hstart : u32 (u32 (offset / blockSize - (r'.cache i).blockIdx) * blockSize + pos) =
        (offset / blockSize - (r'.cache i).blockIdx) * blockSize + pos := by
      have hsmall : offset / blockSize - (r'.cache i).blockIdx < 2 ^ 32 := by
        have := Nat.le_mul_of_pos_right (r'.cache i).numBlocks hbs
        omega
      rw [u32_eq hsmall, Nat.sub_mul]
      exact u32_eq (by omega)
    have hcan : u32Sub (u32 (blockSize * (r'.cache i).numBlocks))
        ((offset / blockSize - (r'.cache i).blockIdx) * blockSize + pos) =
          lineEnd src chunk offset - offset := by
      rw [Nat.mul_comm blockSize, u32_eq hsize, Nat.sub_mul, u32Sub_eq (by omega) hsize]
      omega
    have hlen : (r'.cache i).numBlocks * blockSize ≤ (r'.cache i).data.length := by
      rw [hline.length_data, hnum]
      exact hfit
    have hwle : (offset / blockSize - (r'.cache i).blockIdx) * blockSize + pos + w ≤
        (r'.cache i).numBlocks * blockSize := by
      rw [Nat.sub_mul]
      omega
    rw [readLoop, if_neg (Nat.ne_of_gt hremain), hr.blockSize_eq]
    dsimp only
    rw [hget]
    dsimp only
    rw [hr'.blockSize_eq, hstart, hcan, ← hw, if_pos (by omega), line_bytes hline hin hwle, hpos,
      hdiv, u64_eq (by omega)]
  · omega

theorem asked_readLoop : (fuel offset remain pos : Nat) → (out : List Byte) → (r : SectorReader) →
    {ok : Bool} → {out' : List Byte} → {r' : SectorReader} →
    readLoop src.toBlockDevice fuel offset remain pos out r = some (ok, out', r') → r.asked ⊆ r'.asked
  | 0, _, _, _, _, _, _, _, _, h => by cases h
  | fuel + 1, offset, remain, pos, out, r, ok, out', r', h => by
    rw [readLoop] at h
    split at h
    · cases h
      exact List.Subset.refl _
    · dsimp only at h
      split at h
      · cases h
      next hget =>
        cases h
        exact asked_getCacheLine hget
      next hget =>
        split at h
        · exact List.Subset.trans (asked_getCacheLine hget) (asked_readLoop fuel _ _ _ _ _ h)
        · cases h

/-! ## a call -/

/-- The chunk in which a range starts begins in front of the end or at it, and the chunks of
the range up to the end fit into a cache line. -/
def RangeOk (src : BlockSource blockSize) (chunk offset size : Nat) : Prop :=
  size = 0 ∨ offset / blockSize / chunk * chunk ≤ src.endBlock ∧
    ∀ k, offset / blockSize / chunk ≤ k → k * chunk * blockSize < offset + size →
      k * chunk ≤ src.endBlock → Fits src chunk k

theorem chunkStart_le (blockSize chunk offset : Nat) :
    offset / blockSize / chunk * chunk * blockSize ≤ offset :=
  Nat.le_trans (Nat.mul_le_mul_right _ (Nat.div_mul_le_self _ _)) (Nat.div_mul_le_self _ _)

variable {offset size : Nat}

theorem RangeOk.chunkOk (h : RangeOk src chunk offset size) (hsize : 0 < size) :
    ChunkOk src chunk (offset / blockSize) := by
  have hle := chunkStart_le blockSize chunk offset
  rcases h with h | ⟨hstart, hfits⟩
  · omega
  · exact ⟨hstart, hfits _ (Nat.le_refl _) (by omega) hstart⟩

theorem rangeOk_of_endBlock_le (hc : 0 < chunk) (hok : ChunkOk src chunk (offset / blockSize))
    (hle : src.endBlock ≤ offset / blockSize) :
    RangeOk src chunk offset size := by
  refine Or.inr ⟨hok.1, fun k hk _ hkend => ?_⟩
  have hk' : k ≤ offset / blockSize / chunk := (Nat.le_div_iff_mul_le hc).mpr (by omega)
  rw [Nat.le_antisymm hk' hk]
  exact hok.2

/-- A range is read as the rest of its first chunk and the range behind that. -/
theorem rangeOk_iff (hs : Sizes src chunk) {offset size w : Nat} (hsize : 0 < size)
    (hw : w = min (lineEnd src chunk offset - offset) size)
    (hlt : offset / blockSize < src.endBlock) :
    RangeOk src chunk offset size ↔
      ChunkOk src chunk (offset / blockSize) ∧ RangeOk src chunk (offset + w) (size - w) := by
  have hpos := hs.chunk_pos
  have hoffset := lt_lineEnd hs hlt
  have hlast := Nat.lt_div_mul_add hpos (a := offset / blockSize)
  constructor
  · intro h
    refine ⟨h.chunkOk hsize, ?_⟩
    rcases h with h | ⟨_, hfits⟩
    · omega
    · rcases Nat.eq_zero_or_pos (size - w) with hrest | hrest
      · exact Or.inl hrest
      · have hnext : (offset + w) / blockSize =
            min (offset / blockSize / chunk * chunk + chunk) src.endBlock := by
          rw [show offset + w = lineEnd src chunk offset by omega, lineEnd]
          exact Nat.mul_div_cancel _ hs.blockSize_pos
        have hle : offset / blockSize / chunk ≤ (offset + w) / blockSize / chunk :=
          Nat.div_le_div_right (by omega)
        refine Or.inr ⟨?_, fun k hk hkend => hfits k (by omega) (by omega)⟩
        have hdiv := Nat.div_mul_le_self ((offset + w) / blockSize) chunk
        omega
  · rintro ⟨hok, hrest⟩
    refine Or.inr ⟨hok.1, fun k hk hkend hkle => ?_⟩
    rcases Nat.eq_or_lt_of_le hk with heq | hgt
    · rw [← heq]
      exact hok.2
    · have hmul := Nat.mul_le_mul_right chunk (Nat.succ_le_of_lt hgt)
      rw [Nat.succ_mul] at hmul
      have hend : lineEnd src chunk offset ≤ k * chunk * blockSize := by
        exact Nat.mul_le_mul_right _ (by omega)
      rcases hrest with hrest | ⟨_, hfits⟩
      · omega
      · refine hfits k ?_ (by omega) hkle
        rw [show offset + w = lineEnd src chunk offset by omega, lineEnd,
          Nat.mul_div_cancel _ hs.blockSize_pos]
        apply Nat.div_le_of_le_mul
        rw [Nat.mul_comm chunk k]
        omega

/-- A call in which all chunks are in order gives the bytes of its range. -/
theorem readLoop_eq (hs : Sizes src chunk) : (fuel offset remain pos : Nat) →
    (out : List Byte) → (r : SectorReader) → ReaderOk src chunk r → remain < fuel →
    (0 < remain → pos = offset % blockSize) → RangeOk src chunk offset remain →
    ∃ ok out' r', readLoop src.toBlockDevice fuel offset remain pos out r = some (ok, out', r') ∧
      ReaderOk src chunk r' ∧
      (ok = true ↔ remain = 0 ∨ offset + remain ≤ src.endBlock * blockSize) ∧
      (ok = true → out' = out ++ (src.allBytes.drop offset).take remain)
  | 0, _, _, _, _, _, _, hfuel, _, _ => absurd hfuel (Nat.not_lt_zero _)
  | fuel + 1, offset, remain, pos, out, r, hr, hfuel, hpos, hrange => by
    rcases Nat.eq_zero_or_pos remain with rfl | hremain
    · refine ⟨true, out, r, ?_, hr, by simp, by simp⟩
      rw [readLoop, if_pos rfl]
    · have hok := hrange.chunkOk hremain
      have hdiv := Nat.div_mul_le_self offset blockSize
      by_cases hlt : offset / blockSize < src.endBlock
      · obtain ⟨r₁, hr₁, _, hstep⟩ := readLoop_step hs hr fuel out hremain
          (hpos hremain) hok hlt
        have hoffset := lt_lineEnd hs hlt
        have hle := lineEnd_le src chunk offset
        obtain ⟨w, hw⟩ : ∃ w, w = min (lineEnd src chunk offset - offset) remain := ⟨_, rfl⟩
        have hmod : 0 < remain - w → 0 = (offset + w) % blockSize := by
          intro hrest
          rw [show offset + w = lineEnd src chunk offset by omega, lineEnd]
          exact (Nat.mul_mod_left _ _).symm
        obtain ⟨ok, out', r', heq, hr', hiff, hout⟩ := readLoop_eq hs fuel (offset + w) (remain - w) 0
          (out ++ (src.allBytes.drop offset).take w) r₁ hr₁ (by omega) hmod
          ((rangeOk_iff hs hremain hw hlt).mp hrange).2
        refine ⟨ok, out', r', (hstep w hw).trans heq, hr', hiff.trans ?_, fun h => ?_⟩
        · omega
        · rw [hout h, List.append_assoc, ← List.drop_drop, ← List.take_add,
            show w + (remain - w) = remain by omega]
      · obtain ⟨r', hr', hcase⟩ := getCacheLine_eq hs hr hok
        rcases hcase with ⟨h, _⟩ | ⟨hle, hget⟩
        · exact absurd h hlt
        · have hmul := Nat.mul_le_mul_right blockSize hle
          refine ⟨false, out, r', ?_, hr', ⟨nofun, by omega⟩, nofun⟩
          rw [readLoop, if_neg (Nat.ne_of_gt hremain), hr.blockSize_eq]
          dsimp only
          rw [hget]

theorem readLoop_not_ok (hs : Sizes src chunk) : (fuel offset remain pos : Nat) →
    (out : List Byte) → (r : SectorReader) → ReaderOk src chunk r → offset < 2 ^ 64 →
    (0 < remain → pos = offset % blockSize) → ¬ RangeOk src chunk offset remain →
    {ok : Bool} → {out' : List Byte} → {r' : SectorReader} →
    readLoop src.toBlockDevice fuel offset remain pos out r = some (ok, out', r') → AskedBeyond src r'
  | 0, _, _, _, _, _, _, _, _, _, _, _, _, h => by cases h
  | fuel + 1, offset, remain, pos, out, r, hr, hoffset, hpos, hrange, ok, out', r', h => by
    rcases Nat.eq_zero_or_pos remain with rfl | hremain
    · exact absurd (Or.inl rfl) hrange
    · have hdiv := Nat.div_le_self offset blockSize
      by_cases hok : ChunkOk src chunk (offset / blockSize)
      · by_cases hlt : offset / blockSize < src.endBlock
        · obtain ⟨r₁, hr₁, _, hstep⟩ := readLoop_step hs hr fuel out hremain
            (hpos hremain) hok hlt
          have hend := src.endBlock_mul_lt hs.blockSize_pos hs.blockSize_lt
          have hlast := lt_lineEnd hs hlt
          have hle := lineEnd_le src chunk offset
          obtain ⟨w, hw⟩ : ∃ w, w = min (lineEnd src chunk offset - offset) remain := ⟨_, rfl⟩
          rw [hstep w hw] at h
          refine readLoop_not_ok hs fuel (offset + w) (remain - w) 0 _ r₁ hr₁ (by omega) ?_
            (fun hrest => hrange ((rangeOk_iff hs hremain hw hlt).mpr ⟨hok, hrest⟩)) h
          intro hrest
          rw [show offset + w = lineEnd src chunk offset by omega, lineEnd]
          exact (Nat.mul_mod_left _ _).symm
        · exact absurd (rangeOk_of_endBlock_le hs.chunk_pos hok (Nat.not_lt.mp hlt)) hrange
      · rw [readLoop, if_neg (Nat.ne_of_gt hremain), hr.blockSize_eq] at h
        dsimp only at h
        split at h
        · cases h
        next hget =>
          cases h
          exact getCacheLine_not_ok hs hr (by omega) hok hget
        next hget =>
          split at h
          · obtain ⟨n, hn, hle⟩ := getCacheLine_not_ok hs hr (by omega) hok hget
            exact ⟨n, asked_readLoop fuel _ _ _ _ _ h hn, hle⟩
          · cases h

theorem rangeOk_one (hs : Sizes src 1) (h : offset ≤ src.endBlock * blockSize) :
    RangeOk src 1 offset size := by
  refine Or.inr ⟨?_, fun k _ _ _ => ?_⟩
  · rw [Nat.div_one, Nat.mul_one]
    exact Nat.div_le_of_le_mul (Nat.mul_comm _ _ ▸ h)
  · have hlt := hs.blockSize_lt
    rw [Fits, lineSize, Nat.one_mul, u32_eq (by omega)]
    exact Nat.le_trans (Nat.mul_le_mul_right _ (Nat.min_le_left _ _)) (Nat.le_of_eq (Nat.one_mul _))

theorem read_eq (hs : Sizes src 1) (hr : ReaderOk src 1 r) {offset size : BitVec 64}
    (h : offset.toNat + size.toNat ≤ src.endBlock * blockSize) :
    ∃ r', ReaderOk src 1 r' ∧ read src.toBlockDevice r offset size =
      some (true, (src.allBytes.drop offset.toNat).take size.toNat, r') := by
  obtain ⟨ok, out, r', hread, hr', hiff, hout⟩ := readLoop_eq hs (size.toNat + 1) offset.toNat
    size.toNat (offset.toNat % blockSize) [] r hr (Nat.lt_succ_self _) (fun _ => rfl)
    (rangeOk_one hs (by omega))
  have hok : ok = true := hiff.mpr (Or.inr h)
  refine ⟨r', hr', ?_⟩
  rw [read, if_neg (by rw [hr.blockSize_eq]; exact Nat.ne_of_gt hs.blockSize_pos), hr.blockSize_eq,
    hread, hok, hout hok, List.nil_append]

/-! ## the calls of a sequence -/

variable (src)

/-- Every call of a sequence returns, succeeds exactly if its range is in front of the end, and
then gives the bytes of the range; no block from the end on is asked for. -/
def ReadsBlocks (calls : List (BitVec 64 × BitVec 64)) (r : SectorReader) : Prop :=
  ∃ results r', readAll src.toBlockDevice calls r = some (results, r') ∧
    List.Forall₂ (fun (call : BitVec 64 × BitVec 64) (result : Bool × List Byte) =>
      (result.1 = true ↔ call.2 = 0 ∨ call.1.toNat + call.2.toNat ≤ src.endBlock * blockSize) ∧
      (result.1 = true → result.2 = (src.allBytes.drop call.1.toNat).take call.2.toNat))
      calls results ∧
    ∀ n ∈ r'.asked, n < src.endBlock

variable {src}

theorem asked_readAll : (calls : List (BitVec 64 × BitVec 64)) → (r : SectorReader) →
    {results : List (Bool × List Byte)} → {r' : SectorReader} →
    readAll src.toBlockDevice calls r = some (results, r') → r.asked ⊆ r'.asked
  | [], _, _, _, h => by
    cases h
    exact List.Subset.refl _
  | (offset, size) :: calls, r, results, r', h => by
    rw [readAll] at h
    split at h
    · cases h
    next ok out r₁ hread =>
      obtain ⟨⟨results', r''⟩, hrest, heq⟩ := Option.map_eq_some_iff.mp h
      cases heq
      rw [read] at hread
      split at hread
      · cases hread
      · exact List.Subset.trans (asked_readLoop _ _ _ _ _ _ hread) (asked_readAll calls r₁ hrest)

theorem readAll_eq (hs : Sizes src chunk) : (calls : List (BitVec 64 × BitVec 64)) →
    (r : SectorReader) → ReaderOk src chunk r →
    (∀ call ∈ calls, RangeOk src chunk call.1.toNat call.2.toNat) → ReadsBlocks src calls r
  | [], r, hr, _ => ⟨[], r, rfl, List.Forall₂.nil, hr.asked_lt⟩
  | (offset, size) :: calls, r, hr, h => by
    obtain ⟨ok, out, r₁, hread, hr₁, hiff, hout⟩ := readLoop_eq hs (size.toNat + 1) offset.toNat
      size.toNat (offset.toNat % blockSize) [] r hr (Nat.lt_succ_self _) (fun _ => rfl)
      (h _ (List.mem_cons_self ..))
    obtain ⟨results, r', hrest, hall, hasked⟩ := readAll_eq hs calls r₁ hr₁
      fun call hcall => h call (List.mem_cons_of_mem _ hcall)
    refine ⟨(ok, out) :: results, r', ?_, List.Forall₂.cons ⟨?_, hout⟩ hall, hasked⟩
    · rw [readAll, read, if_neg (by rw [hr.blockSize_eq]; exact Nat.ne_of_gt hs.blockSize_pos),
        hr.blockSize_eq, hread]
      dsimp only
      rw [hrest]
      rfl
    · rw [hiff, ← BitVec.toNat_inj]
      rfl

theorem readAll_not_ok (hs : Sizes src chunk) : (calls : List (BitVec 64 × BitVec 64)) →
    (r : SectorReader) → ReaderOk src chunk r →
    (¬ ∀ call ∈ calls, RangeOk src chunk call.1.toNat call.2.toNat) →
    {results : List (Bool × List Byte)} → {r' : SectorReader} →
    readAll src.toBlockDevice calls r = some (results, r') → AskedBeyond src r'
  | [], _, _, h, _, _, _ => absurd (fun _ hcall => absurd hcall List.not_mem_nil) h
  | (offset, size) :: calls, r, hr, h, results, r', hrun => by
    rw [readAll, read, if_neg (by rw [hr.blockSize_eq]; exact Nat.ne_of_gt hs.blockSize_pos),
      hr.blockSize_eq] at hrun
    split at hrun
    · cases hrun
    next ok out r₁ hread =>
      obtain ⟨⟨results', r''⟩, hrest, heq⟩ := Option.map_eq_some_iff.mp hrun
      cases heq
      by_cases hcall : RangeOk src chunk offset.toNat size.toNat
      · obtain ⟨ok', out', r₂, hread', hr₂, _⟩ := readLoop_eq hs (size.toNat + 1) offset.toNat
          size.toNat (offset.toNat % blockSize) [] r hr (Nat.lt_succ_self _) (fun _ => rfl) hcall
        rw [hread] at hread'
        cases hread'
        refine readAll_not_ok hs calls r₁ hr₂ (fun hall => h ?_) hrest
        exact List.forall_mem_cons.mpr ⟨hcall, hall⟩
      · obtain ⟨n, hn, hle⟩ := readLoop_not_ok hs _ _ _ _ _ r hr offset.isLt (fun _ => rfl) hcall hread
        exact ⟨n, asked_readAll calls r₁ hrest hn, hle⟩

/-! ## a reader from its construction on -/

/-- A reader with the sizes set. -/
def withSizes (blocksize blockCnt : BitVec 32) : SectorReader :=
  (init.setChunkSize blockCnt).setSectorSize blocksize

theorem length_resize (data : List Byte) (n : Nat) : (resize data n).length = n := by
  rw [resize, List.length_append, List.length_take, List.length_replicate]
  omega

/-- The `int` a size is given as, with the least size the setter takes. -/
abbrev sizeOf (least : Nat) (n : BitVec 32) : Nat := (max n.toInt least).toNat

theorem withSizes_ok {blocksize : BitVec 32} (blockCnt : BitVec 32)
    (src : BlockSource (sizeOf 0 blocksize)) :
    ReaderOk src (sizeOf 1 blockCnt) (withSizes blocksize blockCnt) :=
  ⟨rfl, rfl, fun _ => ⟨length_resize _ _, fun h => absurd h (Nat.lt_irrefl 0)⟩,
    fun _ h => absurd h List.not_mem_nil⟩

theorem sizes_sizeOf {blocksize : BitVec 32} {src : BlockSource (sizeOf 0 blocksize)}
    (hdata : 0 < src.getDataSize) (h : 0 < sizeOf 0 blocksize) (blockCnt : BitVec 32) :
    Sizes src (sizeOf 1 blockCnt) := by
  have hlt := BitVec.toInt_lt (x := blocksize)
  have hlt' := BitVec.toInt_lt (x := blockCnt)
  have h' := h
  refine ⟨hdata, h', ?_, ?_, ?_⟩ <;> rw [sizeOf] <;> omega

/-- A sequence of calls is answered from the blocks of the source exactly if the sector size is
positive and every call keeps to chunks that begin in front of the end or at it and fit. -/
theorem readsBlocks_iff (blocksize blockCnt : BitVec 32) (src : BlockSource (sizeOf 0 blocksize))
    (hdata : 0 < src.getDataSize) (calls : List (BitVec 64 × BitVec 64)) :
    ReadsBlocks src calls (withSizes blocksize blockCnt) ↔ ∀ call ∈ calls, 0 < sizeOf 0 blocksize ∧
        RangeOk src (sizeOf 1 blockCnt) call.1.toNat call.2.toNat := by
  rcases Nat.eq_zero_or_pos (sizeOf 0 blocksize) with hzero | hpos
  · cases calls with
    | nil => exact ⟨fun _ _ h => absurd h List.not_mem_nil, fun _ => ⟨[], _, rfl, List.Forall₂.nil,
        (withSizes_ok blockCnt src).asked_lt⟩⟩
    | cons call calls =>
      constructor
      · rintro ⟨results, r', hrun, _⟩
        rw [readAll, read, if_pos (by rw [(withSizes_ok blockCnt src).blockSize_eq, hzero])] at hrun
        cases hrun
      · intro h
        have hpos := (h call (List.mem_cons_self ..)).1
        omega
  · have hs := sizes_sizeOf hdata hpos blockCnt
    constructor
    · rintro ⟨results, r', hrun, _, hasked⟩
      by_contra hbad
      have hbad' : ¬ ∀ call ∈ calls, RangeOk src (sizeOf 1 blockCnt) call.1.toNat call.2.toNat :=
        fun h => hbad fun call hcall => ⟨hpos, h call hcall⟩
      obtain ⟨n, hn, hle⟩ := readAll_not_ok hs calls _ (withSizes_ok blockCnt src) hbad' hrun
      exact absurd (hasked n hn) (Nat.not_lt.mpr hle)
    · intro h
      exact readAll_eq hs calls _ (withSizes_ok blockCnt src) fun call hcall => (h call hcall).2

/-- One byte in one block; a block that does not exist is zero. -/
def oneByte : BlockSource (sizeOf 0 1) where
  getDataSize := 1
  getBlock n := some (if n = 0 then [0xff] else [0])
  dataSize_lt := by decide
  length_getBlock n b h := by
    cases h
    split <;> rfl
  isSome_getBlock _ _ := rfl

theorem readsBlocks_iff_oneByte : ReadsBlocks oneByte [(0, 2)] (withSizes 1 1) := by
  refine (readsBlocks_iff 1 1 oneByte (by decide) [(0, 2)]).mpr fun call hcall => ?_
  rw [List.mem_singleton.mp hcall]
  refine ⟨by decide, Or.inr ⟨by decide, fun k _ _ _ => ?_⟩⟩
  exact Nat.le_trans (Nat.mul_le_mul_right _ (Nat.min_le_left _ _)) (by decide)

/-- A call two bytes behind the start of a source of one byte asks for a block that does not
exist. -/
theorem not_readsBlocks : ¬ ReadsBlocks oneByte [(2, 1)] (withSizes 1 1) := by
  rintro ⟨results, r', hrun, _, hasked⟩
  have hbad : ¬ ∀ call ∈ [((2 : BitVec 64), (1 : BitVec 64))],
      RangeOk oneByte (sizeOf 1 1) call.1.toNat call.2.toNat := by
    intro h
    rcases h _ (List.mem_singleton_self _) with h | ⟨h, _⟩
    · exact absurd h (by decide)
    · exact absurd h (by decide)
  obtain ⟨n, hn, hle⟩ := readAll_not_ok (sizes_sizeOf (by decide) (by decide) 1) _ _ (withSizes_ok 1 oneByte) hbad hrun
  exact absurd (hasked n hn) (Nat.not_lt.mpr hle)

end DolphinCore.DiscIO.SectorReader
