import DolphinCore.DiscIO.ScrubbedRanges

/-!
# DolphinCore.DiscIO.ScrubbedDisc

The blocks that `GetNextBlock` hands out of an image, and when all that the disc names as used is among
them unchanged.
-/

namespace DolphinCore.DiscIO

/-! ## the blocks -/

namespace DiscScrubber

/-- If the `k`-th of the next blocks is freed, or `none` outside of the table. -/
def freedAt (s : DiscScrubber) (k : Nat) : Option Bool :=
  if s.m_is_scrubbing then s.m_free_table[(s.m_block_count + k) * s.m_block_size / CLUSTER_SIZE]?
  else some false

theorem freedAt_succ (s : DiscScrubber) (k : Nat) :
    { s with m_block_count := s.m_block_count + 1 }.freedAt k = s.freedAt (k + 1) := by
  rw [freedAt, freedAt, Nat.add_assoc, Nat.add_comm 1 k]

theorem getNextBlocks_succ (n : Nat) (s : DiscScrubber) (file : List Byte) :
    getNextBlocks (n + 1) s file = (s.freedAt 0).bind fun freed =>
      (getNextBlocks n { s with m_block_count := s.m_block_count + 1 }
        (file.drop s.m_block_size)).map
          (⟨freed, if freed then List.replicate s.m_block_size 0 else file.take s.m_block_size⟩ :: ·) := by
  rw [getNextBlocks, getNextBlock, freedAt, Nat.add_zero, Option.bind_map]
  rfl

/-- **The next blocks**: zeros where a cluster is free, and the bytes of the file elsewhere. -/
theorem getNextBlocks_spec : (n : Nat) → (s : DiscScrubber) → (file : List Byte) →
    (∀ k < n, ∃ freed, s.freedAt k = some freed) →
    ∃ blocks, getNextBlocks n s file = some blocks ∧
      ∀ k < n, ∀ freed, s.freedAt k = some freed → blocks[k]? =
        some ⟨freed, if freed then List.replicate s.m_block_size 0
          else (file.drop (k * s.m_block_size)).take s.m_block_size⟩
  | 0, s, file, _ => ⟨[], rfl, fun k hk => absurd hk (Nat.not_lt_zero k)⟩
  | n + 1, s, file, hfreed => by
    obtain ⟨freed, hfirst⟩ := hfreed 0 (Nat.succ_pos n)
    obtain ⟨blocks, hblocks, hat⟩ := getNextBlocks_spec n
      { s with m_block_count := s.m_block_count + 1 } (file.drop s.m_block_size) fun k hk => by
        rw [freedAt_succ]
        exact hfreed (k + 1) (Nat.succ_lt_succ hk)
    rw [getNextBlocks_succ, hfirst, Option.bind_some, hblocks, Option.map_some]
    refine ⟨_, rfl, fun k hk freed' hfreed' => ?_⟩
    cases k with
    | zero =>
      rw [hfirst] at hfreed'
      cases hfreed'
      rw [List.getElem?_cons_zero, Nat.zero_mul, List.drop_zero]
    | succ k =>
      have hrest := hat k (Nat.lt_of_succ_lt_succ hk) freed' (by rw [freedAt_succ, hfreed'])
      rw [List.getElem?_cons_succ, hrest, List.drop_drop, Nat.succ_mul, Nat.add_comm s.m_block_size]

theorem freedAt_of_getNextBlocks : (n : Nat) → {s : DiscScrubber} → {file : List Byte} →
    {blocks : List NextBlock} → getNextBlocks n s file = some blocks → ∀ k < n,
    ∃ freed, s.freedAt k = some freed
  | 0, _, _, _, _, k, hk => absurd hk (Nat.not_lt_zero k)
  | n + 1, s, file, blocks, h, k, hk => by
    rw [getNextBlocks_succ] at h
    obtain ⟨freed, hfirst, h⟩ := Option.bind_eq_some_iff.mp h
    obtain ⟨rest, hrest, -⟩ := Option.map_eq_some_iff.mp h
    cases k with
    | zero => exact ⟨freed, hfirst⟩
    | succ k =>
      rw [← freedAt_succ]
      exact freedAt_of_getNextBlocks n hrest k (Nat.lt_of_succ_lt_succ hk)

end DiscScrubber

/-! ## the disc -/

/-- All accesses are inside of the table, and every byte that the disc names as used is in a block that is
not freed and has it unchanged. -/
def Preserves (v : Volume) (uninitialised : Partition → BitVec 32) (block_size : Nat)
    (image : List Byte) : Prop :=
  ∃ s blocks, setupScrub v uninitialised block_size = some s ∧
    s.getNextBlocks ((v.size + (block_size - 1)) / block_size) image = some blocks ∧
    ∀ call, Named v namedApploader call → ∀ x < v.size, call.Uses x →
      ∃ block, blocks[x / block_size]? = some block ∧ block.freed = false ∧
        block.buffer[x % block_size]? = image[x]?

/-- No step of `MarkAsUsed` is in the partial cluster at the end of the image; and if the parsers succeed,
then there is none, and each byte that the disc names as used is in a cluster that the steps of a range
reach, where the size of the apploader is the one that is marked. -/
def Scrubbable (v : Volume) (uninitialised : Partition → BitVec 32) : Prop :=
  ∃ calls ok, parseDisc v (markedApploader uninitialised) = some (calls, ok) ∧
    (∀ call ∈ calls, ¬ Overruns v.size call.range) ∧
    (ok = true → v.size % CLUSTER_SIZE = 0 ∧
      ∀ call, Named v namedApploader call → ∀ x < v.size, call.Uses x →
        ∃ marked, Named v (markedApploader uninitialised) marked ∧
          Reaches marked.range (x / CLUSTER_SIZE))

variable {block_size : Nat} {uninitialised : Partition → BitVec 32} {v : Volume}

theorem block_cluster (hblock : block_size ∣ CLUSTER_SIZE) (x : Nat) :
    x / block_size * block_size / CLUSTER_SIZE = x / CLUSTER_SIZE := by
  obtain ⟨m, hm⟩ := hblock
  have hpos : 0 < block_size := Nat.pos_of_ne_zero fun h => by
    rw [h, Nat.zero_mul] at hm
    cases hm
  rw [hm, Nat.mul_comm, Nat.mul_div_mul_left _ _ hpos, Nat.div_div_eq_div_mul]

theorem block_lt {block_size n x : Nat} (hpos : 0 < block_size) (hx : x < n) :
    x / block_size < (n + (block_size - 1)) / block_size := by
  rw [Nat.div_lt_iff_lt_mul hpos]
  have hceil := Nat.lt_div_mul_add (a := n + (block_size - 1)) hpos
  omega

theorem setupScrub_spec {calls : List Call} {ok : Bool}
    (hparse : parseDisc v (markedApploader uninitialised) = some (calls, ok)) (block_size : Nat) :
    ((∃ call ∈ calls, Overruns v.size call.range) ∧ setupScrub v uninitialised block_size = none) ∨
      ∃ table, setupScrub v uninitialised block_size = some ⟨table, 0, block_size, ok⟩ ∧
        (∀ call ∈ calls, ¬ Overruns v.size call.range) ∧ table.length = v.size / CLUSTER_SIZE ∧
        ∀ c < v.size / CLUSTER_SIZE, table[c]? = some false ↔ ∃ call ∈ calls, Reaches call.range c := by
  have hmark := markCalls_spec v.size calls (List.length_replicate (n := v.size / CLUSTER_SIZE) (a := true))
  rw [setupScrub, hparse, Option.bind_some]
  generalize markCalls v.size calls _ = result at hmark ⊢
  cases hmark with
  | outside h => exact Or.inl ⟨h, rfl⟩
  | @inside table hnot hlength htable =>
    refine Or.inr ⟨table, rfl, fun call hcall h => hnot ⟨call, hcall, h⟩, hlength, fun c hc => ?_⟩
    rw [htable c hc, List.getElem?_replicate, if_pos hc]
    exact or_iff_right (by decide)

theorem freedAt_block (hblock : block_size ∣ CLUSTER_SIZE) (table : List Bool) (ok : Bool)
    (x : Nat) : (⟨table, 0, block_size, ok⟩ : DiscScrubber).freedAt (x / block_size) =
      if ok then table[x / CLUSTER_SIZE]? else some false := by
  rw [DiscScrubber.freedAt]
  simp only [Nat.zero_add, block_cluster hblock]

theorem block_size_pos (hblock : block_size ∣ CLUSTER_SIZE) : 0 < block_size :=
  Nat.pos_of_dvd_of_pos hblock (by decide)

theorem scrubbable_of_preserves (hblock : block_size ∣ CLUSTER_SIZE) {image : List Byte}
    (h : Preserves v uninitialised block_size image) : Scrubbable v uninitialised := by
  have hpos := block_size_pos hblock
  obtain ⟨⟨calls, ok⟩, hparse, hnamed⟩ := parseDisc_spec v (markedApploader uninitialised)
  obtain ⟨s, blocks, hs, hblocks, hused⟩ := h
  rcases setupScrub_spec hparse block_size with ⟨-, hsetup⟩ | ⟨table, hsetup, hinside, hlength, htable⟩
  · rw [hsetup] at hs
    cases hs
  rw [hsetup] at hs
  cases hs
  refine ⟨calls, ok, hparse, hinside, fun hok => ?_⟩
  subst hok
  have hall := DiscScrubber.freedAt_of_getNextBlocks _ hblocks
  have hat (x : Nat) (hx : x < v.size) : ∃ freed, table[x / CLUSTER_SIZE]? = some freed := by
    obtain ⟨freed, h⟩ := hall (x / block_size) (block_lt hpos hx)
    rw [freedAt_block hblock, if_pos rfl] at h
    exact ⟨freed, h⟩
  refine ⟨?_, fun call hcall x hx huses => ?_⟩
  · -- the block at the start of a partial cluster would be looked up behind the table
    by_contra hpartial
    obtain ⟨freed, h⟩ := hat (v.size / CLUSTER_SIZE * CLUSTER_SIZE) (by
      rw [CLUSTER_SIZE] at hpartial ⊢
      omega)
    rw [Nat.mul_div_cancel _ (by decide), ← hlength, List.getElem?_eq_none (Nat.le_refl _)] at h
    cases h
  · obtain ⟨block, hblock', hnot, -⟩ := hused call hcall x hx huses
    obtain ⟨freed, h⟩ := hat x hx
    obtain ⟨blocks', hblocks', hspec⟩ := DiscScrubber.getNextBlocks_spec _ _ image hall
    rw [hblocks] at hblocks'
    cases hblocks'
    have hthis := hspec (x / block_size) (block_lt hpos hx) freed (by
      rw [freedAt_block hblock, if_pos rfl, h])
    rw [hblock'] at hthis
    cases hthis
    cases hnot
    have hc : x / CLUSTER_SIZE < v.size / CLUSTER_SIZE := by
      rw [← hlength]
      exact (List.getElem?_eq_some_iff.mp h).1
    obtain ⟨marked, hmem, hreach⟩ := (htable _ hc).mp h
    exact ⟨marked, (hnamed rfl marked).mp hmem, hreach⟩

theorem preserves_of_scrubbable (hblock : block_size ∣ CLUSTER_SIZE) (image : List Byte)
    (h : Scrubbable v uninitialised) :
    Preserves v uninitialised block_size image := by
  have hpos := block_size_pos hblock
  obtain ⟨⟨calls, ok⟩, hparse, hnamed⟩ := parseDisc_spec v (markedApploader uninitialised)
  obtain ⟨calls', ok', hparse', hinside, hok⟩ := h
  rw [hparse] at hparse'
  cases hparse'
  rcases setupScrub_spec hparse block_size with ⟨⟨call, hcall, hover⟩, -⟩ |
    ⟨table, hsetup, -, hlength, htable⟩
  · exact absurd hover (hinside call hcall)
  have hcluster (x : Nat) (hx : x < v.size) (htrue : ok = true) :
      x / CLUSTER_SIZE < v.size / CLUSTER_SIZE := by
    have hwhole := (hok htrue).1
    rw [CLUSTER_SIZE] at hwhole ⊢
    omega
  have hall : ∀ k < (v.size + (block_size - 1)) / block_size, ∃ freed,
      (⟨table, 0, block_size, ok⟩ : DiscScrubber).freedAt k = some freed := by
    intro k hk
    have hx : k * block_size < v.size := by
      have hle := (Nat.le_div_iff_mul_le hpos).mp hk
      rw [Nat.succ_mul] at hle
      omega
    have hat := freedAt_block hblock table ok (k * block_size)
    rw [Nat.mul_div_cancel _ hpos] at hat
    rw [hat]
    cases hscrub : ok with
    | false => exact ⟨false, rfl⟩
    | true =>
      have hlt := hcluster _ hx hscrub
      rw [← hlength] at hlt
      exact ⟨_, List.getElem?_eq_getElem hlt⟩
  obtain ⟨blocks, hblocks, hspec⟩ := DiscScrubber.getNextBlocks_spec _
    ⟨table, 0, block_size, ok⟩ image hall
  refine ⟨_, blocks, hsetup, hblocks, fun call hcall x hx huses => ?_⟩
  have hnot : (⟨table, 0, block_size, ok⟩ : DiscScrubber).freedAt (x / block_size) = some false := by
    rw [freedAt_block hblock]
    cases hscrub : ok with
    | false => rfl
    | true =>
      obtain ⟨marked, hmarked, hreach⟩ := (hok hscrub).2 call hcall x hx huses
      exact (htable _ (hcluster x hx hscrub)).mpr ⟨marked, (hnamed hscrub marked).mpr hmarked, hreach⟩
  refine ⟨_, hspec _ (block_lt hpos hx) false hnot, rfl, ?_⟩
  change ((image.drop (x / block_size * block_size)).take block_size)[x % block_size]? = image[x]?
  rw [List.getElem?_take_of_lt (Nat.mod_lt x hpos), List.getElem?_drop, Nat.div_add_mod']

/-- A disc whose title metadata is at the end of one cluster and at the start of the next. -/
def unalignedTmd : Volume where
  size := 0x100000
  partitions := [⟨0x50000, by decide⟩]
  readSwapped
    | offset, none =>
      if offset = 0x502a4 then some 0x520
      else if offset = 0x502a8 then some (0x7e00 / 4)
      else if offset = 0x502b4 then some (0x18000 / 4)
      else if offset = 0x502b8 then some (0x40000 / 4)
      else some 0
    | _, some _ => some 0
  table _ := some nestedTable

/-- **What is used is copied** exactly on the discs that `Scrubbable` describes. -/
theorem preserves_iff (v : Volume) (uninitialised : Partition → BitVec 32) {block_size : Nat}
    (hblock : block_size ∣ CLUSTER_SIZE) (image : List Byte) :
    Preserves v uninitialised block_size image ↔ Scrubbable v uninitialised :=
  ⟨scrubbable_of_preserves hblock, preserves_of_scrubbable hblock image⟩

theorem preserves_iff_unalignedTmd :
    Preserves unalignedTmd (fun _ => 0) 0x4000 (List.replicate 0x100000 1) ↔
      Scrubbable unalignedTmd (fun _ => 0) :=
  preserves_iff unalignedTmd (fun _ => 0) ⟨2, rfl⟩ (List.replicate 0x100000 1)

/-- The second cluster of the metadata is freed. -/
theorem not_preserves_unalignedTmd :
    ¬ Preserves unalignedTmd (fun _ => 0) 0x4000 (List.replicate 0x100000 1) := by
  intro h
  obtain ⟨calls, ok, hparse, -, hok⟩ := scrubbable_of_preserves ⟨2, rfl⟩ h
  obtain ⟨parsed, hparsed, hnamed⟩ := parseDisc_spec unalignedTmd (markedApploader fun _ => 0)
  have hcalls : (parseDisc unalignedTmd (markedApploader fun _ => 0)).all
      (fun parsed => parsed.2 && parsed.1.all fun call => !decide (Reaches call.range 11)) = true := by
    decide
  rw [hparsed] at hparse hcalls
  cases hparse
  obtain ⟨htrue, hall⟩ := (Bool.and_eq_true _ _).mp hcalls
  obtain ⟨marked, hmarked, hreach⟩ := (hok htrue).2 (.markAsUsed 0x57e00 0x520)
    (.header List.mem_cons_self (by rfl) (List.mem_cons_of_mem _ List.mem_cons_self)) 0x58000
    (by decide) ⟨by decide, by decide⟩
  have hnot := List.all_eq_true.mp hall marked ((hnamed htrue marked).mpr hmarked)
  rw [Bool.not_eq_true', decide_eq_false_iff_not] at hnot
  exact hnot hreach

end DolphinCore.DiscIO
