import DolphinCore.Memcard.Import
import DolphinCore.Lib.Run

/-!
# DolphinCore.Memcard.Remove

Runs of imports and removals from a freshly formatted card: the chains of the files stay apart and in
step with the block map, as long as an import has room and a removal reads the entry that is current.
-/

namespace DolphinCore.Memcard

namespace BlockAlloc

/-! ## the removal of a chain -/

theorem collectBlocks_chain {bat : BlockAlloc} {first : Nat} {l : List Nat}
    (h : LinkChain bat.getNextBlock 0xFFFF first l) (hblocks : ∀ b ∈ l, b ≠ 0xFFFF ∧ b ≠ 0) {fuel : Nat}
    (hfuel : l.length < fuel) : bat.collectBlocks fuel first = some (l, 0xFFFF) := by
  induction h generalizing fuel with
  | @last a hstop =>
    obtain ⟨k, rfl⟩ := Nat.exists_eq_add_of_le hfuel
    rw [List.length_singleton, Nat.add_comm, collectBlocks, if_pos (hblocks a List.mem_cons_self), hstop,
      collectBlocks, if_neg (by decide)]
    rfl
  | @cons a b l hnext _ ih =>
    obtain ⟨k, rfl⟩ := Nat.exists_eq_succ_of_ne_zero (Nat.ne_of_gt (Nat.zero_lt_of_lt hfuel))
    rw [Nat.succ_eq_add_one, collectBlocks, if_pos (hblocks a List.mem_cons_self), hnext,
      ih (fun b hb => hblocks b (List.mem_cons_of_mem _ hb)) (Nat.lt_of_succ_lt_succ hfuel)]
    rfl

theorem foldl_update (l : List Nat) (map : Nat → Nat) (j : Nat) :
    l.foldl (fun map block => Function.update map (block - MC_FST_BLOCKS) 0) map j =
      if ∃ b ∈ l, j = b - MC_FST_BLOCKS then 0 else map j := by
  induction l generalizing map with
  | nil => exact (if_neg fun ⟨_, hb, _⟩ => absurd hb List.not_mem_nil).symm
  | cons a l ih =>
    rw [List.foldl_cons, ih]
    by_cases hrest : ∃ b ∈ l, j = b - MC_FST_BLOCKS
    · obtain ⟨b, hb, heq⟩ := hrest
      rw [if_pos ⟨b, hb, heq⟩, if_pos ⟨b, List.mem_cons_of_mem _ hb, heq⟩]
    rw [if_neg hrest]
    by_cases hself : j = a - MC_FST_BLOCKS
    · rw [hself, Function.update_self, if_pos ⟨a, List.mem_cons_self, rfl⟩]
    · rw [Function.update_of_ne hself, if_neg]
      rintro ⟨b, hb, heq⟩
      rcases List.mem_cons.mp hb with rfl | hb
      · exact hself heq
      · exact hrest ⟨b, hb, heq⟩

theorem clearBlocks_success {bat bat' : BlockAlloc} {first count : Nat}
    (h : bat.clearBlocks first count = some (true, bat')) :
    (first = 0xFFFF ∧ count = 0) ∨ (first ≠ 0xFFFF ∧ count ≠ 0) := by
  obtain ⟨⟨l, last⟩, hcollect, hresult⟩ := Option.map_eq_some_iff.mp h
  split at hresult
  swap
  · cases hresult
  next hlast =>
  split at hresult
  · cases hresult
  next hlength =>
  rw [not_not] at hlength
  rw [collectBlocks] at hcollect
  by_cases hmore : first ≠ 0xFFFF ∧ first ≠ 0
  · rw [if_pos hmore] at hcollect
    obtain ⟨rest, -, hrest⟩ := Option.map_eq_some_iff.mp hcollect
    cases hrest
    refine Or.inr ⟨hmore.1, ?_⟩
    rw [← hlength]
    exact Nat.succ_ne_zero _
  · rw [if_neg hmore] at hcollect
    cases hcollect
    refine Or.inl ⟨?_, hlength.symm⟩
    by_contra hne
    exact hmore ⟨hne, Nat.ne_of_gt hlast⟩

end BlockAlloc

namespace GCMemcard

/-- The blocks of the card that are free. -/
def freeBlockSet (s : GCMemcard) : Finset Nat := s.currentBat.freeSet s.maxBlock

theorem mem_freeBlockSet {s : GCMemcard} {b : Nat} :
    b ∈ s.freeBlockSet ↔ s.hasBlock b ∧ s.currentBat.Map (b - MC_FST_BLOCKS) = 0 :=
  BlockAlloc.mem_freeSet

variable {s s' : GCMemcard} {direntry : DEntry} {i : Nat}

theorem FileOk.congr (hsize : s.maxBlock ∈ cardSizes) (hmax : s'.maxBlock = s.maxBlock) {j : Nat}
    (h : s.FileOk j) (hdir : s'.currentDir.Dir j = s.currentDir.Dir j) (hmap : ∀ b ∈ s.fileBlocks j,
      s'.currentBat.Map (b - MC_FST_BLOCKS) = s.currentBat.Map (b - MC_FST_BLOCKS)) :
    s'.fileBlocks j = s.fileBlocks j ∧ s'.FileOk j := by
  have hhas (b : Nat) : s'.hasBlock b ↔ s.hasBlock b := by
    rw [GCMemcard.hasBlock, hmax, GCMemcard.hasBlock]
  have hlinked : (s'.currentDir.Dir j).BlockCount = 0 ∨
      LinkChain s'.currentBat.getNextBlock 0xFFFF (s'.currentDir.Dir j).FirstBlock (s.fileBlocks j) := by
    rw [hdir]
    refine h.linked.imp_right fun hlinked => hlinked.congr fun b hb => ?_
    have hblock := h.hasBlock b hb
    rw [getNextBlock_of_hasBlock hsize hblock, getNextBlock_of_hasBlock hsize hblock, hmap b hb]
  have heq : s'.fileBlocks j = s.fileBlocks j := by
    rcases hlinked with hzero | hlinked
    · rw [fileBlocks, fileBlocks, ← hdir, hzero]
      rfl
    · have hlength : (s.fileBlocks j).length = (s'.currentDir.Dir j).BlockCount := by
        rw [hdir]
        exact BlockAlloc.length_follow ..
      have hfollow := BlockAlloc.follow_eq hlinked
      rw [hlength] at hfollow
      exact hfollow
  refine ⟨heq, heq ▸ hlinked, heq ▸ h.nodup, fun b hb => ?_⟩
  rw [heq] at hb
  exact (hhas b).mpr (h.hasBlock b hb)

/-! ## the import -/

/-- There is room for the file among the blocks that are searched. -/
def Room (s : GCMemcard) (direntry : DEntry) : Prop :=
  direntry.BlockCount ≤ max 1 (s.currentBat.freeSet s.searchBound).card

theorem le_length_of_writeBlocks {s : GCMemcard} : (n : Nat) → {blocks : List GCMBlock} → {first : Nat} →
    {bat : BlockAlloc} → {data : Nat → GCMBlock} → {written : BlockAlloc × (Nat → GCMBlock)} →
    s.writeBlocks n blocks first bat data = some written → n ≤ blocks.length
  | 0, _, _, _, _, _, _ => Nat.zero_le _
  | n + 1, [], _, _, _, _, h => by cases h
  | n + 1, b :: blocks, first, bat, data, written, h => by
    rw [writeBlocks] at h
    split at h
    · exact Nat.succ_le_succ (le_length_of_writeBlocks n h)
    · cases h

section valid

variable {present : DEntry → Prop} {s : GCMemcard} (h : s.Valid present)

include h in
/-- **A successful import with room** has linked a chain of free blocks. -/
theorem Valid.importFile_success {saveBlocks saveBlocks' : List GCMBlock} {s' : GCMemcard}
    (hroom : s.Room direntry)
    (himport : s.importFile direntry saveBlocks = some (.SUCCESS, s', saveBlocks')) :
    ∃ i bat' data' chain, freeEntry s.currentDir = some i ∧ s.firstFreeBlock ≠ 0xFFFF ∧
      direntry.BlockCount ≤ s.currentBat.FreeBlocks ∧ s' = s.finishImport direntry (bat', data') ∧
      Written s s.firstFreeBlock direntry.BlockCount saveBlocks' s.currentBat s.mc_data_blocks bat' data'
        chain := by
  rcases h.importFile_eq direntry saveBlocks with ⟨-, code, hcode, heq⟩ |
    ⟨-, hfound, hblocks, ⟨i, hentry⟩, heq⟩
  · rw [himport] at heq
    cases heq
    exact absurd rfl hcode
  rw [himport] at heq
  obtain ⟨patched, -, heq⟩ := Option.bind_eq_some_iff.mp heq.symm
  obtain ⟨patched', -, heq⟩ := Option.bind_eq_some_iff.mp heq
  obtain ⟨written, hwrite, hresult⟩ := Option.map_eq_some_iff.mp heq
  cases hresult
  obtain ⟨bat', data', chain, hwrite', hw⟩ :=
    h.writeBlocks_room hfound (le_length_of_writeBlocks _ hwrite) hroom
  rw [hwrite] at hwrite'
  cases hwrite'
  exact ⟨i, bat', data', chain, hentry, hfound, hblocks, rfl, hw⟩

theorem Written.freeBlockSet_eq (hsize : s.maxBlock ∈ cardSizes) {first n : Nat}
    {blocks : List GCMBlock} {data : Nat → GCMBlock} {bat' : BlockAlloc} {data' : Nat → GCMBlock}
    {chain : List Nat} (hw : Written s first n blocks s.currentBat data bat' data' chain) :
    bat'.freeSet s.maxBlock = s.freeBlockSet \ chain.toFinset ∧ chain.toFinset ⊆ s.freeBlockSet := by
  constructor
  · ext b
    rw [Finset.mem_sdiff, List.mem_toFinset, mem_freeBlockSet, BlockAlloc.mem_freeSet]
    constructor
    · rintro ⟨hblock, hzero⟩
      have hnot : b ∉ chain := fun hb => by
        -- the entry of a block of the chain leads to a block, or ends the chain
        rw [← getNextBlock_of_hasBlock hsize hblock] at hzero
        rcases hw.linked with hnone | hlinked
        · rw [List.eq_nil_of_length_eq_zero (hw.length.trans hnone)] at hb
          cases hb
        · rcases hlinked.next_mem hb with hstop | hmem
          · rw [hzero] at hstop
            cases hstop
          · rw [hzero] at hmem
            exact absurd (hw.free 0 hmem).1.1 (by decide)
      refine ⟨⟨hblock, ?_⟩, hnot⟩
      rw [← hw.map _ fun a ha heq => ?_, hzero]
      have hlow' := (hw.free a ha).1.1
      have : b = a := by omega
      exact hnot (this ▸ ha)
    · rintro ⟨⟨hblock, hzero⟩, hnot⟩
      refine ⟨hblock, ?_⟩
      rw [hw.map _ fun a ha heq => ?_, hzero]
      have hlow := hblock.1
      have hlow' := (hw.free a ha).1.1
      have : b = a := by omega
      exact hnot (this ▸ ha)
  · intro b hb
    exact mem_freeBlockSet.mpr (hw.free b (List.mem_toFinset.mp hb))

include h in
/-- **An import keeps the card valid**, and has put the new file into the free entry. -/
theorem Valid.finishImport {blocks : List GCMBlock} {bat' : BlockAlloc} {data' : Nat → GCMBlock}
    {chain : List Nat} (hentry : freeEntry s.currentDir = some i)
    (hblocks : direntry.BlockCount ≤ s.currentBat.FreeBlocks)
    (hw : Written s s.firstFreeBlock direntry.BlockCount blocks s.currentBat s.mc_data_blocks bat' data'
      chain) :
    (s.finishImport direntry (bat', data')).Valid present ∧
      (s.finishImport direntry (bat', data')).fileBlocks i = chain ∧
      (s.finishImport direntry (bat', data')).freeBlockSet = s.freeBlockSet \ chain.toFinset := by
  have hself := dir_finishImport_self s direntry (bat', data') hentry
  have hnext := getNextBlock_finishImport s direntry (bat', data')
  have hhas := hasBlock_finishImport s direntry (bat', data')
  have hmax := maxBlock_finishImport s direntry (bat', data')
  have hbat := currentBat_finishImport s direntry (bat', data')
  obtain ⟨hfreed, hsub⟩ := hw.freeBlockSet_eq h.size
  have hfreeSet : (s.finishImport direntry (bat', data')).freeBlockSet =
      s.freeBlockSet \ chain.toFinset := by
    rw [← hfreed, freeBlockSet, hbat, hmax]
    rfl
  have hnew : (s.finishImport direntry (bat', data')).fileBlocks i = chain := by
    rw [fileBlocks, hself]
    change (s.finishImport direntry (bat', data')).currentBat.follow direntry.BlockCount
      s.firstFreeBlock = chain
    rcases hw.linked with hzero | hlinked
    · rw [hzero, List.eq_nil_of_length_eq_zero (hw.length.trans hzero)]
      rfl
    · rw [← hw.length]
      exact BlockAlloc.follow_eq (hnext ▸ hlinked)
  have hnewOk : (s.finishImport direntry (bat', data')).FileOk i := by
    refine ⟨?_, hnew ▸ hw.nodup, fun b hb => (hhas b).mpr (hw.free b (hnew ▸ hb)).1⟩
    rw [hnew, hself, hnext]
    exact hw.linked
  have hold {j : Nat} (hne : j ≠ i) (hfile : s.FileOk j) :
      (s.finishImport direntry (bat', data')).fileBlocks j = s.fileBlocks j ∧
        (s.finishImport direntry (bat', data')).FileOk j :=
    hfile.congr h.size hmax (dir_finishImport_of_ne s direntry _ hentry hne) fun b hb => by
      rw [hbat]
      exact (hw.frame_of_fileOk h.size hfile hb).1
  have hpresent {j : Nat} (hne : j ≠ i) :
      present ((s.finishImport direntry (bat', data')).currentDir.Dir j) →
        present (s.currentDir.Dir j) := by
    rw [dir_finishImport_of_ne s direntry _ hentry hne]
    exact id
  have happart {j : Nat} (hj : j < DIRLEN) (hne : j ≠ i)
      (hp : present ((s.finishImport direntry (bat', data')).currentDir.Dir j)) :
      ((s.finishImport direntry (bat', data')).fileBlocks j).Disjoint
        ((s.finishImport direntry (bat', data')).fileBlocks i) := by
    have hfile := h.file j hj (hpresent hne hp)
    rw [hnew, (hold hne hfile).1]
    exact fun b hb hb' => hfile.allocated h.size hb (hw.free b hb').2
  refine ⟨⟨(m_valid_finishImport ..).trans h.valid, hmax ▸ h.size, ?_, ?_, fun j hj hp => ?_,
    fun j hj k hk hne hp hp' => ?_⟩, hnew, hfreeSet⟩
  · change _ = ((s.finishImport direntry (bat', data')).freeBlockSet).card
    rw [hfreeSet, Finset.card_sdiff_of_subset hsub, List.toFinset_card_of_nodup hw.nodup, hw.length, hbat]
    change (bat'.FreeBlocks + 2 ^ 16 - direntry.BlockCount % 2 ^ 16) % 2 ^ 16 = _
    have hfree : s.currentBat.FreeBlocks = s.freeBlockSet.card := h.free
    have hle := h.freeBlocks_le
    have hmax' := (le_of_mem_cardSizes h.size).2
    rw [hw.freeBlocks, ← hfree]
    omega
  · rw [hmax, hbat]
    rcases hw.lastAllocated with hlast | hlast
    · exact hlast ▸ h.last
    · have hblock := (hw.free _ hlast).1
      exact ⟨Nat.le_of_succ_le hblock.1, hblock.2⟩
  · by_cases hne : j = i
    · exact hne ▸ hnewOk
    · exact (hold hne (h.file j hj (hpresent hne hp))).2
  · by_cases hji : j = i
    · exact hji ▸ (happart hk (fun heq => hne (hji.trans heq.symm)) hp').symm
    by_cases hki : k = i
    · exact hki ▸ happart hj hji hp
    rw [(hold hji (h.file j hj (hpresent hji hp))).1, (hold hki (h.file k hk (hpresent hki hp'))).1]
    exact h.disjoint j hj k hk hne (hpresent hji hp) (hpresent hki hp')

/-! ## the removal -/

/-- `RemoveFile` reads the entry of the directory that is not always the current one. -/
def SameEntry (s : GCMemcard) (i : Nat) : Prop :=
  (s.dir.Dir i).FirstBlock = (s.currentDir.Dir i).FirstBlock ∧
    (s.dir.Dir i).BlockCount = (s.currentDir.Dir i).BlockCount

/-- What a removal has made of the card. -/
structure Removed (s : GCMemcard) (i : Nat) (s' : GCMemcard) : Prop where
  valid : s'.m_valid = s.m_valid
  maxBlock : s'.maxBlock = s.maxBlock
  dir : s'.currentDir.Dir = Function.update s.currentDir.Dir i .empty
  map : ∀ j, s'.currentBat.Map j =
    if ∃ b ∈ s.fileBlocks i, j = b - MC_FST_BLOCKS then 0 else s.currentBat.Map j
  free : s'.currentBat.FreeBlocks =
    (s.currentBat.FreeBlocks + (s.currentDir.Dir i).BlockCount) % 2 ^ 16
  last : s'.currentBat.LastAllocated = s.currentBat.LastAllocated

include h in
theorem Valid.length_fileBlocks_lt (hfile : s.FileOk i) : (s.fileBlocks i).length < 2 ^ 16 := by
  have hsub : (s.fileBlocks i).toFinset ⊆ Finset.range s.maxBlock := fun b hb =>
    Finset.mem_range.mpr (hfile.hasBlock b (List.mem_toFinset.mp hb)).2
  have hle := Finset.card_le_card hsub
  rw [List.toFinset_card_of_nodup hfile.nodup, Finset.card_range] at hle
  have hmax := (le_of_mem_cardSizes h.size).2
  omega

include h in
/-- **The removal of a file** succeeds if the entry that it reads is the current one. -/
theorem Valid.removeFile_of_fileOk (hi : i < DIRLEN) (hsame : s.SameEntry i) (hfile : s.FileOk i)
    (hcount : (s.currentDir.Dir i).BlockCount ≠ 0) :
    ∃ s', s.removeFile i = some (.SUCCESS, s') ∧ Removed s i s' := by
  have hlinked := hfile.linked.resolve_left hcount
  have hlength : (s.fileBlocks i).length = (s.currentDir.Dir i).BlockCount := BlockAlloc.length_follow ..
  have hmax := (le_of_mem_cardSizes h.size).2
  have hcollect : s.currentBat.collectBlocks (2 ^ 16 + 1) (s.currentDir.Dir i).FirstBlock =
      some (s.fileBlocks i, 0xFFFF) := by
    refine BlockAlloc.collectBlocks_chain hlinked (fun b hb => ?_)
      (Nat.lt_succ_of_lt (h.length_fileBlocks_lt hfile))
    have hlow := (hfile.hasBlock b hb).1
    have hhigh := (hfile.hasBlock b hb).2
    rw [MC_FST_BLOCKS] at hlow
    omega
  have hvalid : ¬ s.m_valid = false := by
    rw [h.valid]
    decide
  have hclear : s.currentBat.clearBlocks (s.dir.Dir i).FirstBlock (s.dir.Dir i).BlockCount =
      some (true, { s.currentBat with
        Map := (s.fileBlocks i).foldl
          (fun map block => Function.update map (block - MC_FST_BLOCKS) 0) s.currentBat.Map
        FreeBlocks := (s.currentBat.FreeBlocks + (s.currentDir.Dir i).BlockCount) % 2 ^ 16 }) := by
    rw [BlockAlloc.clearBlocks, hsame.1, hsame.2, hcollect, Option.map_some,
      if_pos (show 0 < 0xFFFF by decide), if_neg (not_not.mpr hlength)]
  rw [removeFile, if_neg hvalid, if_neg (Nat.not_le.mpr hi), hclear, Option.map_some, if_pos rfl]
  refine ⟨_, rfl, ?_, ?_, ?_, fun j => ?_, ?_, ?_⟩
  · rw [m_valid_updateDir, m_valid_updateBat]
  · rw [maxBlock_updateDir, maxBlock_updateBat]
  · rw [currentDir_updateDir]
  · rw [currentBat_updateDir, currentBat_updateBat]
    exact BlockAlloc.foldl_update ..
  · rw [currentBat_updateDir, currentBat_updateBat]
  · rw [currentBat_updateDir, currentBat_updateBat]

theorem entry_of_removeFile {s' : GCMemcard} (hvalid : s.m_valid = true) (hsame : s.SameEntry i)
    (hremove : s.removeFile i = some (.SUCCESS, s')) :
    i < DIRLEN ∧ (((s.currentDir.Dir i).FirstBlock = 0xFFFF ∧ (s.currentDir.Dir i).BlockCount = 0) ∨
      ((s.currentDir.Dir i).FirstBlock ≠ 0xFFFF ∧ (s.currentDir.Dir i).BlockCount ≠ 0)) := by
  rw [removeFile, if_neg (by rw [hvalid]; decide)] at hremove
  split at hremove
  · cases hremove
  next hi =>
  refine ⟨Nat.not_le.mp hi, ?_⟩
  obtain ⟨⟨cleared, bat'⟩, hclear, hresult⟩ := Option.map_eq_some_iff.mp hremove
  cases cleared with
  | false => cases hresult
  | true =>
    rw [hsame.1, hsame.2] at hclear
    exact BlockAlloc.clearBlocks_success hclear

include h in
/-- **A removal keeps the card valid**, and frees the blocks of the file. -/
theorem Valid.removed {s' : GCMemcard} (hempty : ¬ present .empty) (hi : i < DIRLEN)
    (hp : present (s.currentDir.Dir i)) (hr : Removed s i s') :
    s'.Valid present ∧ s'.freeBlockSet = s.freeBlockSet ∪ (s.fileBlocks i).toFinset := by
  have hfile := h.file i hi hp
  have hfreeSet : s'.freeBlockSet = s.freeBlockSet ∪ (s.fileBlocks i).toFinset := by
    ext b
    rw [Finset.mem_union, List.mem_toFinset, mem_freeBlockSet, mem_freeBlockSet, hr.map,
      GCMemcard.hasBlock, hr.maxBlock]
    constructor
    · rintro ⟨hblock, hzero⟩
      by_cases hb : b ∈ s.fileBlocks i
      · exact Or.inr hb
      · refine Or.inl ⟨hblock, ?_⟩
        rwa [if_neg] at hzero
        rintro ⟨a, ha, heq⟩
        have hlow := hblock.1
        have hlow' := (hfile.hasBlock a ha).1
        have : b = a := by omega
        exact hb (this ▸ ha)
    · rintro (⟨hblock, hzero⟩ | hb)
      · refine ⟨hblock, ?_⟩
        split
        · rfl
        · exact hzero
      · exact ⟨hfile.hasBlock b hb, if_pos ⟨b, hb, rfl⟩⟩
  have hdisjoint : Disjoint s.freeBlockSet (s.fileBlocks i).toFinset := by
    refine Finset.disjoint_left.mpr fun b hb hb' => ?_
    exact hfile.allocated h.size (List.mem_toFinset.mp hb') (mem_freeBlockSet.mp hb).2
  have hpresent {j : Nat} (hp' : present (s'.currentDir.Dir j)) :
      j ≠ i ∧ s'.currentDir.Dir j = s.currentDir.Dir j ∧ present (s.currentDir.Dir j) := by
    by_cases hne : j = i
    · rw [hr.dir, hne, Function.update_self] at hp'
      exact absurd hp' hempty
    · have hdir : s'.currentDir.Dir j = s.currentDir.Dir j := by
        rw [hr.dir, Function.update_of_ne hne]
      exact ⟨hne, hdir, hdir ▸ hp'⟩
  have hold {j : Nat} (hj : j < DIRLEN) (hp' : present (s'.currentDir.Dir j)) :
      s'.fileBlocks j = s.fileBlocks j ∧ s'.FileOk j := by
    obtain ⟨hne, hdir, hpj⟩ := hpresent hp'
    have hfilej := h.file j hj hpj
    refine hfilej.congr h.size hr.maxBlock hdir fun b hb => ?_
    rw [hr.map, if_neg]
    rintro ⟨a, ha, heq⟩
    have hlow := (hfilej.hasBlock b hb).1
    have hlow' := (hfile.hasBlock a ha).1
    have : b = a := by omega
    exact h.disjoint j hj i hi hne hpj hp hb (this ▸ ha)
  refine ⟨⟨hr.valid.trans h.valid, hr.maxBlock ▸ h.size, ?_, ?_, fun j hj hp' => (hold hj hp').2,
    fun j hj k hk hne hp' hpk => ?_⟩, hfreeSet⟩
  · change _ = s'.freeBlockSet.card
    have hlength : (s.fileBlocks i).length = (s.currentDir.Dir i).BlockCount :=
      BlockAlloc.length_follow ..
    have hfree : s.currentBat.FreeBlocks = s.freeBlockSet.card := h.free
    have hmax := (le_of_mem_cardSizes h.size).2
    rw [hr.free, hfree, hfreeSet, Finset.card_union_of_disjoint hdisjoint,
      List.toFinset_card_of_nodup hfile.nodup, hlength]
    refine Nat.mod_eq_of_lt ?_
    have hle := h.freeBlocks_le
    have hlt : (s.fileBlocks i).length ≤ s.maxBlock := by
      have hsub : (s.fileBlocks i).toFinset ⊆ Finset.range s.maxBlock := fun b hb =>
        Finset.mem_range.mpr (hfile.hasBlock b (List.mem_toFinset.mp hb)).2
      have hcard := Finset.card_le_card hsub
      rwa [List.toFinset_card_of_nodup hfile.nodup, Finset.card_range] at hcard
    omega
  · rw [hr.last, hr.maxBlock]
    exact h.last
  · rw [(hold hj hp').1, (hold hk hpk).1]
    exact h.disjoint j hj k hk hne (hpresent hp').2.2 (hpresent hpk).2.2

end valid

/-! ## runs -/

/-- What is done to a card. -/
inductive Op
  | importFile (direntry : DEntry) (saveBlocks : List GCMBlock)
  | removeFile (index : Nat)

/-- A call that succeeds. -/
def step (s : GCMemcard) : Op → Option GCMemcard
  | .importFile direntry saveBlocks =>
    (s.importFile direntry saveBlocks).bind fun result =>
      if result.1 = .SUCCESS then some result.2.1 else none
  | .removeFile index =>
    (s.removeFile index).bind fun result => if result.1 = .SUCCESS then some result.2 else none

/-- An import has room, and a removal reads the current entry. -/
def StepOk (s : GCMemcard) : Op → Prop
  | .importFile direntry _ => s.Room direntry
  | .removeFile index => s.SameEntry index

theorem step_importFile {saveBlocks : List GCMBlock}
    (h : s.step (.importFile direntry saveBlocks) = some s') :
    ∃ saveBlocks', s.importFile direntry saveBlocks = some (.SUCCESS, s', saveBlocks') := by
  obtain ⟨⟨code, t, saveBlocks'⟩, himport, hresult⟩ := Option.bind_eq_some_iff.mp h
  split at hresult
  · next hcode =>
      cases hresult
      cases hcode
      exact ⟨saveBlocks', himport⟩
  · cases hresult

theorem step_removeFile (h : s.step (.removeFile i) = some s') :
    s.removeFile i = some (.SUCCESS, s') := by
  obtain ⟨⟨code, t⟩, hremove, hresult⟩ := Option.bind_eq_some_iff.mp h
  split at hresult
  · next hcode =>
      cases hresult
      cases hcode
      exact hremove
  · cases hresult

/-- The entry has been written by an import. -/
def Occupied (d : DEntry) : Prop := d.FirstBlock ≠ 0xFFFF

/-- The invariant of the runs: the occupied entries are files, and the listed ones are among them. -/
structure RunInv (s : GCMemcard) : Prop where
  valid : s.Valid Occupied
  occupied : ∀ i < DIRLEN, Listed (s.currentDir.Dir i) → Occupied (s.currentDir.Dir i)
  empty : ∀ i < DIRLEN, ¬ Occupied (s.currentDir.Dir i) → (s.currentDir.Dir i).BlockCount ≠ 0

theorem runInv_format (hdr : Header) {SizeMb : Nat} (hsize : SizeMb * MBIT_TO_BLOCKS ∈ cardSizes) :
    RunInv (format hdr SizeMb) :=
  ⟨valid_format (fun h => h rfl) hdr hsize, fun _ _ h => absurd rfl h, fun _ _ _ => Nat.succ_ne_zero 0xFFFE⟩

/-- **An import with room keeps the invariant**, and its file has the blocks that are no longer free. -/
theorem RunInv.importFile (h : RunInv s) {saveBlocks saveBlocks' : List GCMBlock}
    (hroom : s.Room direntry)
    (himport : s.importFile direntry saveBlocks = some (.SUCCESS, s', saveBlocks')) :
    RunInv s' ∧ ∃ i, freeEntry s.currentDir = some i ∧ Occupied (s'.currentDir.Dir i) ∧
      s'.freeBlockSet = s.freeBlockSet \ (s'.fileBlocks i).toFinset ∧
      (s'.fileBlocks i).toFinset ⊆ s.freeBlockSet := by
  obtain ⟨i, bat', data', chain, hentry, hfound, hblocks, rfl, hw⟩ :=
    h.valid.importFile_success hroom himport
  obtain ⟨hvalid, hnew, hfree⟩ := h.valid.finishImport hentry hblocks hw
  have hself := dir_finishImport_self s direntry (bat', data') hentry
  have hother {j : Nat} (hne : j ≠ i) := dir_finishImport_of_ne s direntry (bat', data') hentry hne
  have hoccupied : Occupied ((s.finishImport direntry (bat', data')).currentDir.Dir i) := by
    rw [hself]
    exact hfound
  refine ⟨⟨hvalid, fun j hj hlisted => ?_, fun j hj hnot => ?_⟩, i, hentry, hoccupied, hnew ▸ hfree, ?_⟩
  · by_cases hne : j = i
    · exact hne ▸ hoccupied
    · rw [hother hne] at hlisted ⊢
      exact h.occupied j hj hlisted
  · by_cases hne : j = i
    · exact absurd (hne ▸ hoccupied) hnot
    · rw [hother hne] at hnot ⊢
      exact h.empty j hj hnot
  · rw [hnew]
    exact (hw.freeBlockSet_eq h.valid.size).2

/-- **A removal of the current entry keeps the invariant**, and frees the blocks of its file. -/
theorem RunInv.removeFile (h : RunInv s) (hsame : s.SameEntry i)
    (hremove : s.removeFile i = some (.SUCCESS, s')) :
    RunInv s' ∧ s'.freeBlockSet = s.freeBlockSet ∪ (s.fileBlocks i).toFinset ∧
      Disjoint s.freeBlockSet (s.fileBlocks i).toFinset := by
  obtain ⟨hi, hentry⟩ := entry_of_removeFile h.valid.valid hsame hremove
  obtain ⟨hoccupied, hcount⟩ := hentry.resolve_left fun hnone =>
    h.empty i hi (fun hocc => hocc hnone.1) hnone.2
  have hfile := h.valid.file i hi hoccupied
  obtain ⟨t, hremove', hr⟩ := h.valid.removeFile_of_fileOk hi hsame hfile hcount
  rw [hremove] at hremove'
  cases hremove'
  obtain ⟨hvalid, hfree⟩ := h.valid.removed (fun hocc => hocc rfl) hi hoccupied hr
  refine ⟨⟨hvalid, fun j hj hlisted => ?_, fun j hj hnot => ?_⟩, hfree,
    Finset.disjoint_left.mpr fun b hb hb' =>
      hfile.allocated h.valid.size (List.mem_toFinset.mp hb') (mem_freeBlockSet.mp hb).2⟩
  · by_cases hne : j = i
    · rw [hr.dir, hne, Function.update_self] at hlisted
      exact absurd rfl hlisted
    · rw [hr.dir, Function.update_of_ne hne] at hlisted ⊢
      exact h.occupied j hj hlisted
  · by_cases hne : j = i
    · rw [hr.dir, hne, Function.update_self]
      decide
    · rw [hr.dir, Function.update_of_ne hne] at hnot ⊢
      exact h.empty j hj hnot

theorem RunInv.step (h : RunInv s) {op : Op} (hok : s.StepOk op) (hstep : s.step op = some s') :
    RunInv s' := by
  cases op with
  | importFile direntry saveBlocks =>
    obtain ⟨saveBlocks', himport⟩ := step_importFile hstep
    exact (h.importFile hok himport).1
  | removeFile i => exact (h.removeFile hok (step_removeFile hstep)).1

/-- The files of the card are chains that do not share a block, the count of free blocks is right, and a
removal of the current entry frees the blocks of its file: also of a file that has just been imported. -/
structure Consistent (s : GCMemcard) : Prop where
  file : ∀ i < DIRLEN, Listed (s.currentDir.Dir i) → s.FileOk i
  disjoint : ∀ i < DIRLEN, ∀ j < DIRLEN, i ≠ j → Listed (s.currentDir.Dir i) →
    Listed (s.currentDir.Dir j) → (s.fileBlocks i).Disjoint (s.fileBlocks j)
  free : s.currentBat.FreeBlocks = s.freeBlockSet.card
  removes : ∀ i < DIRLEN, Listed (s.currentDir.Dir i) → (s.currentDir.Dir i).BlockCount ≠ 0 →
    s.SameEntry i → ∃ s', s.step (.removeFile i) = some s'
  removed : ∀ i s', s.SameEntry i → s.step (.removeFile i) = some s' →
    s'.freeBlockSet = s.freeBlockSet ∪ (s.fileBlocks i).toFinset ∧
      Disjoint s.freeBlockSet (s.fileBlocks i).toFinset
  restored : ∀ direntry saveBlocks i s' s'', s.Room direntry →
    s.step (.importFile direntry saveBlocks) = some s' → freeEntry s.currentDir = some i →
    s'.SameEntry i → s'.step (.removeFile i) = some s'' → s''.freeBlockSet = s.freeBlockSet

theorem RunInv.consistent {s : GCMemcard} (h : RunInv s) : s.Consistent where
  file i hi hlisted := h.valid.file i hi (h.occupied i hi hlisted)
  disjoint i hi j hj hne hlisted hlisted' :=
    h.valid.disjoint i hi j hj hne (h.occupied i hi hlisted) (h.occupied j hj hlisted')
  free := h.valid.free
  removes i hi hlisted hcount hsame := by
    obtain ⟨s', hremove, -⟩ := h.valid.removeFile_of_fileOk hi hsame
      (h.valid.file i hi (h.occupied i hi hlisted)) hcount
    refine ⟨s', ?_⟩
    rw [GCMemcard.step, hremove]
    rfl
  removed i s' hsame hstep := (h.removeFile hsame (step_removeFile hstep)).2
  restored direntry saveBlocks i s' s'' hroom himport hentry hsame hremove := by
    obtain ⟨saveBlocks', himport⟩ := step_importFile himport
    obtain ⟨h', i', hentry', -, hfree, hsub⟩ := h.importFile hroom himport
    rw [hentry] at hentry'
    cases hentry'
    rw [(h'.removeFile hsame (step_removeFile hremove)).2.1, hfree, Finset.sdiff_union_of_subset hsub]

/-- **The invariant of the card**: in a run whose imports have room and whose removals read the current
entry, every state is consistent. -/
theorem consistent_of_run (hdr : Header) {SizeMb : Nat} (hsize : SizeMb * MBIT_TO_BLOCKS ∈ cardSizes)
    {s : GCMemcard} (h : Run step StepOk (format hdr SizeMb) s) : s.Consistent :=
  (h.invariant (runInv_format hdr hsize) fun _ _ _ hinv hok hstep => hinv.step hok hstep).consistent

theorem consistent_of_run_one :
    ∃ s, (format cardHeader 4).step (.importFile (entryOf 1) [.erase]) = some s ∧ s.Consistent := by
  have hstep : ((format cardHeader 4).step (.importFile (entryOf 1) [.erase])).isSome = true := by
    decide
  obtain ⟨s, hs⟩ := Option.isSome_iff_exists.mp hstep
  exact ⟨s, hs, consistent_of_run cardHeader (by decide) (Run.single (.importFile (entryOf 1) [.erase])
    (Nat.le_max_left 1 _) hs)⟩

/-- A file with one block more than are searched is imported, and its chain is too short. -/
theorem not_consistent_fiftyFive :
    ∃ s, Run step (fun _ _ => True) (format cardHeader 4) s ∧ ¬ s.Consistent := by
  have hstep : ((format cardHeader 4).step
      (.importFile (entryOf 55) (List.replicate 55 .erase))).any (fun s =>
        decide ((s.currentDir.Dir 0).Gamecode ≠ 0xFFFFFFFF) && decide (0xFFFF ∈ s.fileBlocks 0) &&
          decide (¬ s.hasBlock 0xFFFF)) = true := by
    decide
  obtain ⟨s, hs, hbad⟩ := (Option.any_eq_true _ _).mp hstep
  rw [Bool.and_eq_true, Bool.and_eq_true] at hbad
  obtain ⟨⟨hlisted, hmem⟩, hout⟩ := hbad
  have hlisted' : (s.currentDir.Dir 0).Gamecode ≠ 0xFFFFFFFF := of_decide_eq_true hlisted
  refine ⟨s, Run.single _ trivial hs, fun hconsistent => of_decide_eq_true hout ?_⟩
  exact (hconsistent.file 0 (by decide) hlisted').hasBlock 0xFFFF (of_decide_eq_true hmem)

end GCMemcard

end DolphinCore.Memcard
