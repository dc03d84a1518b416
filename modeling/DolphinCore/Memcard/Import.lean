import DolphinCore.Memcard.Allocate

/-!
# DolphinCore.Memcard.Import

The import of a file into a valid card: the files that a card holds, what the import leaves of them, and
when it does not run out of blocks.
-/

namespace DolphinCore.Memcard

namespace BlockAlloc

/-- The first `n` blocks of the chain from a block on. -/
def follow (bat : BlockAlloc) : Nat → Nat → List Nat
  | 0, _ => []
  | n + 1, block => block :: follow bat n (bat.getNextBlock block)

theorem follow_eq {bat : BlockAlloc} {stop first : Nat} {l : List Nat}
    (h : LinkChain bat.getNextBlock stop first l) : bat.follow l.length first = l := by
  induction h with
  | last => rfl
  | cons hnext _ ih => rw [List.length_cons, follow, hnext, ih]

theorem length_follow (bat : BlockAlloc) : (n first : Nat) → (bat.follow n first).length = n
  | 0, _ => rfl
  | n + 1, _ => congrArg (· + 1) (length_follow bat n _)

end BlockAlloc

namespace GCMemcard

/-! ## the files of a card -/

/-- The blocks of the file of an entry. -/
def fileBlocks (s : GCMemcard) (i : Nat) : List Nat :=
  s.currentBat.follow (s.currentDir.Dir i).BlockCount (s.currentDir.Dir i).FirstBlock

/-- The blocks of a file are a chain in the card, without a cycle and of the length that the entry says. -/
structure FileOk (s : GCMemcard) (i : Nat) : Prop where
  linked : (s.currentDir.Dir i).BlockCount = 0 ∨
    LinkChain s.currentBat.getNextBlock 0xFFFF (s.currentDir.Dir i).FirstBlock (s.fileBlocks i)
  nodup : (s.fileBlocks i).Nodup
  hasBlock : ∀ b ∈ s.fileBlocks i, s.hasBlock b

/-- The entry is that of a file. -/
def Listed (d : DEntry) : Prop := d.Gamecode ≠ 0xFFFFFFFF

/-- A valid card, whose entries with the given property are files. -/
structure Valid (present : DEntry → Prop) (s : GCMemcard) : Prop where
  valid : s.m_valid = true
  size : s.maxBlock ∈ cardSizes
  free : s.currentBat.FreeBlocks = (s.currentBat.freeSet s.maxBlock).card
  last : 4 ≤ s.currentBat.LastAllocated ∧ s.currentBat.LastAllocated < s.maxBlock
  file : ∀ i < DIRLEN, present (s.currentDir.Dir i) → s.FileOk i
  disjoint : ∀ i < DIRLEN, ∀ j < DIRLEN, i ≠ j → present (s.currentDir.Dir i) →
    present (s.currentDir.Dir j) → (s.fileBlocks i).Disjoint (s.fileBlocks j)

variable {s : GCMemcard} {i : Nat} {direntry : DEntry}

theorem FileOk.allocated (hsize : s.maxBlock ∈ cardSizes) {i b : Nat} (h : s.FileOk i)
    (hb : b ∈ s.fileBlocks i) : s.currentBat.Map (b - MC_FST_BLOCKS) ≠ 0 := by
  rcases h.linked with hzero | hlinked
  · rw [fileBlocks, hzero] at hb
    cases hb
  · rw [← getNextBlock_of_hasBlock hsize (h.hasBlock b hb)]
    rcases hlinked.next_mem hb with hstop | hmem
    · rw [hstop]
      decide
    · have := (h.hasBlock _ hmem).1
      rw [MC_FST_BLOCKS] at this
      omega

theorem readBlocks_chain {first : Nat} {l : List Nat}
    (h : LinkChain s.currentBat.getNextBlock 0xFFFF first l) (hblocks : ∀ b ∈ l, s.hasBlock b)
    (hend : ¬ s.hasBlock 0xFFFF) {n : Nat} (hn : l.length ≤ n) :
    s.readBlocks n first = some (if n = l.length then .SUCCESS else .FAIL,
      l.map fun b => s.mc_data_blocks (b - MC_FST_BLOCKS)) := by
  have hstep {first n : Nat} (hfirst : s.hasBlock first) : s.readBlocks (n + 1) first =
      (s.readBlocks n (s.currentBat.getNextBlock first)).map fun rest =>
        (rest.1, s.mc_data_blocks (first - MC_FST_BLOCKS) :: rest.2) := by
    rw [readBlocks, if_neg, if_pos hfirst]
    rintro (heq | heq)
    · have := hfirst.1
      rw [heq, MC_FST_BLOCKS] at this
      cases this
    · exact hend (heq ▸ hfirst)
  induction h generalizing n with
  | @last a hstop =>
    obtain ⟨k, rfl⟩ := Nat.exists_eq_succ_of_ne_zero (Nat.ne_of_gt hn)
    rw [Nat.succ_eq_add_one, hstep (hblocks a List.mem_cons_self), hstop]
    cases k with
    | zero => rfl
    | succ k =>
      rw [readBlocks, if_pos (Or.inr rfl), if_neg (by
        rw [List.length_singleton]
        omega)]
      rfl
  | @cons a b l hnext _ ih =>
    obtain ⟨k, rfl⟩ := Nat.exists_eq_succ_of_ne_zero (n := n) (by
      rw [List.length_cons] at hn
      omega)
    rw [Nat.succ_eq_add_one, hstep (hblocks a List.mem_cons_self), hnext,
      ih (fun b hb => hblocks b (List.mem_cons_of_mem _ hb)) (Nat.le_of_succ_le_succ hn),
      Option.map_some, List.length_cons, List.map_cons]
    simp only [Nat.add_right_cancel_iff]

theorem valid_format {present : DEntry → Prop} (hempty : ¬ present .empty) (hdr : Header) {SizeMb : Nat}
    (hsize : SizeMb * MBIT_TO_BLOCKS ∈ cardSizes) : (format hdr SizeMb).Valid present := by
  have hmax := le_of_mem_cardSizes hsize
  refine ⟨rfl, hsize, ?_, ⟨Nat.le_refl _, ?_⟩, fun i _ h => absurd h hempty,
    fun i _ j _ _ h => absurd h hempty⟩
  · change (SizeMb * MBIT_TO_BLOCKS - MC_FST_BLOCKS) % 2 ^ 16 =
      ((Finset.Ico MC_FST_BLOCKS (SizeMb * MBIT_TO_BLOCKS)).filter fun _ => (0 : Nat) = 0).card
    rw [Finset.filter_true_of_mem fun _ _ => rfl, Nat.card_Ico]
    exact Nat.mod_eq_of_lt (by omega)
  · change 4 < SizeMb * MBIT_TO_BLOCKS
    omega

/-! ## the copies -/

@[simp] theorem currentDir_updateDir (s : GCMemcard) (d : Directory) : (s.updateDir d).currentDir = d := by
  cases h : s.CurrentDir <;> simp only [updateDir, currentDir, h]

@[simp] theorem currentBat_updateDir (s : GCMemcard) (d : Directory) :
    (s.updateDir d).currentBat = s.currentBat := by
  cases h : s.CurrentDir <;> simp only [updateDir, currentBat, h]

@[simp] theorem currentBat_updateBat (s : GCMemcard) (b : BlockAlloc) : (s.updateBat b).currentBat = b := by
  cases h : s.CurrentBat <;> simp only [updateBat, currentBat, h]

@[simp] theorem currentDir_updateBat (s : GCMemcard) (b : BlockAlloc) :
    (s.updateBat b).currentDir = s.currentDir := by
  cases h : s.CurrentBat <;> simp only [updateBat, currentDir, h]

@[simp] theorem m_valid_updateDir (s : GCMemcard) (d : Directory) : (s.updateDir d).m_valid = s.m_valid := by
  cases h : s.CurrentDir <;> simp only [updateDir, h]

@[simp] theorem m_valid_updateBat (s : GCMemcard) (b : BlockAlloc) : (s.updateBat b).m_valid = s.m_valid := by
  cases h : s.CurrentBat <;> simp only [updateBat, h]

@[simp] theorem maxBlock_updateDir (s : GCMemcard) (d : Directory) :
    (s.updateDir d).maxBlock = s.maxBlock := by
  cases h : s.CurrentDir <;> simp only [updateDir, h]

@[simp] theorem maxBlock_updateBat (s : GCMemcard) (b : BlockAlloc) :
    (s.updateBat b).maxBlock = s.maxBlock := by
  cases h : s.CurrentBat <;> simp only [updateBat, h]

section finishImport

variable (s : GCMemcard) (direntry : DEntry) (written : BlockAlloc × (Nat → GCMBlock))

theorem currentDir_finishImport : (s.finishImport direntry written).currentDir =
    insertEntry s.currentDir direntry s.firstFreeBlock := by
  exact (currentDir_updateBat ..).trans (currentDir_updateDir ..)

theorem currentBat_finishImport : (s.finishImport direntry written).currentBat =
    { written.1 with
      FreeBlocks := (written.1.FreeBlocks + 2 ^ 16 - direntry.BlockCount % 2 ^ 16) % 2 ^ 16
      UpdateCounter := (written.1.UpdateCounter + 1) % 2 ^ 16 } := by
  exact currentBat_updateBat ..

theorem m_valid_finishImport : (s.finishImport direntry written).m_valid = s.m_valid := by
  exact (m_valid_updateBat ..).trans (m_valid_updateDir ..)

theorem maxBlock_finishImport : (s.finishImport direntry written).maxBlock = s.maxBlock := by
  exact (maxBlock_updateBat ..).trans (maxBlock_updateDir ..)

theorem getNextBlock_finishImport :
    (s.finishImport direntry written).currentBat.getNextBlock = written.1.getNextBlock := by
  rw [currentBat_finishImport]
  rfl

theorem hasBlock_finishImport (b : Nat) : (s.finishImport direntry written).hasBlock b ↔ s.hasBlock b := by
  rw [hasBlock, maxBlock_finishImport, hasBlock]

theorem dir_finishImport_self (h : freeEntry s.currentDir = some i) :
    (s.finishImport direntry written).currentDir.Dir i =
      { direntry with
        FirstBlock := s.firstFreeBlock
        CopyCounter := (direntry.CopyCounter + 1) % 2 ^ 8 } := by
  rw [currentDir_finishImport, insertEntry, h]
  exact Function.update_self ..

theorem dir_finishImport_of_ne {i j : Nat} (h : freeEntry s.currentDir = some i) (hne : j ≠ i) :
    (s.finishImport direntry written).currentDir.Dir j = s.currentDir.Dir j := by
  rw [currentDir_finishImport, insertEntry, h]
  exact Function.update_of_ne hne ..

end finishImport

/-! ## the saves that are tied to a card -/

/-- The save has all the blocks that are changed before it is imported. -/
def Patchable (direntry : DEntry) (n : Nat) : Prop :=
  (direntry.hasName "f_zero.dat" = true → 4 ≤ n) ∧
    (direntry.hasName "PSO_SYSTEM" = true ∨ direntry.hasName "PSO3_SYSTEM" = true → 2 ≤ n)

theorem length_writeBytes (i offset : Nat) (bytes : List Byte) (FileBuffer : List GCMBlock) :
    (writeBytes i offset bytes FileBuffer).length = FileBuffer.length := List.length_modify ..

theorem fzerogxMakeSaveGameValid_spec (hdr : Header) (direntry : DEntry) (FileBuffer : List GCMBlock) :
    (¬ (direntry.hasName "f_zero.dat" = true → 4 ≤ FileBuffer.length) ∧
        fzerogxMakeSaveGameValid hdr direntry FileBuffer = none) ∨
      (direntry.hasName "f_zero.dat" = true → 4 ≤ FileBuffer.length) ∧
        ∃ patched, fzerogxMakeSaveGameValid hdr direntry FileBuffer = some patched ∧
          patched.length = FileBuffer.length := by
  rw [fzerogxMakeSaveGameValid]
  by_cases hname : direntry.hasName "f_zero.dat" = false
  · rw [if_pos hname]
    exact Or.inr ⟨fun h => absurd (hname.symm.trans h) Bool.false_ne_true, FileBuffer, rfl, rfl⟩
  rw [if_neg hname]
  by_cases hlen : FileBuffer.length < 4
  · rw [if_pos hlen]
    exact Or.inl ⟨fun h => Nat.not_le.mpr hlen (h (Bool.eq_true_of_not_eq_false hname)), rfl⟩
  · rw [if_neg hlen]
    refine Or.inr ⟨fun _ => Nat.not_lt.mp hlen, _, rfl, ?_⟩
    simp only [length_writeBytes]

theorem psoMakeSaveGameValid_spec (hdr : Header) (direntry : DEntry) (FileBuffer : List GCMBlock) :
    (¬ (direntry.hasName "PSO_SYSTEM" = true ∨ direntry.hasName "PSO3_SYSTEM" = true →
          2 ≤ FileBuffer.length) ∧ psoMakeSaveGameValid hdr direntry FileBuffer = none) ∨
      (direntry.hasName "PSO_SYSTEM" = true ∨ direntry.hasName "PSO3_SYSTEM" = true →
          2 ≤ FileBuffer.length) ∧
        ∃ patched, psoMakeSaveGameValid hdr direntry FileBuffer = some patched ∧
          patched.length = FileBuffer.length := by
  rw [psoMakeSaveGameValid]
  by_cases hname : direntry.hasName "PSO_SYSTEM" = false ∧ direntry.hasName "PSO3_SYSTEM" = false
  · rw [if_pos hname]
    refine Or.inr ⟨fun h => ?_, FileBuffer, rfl, rfl⟩
    rw [hname.1, hname.2] at h
    exact absurd h (by decide)
  rw [if_neg hname]
  have hnamed : direntry.hasName "PSO_SYSTEM" = true ∨ direntry.hasName "PSO3_SYSTEM" = true := by
    rwa [← Bool.not_eq_true, ← Bool.not_eq_true, ← not_or, not_not] at hname
  by_cases hlen : FileBuffer.length < 2
  · rw [if_pos hlen]
    exact Or.inl ⟨fun h => Nat.not_le.mpr hlen (h hnamed), rfl⟩
  · rw [if_neg hlen]
    refine Or.inr ⟨fun _ => Nat.not_lt.mp hlen, _, rfl, ?_⟩
    simp only [length_writeBytes]

/-! ## the import -/

/-- The import is refused by one of its checks: there are too many files, too few free blocks, a file with
this name, or none of the blocks that are searched is free. -/
def Refused (s : GCMemcard) (direntry : DEntry) : Prop :=
  DIRLEN ≤ s.getNumFiles ∨ s.currentBat.FreeBlocks < direntry.BlockCount ∨
    s.titlePresent direntry ≠ DIRLEN ∨
    ∀ i, MC_FST_BLOCKS ≤ i → i < s.searchBound ∨ i < s.currentBat.LastAllocated →
      s.currentBat.Map (i - MC_FST_BLOCKS) ≠ 0

section valid

variable {present : DEntry → Prop} (h : s.Valid present)

include h in
theorem Valid.word_ne_zero : s.currentBat.word 4 ≠ 0 := by
  have hlast := h.last.1
  change s.currentBat.LastAllocated ≠ 0
  omega

include h in
theorem Valid.firstFreeBlock_spec (hfound : s.firstFreeBlock ≠ 0xFFFF) :
    s.hasBlock s.firstFreeBlock ∧ s.currentBat.Map (s.firstFreeBlock - MC_FST_BLOCKS) = 0 ∧
      (s.firstFreeBlock < s.searchBound ∨ s.firstFreeBlock < s.currentBat.LastAllocated ∧
          ∀ i, MC_FST_BLOCKS ≤ i → i < s.firstFreeBlock →
            s.currentBat.Map (i - MC_FST_BLOCKS) ≠ 0) := by
  obtain ⟨hlow, hzero, hwhere⟩ := BlockAlloc.nextFreeBlock_spec (searchBound_le h.size) h.last.1
    h.word_ne_zero hfound
  refine ⟨⟨hlow, ?_⟩, hzero, hwhere⟩
  rcases hwhere with hlt | hlt
  · exact Nat.lt_of_lt_of_le hlt (Nat.sub_le _ _)
  · exact Nat.lt_trans hlt.1 h.last.2

include h in
theorem Valid.firstFreeBlock_eq_end_iff : s.firstFreeBlock = 0xFFFF ↔
      ∀ i, MC_FST_BLOCKS ≤ i → i < s.searchBound ∨ i < s.currentBat.LastAllocated →
        s.currentBat.Map (i - MC_FST_BLOCKS) ≠ 0 := by
  constructor
  · intro hend i hlow hi hzero
    have hmem : i ∈ s.currentBat.freeSet s.maxBlock := by
      refine BlockAlloc.mem_freeSet.mpr ⟨⟨hlow, ?_⟩, hzero⟩
      have hlast := h.last.2
      have hle : s.searchBound ≤ s.maxBlock := Nat.sub_le _ _
      omega
    have hfree : s.currentBat.FreeBlocks ≠ 0 := by
      rw [h.free]
      exact Finset.card_ne_zero_of_mem hmem
    have horder : i ∈ BlockAlloc.searchOrder s.searchBound s.currentBat.LastAllocated := by
      rw [BlockAlloc.mem_searchOrder]
      omega
    rw [firstFreeBlock, BlockAlloc.nextFreeBlock, if_neg hfree,
      Nat.min_eq_left (searchBound_le h.size)] at hend
    cases hfind : (BlockAlloc.searchOrder s.searchBound s.currentBat.LastAllocated).find?
        fun i => s.currentBat.word i == 0 with
    | none =>
      have hnot := List.find?_eq_none.mp hfind i horder
      rw [BlockAlloc.word_of_le hlow, hzero] at hnot
      exact hnot rfl
    | some r =>
      have hr := BlockAlloc.mem_searchOrder.mp (List.mem_of_find?_eq_some hfind)
      change ((BlockAlloc.searchOrder (s.maxBlock - MC_FST_BLOCKS) _).find? _).getD _ = _ at hend
      rw [hfind, Option.getD_some] at hend
      have hlast := h.last.2
      have hle : s.searchBound ≤ s.maxBlock := Nat.sub_le _ _
      have hmax := (le_of_mem_cardSizes h.size).2
      omega
  · intro hnone
    by_contra hfound
    obtain ⟨hblock, hzero, hwhere⟩ := h.firstFreeBlock_spec hfound
    refine hnone _ hblock.1 ?_ hzero
    rcases hwhere with hlt | hlt
    · exact Or.inl hlt
    · exact Or.inr hlt.1

include h in
/-- **The checks of `ImportFile`**: it changes nothing where it is refused, and goes on to the saves that
are tied to a card where it is not. -/
theorem Valid.importFile_eq (direntry : DEntry) (saveBlocks : List GCMBlock) :
    (s.Refused direntry ∧ ∃ code, code ≠ Code.SUCCESS ∧
        s.importFile direntry saveBlocks = some (code, s, saveBlocks)) ∨
      (¬ s.Refused direntry ∧ s.firstFreeBlock ≠ 0xFFFF ∧
        direntry.BlockCount ≤ s.currentBat.FreeBlocks ∧
        (∃ i, freeEntry s.currentDir = some i) ∧
        s.importFile direntry saveBlocks =
          (fzerogxMakeSaveGameValid s.hdr direntry saveBlocks).bind fun saveBlocks =>
          (psoMakeSaveGameValid s.hdr direntry saveBlocks).bind fun saveBlocks =>
          (s.writeBlocks direntry.BlockCount saveBlocks s.firstFreeBlock s.currentBat
            s.mc_data_blocks).map fun written =>
              (.SUCCESS, s.finishImport direntry written, saveBlocks)) := by
  have hvalid : ¬ s.m_valid = false := by
    rw [h.valid]
    decide
  rw [importFile, if_neg hvalid]
  by_cases hfiles : DIRLEN ≤ s.getNumFiles
  · rw [if_pos hfiles]
    exact Or.inl ⟨Or.inl hfiles, .OUTOFDIRENTRIES, nofun, rfl⟩
  rw [if_neg hfiles]
  by_cases hblocks : s.currentBat.FreeBlocks < direntry.BlockCount
  · rw [if_pos hblocks]
    exact Or.inl ⟨Or.inr (Or.inl hblocks), .OUTOFBLOCKS, nofun, rfl⟩
  rw [if_neg hblocks]
  by_cases htitle : s.titlePresent direntry ≠ DIRLEN
  · rw [if_pos htitle]
    exact Or.inl ⟨Or.inr (Or.inr (Or.inl htitle)), .TITLEPRESENT, nofun, rfl⟩
  rw [if_neg htitle]
  by_cases hfirst : s.firstFreeBlock = 0xFFFF
  · rw [if_pos hfirst]
    exact Or.inl ⟨Or.inr (Or.inr (Or.inr (h.firstFreeBlock_eq_end_iff.mp hfirst))), .OUTOFBLOCKS,
      nofun, rfl⟩
  rw [if_neg hfirst]
  refine Or.inr ⟨?_, hfirst, Nat.not_lt.mp hblocks, ?_, rfl⟩
  · rintro (h' | h' | h' | h')
    · exact hfiles h'
    · exact hblocks h'
    · exact htitle h'
    · exact hfirst (h.firstFreeBlock_eq_end_iff.mpr h')
  · -- fewer files than entries
    cases hentry : freeEntry s.currentDir with
    | some i => exact ⟨i, rfl⟩
    | none =>
      refine absurd ?_ hfiles
      rw [getNumFiles, List.countP_eq_length.mpr fun i hi => ?_, List.length_range]
      have hnot := List.find?_eq_none.mp hentry i hi
      rw [beq_iff_eq] at hnot
      exact decide_eq_true hnot

include h in
theorem Valid.writeBlocks_room (hfound : s.firstFreeBlock ≠ 0xFFFF) {n : Nat} {blocks : List GCMBlock}
    (hlen : n ≤ blocks.length) (hroom : n ≤ max 1 (s.currentBat.freeSet s.searchBound).card) :
    ∃ bat' data' chain, s.writeBlocks n blocks s.firstFreeBlock s.currentBat s.mc_data_blocks =
        some (bat', data') ∧
      Written s s.firstFreeBlock n blocks s.currentBat s.mc_data_blocks bat' data' chain := by
  obtain ⟨hblock, hzero, hwhere⟩ := h.firstFreeBlock_spec hfound
  have hfree : s.currentBat.FreeBlocks ≠ 0 := by
    rw [h.free]
    exact Finset.card_ne_zero_of_mem (BlockAlloc.mem_freeSet.mpr ⟨hblock, hzero⟩)
  cases n with
  | zero =>
    exact ⟨s.currentBat, s.mc_data_blocks, [], by rw [writeBlocks], rfl, Or.inl rfl, List.nodup_nil,
      fun _ hb => absurd hb List.not_mem_nil, fun _ _ => rfl, rfl, fun _ _ => rfl, Or.inl rfl, rfl⟩
  | succ n =>
    refine writeBlocks_spec h.size n hlen hfree hblock hzero ?_
    rcases hwhere with hlt | ⟨-, hleast⟩
    · omega
    · rcases Nat.lt_or_ge s.firstFreeBlock s.searchBound with hlt | hge
      · omega
      · -- no block below the bound is free, so that there is one block to write
        have hempty : s.currentBat.freeSet s.searchBound = ∅ := by
          refine Finset.eq_empty_of_forall_notMem fun i hi => ?_
          obtain ⟨hi, hzero'⟩ := BlockAlloc.mem_freeSet.mp hi
          exact hleast i hi.1 (Nat.lt_of_lt_of_le hi.2 hge) hzero'
        rw [hempty, Finset.card_empty] at hroom
        omega

include h in
theorem Valid.freeBlocks_le : s.currentBat.FreeBlocks ≤ s.maxBlock := by
  rw [h.free]
  refine Nat.le_trans (Finset.card_le_card (Finset.filter_subset _ _)) ?_
  rw [Nat.card_Ico]
  exact Nat.sub_le _ _

end valid

/-! ## the data of the files -/

theorem getSaveData_eq (hvalid : s.m_valid = true) (hsize : s.maxBlock ∈ cardSizes)
    (hi : i < DIRLEN) (hfirst : (s.currentDir.Dir i).FirstBlock ≤ s.maxBlock)
    (hcount : (s.currentDir.Dir i).BlockCount ≤ s.maxBlock) :
    s.getSaveData i =
      s.readBlocks (s.currentDir.Dir i).BlockCount (s.currentDir.Dir i).FirstBlock := by
  have hmax := (le_of_mem_cardSizes hsize).2
  have hmod : s.maxBlock % 2 ^ 16 = s.maxBlock := Nat.mod_eq_of_lt (by omega)
  have hindex : ¬ (s.m_valid = false ∨ DIRLEN ≤ i) := by
    rw [hvalid, not_or]
    exact ⟨Bool.noConfusion, Nat.not_le.mpr hi⟩
  have hfirst' : s.dEntryFirstBlock i = (s.currentDir.Dir i).FirstBlock := by
    rw [dEntryFirstBlock, if_neg hindex, hmod, if_neg (Nat.not_lt.mpr hfirst)]
  have hcount' : s.dEntryBlockCount i = (s.currentDir.Dir i).BlockCount := by
    rw [dEntryBlockCount, if_neg hindex, hmod, if_neg (Nat.not_lt.mpr hcount)]
  rw [getSaveData, if_neg (fun h => hindex (Or.inl h)), hfirst', hcount', if_neg (by omega)]

theorem getSaveData_congr {s s' : GCMemcard} (hvalid : s'.m_valid = s.m_valid)
    (hmax : s'.maxBlock = s.maxBlock) {j : Nat} (hdir : s'.currentDir.Dir j = s.currentDir.Dir j)
    (hread : s'.readBlocks (s.currentDir.Dir j).BlockCount (s.currentDir.Dir j).FirstBlock =
      s.readBlocks (s.currentDir.Dir j).BlockCount (s.currentDir.Dir j).FirstBlock) :
    s'.getSaveData j = s.getSaveData j := by
  have hfirst : s'.dEntryFirstBlock j = s.dEntryFirstBlock j := by
    rw [dEntryFirstBlock, dEntryFirstBlock, hvalid, hmax, hdir]
  have hcount : s'.dEntryBlockCount j = s.dEntryBlockCount j := by
    rw [dEntryBlockCount, dEntryBlockCount, hvalid, hmax, hdir]
  rw [getSaveData, getSaveData, hvalid, hfirst, hcount]
  by_cases hnone : s.m_valid = false
  · rw [if_pos hnone, if_pos hnone]
  by_cases hend : s.dEntryFirstBlock j = 0xFFFF ∨ s.dEntryBlockCount j = 0xFFFF
  · rw [if_pos hend, if_pos hend]
  rw [not_or] at hend
  have hfirst' : s.dEntryFirstBlock j = (s.currentDir.Dir j).FirstBlock := by
    have hne := hend.1
    rw [dEntryFirstBlock] at hne ⊢
    split at hne
    · exact absurd rfl hne
    split at hne
    · exact absurd rfl hne
    next h h' => rw [if_neg h, if_neg h']
  have hcount' : s.dEntryBlockCount j = (s.currentDir.Dir j).BlockCount := by
    have hne := hend.2
    rw [dEntryBlockCount] at hne ⊢
    split at hne
    · exact absurd rfl hne
    split at hne
    · exact absurd rfl hne
    next h h' => rw [if_neg h, if_neg h']
  rw [hfirst', hcount', hread]

theorem FileOk.readBlocks_congr {s s' : GCMemcard} (hsize : s.maxBlock ∈ cardSizes)
    (hmax : s'.maxBlock = s.maxBlock) {j : Nat} (h : s.FileOk j)
    (hmap : ∀ b ∈ s.fileBlocks j,
      s'.currentBat.Map (b - MC_FST_BLOCKS) = s.currentBat.Map (b - MC_FST_BLOCKS))
    (hdata : ∀ b ∈ s.fileBlocks j,
      s'.mc_data_blocks (b - MC_FST_BLOCKS) = s.mc_data_blocks (b - MC_FST_BLOCKS)) :
    s'.readBlocks (s.currentDir.Dir j).BlockCount (s.currentDir.Dir j).FirstBlock =
      s.readBlocks (s.currentDir.Dir j).BlockCount (s.currentDir.Dir j).FirstBlock := by
  rcases h.linked with hzero | hlinked
  · rw [hzero, readBlocks, readBlocks]
  have hlength : (s.fileBlocks j).length = (s.currentDir.Dir j).BlockCount :=
    BlockAlloc.length_follow ..
  have hhas (b : Nat) : s'.hasBlock b ↔ s.hasBlock b := by
    rw [GCMemcard.hasBlock, hmax, GCMemcard.hasBlock]
  have hlinked' : LinkChain s'.currentBat.getNextBlock 0xFFFF (s.currentDir.Dir j).FirstBlock
      (s.fileBlocks j) := hlinked.congr fun b hb => by
    have hblock := h.hasBlock b hb
    rw [getNextBlock_of_hasBlock hsize hblock, getNextBlock_of_hasBlock hsize hblock, hmap b hb]
  rw [readBlocks_chain hlinked h.hasBlock (not_hasBlock_end hsize) (Nat.le_of_eq hlength),
    readBlocks_chain hlinked' (fun b hb => (hhas b).mpr (h.hasBlock b hb))
      (fun hend => not_hasBlock_end hsize ((hhas _).mp hend)) (Nat.le_of_eq hlength)]
  refine congrArg (fun l => some (_, l)) (List.map_congr_left fun b hb => hdata b hb)

/-! ## the imported file -/

/-- The file of a save is in the entry that was free, the other files are as before, and so many blocks
are no longer free. -/
structure Imported (s : GCMemcard) (direntry : DEntry) (saveBlocks : List GCMBlock) (s' : GCMemcard) :
    Prop where
  entry : ∃ i, freeEntry s.currentDir = some i ∧
    (∃ FirstBlock CopyCounter, s'.currentDir.Dir i = { direntry with FirstBlock, CopyCounter }) ∧
    s'.getSaveData i = some (.SUCCESS, saveBlocks) ∧
    ∀ j < DIRLEN, j ≠ i → Listed (s.currentDir.Dir j) →
      s'.currentDir.Dir j = s.currentDir.Dir j ∧ s'.getSaveData j = s.getSaveData j
  free : s'.getFreeBlocks + direntry.BlockCount = s.getFreeBlocks

/-- The import ends, and either fails and changes nothing, or succeeds and has imported the file. -/
def ImportOk (s : GCMemcard) (direntry : DEntry) (saveBlocks : List GCMBlock) : Prop :=
  ∃ code s' saveBlocks', s.importFile direntry saveBlocks = some (code, s', saveBlocks') ∧
    (code ≠ .SUCCESS → s' = s) ∧ (code = .SUCCESS → Imported s direntry saveBlocks' s')

/-- The import is refused, or the save has all the blocks that are changed, and there is room for it
among the blocks that are searched. -/
def Importable (s : GCMemcard) (direntry : DEntry) : Prop :=
  s.Refused direntry ∨ Patchable direntry direntry.BlockCount ∧
      direntry.BlockCount ≤ max 1 (s.currentBat.freeSet s.searchBound).card

theorem lt_of_freeEntry {d : Directory} (h : freeEntry d = some i) : i < DIRLEN :=
  List.mem_range.mp (List.mem_of_find?_eq_some h)

theorem Written.frame_of_fileOk (hsize : s.maxBlock ∈ cardSizes) {first n : Nat}
    {blocks : List GCMBlock} {data : Nat → GCMBlock} {bat' : BlockAlloc} {data' : Nat → GCMBlock}
    {chain : List Nat} (hw : Written s first n blocks s.currentBat data bat' data' chain) {j : Nat}
    (hfile : s.FileOk j) {b : Nat} (hb : b ∈ s.fileBlocks j) :
    bat'.Map (b - MC_FST_BLOCKS) = s.currentBat.Map (b - MC_FST_BLOCKS) ∧
      data' (b - MC_FST_BLOCKS) = data (b - MC_FST_BLOCKS) := by
  have hapart : ∀ a ∈ chain, b - MC_FST_BLOCKS ≠ a - MC_FST_BLOCKS := fun a ha heq =>
    hfile.allocated hsize hb (heq ▸ (hw.free a ha).2)
  exact ⟨hw.map _ hapart, hw.frame _ hapart⟩

theorem Valid.getSaveData_finishImport {present : DEntry → Prop} (h : s.Valid present)
    (hfound : s.firstFreeBlock ≠ 0xFFFF) (hblocks : direntry.BlockCount ≤ s.currentBat.FreeBlocks)
    (hentry : freeEntry s.currentDir = some i) (written : BlockAlloc × (Nat → GCMBlock)) :
    (s.finishImport direntry written).getSaveData i =
      (s.finishImport direntry written).readBlocks direntry.BlockCount s.firstFreeBlock := by
  have hself := dir_finishImport_self s direntry written hentry
  have hle := Nat.le_trans hblocks h.freeBlocks_le
  have hblock := (h.firstFreeBlock_spec hfound).1
  rw [getSaveData_eq ((m_valid_finishImport ..).trans h.valid)
    (by rw [maxBlock_finishImport]; exact h.size) (lt_of_freeEntry hentry)
    (by rw [hself, maxBlock_finishImport]; exact Nat.le_of_lt hblock.2)
    (by rw [hself, maxBlock_finishImport]; exact hle), hself]

theorem importOk_of_importable (h : s.Valid Listed) {saveBlocks : List GCMBlock}
    (hlen : saveBlocks.length = direntry.BlockCount) (hok : s.Importable direntry) :
    s.ImportOk direntry saveBlocks := by
  rcases h.importFile_eq direntry saveBlocks with ⟨-, code, hcode, heq⟩ |
    ⟨hnot, hfound, hblocks, ⟨i, hentry⟩, heq⟩
  · exact ⟨code, s, saveBlocks, heq, fun _ => rfl, fun hsuccess => absurd hsuccess hcode⟩
  obtain ⟨hpatch, hroom⟩ := hok.resolve_left hnot
  rcases fzerogxMakeSaveGameValid_spec s.hdr direntry saveBlocks with ⟨hbad, -⟩ |
    ⟨-, patched, hpatched, hlen'⟩
  · exact absurd (hlen ▸ hpatch.1) hbad
  have hlen' := hlen'.trans hlen
  rcases psoMakeSaveGameValid_spec s.hdr direntry patched with ⟨hbad, -⟩ |
    ⟨-, patched', hpatched', hlen''⟩
  · exact absurd (hlen' ▸ hpatch.2) hbad
  have hlength : patched'.length = direntry.BlockCount := hlen''.trans hlen'
  obtain ⟨bat', data', chain, hwrite, hw⟩ :=
    h.writeBlocks_room hfound (Nat.le_of_eq hlength.symm) hroom
  rw [hpatched, Option.bind_some, hpatched', Option.bind_some, hwrite, Option.map_some] at heq
  have hmax := (le_of_mem_cardSizes h.size).2
  have hle := h.freeBlocks_le
  refine ⟨_, _, _, heq, fun hcode => absurd rfl hcode, fun _ => ⟨⟨i, hentry,
    ⟨_, _, dir_finishImport_self s direntry _ hentry⟩, ?_, fun j hj hne hlisted => ?_⟩, ?_⟩⟩
  · rw [h.getSaveData_finishImport hfound hblocks hentry]
    rcases hw.linked with hzero | hlinked
    · rw [hzero, readBlocks, List.eq_nil_of_length_eq_zero (hlength.trans hzero)]
    · rw [← getNextBlock_finishImport s direntry (bat', data')] at hlinked
      rw [readBlocks_chain hlinked (fun b hb => (hasBlock_finishImport ..).mpr (hw.free b hb).1)
        (fun hend => not_hasBlock_end h.size ((hasBlock_finishImport ..).mp hend))
        (Nat.le_of_eq hw.length), if_pos hw.length.symm]
      have hdata := hw.written
      rw [← hlength, List.take_length] at hdata
      exact congrArg (fun l => some (Code.SUCCESS, l)) hdata
  · have hdir := dir_finishImport_of_ne s direntry (bat', data') hentry hne
    refine ⟨hdir, getSaveData_congr (m_valid_finishImport ..) (maxBlock_finishImport ..) hdir ?_⟩
    have hfile := h.file j hj hlisted
    refine hfile.readBlocks_congr h.size (maxBlock_finishImport ..) (fun b hb => ?_) fun b hb => ?_
    · rw [currentBat_finishImport]
      exact (hw.frame_of_fileOk h.size hfile hb).1
    · exact (hw.frame_of_fileOk h.size hfile hb).2
  · rw [getFreeBlocks, getFreeBlocks, m_valid_finishImport, currentBat_finishImport, h.valid, if_pos rfl,
      if_pos rfl]
    change (bat'.FreeBlocks + 2 ^ 16 - direntry.BlockCount % 2 ^ 16) % 2 ^ 16 + _ = _
    rw [hw.freeBlocks]
    omega

theorem importable_of_importOk (h : s.Valid Listed) {saveBlocks : List GCMBlock}
    (hlen : saveBlocks.length = direntry.BlockCount) (hok : s.ImportOk direntry saveBlocks) :
    s.Importable direntry := by
  rcases h.importFile_eq direntry saveBlocks with ⟨hrefused, -⟩ |
    ⟨hnot, hfound, hblocks, ⟨i, hentry⟩, heq⟩
  · exact Or.inl hrefused
  obtain ⟨code, s', saveBlocks', himport, -, hsuccess⟩ := hok
  rw [himport] at heq
  rcases fzerogxMakeSaveGameValid_spec s.hdr direntry saveBlocks with ⟨-, hnone⟩ |
    ⟨hfzero, patched, hpatched, hlen'⟩
  · rw [hnone] at heq
    cases heq
  have hlen' := hlen'.trans hlen
  rw [hpatched, Option.bind_some] at heq
  rcases psoMakeSaveGameValid_spec s.hdr direntry patched with ⟨-, hnone⟩ |
    ⟨hpso, patched', hpatched', hlen''⟩
  · rw [hnone] at heq
    cases heq
  rw [hpatched', Option.bind_some] at heq
  refine Or.inr ⟨⟨hlen ▸ hfzero, hlen' ▸ hpso⟩, ?_⟩
  by_contra hroom
  obtain ⟨⟨bat', data'⟩, hwrite, hresult⟩ := Option.map_eq_some_iff.mp heq.symm
  cases hresult
  obtain ⟨hblock, hzero, hwhere⟩ := h.firstFreeBlock_spec hfound
  have hfree : s.currentBat.FreeBlocks ≠ 0 := by omega
  obtain ⟨n, hn⟩ : ∃ n, direntry.BlockCount = n + 1 := ⟨direntry.BlockCount - 1, by omega⟩
  have hwrite' := hwrite
  rw [hn] at hwrite'
  obtain ⟨chain, hlinked, hlength, hinside, -⟩ := writeBlocks_short h.size n hfree hblock hzero (by omega)
    (by
      rcases hwhere with hlt | ⟨-, hleast⟩
      · exact Or.inl ⟨hlt, by omega⟩
      · rcases Nat.lt_or_ge s.firstFreeBlock s.searchBound with hlt | hge
        · exact Or.inl ⟨hlt, by omega⟩
        · exact Or.inr fun j hj => hleast j (by omega) (by omega)) hwrite'
  -- the chain of the new file ends before its last block
  obtain ⟨i', hentry', -, hdata, -⟩ := (hsuccess rfl).entry
  rw [hentry] at hentry'
  cases hentry'
  rw [← getNextBlock_finishImport s direntry (bat', data')] at hlinked
  rw [h.getSaveData_finishImport hfound hblocks hentry,
    readBlocks_chain hlinked (fun b hb => (hasBlock_finishImport ..).mpr (hinside b hb))
      (fun hend => not_hasBlock_end h.size ((hasBlock_finishImport ..).mp hend)) (by omega),
    if_neg (by omega)] at hdata
  cases hdata

/-- **An import never runs out of blocks**, and does what it says, exactly if `Importable` holds. -/
theorem importOk_iff {s : GCMemcard} (h : s.Valid Listed) {direntry : DEntry}
    {saveBlocks : List GCMBlock} (hlen : saveBlocks.length = direntry.BlockCount) :
    s.ImportOk direntry saveBlocks ↔ s.Importable direntry :=
  ⟨importable_of_importOk h hlen, importOk_of_importable h hlen⟩

/-- The header of a card. -/
def cardHeader : Header := ⟨List.replicate 32 0⟩

/-- An entry for a file of some blocks. -/
def entryOf (BlockCount : Nat) : DEntry :=
  ⟨0x47414645, List.replicate 0x20 65, 0, 0, BlockCount, List.replicate 0x17 0⟩

theorem importOk_iff_one :
    (format cardHeader 4).ImportOk (entryOf 1) [.erase] ↔ (format cardHeader 4).Importable (entryOf 1) :=
  importOk_iff (valid_format (fun h => h rfl) cardHeader (by decide)) rfl

/-- 59 blocks of a card of the smallest size are free, but only 54 of them are searched. -/
theorem not_importOk_fiftyFive :
    ¬ (format cardHeader 4).ImportOk (entryOf 55) (List.replicate 55 .erase) := by
  intro h
  have hvalid : (format cardHeader 4).Valid Listed :=
    valid_format (fun h => h rfl) cardHeader (by decide)
  rcases importable_of_importOk hvalid List.length_replicate h with hrefused | ⟨-, hroom⟩
  · rcases hrefused with hfiles | hblocks | htitle | hnone
    · exact absurd hfiles (by decide)
    · exact absurd hblocks (by decide)
    · exact htitle (by decide)
    · exact hnone 5 (Nat.le_refl 5) (Or.inl (by decide)) rfl
  · exact absurd hroom (by decide)

end GCMemcard

end DolphinCore.Memcard
