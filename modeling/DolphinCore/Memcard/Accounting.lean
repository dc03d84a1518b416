import DolphinCore.Memcard.Remove
import Mathlib.Algebra.BigOperators.Group.Finset.Basic
import Mathlib.Algebra.Order.BigOperators.Group.Finset

/-!
# DolphinCore.Memcard.Accounting

The blocks of a card over its whole life: each one is free or belongs to one listed
file, and the counts in the directory and in the allocation table add up to the card.
-/

namespace DolphinCore.Memcard.GCMemcard

open Finset

instance (d : DEntry) : Decidable (Listed d) := inferInstanceAs (Decidable (_ ≠ _))

/-- The blocks that the directory gives to the file of an entry. -/
def countedBlocks (d : DEntry) : Nat := if Listed d then d.BlockCount else 0

/-- The sum over the directory. -/
def listedBlocks (s : GCMemcard) : Nat := ∑ i ∈ range DIRLEN, countedBlocks (s.currentDir.Dir i)

/-- Imports with room, of saves with the code of a game. -/
def NamedStepOk (s : GCMemcard) (op : Op) : Prop :=
  s.StepOk op ∧ match op with
    | .importFile direntry _ => Listed direntry
    | .removeFile _ => True

/-- What the runs keep: the files are the listed entries, and every block is counted. -/
structure Accounted (s : GCMemcard) : Prop where
  inv : RunInv s
  listed : ∀ i < DIRLEN, Occupied (s.currentDir.Dir i) → Listed (s.currentDir.Dir i)
  total : s.freeBlockSet.card + s.listedBlocks = s.maxBlock - MC_FST_BLOCKS

variable {s s' : GCMemcard}

theorem listedBlocks_change {i : Nat} (hi : i < DIRLEN)
    (hother : ∀ j, j ≠ i → s'.currentDir.Dir j = s.currentDir.Dir j) :
    s'.listedBlocks + countedBlocks (s.currentDir.Dir i) =
      s.listedBlocks + countedBlocks (s'.currentDir.Dir i) := by
  have hmem : i ∈ range DIRLEN := mem_range.mpr hi
  have hrest : ∑ j ∈ (range DIRLEN).erase i, countedBlocks (s'.currentDir.Dir j) =
      ∑ j ∈ (range DIRLEN).erase i, countedBlocks (s.currentDir.Dir j) :=
    sum_congr rfl fun j hj => by rw [hother j (ne_of_mem_erase hj)]
  rw [listedBlocks, listedBlocks, ← add_sum_erase _ _ hmem, ← add_sum_erase _ _ hmem, hrest]
  omega

theorem accounted_format (hdr : Header) {SizeMb : Nat}
    (hsize : SizeMb * MBIT_TO_BLOCKS ∈ cardSizes) : Accounted (format hdr SizeMb) := by
  have hinv := runInv_format hdr hsize
  refine ⟨hinv, fun i _ h => absurd rfl h, ?_⟩
  have hfree : (format hdr SizeMb).freeBlockSet = Ico MC_FST_BLOCKS (SizeMb * MBIT_TO_BLOCKS) :=
    filter_true_of_mem fun _ _ => rfl
  have hlisted : (format hdr SizeMb).listedBlocks = 0 := sum_eq_zero fun _ _ => rfl
  rw [hfree, hlisted, Nat.card_Ico]
  rfl

/-- An import takes the blocks of the new file from the free ones. -/
theorem Accounted.importFile (h : Accounted s) {direntry : DEntry}
    {saveBlocks saveBlocks' : List GCMBlock} (hroom : s.Room direntry) (hnamed : Listed direntry)
    (himport : s.importFile direntry saveBlocks = some (.SUCCESS, s', saveBlocks')) :
    Accounted s' ∧ s'.maxBlock = s.maxBlock := by
  have hinv := (h.inv.importFile hroom himport).1
  obtain ⟨i, bat', data', chain, hentry, hfound, hblocks, rfl, hw⟩ :=
    h.inv.valid.importFile_success hroom himport
  obtain ⟨hvalid, hnew, hfree⟩ := h.inv.valid.finishImport hentry hblocks hw
  have hi := lt_of_freeEntry hentry
  have hself := dir_finishImport_self s direntry (bat', data') hentry
  have hother {j : Nat} (hne : j ≠ i) := dir_finishImport_of_ne s direntry (bat', data') hentry hne
  have hmax := maxBlock_finishImport s direntry (bat', data')
  have hlisted' : Listed ((s.finishImport direntry (bat', data')).currentDir.Dir i) := by
    rw [hself]
    exact hnamed
  have hsub := (hw.freeBlockSet_eq h.inv.valid.size).2
  have hfile : FileOk _ i := hvalid.file i hi (by rw [hself]; exact hfound)
  have hlength : chain.length = direntry.BlockCount := by
    have hfollow := BlockAlloc.length_follow (s.finishImport direntry (bat', data')).currentBat
      ((s.finishImport direntry (bat', data')).currentDir.Dir i).BlockCount
      ((s.finishImport direntry (bat', data')).currentDir.Dir i).FirstBlock
    rw [← fileBlocks, hnew, hself] at hfollow
    exact hfollow
  refine ⟨⟨hinv, fun j hj hocc => ?_, ?_⟩, hmax⟩
  · by_cases hne : j = i
    · exact hne ▸ hlisted'
    · rw [hother hne] at hocc ⊢
      exact h.listed j hj hocc
  · have hchange := listedBlocks_change hi fun j hne => hother hne
    have hold : countedBlocks (s.currentDir.Dir i) = 0 := by
      have hunlisted : (s.currentDir.Dir i).Gamecode = 0xFFFFFFFF := by
        simpa using List.find?_some hentry
      exact if_neg (not_not.mpr hunlisted)
    have hcount : countedBlocks ((s.finishImport direntry (bat', data')).currentDir.Dir i) =
        direntry.BlockCount := by
      rw [countedBlocks, if_pos hlisted', hself]
    have hcard := card_sdiff_add_card_eq_card hsub
    have hchain := List.toFinset_card_of_nodup (hnew ▸ hfile.nodup)
    have htotal := h.total
    rw [hfree, hmax]
    omega

/-- A removal gives the blocks of the file back. -/
theorem Accounted.removeFile (h : Accounted s) {i : Nat} (hsame : s.SameEntry i)
    (hremove : s.removeFile i = some (.SUCCESS, s')) :
    Accounted s' ∧ s'.maxBlock = s.maxBlock := by
  obtain ⟨hinv, hfree, hdisjoint⟩ := h.inv.removeFile hsame hremove
  obtain ⟨hi, hentry⟩ := entry_of_removeFile h.inv.valid.valid hsame hremove
  obtain ⟨hoccupied, hcount⟩ := hentry.resolve_left fun hnone =>
    h.inv.empty i hi (fun hocc => hocc hnone.1) hnone.2
  have hfile := h.inv.valid.file i hi hoccupied
  obtain ⟨t, hremove', hr⟩ := h.inv.valid.removeFile_of_fileOk hi hsame hfile hcount
  rw [hremove] at hremove'
  cases hremove'
  have hother : ∀ j, j ≠ i → s'.currentDir.Dir j = s.currentDir.Dir j := fun j hne => by
    rw [hr.dir, Function.update_of_ne hne]
  have hself : s'.currentDir.Dir i = .empty := by rw [hr.dir, Function.update_self]
  refine ⟨⟨hinv, fun j hj hocc => ?_, ?_⟩, hr.maxBlock⟩
  · by_cases hne : j = i
    · rw [hne, hself] at hocc
      exact absurd rfl hocc
    · rw [hother j hne] at hocc ⊢
      exact h.listed j hj hocc
  · have hchange := listedBlocks_change hi hother
    have hnew : countedBlocks (s'.currentDir.Dir i) = 0 := by
      rw [hself]
      rfl
    have hold : countedBlocks (s.currentDir.Dir i) = (s.fileBlocks i).toFinset.card := by
      rw [countedBlocks, if_pos (h.listed i hi hoccupied), List.toFinset_card_of_nodup hfile.nodup]
      exact (BlockAlloc.length_follow ..).symm
    have htotal := h.total
    rw [hfree, card_union_of_disjoint hdisjoint, hr.maxBlock]
    omega

/-- The free blocks and the files of the listed entries are all the blocks of the card, as they are
apart and as many. -/
theorem Accounted.covers {s : GCMemcard} (h : Accounted s) {b : Nat} (hb : s.hasBlock b) :
    b ∈ s.freeBlockSet ∨ ∃ i < DIRLEN, Listed (s.currentDir.Dir i) ∧ b ∈ s.fileBlocks i := by
  have hvalid := h.inv.valid
  let listed := (range DIRLEN).filter fun i => Listed (s.currentDir.Dir i)
  let files := listed.biUnion fun i => (s.fileBlocks i).toFinset
  have hlisted {i : Nat} (hi : i ∈ listed) : i < DIRLEN ∧ Listed (s.currentDir.Dir i) :=
    ⟨mem_range.mp (mem_filter.mp hi).1, (mem_filter.mp hi).2⟩
  have hfile {i : Nat} (hi : i ∈ listed) : s.FileOk i :=
    hvalid.file i (hlisted hi).1 (h.inv.occupied i (hlisted hi).1 (hlisted hi).2)
  have hcard : files.card = s.listedBlocks := by
    rw [card_biUnion, listedBlocks, sum_filter]
    · refine sum_congr rfl fun i hi => ?_
      rw [countedBlocks]
      split
      · next hlist =>
          rw [List.toFinset_card_of_nodup (hfile (mem_filter.mpr ⟨hi, hlist⟩)).nodup]
          exact BlockAlloc.length_follow ..
      · rfl
    · intro i hi j hj hne
      obtain ⟨hi, hli⟩ := hlisted hi
      obtain ⟨hj, hlj⟩ := hlisted hj
      exact List.disjoint_toFinset_iff_disjoint.mpr (hvalid.disjoint i hi j hj hne
        (h.inv.occupied i hi hli) (h.inv.occupied j hj hlj))
  have hapart : Disjoint s.freeBlockSet files := disjoint_left.mpr fun a ha hfiles => by
    obtain ⟨i, hi, hmem⟩ := mem_biUnion.mp hfiles
    exact (hfile hi).allocated hvalid.size (List.mem_toFinset.mp hmem) (mem_freeBlockSet.mp ha).2
  have hsub : s.freeBlockSet ∪ files ⊆ Ico MC_FST_BLOCKS s.maxBlock := fun a ha => by
    rcases mem_union.mp ha with ha | ha
    · exact mem_Ico.mpr (mem_freeBlockSet.mp ha).1
    · obtain ⟨i, hi, hmem⟩ := mem_biUnion.mp ha
      exact mem_Ico.mpr ((hfile hi).hasBlock a (List.mem_toFinset.mp hmem))
  have hall : s.freeBlockSet ∪ files = Ico MC_FST_BLOCKS s.maxBlock := by
    refine eq_of_subset_of_card_le hsub ?_
    rw [card_union_of_disjoint hapart, hcard, h.total, Nat.card_Ico]
  have hmem : b ∈ s.freeBlockSet ∪ files := by
    rw [hall]
    exact mem_Ico.mpr hb
  refine (mem_union.mp hmem).imp_right fun hb => ?_
  obtain ⟨i, hi, hmem⟩ := mem_biUnion.mp hb
  exact ⟨i, (hlisted hi).1, (hlisted hi).2, List.mem_toFinset.mp hmem⟩

/-- **No block is lost**: in every run of successful imports and removals, each block of the card is
free or in the file of a listed entry, and `FreeBlocks` and the block counts of the listed entries
add up to the blocks of the card. -/
theorem blocks_accounted_of_run (hdr : Header) {SizeMb : Nat}
    (hsize : SizeMb * MBIT_TO_BLOCKS ∈ cardSizes) {s : GCMemcard}
    (h : Run step NamedStepOk (format hdr SizeMb) s) :
    s.currentBat.FreeBlocks + s.listedBlocks = SizeMb * MBIT_TO_BLOCKS - MC_FST_BLOCKS ∧
      ∀ b, s.hasBlock b →
        b ∈ s.freeBlockSet ∨ ∃ i < DIRLEN, Listed (s.currentDir.Dir i) ∧ b ∈ s.fileBlocks i := by
  obtain ⟨haccounted, hmax⟩ : Accounted s ∧ s.maxBlock = SizeMb * MBIT_TO_BLOCKS := by
    refine h.invariant (I := fun s => Accounted s ∧ s.maxBlock = SizeMb * MBIT_TO_BLOCKS)
      ⟨accounted_format hdr hsize, rfl⟩ ?_
    rintro s (⟨direntry, saveBlocks⟩ | i) t ⟨hI, hmax⟩ ⟨hok, hnamed⟩ hs
    · obtain ⟨saveBlocks', himport⟩ := step_importFile hs
      obtain ⟨hI', hmax'⟩ := hI.importFile hok hnamed himport
      exact ⟨hI', hmax'.trans hmax⟩
    · obtain ⟨hI', hmax'⟩ := hI.removeFile hok (step_removeFile hs)
      exact ⟨hI', hmax'.trans hmax⟩
  refine ⟨?_, fun b hb => haccounted.covers hb⟩
  rw [← hmax, ← haccounted.total, haccounted.inv.valid.free]
  rfl

/-- A file of one block on a card of 4 Mbit. -/
theorem blocks_accounted_of_run_one :
    ∃ s, (format cardHeader 4).step (.importFile (entryOf 1) [.erase]) = some s ∧
      s.currentBat.FreeBlocks + s.listedBlocks = 4 * MBIT_TO_BLOCKS - MC_FST_BLOCKS := by
  have hstep : ((format cardHeader 4).step (.importFile (entryOf 1) [.erase])).isSome = true := by
    decide
  obtain ⟨s, hs⟩ := Option.isSome_iff_exists.mp hstep
  exact ⟨s, hs, (blocks_accounted_of_run cardHeader (by decide) (Run.single
    (.importFile (entryOf 1) [.erase]) ⟨Nat.le_max_left 1 _, by decide⟩ hs)).1⟩

end DolphinCore.Memcard.GCMemcard
