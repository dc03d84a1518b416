import DolphinCore.Memcard.Basic
import DolphinCore.Lib.LinkChain
import Mathlib.Data.Finset.Card
import Mathlib.Order.Interval.Finset.Nat

/-!
# DolphinCore.Memcard.Allocate

The search for a free block, and the chain that `ImportFile` links: it is complete if the map has enough
free blocks below the bound of the search, and too short or never finished otherwise.
-/

namespace DolphinCore.Memcard

namespace BlockAlloc

/-! ## the search -/

/-- The blocks of the map that are free, up to a bound. -/
def freeSet (bat : BlockAlloc) (bound : Nat) : Finset Nat :=
  (Finset.Ico MC_FST_BLOCKS bound).filter fun i => bat.Map (i - MC_FST_BLOCKS) = 0

theorem mem_freeSet {bat : BlockAlloc} {bound i : Nat} : i ∈ bat.freeSet bound ↔
      (MC_FST_BLOCKS ≤ i ∧ i < bound) ∧ bat.Map (i - MC_FST_BLOCKS) = 0 := by
  rw [freeSet, Finset.mem_filter, Finset.mem_Ico]

theorem word_of_le {bat : BlockAlloc} {i : Nat} (h : MC_FST_BLOCKS ≤ i) :
    bat.word i = bat.Map (i - MC_FST_BLOCKS) := if_pos h

theorem mem_searchOrder {bound start i : Nat} :
    i ∈ searchOrder bound start ↔ (start ≤ i ∧ i < bound) ∨ (MC_FST_BLOCKS ≤ i ∧ i < start) := by
  rw [searchOrder, List.mem_append, List.mem_range'_1, List.mem_range'_1]
  omega

theorem searchOrder_succ (bound : Nat) {first : Nat} (hfirst : MC_FST_BLOCKS ≤ first) :
    ∃ others, searchOrder bound (first + 1) = others ++ [first] ∧
      ∀ i, i ∈ others ↔ (first < i ∧ i < bound) ∨ (MC_FST_BLOCKS ≤ i ∧ i < first) := by
  refine ⟨List.range' (first + 1) (bound - (first + 1)) ++
    List.range' MC_FST_BLOCKS (first - MC_FST_BLOCKS), ?_, fun i => ?_⟩
  · rw [searchOrder, Nat.succ_sub hfirst, Nat.succ_eq_add_one, List.range'_concat, ← List.append_assoc,
      Nat.one_mul, Nat.add_sub_cancel' hfirst]
  · rw [List.mem_append, List.mem_range'_1, List.mem_range'_1]
    omega

theorem nextFreeBlock_spec {bat : BlockAlloc} {bound start : Nat} (hbound : bound ≤ BAT_SIZE)
    (hlow : 4 ≤ start) (hword : bat.word 4 ≠ 0) (hfound : bat.nextFreeBlock bound start ≠ 0xFFFF) :
    MC_FST_BLOCKS ≤ bat.nextFreeBlock bound start ∧
      bat.Map (bat.nextFreeBlock bound start - MC_FST_BLOCKS) = 0 ∧
      (bat.nextFreeBlock bound start < bound ∨ bat.nextFreeBlock bound start < start ∧
        ∀ i, MC_FST_BLOCKS ≤ i → i < bat.nextFreeBlock bound start →
          bat.Map (i - MC_FST_BLOCKS) ≠ 0) := by
  rw [nextFreeBlock] at hfound ⊢
  split at hfound
  · exact absurd rfl hfound
  next hfree =>
  rw [if_neg hfree]
  rw [Nat.min_eq_left hbound] at hfound ⊢
  cases hfind : (searchOrder bound start).find? fun i => bat.word i == 0 with
  | none =>
    rw [hfind] at hfound
    exact absurd rfl hfound
  | some r =>
  rw [Option.getD_some]
  have hfree_r : (bat.word r == 0) = true := (List.find?_eq_some_iff_append.mp hfind).1
  have hword_r : bat.word r = 0 := beq_iff_eq.mp hfree_r
  rw [searchOrder, List.find?_append, Option.or_eq_some_iff] at hfind
  rcases hfind with hfirst | ⟨-, hsecond⟩
  · have hmem := List.mem_range'_1.mp (List.mem_of_find?_eq_some hfirst)
    have hr : MC_FST_BLOCKS ≤ r := by
      rcases Nat.lt_or_ge r MC_FST_BLOCKS with hlt | hge
      · have heq : r = 4 := by
          rw [MC_FST_BLOCKS] at hlt
          omega
        exact absurd (heq ▸ hword_r) hword
      · exact hge
    exact ⟨hr, word_of_le hr ▸ hword_r, Or.inl (by omega)⟩
  · obtain ⟨-, hmem, hleast⟩ := List.find?_range'_eq_some.mp hsecond
    have hmem := List.mem_range'_1.mp hmem
    refine ⟨hmem.1, word_of_le hmem.1 ▸ hword_r, Or.inr ⟨by omega, fun i hi hlt hzero => ?_⟩⟩
    have hnot := hleast i hi hlt
    rw [word_of_le hi, hzero] at hnot
    cases hnot

theorem nextFreeBlock_after {bat : BlockAlloc} {bound first : Nat} (hbound : bound ≤ BAT_SIZE)
    (hfirst : MC_FST_BLOCKS ≤ first) (hfree : bat.FreeBlocks ≠ 0)
    (hzero : bat.Map (first - MC_FST_BLOCKS) = 0) :
    (bat.nextFreeBlock bound (first + 1) = first ∧
        ∀ i, (first < i ∧ i < bound) ∨ (MC_FST_BLOCKS ≤ i ∧ i < first) →
          bat.Map (i - MC_FST_BLOCKS) ≠ 0) ∨
      (((first < bat.nextFreeBlock bound (first + 1) ∧ bat.nextFreeBlock bound (first + 1) < bound) ∨
          (MC_FST_BLOCKS ≤ bat.nextFreeBlock bound (first + 1) ∧
            bat.nextFreeBlock bound (first + 1) < first)) ∧
        bat.Map (bat.nextFreeBlock bound (first + 1) - MC_FST_BLOCKS) = 0) := by
  obtain ⟨others, horder, hothers⟩ := searchOrder_succ bound hfirst
  have hle : ∀ i, i ∈ others → MC_FST_BLOCKS ≤ i := fun i hi => by
    rcases (hothers i).mp hi with h | h <;> omega
  rw [nextFreeBlock, if_neg hfree, Nat.min_eq_left hbound, horder, List.find?_append]
  cases hfind : others.find? fun i => bat.word i == 0 with
  | some r =>
    have hmem := List.mem_of_find?_eq_some hfind
    have hword : (bat.word r == 0) = true := (List.find?_eq_some_iff_append.mp hfind).1
    rw [word_of_le (hle r hmem)] at hword
    exact Or.inr ⟨(hothers r).mp hmem, beq_iff_eq.mp hword⟩
  | none =>
    have hself : [first].find? (fun i => bat.word i == 0) = some first := by
      rw [List.find?_cons, word_of_le hfirst, hzero]
      rfl
    rw [Option.none_or, hself]
    refine Or.inl ⟨rfl, fun i hi hzero' => ?_⟩
    have hnot := List.find?_eq_none.mp hfind i ((hothers i).mpr hi)
    rw [word_of_le (hle i ((hothers i).mpr hi)), hzero'] at hnot
    exact hnot rfl

theorem nextFreeBlock_none {bat : BlockAlloc} {bound start : Nat} (hbound : bound ≤ BAT_SIZE)
    (hstart : MC_FST_BLOCKS ≤ start)
    (hnone : ∀ i, (start ≤ i ∧ i < bound) ∨ (MC_FST_BLOCKS ≤ i ∧ i < start) →
      bat.Map (i - MC_FST_BLOCKS) ≠ 0) : bat.nextFreeBlock bound start = 0xFFFF := by
  rw [nextFreeBlock]
  split
  · rfl
  rw [Nat.min_eq_left hbound, List.find?_eq_none.mpr, Option.getD_none]
  intro i hi
  have hi := mem_searchOrder.mp hi
  rw [word_of_le (by omega), beq_iff_eq]
  exact hnone i hi

/-! ## the map -/

/-- The block is allocated, and its entry leads to another block. -/
def link (bat : BlockAlloc) (block next : Nat) : BlockAlloc :=
  { bat with Map := Function.update bat.Map (block - MC_FST_BLOCKS) next, LastAllocated := block }

theorem link_map_self (bat : BlockAlloc) (block next : Nat) :
    (bat.link block next).Map (block - MC_FST_BLOCKS) = next := Function.update_self ..

theorem link_map_of_ne {bat : BlockAlloc} {block next j : Nat} (h : j ≠ block - MC_FST_BLOCKS) :
    (bat.link block next).Map j = bat.Map j := Function.update_of_ne h ..

theorem freeSet_link {bat : BlockAlloc} {block next : Nat} (hblock : MC_FST_BLOCKS ≤ block)
    (hnext : next ≠ 0) (bound : Nat) :
    (bat.link block next).freeSet bound = (bat.freeSet bound).erase block := by
  ext i
  rw [Finset.mem_erase, mem_freeSet, mem_freeSet]
  by_cases heq : i = block
  · subst heq
    rw [link_map_self]
    exact ⟨fun h => absurd h.2 hnext, fun h => absurd rfl h.1⟩
  · constructor
    · rintro ⟨hi, hzero⟩
      rw [link_map_of_ne (by omega)] at hzero
      exact ⟨heq, hi, hzero⟩
    · rintro ⟨-, hi, hzero⟩
      rw [link_map_of_ne (by omega)]
      exact ⟨hi, hzero⟩

theorem getNextBlock_eq {bat : BlockAlloc} {b : Nat} (hlow : MC_FST_BLOCKS ≤ b) (hhigh : b ≤ 4091) :
    bat.getNextBlock b = bat.Map (b - MC_FST_BLOCKS) :=
  if_neg fun h => h.elim (Nat.not_lt.mpr hlow) (Nat.not_lt.mpr hhigh)

end BlockAlloc

/-! ## the chain of an imported file -/

namespace GCMemcard

/-- The sizes that a card can have, in blocks. -/
def cardSizes : List Nat := [0x04, 0x08, 0x10, 0x20, 0x40, 0x80].map (· * MBIT_TO_BLOCKS)

theorem le_of_mem_cardSizes {n : Nat} (h : n ∈ cardSizes) : 0x40 ≤ n ∧ n ≤ 0x800 := by
  simp only [cardSizes, MBIT_TO_BLOCKS, List.map_cons, List.map_nil, List.mem_cons, List.not_mem_nil,
    or_false] at h
  omega

/-- The blocks in which `ImportFile` links the files lie below this bound. -/
abbrev searchBound (s : GCMemcard) : Nat := s.maxBlock - MC_FST_BLOCKS

theorem searchBound_le {s : GCMemcard} (hsize : s.maxBlock ∈ cardSizes) : s.searchBound ≤ BAT_SIZE := by
  have h := (le_of_mem_cardSizes hsize).2
  rw [searchBound, MC_FST_BLOCKS, BAT_SIZE]
  omega

theorem getNextBlock_of_hasBlock {s : GCMemcard} (hsize : s.maxBlock ∈ cardSizes) {b : Nat}
    (h : s.hasBlock b) (bat : BlockAlloc) : bat.getNextBlock b = bat.Map (b - MC_FST_BLOCKS) :=
  BlockAlloc.getNextBlock_eq h.1 (by
    have hlt := h.2
    have hle := (le_of_mem_cardSizes hsize).2
    omega)

theorem not_hasBlock_end {s : GCMemcard} (hsize : s.maxBlock ∈ cardSizes) : ¬ s.hasBlock 0xFFFF :=
  fun h => by
    have hlt := h.2
    have hle := (le_of_mem_cardSizes hsize).2
    omega

theorem writeBlocks_succ {s : GCMemcard} {first : Nat} (h : s.hasBlock first) (n : Nat) (b : GCMBlock)
    (blocks : List GCMBlock) (bat : BlockAlloc) (data : Nat → GCMBlock) :
    s.writeBlocks (n + 1) (b :: blocks) first bat data = s.writeBlocks n blocks
        (if n = 0 then 0xFFFF else bat.nextFreeBlock s.searchBound (first + 1))
        (bat.link first (if n = 0 then 0xFFFF else bat.nextFreeBlock s.searchBound (first + 1)))
        (Function.update data (first - MC_FST_BLOCKS) b) := by
  rw [writeBlocks, if_pos h]
  rfl

/-- The file has been linked as a chain of blocks that were free, and written to them. -/
structure Written (s : GCMemcard) (first n : Nat) (blocks : List GCMBlock) (bat : BlockAlloc)
    (data : Nat → GCMBlock) (bat' : BlockAlloc) (data' : Nat → GCMBlock) (chain : List Nat) : Prop where
  length : chain.length = n
  linked : n = 0 ∨ LinkChain bat'.getNextBlock 0xFFFF first chain
  nodup : chain.Nodup
  free : ∀ b ∈ chain, s.hasBlock b ∧ bat.Map (b - MC_FST_BLOCKS) = 0
  map : ∀ j, (∀ b ∈ chain, j ≠ b - MC_FST_BLOCKS) → bat'.Map j = bat.Map j
  written : chain.map (fun b => data' (b - MC_FST_BLOCKS)) = blocks.take n
  frame : ∀ j, (∀ b ∈ chain, j ≠ b - MC_FST_BLOCKS) → data' j = data j
  lastAllocated : bat'.LastAllocated = bat.LastAllocated ∨ bat'.LastAllocated ∈ chain
  freeBlocks : bat'.FreeBlocks = bat.FreeBlocks

/-- **The loop of `ImportFile`**, if there are enough blocks below the bound of the search: by induction
on the blocks that are left, each of which takes one block out of the free ones. -/
theorem writeBlocks_spec {s : GCMemcard} (hsize : s.maxBlock ∈ cardSizes) : (n : Nat) →
    {blocks : List GCMBlock} → {first : Nat} → {bat : BlockAlloc} → {data : Nat → GCMBlock} →
    n < blocks.length → bat.FreeBlocks ≠ 0 → s.hasBlock first → bat.Map (first - MC_FST_BLOCKS) = 0 →
    n = 0 ∨ first < s.searchBound ∧ n < (bat.freeSet s.searchBound).card →
    ∃ bat' data' chain, s.writeBlocks (n + 1) blocks first bat data = some (bat', data') ∧
      Written s first (n + 1) blocks bat data bat' data' chain
  | 0, [], _, _, _, hlen, _, _, _, _ => absurd hlen (Nat.not_lt_zero 0)
  | 0, b :: blocks, first, bat, data, _, _, hfirst, hzero, _ => by
    refine ⟨bat.link first 0xFFFF, Function.update data (first - MC_FST_BLOCKS) b, [first], ?_,
      ⟨rfl, Or.inr (.last ?_), List.nodup_singleton _, fun a ha => ?_, fun j hj => ?_, ?_, fun j hj => ?_,
        Or.inr (List.mem_singleton_self _), rfl⟩⟩
    · rw [writeBlocks_succ hfirst, if_pos rfl, writeBlocks]
    · rw [getNextBlock_of_hasBlock hsize hfirst, BlockAlloc.link_map_self]
    · rw [List.mem_singleton.mp ha]
      exact ⟨hfirst, hzero⟩
    · exact BlockAlloc.link_map_of_ne (hj first (List.mem_singleton_self _))
    · rw [List.map_singleton, Function.update_self, List.take_succ_cons, List.take_zero]
    · exact Function.update_of_ne (hj first (List.mem_singleton_self _)) _ _
  | n + 1, [], _, _, _, hlen, _, _, _, _ => absurd hlen (Nat.not_lt_zero _)
  | n + 1, b :: blocks, first, bat, data, hlen, hfree, hfirst, hzero, hroom => by
    obtain ⟨hbelow, hcard⟩ := hroom.resolve_left (Nat.succ_ne_zero n)
    have hmem : first ∈ bat.freeSet s.searchBound := BlockAlloc.mem_freeSet.mpr ⟨⟨hfirst.1, hbelow⟩, hzero⟩
    rcases BlockAlloc.nextFreeBlock_after (searchBound_le hsize) hfirst.1 hfree hzero with
      ⟨-, hnone⟩ | ⟨hnext, hnextZero⟩
    · -- there would be no free block but this one
      have hsub : bat.freeSet s.searchBound ⊆ {first} := fun i hi => by
        obtain ⟨hi, hzero'⟩ := BlockAlloc.mem_freeSet.mp hi
        by_contra hne
        rw [Finset.mem_singleton] at hne
        exact hnone i (by omega) hzero'
      have hle := Finset.card_le_card hsub
      rw [Finset.card_singleton] at hle
      omega
    · generalize hr : bat.nextFreeBlock s.searchBound (first + 1) = r at hnext hnextZero
      have hrlow : MC_FST_BLOCKS ≤ r := by
        have := hfirst.1
        omega
      have hrhigh : r < s.searchBound := by omega
      have hrblock : s.hasBlock r := ⟨hrlow, Nat.lt_of_lt_of_le hrhigh (Nat.sub_le _ _)⟩
      have hrpos : r ≠ 0 := by
        rw [MC_FST_BLOCKS] at hrlow
        omega
      have hrzero : (bat.link first r).Map (r - MC_FST_BLOCKS) = 0 := by
        rw [BlockAlloc.link_map_of_ne, hnextZero]
        have := hfirst.1
        omega
      have hcard' : n < ((bat.link first r).freeSet s.searchBound).card := by
        rw [BlockAlloc.freeSet_link hfirst.1 hrpos, Finset.card_erase_of_mem hmem]
        omega
      obtain ⟨bat', data', chain, hwrite, hw⟩ := @writeBlocks_spec s hsize n blocks r
        (bat.link first r) (Function.update data (first - MC_FST_BLOCKS) b)
        (Nat.lt_of_succ_lt_succ hlen) hfree hrblock hrzero (Or.inr ⟨hrhigh, hcard'⟩)
      -- the block itself is no longer free, so that the rest of the chain leaves it alone
      have hapart : ∀ a ∈ chain, first - MC_FST_BLOCKS ≠ a - MC_FST_BLOCKS := fun a ha heq => by
        have hfreed := (hw.free a ha).2
        rw [← heq, BlockAlloc.link_map_self] at hfreed
        exact hrpos hfreed
      have hnotin : first ∉ chain := fun h => hapart first h rfl
      have hlast : bat'.LastAllocated ∈ first :: chain := by
        rcases hw.lastAllocated with hlast | hlast
        · exact hlast ▸ List.mem_cons_self
        · exact List.mem_cons_of_mem _ hlast
      refine ⟨bat', data', first :: chain, ?_, ⟨?_,
        Or.inr (.cons ?_ (hw.linked.resolve_left (Nat.succ_ne_zero n))),
        List.nodup_cons.mpr ⟨hnotin, hw.nodup⟩, fun a ha => ?_, fun j hj => ?_, ?_, fun j hj => ?_,
        Or.inr hlast, hw.freeBlocks⟩⟩
      · rw [writeBlocks_succ hfirst, if_neg (Nat.succ_ne_zero n), hr, hwrite]
      · rw [List.length_cons, hw.length]
      · rw [getNextBlock_of_hasBlock hsize hfirst, hw.map _ hapart, BlockAlloc.link_map_self]
      · rcases List.mem_cons.mp ha with rfl | ha'
        · exact ⟨hfirst, hzero⟩
        · refine ⟨(hw.free a ha').1, ?_⟩
          rw [← @BlockAlloc.link_map_of_ne bat first r _ (hapart a ha').symm]
          exact (hw.free a ha').2
      · rw [hw.map j fun a ha => hj a (List.mem_cons_of_mem _ ha),
          BlockAlloc.link_map_of_ne (hj first List.mem_cons_self)]
      · rw [List.map_cons, hw.written, hw.frame _ hapart, Function.update_self, List.take_succ_cons]
      · exact (hw.frame j fun a ha => hj a (List.mem_cons_of_mem _ ha)).trans
          (Function.update_of_ne (hj first List.mem_cons_self) _ _)

/-- **The loop of `ImportFile`**, if there are too few blocks: it gets back to the last block that was
free, so that the chain ends early, or goes on without any block. -/
theorem writeBlocks_short {s : GCMemcard} (hsize : s.maxBlock ∈ cardSizes) : (n : Nat) →
    {blocks : List GCMBlock} → {first : Nat} → {bat bat' : BlockAlloc} → {data data' : Nat → GCMBlock} →
    bat.FreeBlocks ≠ 0 → s.hasBlock first → bat.Map (first - MC_FST_BLOCKS) = 0 → 0 < n →
    (first < s.searchBound ∧ (bat.freeSet s.searchBound).card ≤ n ∨
      ∀ i, (first < i ∧ i < s.searchBound) ∨ (MC_FST_BLOCKS ≤ i ∧ i < first) →
        bat.Map (i - MC_FST_BLOCKS) ≠ 0) →
    s.writeBlocks (n + 1) blocks first bat data = some (bat', data') →
    ∃ chain, LinkChain bat'.getNextBlock 0xFFFF first chain ∧ chain.length ≤ n ∧
      (∀ b ∈ chain, s.hasBlock b) ∧ ∀ j, bat.Map j ≠ 0 → bat'.Map j = bat.Map j
  | 0, _, _, _, _, _, _, _, _, _, hpos, _, _ => absurd hpos (Nat.not_lt_zero 0)
  | n + 1, blocks, first, bat, bat', data, data', hfree, hfirst, hzero, _, hroom, hwrite => by
    cases blocks with
    | nil => cases hwrite
    | cons b blocks =>
    rw [writeBlocks_succ hfirst, if_neg (Nat.succ_ne_zero n)] at hwrite
    rcases BlockAlloc.nextFreeBlock_after (searchBound_le hsize) hfirst.1 hfree hzero with
      ⟨hself, hnone⟩ | ⟨hnext, hnextZero⟩
    · -- the search has come back to the block itself
      rw [hself] at hwrite
      cases blocks with
      | nil => cases hwrite
      | cons b' blocks =>
      rw [writeBlocks_succ hfirst] at hwrite
      cases n with
      | zero =>
        rw [if_pos rfl, writeBlocks] at hwrite
        cases hwrite
        refine ⟨[first], .last ?_, Nat.le_refl _, fun a ha => ?_, fun j hj => ?_⟩
        · rw [getNextBlock_of_hasBlock hsize hfirst, BlockAlloc.link_map_self]
        · rw [List.mem_singleton.mp ha]
          exact hfirst
        · have hne : j ≠ first - MC_FST_BLOCKS := fun heq => hj (heq ▸ hzero)
          rw [BlockAlloc.link_map_of_ne hne, BlockAlloc.link_map_of_ne hne]
      | succ n =>
        have hfirstpos : first ≠ 0 := by
          have := hfirst.1
          rw [MC_FST_BLOCKS] at this
          omega
        have hend : (bat.link first first).nextFreeBlock s.searchBound (first + 1) = 0xFFFF := by
          refine BlockAlloc.nextFreeBlock_none (searchBound_le hsize)
            (Nat.le_succ_of_le hfirst.1) fun i hi => ?_
          by_cases heq : i = first
          · rw [heq, BlockAlloc.link_map_self]
            exact hfirstpos
          · have := hfirst.1
            rw [BlockAlloc.link_map_of_ne (by omega)]
            exact hnone i (by omega)
        rw [if_neg (Nat.succ_ne_zero n), hend] at hwrite
        cases blocks with
        | nil => cases hwrite
        | cons b'' blocks =>
          rw [writeBlocks, if_neg (not_hasBlock_end hsize)] at hwrite
          cases hwrite
    · generalize hr : bat.nextFreeBlock s.searchBound (first + 1) = r at hnext hnextZero hwrite
      rcases hroom with ⟨hbelow, hcard⟩ | hnone
      swap
      · exact absurd hnextZero (hnone r hnext)
      have hmem : first ∈ bat.freeSet s.searchBound :=
        BlockAlloc.mem_freeSet.mpr ⟨⟨hfirst.1, hbelow⟩, hzero⟩
      have hrlow : MC_FST_BLOCKS ≤ r := by
        have := hfirst.1
        omega
      have hrhigh : r < s.searchBound := by omega
      have hrblock : s.hasBlock r := ⟨hrlow, Nat.lt_of_lt_of_le hrhigh (Nat.sub_le _ _)⟩
      have hrpos : r ≠ 0 := by
        rw [MC_FST_BLOCKS] at hrlow
        omega
      have hrzero : (bat.link first r).Map (r - MC_FST_BLOCKS) = 0 := by
        rw [BlockAlloc.link_map_of_ne, hnextZero]
        have := hfirst.1
        omega
      have hrmem : r ∈ (bat.link first r).freeSet s.searchBound :=
        BlockAlloc.mem_freeSet.mpr ⟨⟨hrlow, hrhigh⟩, hrzero⟩
      have hcard' : ((bat.link first r).freeSet s.searchBound).card ≤ n := by
        rw [BlockAlloc.freeSet_link hfirst.1 hrpos, Finset.card_erase_of_mem hmem]
        omega
      have hnpos : 0 < n := Nat.lt_of_lt_of_le (Finset.card_pos.mpr ⟨r, hrmem⟩) hcard'
      obtain ⟨chain, hlinked, hlength, hblocks, hkeep⟩ := @writeBlocks_short s hsize n _ _
        (bat.link first r) _ _ _ hfree hrblock hrzero hnpos (Or.inl ⟨hrhigh, hcard'⟩) hwrite
      have hself : bat'.Map (first - MC_FST_BLOCKS) = r := by
        rw [hkeep _ (by rw [BlockAlloc.link_map_self]; exact hrpos), BlockAlloc.link_map_self]
      refine ⟨first :: chain, .cons ?_ hlinked, Nat.succ_le_succ hlength, fun a ha => ?_, fun j hj => ?_⟩
      · rw [getNextBlock_of_hasBlock hsize hfirst, hself]
      · rcases List.mem_cons.mp ha with rfl | ha
        · exact hfirst
        · exact hblocks a ha
      · have hne : j ≠ first - MC_FST_BLOCKS := fun heq => hj (heq ▸ hzero)
        rw [hkeep j (by rw [BlockAlloc.link_map_of_ne hne]; exact hj), BlockAlloc.link_map_of_ne hne]

end GCMemcard

end DolphinCore.Memcard
