import DolphinCore.Memcard.Remove
import Mathlib.Logic.Function.Iterate

/-!
# DolphinCore.Memcard.BrokenChains

The functions that follow a chain of a block map that may be anything: `ClearBlocks`, `GetSaveData`
and `GCMemcardDirectory::SetUsedBlocks`.  A map of a card that passes its checksums may lead in a
circle, which two of them never leave, or to blocks that the card does not have, which the third
one copies.
-/

namespace DolphinCore.Memcard

/-- How a function does not return. -/
inductive Fault
  /-- an access outside of an array -/
  | outside
  /-- the steps that are allowed are used up -/
  | endless
  /-- `exit(0)` -/
  | exited
  deriving DecidableEq

namespace BlockAlloc

variable {bat : BlockAlloc}

/-! ## the functions -/

/-- `Map[i]` -/
def readMap (bat : BlockAlloc) (i : Int) : Except Fault Nat :=
  if 0 ≤ i ∧ i < BAT_SIZE then .ok (bat.Map i.toNat) else .error .outside

/-- `Map[i] = 0` -/
def clearMap (bat : BlockAlloc) (i : Int) : Except Fault BlockAlloc :=
  if 0 ≤ i ∧ i < BAT_SIZE then .ok { bat with Map := Function.update bat.Map i.toNat 0 }
  else .error .outside

/-- `GetNextBlock`, with its access. -/
def nextBlock (bat : BlockAlloc) (Block : Nat) : Except Fault Nat :=
  if Block < MC_FST_BLOCKS ∨ 4091 < Block then .ok 0 else bat.readMap (Block - MC_FST_BLOCKS : Int)

/-- The loop of `ClearBlocks`. -/
def followBlocks (bat : BlockAlloc) : Nat → Nat → Except Fault (List Nat × Nat)
  | 0, _ => .error .endless
  | fuel + 1, FirstBlock =>
    if FirstBlock ≠ 0xFFFF ∧ FirstBlock ≠ 0 then do
      let next ← bat.nextBlock FirstBlock
      let rest ← followBlocks bat fuel next
      pure (FirstBlock :: rest.1, rest.2)
    else pure ([], FirstBlock)

/-- `ClearBlocks`, in as many steps as are allowed. -/
def clearBlocksIn (bat : BlockAlloc) (fuel FirstBlock BlockCount : Nat) :
    Except Fault (Bool × BlockAlloc) := do
  let (blocks, last) ← bat.followBlocks fuel FirstBlock
  if 0 < last then
    if blocks.length ≠ BlockCount then pure (false, bat)
    else
      let cleared ← blocks.foldlM (fun bat block => bat.clearMap (block - MC_FST_BLOCKS : Int)) bat
      pure (true, { cleared with FreeBlocks := (bat.FreeBlocks + BlockCount) % 2 ^ 16 })
  else pure (false, bat)

/-- The loop of `SetUsedBlocks`. -/
def usedBlocks (bat : BlockAlloc) : Nat → Nat → Except Fault (List Nat)
  | 0, _ => .error .endless
  | fuel + 1, block =>
    if block ≠ 0xFFFF then do
      let next ← bat.nextBlock block
      if next = 0 then .error .exited
      else
        let rest ← usedBlocks bat fuel next
        pure (block :: rest)
    else pure []

/-- `SetUsedBlocks` with the current map, for a header's first block and its count of blocks. -/
def setUsedBlocks (bat : BlockAlloc) (fuel FirstBlock BlockCount : Nat) : Except Fault Bool := do
  let m_used_blocks ← bat.usedBlocks fuel FirstBlock
  pure (m_used_blocks.length % 2 ^ 16 = BlockCount)

/-! ## chains -/

/-- A list of blocks with entries in the map, which ends with its mark. -/
def WellFormed (bat : BlockAlloc) : Nat → Nat → Prop
  | 0, FirstBlock => FirstBlock = 0xFFFF
  | n + 1, FirstBlock =>
    MC_FST_BLOCKS ≤ FirstBlock ∧ FirstBlock ≤ 4091 ∧ WellFormed bat n (bat.getNextBlock FirstBlock)

/-- A block that ends a chain, or breaks it. -/
def IsEnd (block : Nat) : Prop := block = 0 ∨ block = 0xFFFF

/-- The chain does not lead in a circle. -/
def Ends (bat : BlockAlloc) (FirstBlock : Nat) : Prop :=
  ∃ n, IsEnd (bat.getNextBlock^[n] FirstBlock)

theorem nextBlock_eq (bat : BlockAlloc) (Block : Nat) :
    bat.nextBlock Block = .ok (bat.getNextBlock Block) := by
  unfold nextBlock getNextBlock readMap
  split
  · rfl
  · next h =>
    unfold MC_FST_BLOCKS BAT_SIZE at *
    rw [if_pos (by omega)]
    congr 2
    omega

theorem followBlocks_eq (bat : BlockAlloc) (fuel FirstBlock : Nat) :
    bat.followBlocks fuel FirstBlock =
      (bat.collectBlocks fuel FirstBlock).elim (.error .endless) .ok := by
  induction fuel generalizing FirstBlock with
  | zero => rfl
  | succ fuel ih =>
    rw [followBlocks, collectBlocks]
    split
    · rw [nextBlock_eq]
      change (bat.followBlocks fuel _ >>= _) = _
      rw [ih]
      cases bat.collectBlocks fuel (bat.getNextBlock FirstBlock) <;> rfl
    · rfl

/-! ## chains that end -/

theorem Ends.of_next {FirstBlock : Nat} (h : bat.Ends (bat.getNextBlock FirstBlock)) :
    bat.Ends FirstBlock := by
  obtain ⟨n, hn⟩ := h
  exact ⟨n + 1, hn⟩

variable {fuel FirstBlock : Nat}

theorem ends_of_collectBlocks (h : (bat.collectBlocks fuel FirstBlock).isSome) :
    bat.Ends FirstBlock := by
  induction fuel generalizing FirstBlock with
  | zero => exact absurd h Bool.false_ne_true
  | succ fuel ih =>
    rw [collectBlocks] at h
    split at h
    · rw [Option.isSome_map] at h
      exact (ih h).of_next
    · next hend =>
      refine ⟨0, ?_⟩
      change FirstBlock = 0 ∨ FirstBlock = 0xFFFF
      omega

theorem Ends.exists_collectBlocks {FirstBlock : Nat} (h : bat.Ends FirstBlock) :
    ∃ fuel collected, bat.collectBlocks fuel FirstBlock = some collected := by
  obtain ⟨n, hn⟩ := h
  induction n generalizing FirstBlock with
  | zero =>
    refine ⟨1, ([], FirstBlock), ?_⟩
    have hstop : ¬ (FirstBlock ≠ 0xFFFF ∧ FirstBlock ≠ 0) := by
      have hend : FirstBlock = 0 ∨ FirstBlock = 0xFFFF := hn
      omega
    rw [collectBlocks, if_neg hstop]
  | succ n ih =>
    obtain ⟨fuel, collected, hrest⟩ := @ih (bat.getNextBlock FirstBlock) hn
    by_cases hgo : FirstBlock ≠ 0xFFFF ∧ FirstBlock ≠ 0
    · refine ⟨fuel + 1, (FirstBlock :: collected.1, collected.2), ?_⟩
      rw [collectBlocks, if_pos hgo, hrest, Option.map_some]
    · exact ⟨1, ([], FirstBlock), by rw [collectBlocks, if_neg hgo]⟩

/-- What the loop has found out about the chain. -/
theorem collectBlocks_spec {blocks : List Nat} {last : Nat}
    (h : bat.collectBlocks fuel FirstBlock = some (blocks, last)) :
    last = 0xFFFF ∧ bat.WellFormed blocks.length FirstBlock ∧
        (∀ b ∈ blocks, MC_FST_BLOCKS ≤ b ∧ b ≤ 4091) ∨
      last = 0 ∧ ∀ n, ¬ bat.WellFormed n FirstBlock := by
  induction fuel generalizing FirstBlock blocks with
  | zero => cases h
  | succ fuel ih =>
    rw [collectBlocks] at h
    split at h
    · next hgo =>
      obtain ⟨⟨rest, last'⟩, hrest, heq⟩ := Option.map_eq_some_iff.mp h
      obtain ⟨rfl, rfl⟩ := Prod.mk.inj heq
      obtain ⟨hlast, hchain, hblocks⟩ | ⟨hlast, hnone⟩ := ih hrest
      · by_cases hin : FirstBlock < MC_FST_BLOCKS ∨ 4091 < FirstBlock
        · -- the chain would be broken behind a block without an entry
          have hnext : bat.getNextBlock FirstBlock = 0 := if_pos hin
          rw [hnext] at hchain
          cases rest with
          | nil => exact absurd (show 0 = 0xFFFF from hchain) (by decide)
          | cons b rest => exact absurd hchain.1 (by decide)
        · have hin : MC_FST_BLOCKS ≤ FirstBlock ∧ FirstBlock ≤ 4091 := by omega
          refine .inl ⟨hlast, ⟨hin.1, hin.2, hchain⟩, fun b hb => ?_⟩
          obtain rfl | hb := List.mem_cons.mp hb
          · exact hin
          · exact hblocks b hb
      · refine .inr ⟨hlast, fun n hchain => ?_⟩
        cases n with
        | zero => exact hgo.1 hchain
        | succ n => exact hnone n hchain.2.2
    · next hend =>
      obtain ⟨rfl, rfl⟩ := Prod.mk.inj (Option.some.inj h)
      by_cases hlast : FirstBlock = 0xFFFF
      · exact .inl ⟨hlast, hlast, by simp⟩
      · have hzero : FirstBlock = 0 := by omega
        subst hzero
        refine .inr ⟨rfl, fun n hchain => ?_⟩
        cases n with
        | zero => exact hlast hchain
        | succ n => exact absurd hchain.1 (by decide)

theorem WellFormed.unique {n m FirstBlock : Nat} (h : bat.WellFormed n FirstBlock)
    (h' : bat.WellFormed m FirstBlock) : n = m := by
  induction n generalizing m FirstBlock with
  | zero =>
    cases m with
    | zero => rfl
    | succ m =>
      have hfirst : FirstBlock = 0xFFFF := h
      have := h'.2.1
      omega
  | succ n ih =>
    cases m with
    | zero =>
      have hfirst : FirstBlock = 0xFFFF := h'
      have := h.2.1
      omega
    | succ m => rw [ih h.2.2 h'.2.2]

theorem WellFormed.drop {n FirstBlock : Nat} (h : bat.WellFormed n FirstBlock) {k : Nat}
    (hk : k ≤ n) : bat.WellFormed (n - k) (bat.getNextBlock^[k] FirstBlock) := by
  induction k generalizing n FirstBlock with
  | zero => exact h
  | succ k ih =>
    obtain ⟨n, rfl⟩ : ∃ m, n = m + 1 := ⟨n - 1, by omega⟩
    rw [Nat.succ_sub_succ]
    exact ih h.2.2 (Nat.le_of_succ_le_succ hk)

theorem WellFormed.le {n FirstBlock : Nat} (h : bat.WellFormed n FirstBlock) : n ≤ 4087 := by
  have hmaps : ∀ k ∈ Finset.range n,
      bat.getNextBlock^[k] FirstBlock ∈ Finset.Icc MC_FST_BLOCKS 4091 := by
    intro k hk
    have hk := Finset.mem_range.mp hk
    have hdrop := h.drop hk.le
    obtain ⟨m, hm⟩ : ∃ m, n - k = m + 1 := ⟨n - k - 1, by omega⟩
    rw [hm] at hdrop
    exact Finset.mem_Icc.mpr ⟨hdrop.1, hdrop.2.1⟩
  have hinj : Set.InjOn (fun k => bat.getNextBlock^[k] FirstBlock) (Finset.range n) := by
    intro i hi j hj heq
    have hi := Finset.mem_range.mp hi
    have hj := Finset.mem_range.mp hj
    have hdrop := h.drop hi.le
    rw [show bat.getNextBlock^[i] FirstBlock = bat.getNextBlock^[j] FirstBlock from heq] at hdrop
    have := hdrop.unique (h.drop hj.le)
    omega
  have hcard := Finset.card_le_card_of_injOn _ hmaps hinj
  rwa [Finset.card_range, Nat.card_Icc] at hcard

/-! ## the removal and the used blocks -/

theorem clearMap_ok (blocks : List Nat) (hblocks : ∀ b ∈ blocks, MC_FST_BLOCKS ≤ b ∧ b ≤ 4091)
    (bat : BlockAlloc) :
    ∃ cleared, blocks.foldlM (fun bat block => bat.clearMap (block - MC_FST_BLOCKS : Int)) bat =
      .ok cleared := by
  induction blocks generalizing bat with
  | nil => exact ⟨bat, rfl⟩
  | cons b blocks ih =>
    obtain ⟨hb, hle⟩ := hblocks b List.mem_cons_self
    have hin : (0 : Int) ≤ (b - MC_FST_BLOCKS : Int) ∧ (b - MC_FST_BLOCKS : Int) < BAT_SIZE := by
      unfold MC_FST_BLOCKS BAT_SIZE at *
      omega
    rw [List.foldlM_cons, clearMap, if_pos hin]
    exact ih (fun c hc => hblocks c (List.mem_cons_of_mem _ hc)) _

/-- `ClearBlocks` returns without an access outside of the map, and fails on what is no chain of
that many blocks, which leaves the map as it was. -/
def ClearsSafely (bat : BlockAlloc) (FirstBlock BlockCount : Nat) : Prop :=
  ∃ fuel result, bat.clearBlocksIn fuel FirstBlock BlockCount = .ok result ∧
    (¬ bat.WellFormed BlockCount FirstBlock → result = (false, bat))

theorem clearsSafely_iff (bat : BlockAlloc) (FirstBlock BlockCount : Nat) :
    bat.ClearsSafely FirstBlock BlockCount ↔ bat.Ends FirstBlock := by
  constructor
  · rintro ⟨fuel, result, hresult, -⟩
    refine ends_of_collectBlocks (?_ : (bat.collectBlocks fuel FirstBlock).isSome)
    unfold clearBlocksIn at hresult
    rw [followBlocks_eq] at hresult
    cases h : bat.collectBlocks fuel FirstBlock with
    | none =>
      rw [h] at hresult
      cases hresult
    | some collected => rfl
  · intro h
    obtain ⟨fuel, ⟨blocks, last⟩, hcollect⟩ := h.exists_collectBlocks
    have hclear : bat.clearBlocksIn fuel FirstBlock BlockCount =
        if 0 < last then
          if blocks.length ≠ BlockCount then .ok (false, bat)
          else
            blocks.foldlM (fun bat block => bat.clearMap (block - MC_FST_BLOCKS : Int)) bat >>=
              fun cleared =>
                .ok (true, { cleared with FreeBlocks := (bat.FreeBlocks + BlockCount) % 2 ^ 16 })
        else .ok (false, bat) := by
      unfold clearBlocksIn
      rw [followBlocks_eq, hcollect]
      rfl
    obtain ⟨rfl, hchain, hblocks⟩ | ⟨rfl, -⟩ := collectBlocks_spec hcollect
    · by_cases hcount : blocks.length ≠ BlockCount
      · exact ⟨fuel, _, hclear.trans (if_pos hcount), fun _ => rfl⟩
      · obtain ⟨cleared, hcleared⟩ := clearMap_ok blocks hblocks bat
        rw [if_neg hcount, hcleared] at hclear
        refine ⟨fuel, _, hclear, fun hno => absurd ?_ hno⟩
        rwa [not_not.mp hcount] at hchain
    · exact ⟨fuel, _, hclear.trans (if_neg (by decide)), fun _ => rfl⟩

/-- `SetUsedBlocks` returns, or ends the program, without an access outside of the map, and does not
find the blocks of what is no chain of that many. -/
def UsesSafely (bat : BlockAlloc) (FirstBlock BlockCount : Nat) : Prop :=
  ∃ fuel, bat.setUsedBlocks fuel FirstBlock BlockCount ≠ .error .endless ∧
    bat.setUsedBlocks fuel FirstBlock BlockCount ≠ .error .outside ∧
    (¬ bat.WellFormed BlockCount FirstBlock →
      bat.setUsedBlocks fuel FirstBlock BlockCount ≠ .ok true)

theorem usedBlocks_succ (bat : BlockAlloc) (fuel block : Nat) : bat.usedBlocks (fuel + 1) block =
      if block = 0xFFFF then .ok []
      else if bat.getNextBlock block = 0 then .error .exited
      else bat.usedBlocks fuel (bat.getNextBlock block) >>= fun rest => .ok (block :: rest) := by
  rw [usedBlocks, nextBlock_eq]
  by_cases hend : block = 0xFFFF
  · rw [if_neg (not_not.mpr hend), if_pos hend]
    rfl
  · rw [if_pos hend, if_neg hend]
    rfl

theorem ends_of_usedBlocks {fuel block : Nat}
    (h : bat.usedBlocks fuel block ≠ .error .endless) : bat.Ends block := by
  induction fuel generalizing block with
  | zero => exact absurd rfl h
  | succ fuel ih =>
    rw [usedBlocks_succ] at h
    by_cases hend : block = 0xFFFF
    · exact ⟨0, .inr hend⟩
    by_cases hzero : bat.getNextBlock block = 0
    · exact ⟨1, .inl hzero⟩
    rw [if_neg hend, if_neg hzero] at h
    refine (ih fun hrest => h ?_).of_next
    rw [hrest]
    rfl

theorem usedBlocks_of_collectBlocks {blocks : List Nat} {last : Nat}
    (h : bat.collectBlocks fuel FirstBlock = some (blocks, last)) :
    bat.usedBlocks fuel FirstBlock = if last = 0xFFFF then .ok blocks else .error .exited := by
  induction fuel generalizing FirstBlock blocks with
  | zero => cases h
  | succ fuel ih =>
    rw [usedBlocks_succ]
    have hspec := collectBlocks_spec h
    rw [collectBlocks] at h
    split at h
    · next hgo =>
      obtain ⟨⟨rest, last'⟩, hrest, heq⟩ := Option.map_eq_some_iff.mp h
      obtain ⟨rfl, rfl⟩ := Prod.mk.inj heq
      rw [if_neg hgo.1, ih hrest]
      by_cases hzero : bat.getNextBlock FirstBlock = 0
      · obtain ⟨-, hchain, -⟩ | ⟨hlast, -⟩ := hspec
        · -- a chain does not lead to a block without an entry
          have hrest' := hchain.2.2
          rw [hzero] at hrest'
          cases rest with
          | nil => exact absurd (show 0 = 0xFFFF from hrest') (by decide)
          | cons b rest => exact absurd hrest'.1 (by decide)
        · rw [if_pos hzero, if_neg (show last' ≠ 0xFFFF by omega)]
      · rw [if_neg hzero]
        split <;> rfl
    · obtain ⟨rfl, rfl⟩ := Prod.mk.inj (Option.some.inj h)
      by_cases hlast : FirstBlock = 0xFFFF
      · rw [if_pos hlast, if_pos hlast]
      · have hzero : FirstBlock = 0 := by omega
        subst hzero
        rfl

theorem usesSafely_iff (bat : BlockAlloc) (FirstBlock BlockCount : Nat) :
    bat.UsesSafely FirstBlock BlockCount ↔ bat.Ends FirstBlock := by
  constructor
  · rintro ⟨fuel, hends, -⟩
    refine @ends_of_usedBlocks bat fuel FirstBlock fun h => hends ?_
    unfold setUsedBlocks
    rw [h]
    rfl
  · intro h
    obtain ⟨fuel, ⟨blocks, last⟩, hcollect⟩ := h.exists_collectBlocks
    have hused := usedBlocks_of_collectBlocks hcollect
    refine ⟨fuel, ?_⟩
    unfold setUsedBlocks
    rw [hused]
    obtain ⟨rfl, hchain, -⟩ | ⟨rfl, -⟩ := collectBlocks_spec hcollect
    · refine ⟨nofun, nofun, fun hno htrue => hno ?_⟩
      have hlen : blocks.length % 2 ^ 16 = BlockCount :=
        of_decide_eq_true (Except.ok.inj htrue)
      have := hchain.le
      rw [Nat.mod_eq_of_lt (by omega)] at hlen
      rwa [hlen] at hchain
    · exact ⟨nofun, nofun, fun _ => nofun⟩

/-! ## checksums -/

/-- The words that the checksums of a map are made of. -/
def checksumWords (bat : BlockAlloc) : List Nat :=
  [bat.UpdateCounter, bat.FreeBlocks, bat.LastAllocated] ++ (List.range BAT_SIZE).map bat.Map

/-- `TestChecksums` finds no error in the map. -/
def ChecksumsMatch (bat : BlockAlloc) : Prop :=
  bat.Checksum = finishChecksum bat.checksumWords.sum ∧
    bat.Checksum_Inv = finishChecksum (bat.checksumWords.map (0xFFFF - ·)).sum

/-- A map with other checksums. -/
def withChecksums (bat : BlockAlloc) (csum inv_csum : Nat) : BlockAlloc :=
  { bat with Checksum := csum, Checksum_Inv := inv_csum }

def fixChecksums (bat : BlockAlloc) : BlockAlloc :=
  bat.withChecksums (finishChecksum bat.checksumWords.sum)
    (finishChecksum (bat.checksumWords.map (0xFFFF - ·)).sum)

theorem checksumsMatch_withChecksums {bat : BlockAlloc} {csum inv_csum : Nat} :
    (bat.withChecksums csum inv_csum).ChecksumsMatch ↔ csum = finishChecksum bat.checksumWords.sum ∧
        inv_csum = finishChecksum (bat.checksumWords.map (0xFFFF - ·)).sum :=
  Iff.rfl

theorem checksumsMatch_fixChecksums (bat : BlockAlloc) : bat.fixChecksums.ChecksumsMatch :=
  checksumsMatch_withChecksums.mpr ⟨rfl, rfl⟩

end BlockAlloc

/-! ## the data of a save -/

namespace GCMemcard

open BlockAlloc

/-- The blocks of a chain that a loop of so many rounds comes to. -/
def visited (bat : BlockAlloc) : Nat → Nat → List Nat
  | 0, _ => []
  | n + 1, block =>
    if block = 0 ∨ block = 0xFFFF then [] else block :: visited bat n (bat.getNextBlock block)

theorem readBlocks_eq (s : GCMemcard) (n block : Nat) : (s.readBlocks n block).map Prod.fst =
      if ∀ b ∈ visited s.currentBat n block, s.hasBlock b then
        some (if (visited s.currentBat n block).length = n then Code.SUCCESS else .FAIL)
      else none := by
  induction n generalizing block with
  | zero => rfl
  | succ n ih =>
    rw [readBlocks, visited]
    split
    · rfl
    · by_cases hblock : s.hasBlock block
      · have hall : (∀ b ∈ block :: visited s.currentBat n (s.currentBat.getNextBlock block),
            s.hasBlock b) ↔
            ∀ b ∈ visited s.currentBat n (s.currentBat.getNextBlock block), s.hasBlock b :=
          List.forall_mem_cons.trans (and_iff_right hblock)
        rw [if_pos hblock, Option.map_map, if_congr hall rfl rfl]
        refine Eq.trans (b := (s.readBlocks n (s.currentBat.getNextBlock block)).map Prod.fst)
          (congrArg (Option.map · _) rfl) ((ih _).trans ?_)
        rw [List.length_cons]
        simp only [Nat.add_right_cancel_iff]
      · rw [if_neg hblock, if_neg fun h => hblock (h block List.mem_cons_self)]
        rfl

/-- `GetSaveData` copies blocks of the card only, and does not succeed with what is no chain of as
many blocks as the entry counts. -/
def SavesSafely (s : GCMemcard) (index : Nat) : Prop :=
  ∃ result, s.getSaveData index = some result ∧
    (¬ s.currentBat.WellFormed (s.dEntryBlockCount index) (s.dEntryFirstBlock index) →
      result.1 ≠ .SUCCESS)

/-- The loop of `GetSaveData` is entered. -/
def Reads (s : GCMemcard) (index : Nat) : Prop :=
  s.m_valid = true ∧ s.dEntryFirstBlock index ≠ 0xFFFF ∧ s.dEntryBlockCount index ≠ 0xFFFF

/-- The blocks that the loop comes to are on the card, and when there are enough of them, the chain
ends behind them. -/
def Copies (s : GCMemcard) (index : Nat) : Prop :=
  let blocks := visited s.currentBat (s.dEntryBlockCount index) (s.dEntryFirstBlock index)
  (∀ b ∈ blocks, s.hasBlock b) ∧ (blocks.length = s.dEntryBlockCount index →
      s.currentBat.WellFormed (s.dEntryBlockCount index) (s.dEntryFirstBlock index))

theorem savesSafely_iff (s : GCMemcard) (index : Nat) :
    s.SavesSafely index ↔ (s.Reads index → s.Copies index) := by
  unfold SavesSafely Reads
  rw [getSaveData]
  by_cases hvalid : s.m_valid = true
  · rw [if_neg (by rw [hvalid]; decide)]
    split
    · next hno =>
      refine iff_of_true ⟨_, rfl, fun _ h => by cases h⟩ fun h => ?_
      exact absurd hno (not_or.mpr h.2)
    · next hgo =>
      have hgo := not_or.mp hgo
      have hread := s.readBlocks_eq (s.dEntryBlockCount index) (s.dEntryFirstBlock index)
      constructor
      · rintro ⟨result, hresult, hfail⟩ -
        rw [hresult, Option.map_some] at hread
        split at hread
        · next hall =>
          refine ⟨hall, fun hlen => ?_⟩
          rw [if_pos hlen] at hread
          by_contra hno
          exact hfail hno (Option.some.inj hread)
        · cases hread
      · intro h
        obtain ⟨hall, hend⟩ := h ⟨hvalid, hgo⟩
        rw [if_pos hall] at hread
        obtain ⟨result, hresult, hcode⟩ := Option.map_eq_some_iff.mp hread
        refine ⟨result, hresult, fun hno hsuccess => hno (hend ?_)⟩
        by_contra hlen
        rw [if_neg hlen, hsuccess] at hcode
        cases hcode
  · have hvalid := Bool.eq_false_of_not_eq_true hvalid
    rw [if_pos hvalid]
    refine iff_of_true ⟨_, rfl, fun _ h => by cases h⟩ fun h => ?_
    rw [hvalid] at h
    exact absurd h.1 Bool.false_ne_true

end GCMemcard

/-! ## any map -/

/-- A map in which the first block leads to itself. -/
def circle : BlockAlloc :=
  { BlockAlloc.format 4 with Map := Function.update (fun _ => 0) 0 5 }.fixChecksums

/-- A card with that map and a save of two blocks. -/
def circleCard (hdr : Header) : GCMemcard :=
  { GCMemcard.format hdr 4 with
    dir_backup := ⟨fun _ => { DEntry.empty with FirstBlock := 5, BlockCount := 2 }, 0⟩
    bat_backup := circle }

theorem not_ends_circle : ¬ circle.Ends 5 := by
  rintro ⟨n, hn⟩
  have hfix : ∀ n, circle.getNextBlock^[n] 5 = 5 := by
    intro n
    induction n with
    | zero => rfl
    | succ n ih => exact ih
  rw [hfix n] at hn
  exact absurd hn (by unfold BlockAlloc.IsEnd; decide)

end DolphinCore.Memcard
