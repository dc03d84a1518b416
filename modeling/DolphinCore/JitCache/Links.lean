import DolphinCore.Lib.Run
import DolphinCore.JitCache.Basic

/-!
# DolphinCore.JitCache.Links

The links between the blocks over whole runs of the cache: no exit, no entry of
`links_to` and no entry of `fast_block_map` outlives the block it leads to.
-/

namespace DolphinCore.JitCache

open JitBaseBlockCache

/-! ## blocks apart from their links -/

namespace JitBlock

/-- A block whose exits all go to the dispatcher. -/
def unlinked (b : JitBlock) : JitBlock :=
  b.relink fun e => { e with exitPtrs := none, linkStatus := false }

variable {b b' : JitBlock} {f : LinkData → LinkData}

theorem unlinked_relink (hf : ∀ e, (f e).exitAddress = e.exitAddress) :
    (b.relink f).unlinked = b.unlinked := by
  rw [unlinked, unlinked, relink, relink, relink]
  simp only [List.map_map]
  congr 2
  funext e
  simp [hf]

theorem exitAddresses_of_unlinked (h : b.unlinked = b'.unlinked) :
    b.linkData.map (·.exitAddress) = b'.linkData.map (·.exitAddress) := by
  have h' := congrArg (fun b => b.linkData.map (·.exitAddress)) h
  simpa [unlinked, relink, Function.comp_def] using h'

end JitBlock

/-- The blocks of two caches are the same apart from their links. -/
def SameBlocks (s s' : JitBaseBlockCache) : Prop :=
  ∀ p, (s'.blockMap.get? p).map JitBlock.unlinked = (s.blockMap.get? p).map JitBlock.unlinked

namespace SameBlocks

variable {s s' s'' : JitBaseBlockCache}

theorem refl : SameBlocks s s := fun _ => rfl

theorem trans (h : SameBlocks s s') (h' : SameBlocks s' s'') : SameBlocks s s'' :=
  fun p => (h' p).trans (h p)

variable {p : BlockPtr}

theorem before (h : SameBlocks s s') {b' : JitBlock} (hb : s'.blockMap.get? p = some b') :
    ∃ b, s.blockMap.get? p = some b ∧ b'.unlinked = b.unlinked := by
  have hp := h p
  rw [hb] at hp
  obtain ⟨b, hb, heq⟩ := Option.map_eq_some_iff.mp hp.symm
  exact ⟨b, hb, heq.symm⟩

theorem after (h : SameBlocks s s') {b : JitBlock} (hb : s.blockMap.get? p = some b) :
    ∃ b', s'.blockMap.get? p = some b' ∧ b'.unlinked = b.unlinked := by
  have hp := h p
  rw [hb] at hp
  exact Option.map_eq_some_iff.mp hp

theorem modifyBlock {f : JitBlock → JitBlock} (hf : ∀ b, (f b).unlinked = b.unlinked) :
    SameBlocks s (s.modifyBlock p f) := by
  intro q
  rw [JitBaseBlockCache.modifyBlock, NodeMap.get?_modify]
  split
  · cases s.blockMap.get? q <;> simp [hf]
  · rfl

end SameBlocks

/-! ## what the parts of an operation do -/

variable {s s' : JitBaseBlockCache} {env : Env} {p q d : BlockPtr} {b : JitBlock}

theorem mem_equalRange {links : List (BitVec 32 × BlockPtr)} {a : BitVec 32} :
    q ∈ equalRange links a ↔ (a, q) ∈ links := by
  simp [equalRange]

theorem getBlockFromStartAddress_eq_some {addr msr : BitVec 32}
    (h : s.getBlockFromStartAddress env addr msr = some d) :
    ∃ block, s.blockMap.get? d = some block ∧ block.effectiveAddress = addr ∧
      block.msrBits = msr &&& jitCacheMsrMask := by
  unfold getBlockFromStartAddress at h
  dsimp only at h
  generalize (if msr.getLsbD 5 = true then env.jitCacheTranslateAddress addr else ⟨true, addr⟩ :
    TranslateResult) = translated at h
  split at h
  · cases h
  · obtain ⟨⟨d', block⟩, hfind, rfl⟩ := Option.map_eq_some_iff.mp h
    have hmem := List.mem_of_mem_filter (List.mem_of_find?_eq_some hfind)
    have hp := List.find?_some hfind
    simp only [Bool.and_eq_true, decide_eq_true_eq] at hp
    exact ⟨block, NodeMap.get?_eq_some.mpr hmem, hp⟩

@[simp] theorem linkExit_exitAddress (msrBits : BitVec 32) (e : LinkData) :
    (s.linkExit env msrBits e).exitAddress = e.exitAddress := by
  unfold linkExit
  split
  · rfl
  · split <;> rfl

theorem unlinkFrom_eq_relink (block sourceBlock : JitBlock) :
    unlinkFrom block sourceBlock = sourceBlock.relink fun e =>
      if sourceBlock.msrBits = block.msrBits ∧ e.exitAddress = block.effectiveAddress then
        { e with exitPtrs := none, linkStatus := false }
      else e := by
  unfold unlinkFrom
  by_cases h : sourceBlock.msrBits = block.msrBits
  · rw [if_neg (not_not.mpr h)]
    simp only [h, true_and]
  · simp [h, JitBlock.relink]

theorem unlinked_unlinkFrom (block sourceBlock : JitBlock) :
    (unlinkFrom block sourceBlock).unlinked = sourceBlock.unlinked := by
  rw [unlinkFrom_eq_relink]
  apply JitBlock.unlinked_relink
  intro e
  split <;> rfl

theorem unlinkFrom_idem (block sourceBlock : JitBlock) :
    unlinkFrom block (unlinkFrom block sourceBlock) = unlinkFrom block sourceBlock := by
  simp only [unlinkFrom_eq_relink, JitBlock.relink, List.map_map]
  congr 2
  funext e
  simp only [Function.comp_apply]
  split <;> simp

theorem mem_foldl_filter {l : BitVec 32 × BlockPtr} (es : List LinkData)
    (links : List (BitVec 32 × BlockPtr)) :
    l ∈ es.foldl (fun links e => links.filter fun l => !(l.1 = e.exitAddress && l.2 = p)) links ↔
      l ∈ links ∧ ¬(l.2 = p ∧ l.1 ∈ es.map (·.exitAddress)) := by
  induction es generalizing links with
  | nil => simp
  | cons e es ih =>
    rw [List.foldl_cons, ih, List.mem_filter, List.map_cons, List.mem_cons]
    simp only [Bool.not_eq_true', Bool.and_eq_false_iff, decide_eq_false_iff_not]
    tauto

/-! ## the invariant -/

/-- What an exit of block `p` leads to. -/
def LinkOk (s : JitBaseBlockCache) (p : BlockPtr) (b : JitBlock) (e : LinkData) : Prop :=
  ∀ d, e.exitPtrs = some d → (e.exitAddress, p) ∈ s.linksTo ∧
    ∃ block, s.blockMap.get? d = some block ∧ block.effectiveAddress = e.exitAddress ∧
      block.msrBits = b.msrBits

/-- The exits that lead to blocks are registered in `links_to`, where a block stands either
with all its exits or not at all; and what leads to a block leads to a live one. -/
structure LinksInv (s : JitBaseBlockCache) : Prop where
  mask : ∀ p b, s.blockMap.get? p = some b → b.msrBits &&& jitCacheMsrMask = b.msrBits
  link : ∀ p b, s.blockMap.get? p = some b → ∀ e ∈ b.linkData, LinkOk s p b e
  linksTo : ∀ a p, (a, p) ∈ s.linksTo → ∃ b, s.blockMap.get? p = some b ∧
    a ∈ b.linkData.map (·.exitAddress) ∧ ∀ a' ∈ b.linkData.map (·.exitAddress), (a', p) ∈ s.linksTo
  fast : ∀ i p, s.fastBlockMap i = some p →
    ∃ b, s.blockMap.get? p = some b ∧ b.fastBlockMapIndex = i

namespace LinksInv

theorem init : LinksInv init where
  mask _ _ h := by cases h
  link _ _ h := by cases h
  linksTo _ _ h := by cases h
  fast _ _ h := by cases h

theorem congr (hi : LinksInv s) (hm : s'.blockMap = s.blockMap) (hl : s'.linksTo = s.linksTo)
    (hf : s'.fastBlockMap = s.fastBlockMap) : LinksInv s' where
  mask := hm ▸ hi.mask
  link p b hb e he d hd := by
    rw [hl, hm]
    exact hi.link p b (hm ▸ hb) e he d hd
  linksTo := by
    rw [hl, hm]
    exact hi.linksTo
  fast := by
    rw [hf, hm]
    exact hi.fast

theorem of_sameBlocks (hi : LinksInv s) (hs : SameBlocks s s') (hl : s'.linksTo = s.linksTo)
    (hf : s'.fastBlockMap = s.fastBlockMap)
    (hlink : ∀ p b, s'.blockMap.get? p = some b → ∀ e ∈ b.linkData, LinkOk s p b e) :
    LinksInv s' where
  mask p b' hb' := by
    obtain ⟨b, hb, heq⟩ := hs.before hb'
    have hmsr : b'.msrBits = b.msrBits := (JitBlock.mk.inj heq).2.2.1
    rw [hmsr]
    exact hi.mask p b hb
  link p b' hb' e he d hd := by
    obtain ⟨hmem, block, hblock, heff, hmsr⟩ := hlink p b' hb' e he d hd
    obtain ⟨block', hblock', heq⟩ := hs.after hblock
    have hfields := JitBlock.mk.inj heq
    exact ⟨hl ▸ hmem, block', hblock', hfields.2.1.trans heff, hfields.2.2.1.trans hmsr⟩
  linksTo a p hmem := by
    obtain ⟨b, hb, ha, hall⟩ := hi.linksTo a p (hl ▸ hmem)
    obtain ⟨b', hb', heq⟩ := hs.after hb
    have hexits := JitBlock.exitAddresses_of_unlinked heq
    rw [hl]
    exact ⟨b', hb', hexits ▸ ha, hexits ▸ hall⟩
  fast i p h := by
    obtain ⟨b, hb, hidx⟩ := hi.fast i p (hf ▸ h)
    obtain ⟨b', hb', heq⟩ := hs.after hb
    have hindex : b'.fastBlockMapIndex = b.fastBlockMapIndex := (JitBlock.mk.inj heq).2.2.2.2.2.2
    exact ⟨b', hb', hindex.trans hidx⟩

theorem relink (hi : LinksInv s) (f : JitBlock → LinkData → LinkData)
    (hf : ∀ b e, (f b e).exitAddress = e.exitAddress)
    (hok : ∀ b, s.blockMap.get? p = some b → ∀ e ∈ b.linkData, LinkOk s p b (f b e)) :
    LinksInv (s.modifyBlock p fun b => b.relink (f b)) := by
  refine hi.of_sameBlocks (.modifyBlock fun b => JitBlock.unlinked_relink (hf b)) rfl rfl ?_
  intro q b' hb' e he
  rw [modifyBlock, NodeMap.get?_modify] at hb'
  split at hb'
  · next hqp =>
    subst hqp
    obtain ⟨b, hb, rfl⟩ := Option.map_eq_some_iff.mp hb'
    obtain ⟨e₀, he₀, rfl⟩ := List.mem_map.mp he
    exact hok b hb e₀ he₀
  · exact hi.link q b' hb' e he

/-! ### linking -/

theorem linkBlockExits (hi : LinksInv s) {a : BitVec 32} (hp : (a, p) ∈ s.linksTo) :
    LinksInv (s.linkBlockExits env p) := by
  apply hi.relink fun b e => s.linkExit env b.msrBits e
  · intro b e
    exact linkExit_exitAddress _ _
  · intro b hb e he d hd
    unfold linkExit at hd ⊢
    by_cases hstatus : e.linkStatus = true
    · simp only [hstatus, if_true] at hd ⊢
      exact hi.link p b hb e he d hd
    · simp only [hstatus] at hd ⊢
      cases hget : s.getBlockFromStartAddress env e.exitAddress b.msrBits with
      | none =>
        simp only [hget] at hd ⊢
        exact hi.link p b hb e he d hd
      | some d' =>
        simp only [hget] at hd ⊢
        cases hd
        obtain ⟨block, hblock, heff, hmsr⟩ := getBlockFromStartAddress_eq_some hget
        obtain ⟨b', hb', _, hall⟩ := hi.linksTo a p hp
        have hbb : b' = b := Option.some.inj (hb'.symm.trans hb)
        subst hbb
        have hexit : e.exitAddress ∈ b'.linkData.map (·.exitAddress) := List.mem_map_of_mem he
        exact ⟨hall _ hexit, block, hblock, heff, hmsr.trans (hi.mask p _ hb)⟩

theorem linkBlocks (block : JitBlock) (qs : List BlockPtr) :
    ∀ {s : JitBaseBlockCache}, LinksInv s → (∀ q ∈ qs, ∃ a, (a, q) ∈ s.linksTo) →
    LinksInv (qs.foldl (fun s q =>
      match s.blockMap.get? q with
      | some b2 => if block.msrBits = b2.msrBits then s.linkBlockExits env q else s
      | none => s) s) := by
  induction qs with
  | nil =>
    intro s hi _
    exact hi
  | cons q qs ih =>
    intro s hi hqs
    rw [List.foldl_cons]
    obtain ⟨a, ha⟩ := hqs q (List.mem_cons_self ..)
    have hrest : ∀ q ∈ qs, ∃ a, (a, q) ∈ s.linksTo :=
      fun q hq => hqs q (List.mem_cons_of_mem _ hq)
    split
    · split
      · exact ih (hi.linkBlockExits ha) hrest
      · exact ih hi hrest
    · exact ih hi hrest

theorem linkBlock (hi : LinksInv s)
    (hp : ∀ b, s.blockMap.get? p = some b → b.linkData = [] ∨ ∃ a, (a, p) ∈ s.linksTo) :
    LinksInv (s.linkBlock env p) := by
  unfold JitBaseBlockCache.linkBlock
  split
  · exact hi
  · next block hblock =>
    have hexits : LinksInv (s.linkBlockExits env p) := by
      obtain hnil | ⟨a, ha⟩ := hp block hblock
      · apply hi.relink fun b e => s.linkExit env b.msrBits e
        · intro b e
          exact linkExit_exitAddress _ _
        · intro b hb e he
          have hbb : b = block := Option.some.inj (hb.symm.trans hblock)
          rw [hbb, hnil] at he
          cases he
      · exact hi.linkBlockExits ha
    exact linkBlocks block _ hexits fun q hq => ⟨_, mem_equalRange.mp hq⟩

/-! ### destroying -/

theorem unlinkBlock (hi : LinksInv s) : LinksInv (s.unlinkBlock p) := by
  unfold JitBaseBlockCache.unlinkBlock
  split
  · exact hi
  · next block _ =>
    have hown : LinksInv (s.modifyBlock p (·.relink fun e => { e with exitPtrs := none })) := by
      apply hi.relink (fun _ e => { e with exitPtrs := none }) fun _ _ => rfl
      intro b _ e _ d hd
      cases hd
    -- one source block after the other
    have hfold : ∀ (qs : List BlockPtr) {t : JitBaseBlockCache}, LinksInv t →
        LinksInv { t with blockMap := qs.foldl (fun m q => m.modify q (unlinkFrom block)) t.blockMap } := by
      intro qs
      induction qs with
      | nil =>
        intro t ht
        exact ht
      | cons q qs ih =>
        intro t ht
        have hq : LinksInv (t.modifyBlock q (unlinkFrom block)) := by
          have h := ht.relink (p := q)
            (fun b e => if b.msrBits = block.msrBits ∧ e.exitAddress = block.effectiveAddress then
              { e with exitPtrs := none, linkStatus := false } else e)
            (fun b e => by split <;> rfl)
            (fun b hb e he => by
              split
              · intro d hd
                cases hd
              · exact ht.link q b hb e he)
          simpa only [← unlinkFrom_eq_relink] using h
        exact ih hq
    exact hfold _ hown

end LinksInv

theorem sameBlocks_unlinkBlock : SameBlocks s (s.unlinkBlock p) := by
  unfold JitBaseBlockCache.unlinkBlock
  split
  · exact .refl
  · next block _ =>
    have hown : SameBlocks s (s.modifyBlock p (·.relink fun e => { e with exitPtrs := none })) :=
      .modifyBlock fun b => JitBlock.unlinked_relink fun e => rfl
    refine hown.trans ?_
    intro q
    rw [NodeMap.get?_foldl_modify (unlinkFrom_idem block)]
    split
    · rw [Option.map_map]
      congr 1
      funext b
      exact unlinked_unlinkFrom block b
    · rfl

theorem unlinkBlock_ne (hi : LinksInv s) {b' : JitBlock}
    (hb : (s.unlinkBlock p).blockMap.get? q = some b') : ∀ e ∈ b'.linkData, e.exitPtrs ≠ some p := by
  intro e he hep
  have hi' : LinksInv (s.unlinkBlock p) := hi.unlinkBlock
  obtain ⟨hmem, block', hblock', heff, hmsr⟩ := hi'.link q b' hb e he p hep
  obtain ⟨block, hblock, heq⟩ := sameBlocks_unlinkBlock.before hblock'
  have hfields := JitBlock.mk.inj heq
  have heff' : e.exitAddress = block.effectiveAddress := heff.symm.trans hfields.2.1
  have hmsr' : b'.msrBits = block.msrBits := hmsr.symm.trans hfields.2.2.1
  unfold unlinkBlock at hb hmem
  simp only [hblock] at hb hmem
  rw [NodeMap.get?_foldl_modify (unlinkFrom_idem block), if_pos (mem_equalRange.mpr (heff' ▸ hmem))]
    at hb
  -- the exit is one that the loop over the sources has reset
  obtain ⟨b, _, rfl⟩ := Option.map_eq_some_iff.mp hb
  rw [unlinkFrom_eq_relink] at he hmsr'
  obtain ⟨e', _, rfl⟩ := List.mem_map.mp he
  have hb' : b.msrBits = block.msrBits := hmsr'
  split at hep
  · cases hep
  · next hne =>
    rw [if_neg hne] at heff'
    exact hne ⟨hb', heff'⟩

theorem LinksInv.erase (hi : LinksInv s)
    (hexit : ∀ q b, s.blockMap.get? q = some b → ∀ e ∈ b.linkData, e.exitPtrs ≠ some p)
    (hm : ∀ q, s'.blockMap.get? q = if q = p then none else s.blockMap.get? q)
    (hl : ∀ a q, (a, q) ∈ s'.linksTo ↔ (a, q) ∈ s.linksTo ∧ q ≠ p)
    (hf : ∀ i q, s'.fastBlockMap i = some q → s.fastBlockMap i = some q ∧ q ≠ p) :
    LinksInv s' where
  mask q b hb := by
    rw [hm] at hb
    split at hb
    · cases hb
    · exact hi.mask q b hb
  link q b hb e he d hd := by
    rw [hm] at hb
    split at hb
    · cases hb
    · next hq =>
      obtain ⟨hmem, block, hblock, h⟩ := hi.link q b hb e he d hd
      have hdp : d ≠ p := fun hdp => hexit q b hb e he (hdp ▸ hd)
      exact ⟨(hl _ _).mpr ⟨hmem, hq⟩, block, by rw [hm, if_neg hdp, hblock], h⟩
  linksTo a q h := by
    obtain ⟨hmem, hq⟩ := (hl _ _).mp h
    obtain ⟨b, hb, ha, hall⟩ := hi.linksTo a q hmem
    exact ⟨b, by rw [hm, if_neg hq, hb], ha, fun a' ha' => (hl _ _).mpr ⟨hall a' ha', hq⟩⟩
  fast i q h := by
    obtain ⟨hmem, hq⟩ := hf i q h
    obtain ⟨b, hb, hidx⟩ := hi.fast i q hmem
    exact ⟨b, by rw [hm, if_neg hq, hb], hidx⟩

/-! ## the operations -/

theorem dropFastEntry_eq_some {i : Fin fastBlockMapElements} {block : JitBlock} (hi : LinksInv s)
    (hp : s.blockMap.get? p = some block) (h : (s.dropFastEntry p block).fastBlockMap i = some q) :
    s.fastBlockMap i = some q ∧ q ≠ p := by
  have hmem : s.fastBlockMap i = some q := by
    unfold dropFastEntry at h
    dsimp only at h
    split at h
    · rw [Function.update_apply] at h
      split at h
      · cases h
      · exact h
    · exact h
  refine ⟨hmem, ?_⟩
  rintro rfl
  obtain ⟨b, hb, rfl⟩ := hi.fast i q hmem
  have hbb : b = block := Option.some.inj (hb.symm.trans hp)
  subst hbb
  unfold dropFastEntry at h
  dsimp only at h
  rw [if_pos hmem, Function.update_self] at h
  cases h

theorem unlinkBlock_linksTo : (s.unlinkBlock p).linksTo = s.linksTo := by
  unfold unlinkBlock
  split <;> rfl

theorem unlinkBlock_fastBlockMap : (s.unlinkBlock p).fastBlockMap = s.fastBlockMap := by
  unfold unlinkBlock
  split <;> rfl

theorem unlinkBlock_congr (hm : s'.blockMap = s.blockMap) (hl : s'.linksTo = s.linksTo) :
    (s'.unlinkBlock p).blockMap = (s.unlinkBlock p).blockMap := by
  unfold unlinkBlock
  rw [hm]
  split
  · exact hm
  · simp only [modifyBlock, hm, hl]

theorem destroyBlock_blockMap {block : JitBlock} (hp : s.blockMap.get? p = some block) :
    (s.destroyBlock p).blockMap = (s.unlinkBlock p).blockMap := by
  unfold destroyBlock
  simp only [hp]
  exact unlinkBlock_congr rfl rfl

namespace LinksInv

theorem removeBlock (hi : LinksInv s) {k : BitVec 32} {block : JitBlock}
    (hp : s.blockMap.get? p = some block) : LinksInv (s.removeBlock k p block) := by
  have hi' : LinksInv (s.unlinkBlock p) := hi.unlinkBlock
  refine hi'.erase (p := p) (fun q b hb => unlinkBlock_ne hi hb) ?_ ?_ ?_
  · intro q
    unfold JitBaseBlockCache.removeBlock destroyBlock
    simp only [hp]
    rw [NodeMap.get?_erase]
    split
    · rfl
    · apply congrArg (NodeMap.get? · q)
      exact unlinkBlock_congr rfl rfl
  · intro a q
    rw [unlinkBlock_linksTo]
    unfold JitBaseBlockCache.removeBlock destroyBlock
    simp only [hp]
    rw [mem_foldl_filter, unlinkBlock_linksTo]
    constructor
    · rintro ⟨hmem, hne⟩
      refine ⟨hmem, ?_⟩
      rintro rfl
      obtain ⟨b, hb, ha, _⟩ := hi.linksTo a q hmem
      have hbb : b = block := Option.some.inj (hb.symm.trans hp)
      exact hne ⟨rfl, hbb ▸ ha⟩
    · rintro ⟨hmem, hne⟩
      exact ⟨hmem, fun h => hne h.1⟩
  · intro i q h
    rw [unlinkBlock_fastBlockMap]
    unfold JitBaseBlockCache.removeBlock destroyBlock at h
    simp only [hp] at h
    rw [unlinkBlock_fastBlockMap] at h
    exact dropFastEntry_eq_some hi hp h

theorem eraseInMacroBlock {k address length : BitVec 32} (ps : List BlockPtr) :
    ∀ {s t : JitBaseBlockCache}, LinksInv s →
    JitBaseBlockCache.eraseInMacroBlock k address length ps s = some t → LinksInv t := by
  induction ps with
  | nil =>
    intro s t hi h
    cases h
    exact hi
  | cons p ps ih =>
    intro s t hi h
    rw [JitBaseBlockCache.eraseInMacroBlock] at h
    split at h
    · cases h
    · next block hp =>
      split at h
      · exact ih (hi.removeBlock hp) h
      · exact ih hi h

theorem eraseMacroBlocks {address length : BitVec 32} {stop : Option (BitVec 32)} (fuel : Nat) :
    ∀ {s t : JitBaseBlockCache} {start : Option (BitVec 32)}, LinksInv s →
    JitBaseBlockCache.eraseMacroBlocks address length stop fuel start s = some t →
    LinksInv t := by
  induction fuel with
  | zero =>
    intro s t start hi h
    cases h
  | succ fuel ih =>
    intro s t start hi h
    unfold JitBaseBlockCache.eraseMacroBlocks at h
    split at h
    · cases h
      exact hi
    · cases start with
      | none => cases h
      | some k =>
        dsimp only at h
        split at h
        · cases h
        · split at h
          · cases h
          · next hround =>
            have hi' := hi.eraseInMacroBlock _ hround
            refine ih ?_ h
            split
            · exact hi'.congr rfl rfl rfl
            · exact hi'

theorem eraseWriteAddresses {stop : BitVec 32} (fuel : Nat) :
    ∀ {s t : JitBaseBlockCache} {i : BitVec 32}, LinksInv s →
    JitBaseBlockCache.eraseWriteAddresses stop fuel i s = some t → LinksInv t := by
  induction fuel with
  | zero =>
    intro s t i hi h
    cases h
  | succ fuel ih =>
    intro s t i hi h
    rw [JitBaseBlockCache.eraseWriteAddresses] at h
    split at h
    · refine ih ?_ h
      exact hi.congr rfl rfl rfl
    · cases h
      exact hi

theorem invalidateICache (hi : LinksInv s) {address length : BitVec 32} {forced : Bool}
    (h : s.invalidateICache env address length forced = some s') : LinksInv s' := by
  unfold JitBaseBlockCache.invalidateICache at h
  dsimp only at h
  split at h
  · cases h
    exact hi
  · split at h
    · cases h
      exact hi
    · split at h
      · cases h
      · next t herase =>
        have ht : LinksInv t := by
          refine LinksInv.eraseMacroBlocks _ ?_ herase
          split
          · exact hi.congr rfl rfl rfl
          · exact hi
        split at h
        · exact ht.eraseWriteAddresses _ h
        · cases h
          exact ht

theorem modify (hi : LinksInv s) {f : JitBlock → JitBlock}
    (hf : ∀ b, (f b).linkData = b.linkData ∧ (f b).effectiveAddress = b.effectiveAddress ∧
      (f b).msrBits = b.msrBits)
    (hm : s'.blockMap = s.blockMap.modify p f) (hl : s'.linksTo = s.linksTo)
    (hfast : ∀ i q, s'.fastBlockMap i = some q →
      ∃ b, s'.blockMap.get? q = some b ∧ b.fastBlockMapIndex = i) : LinksInv s' := by
  have hbefore : ∀ q b', s'.blockMap.get? q = some b' → ∃ b, s.blockMap.get? q = some b ∧
      b'.linkData = b.linkData ∧ b'.effectiveAddress = b.effectiveAddress ∧
      b'.msrBits = b.msrBits := by
    intro q b' hb'
    rw [hm, NodeMap.get?_modify] at hb'
    split at hb'
    · obtain ⟨b, hb, rfl⟩ := Option.map_eq_some_iff.mp hb'
      exact ⟨b, hb, hf b⟩
    · exact ⟨b', hb', rfl, rfl, rfl⟩
  have hafter : ∀ q b, s.blockMap.get? q = some b → ∃ b', s'.blockMap.get? q = some b' ∧
      b'.linkData = b.linkData ∧ b'.effectiveAddress = b.effectiveAddress ∧
      b'.msrBits = b.msrBits := by
    intro q b hb
    rw [hm, NodeMap.get?_modify, hb]
    split
    · exact ⟨f b, rfl, hf b⟩
    · exact ⟨b, rfl, rfl, rfl, rfl⟩
  constructor
  · intro q b' hb'
    obtain ⟨b, hb, _, _, hmsr⟩ := hbefore q b' hb'
    rw [hmsr]
    exact hi.mask q b hb
  · intro q b' hb' e he d hd
    obtain ⟨b, hb, hlinks, _, hmsr⟩ := hbefore q b' hb'
    obtain ⟨hmem, block, hblock, heff, hbits⟩ := hi.link q b hb e (hlinks ▸ he) d hd
    obtain ⟨block', hblock', _, heff', hbits'⟩ := hafter d block hblock
    exact ⟨hl ▸ hmem, block', hblock', heff'.trans heff, hbits'.trans (hbits.trans hmsr.symm)⟩
  · intro a q hmem
    obtain ⟨b, hb, ha, hall⟩ := hi.linksTo a q (hl ▸ hmem)
    obtain ⟨b', hb', hlinks, _⟩ := hafter q b hb
    rw [hl]
    exact ⟨b', hb', hlinks ▸ ha, hlinks ▸ hall⟩
  · exact hfast

theorem moveBlockIntoFastCache (hi : LinksInv s) {addr msr : BitVec 32} :
    LinksInv (s.moveBlockIntoFastCache env addr msr).2 := by
  unfold JitBaseBlockCache.moveBlockIntoFastCache
  split
  · exact hi
  · next p _ =>
    split
    · exact hi
    · next block hp =>
      refine hi.modify (p := p)
        (f := fun b => { b with fastBlockMapIndex := fastLookupIndexForAddress addr })
        (fun b => ⟨rfl, rfl, rfl⟩) rfl rfl ?_
      intro i q h
      dsimp only [modifyBlock] at h ⊢
      rw [Function.update_apply] at h
      rw [NodeMap.get?_modify]
      split at h
      · next hi =>
        cases h
        refine ⟨_, by rw [if_pos rfl]; exact congrArg _ hp, hi.symm⟩
      · obtain ⟨hmem, hne⟩ := dropFastEntry_eq_some hi hp h
        obtain ⟨b, hb, hidx⟩ := hi.fast i q hmem
        exact ⟨b, by rw [if_neg hne]; exact hb, hidx⟩

theorem dispatch (hi : LinksInv s) {pc : BitVec 32} : LinksInv (s.dispatch env pc).2 := by
  unfold JitBaseBlockCache.dispatch
  dsimp only
  split
  · split
    · exact hi.moveBlockIntoFastCache
    · exact hi
  · exact hi.moveBlockIntoFastCache

/-! ### a new block -/

/-- A block at a free address, none of whose exits leads to a block. -/
theorem push (hi : LinksInv s) (block : JitBlock) (hp : s.blockMap.get? p = none)
    (hmask : block.msrBits &&& jitCacheMsrMask = block.msrBits)
    (hexits : ∀ e ∈ block.linkData, e.exitPtrs = none)
    (hm : ∀ q, s'.blockMap.get? q = if q = p then some block else s.blockMap.get? q)
    (hl : s'.linksTo = s.linksTo)
    (hf : ∀ i, s'.fastBlockMap i =
      if i = block.fastBlockMapIndex then some p else s.fastBlockMap i) : LinksInv s' := by
  have hold : ∀ q b, s.blockMap.get? q = some b → s'.blockMap.get? q = some b := by
    intro q b hb
    rw [hm, if_neg, hb]
    rintro rfl
    rw [hp] at hb
    cases hb
  constructor
  · intro q b hb
    rw [hm] at hb
    split at hb
    · cases hb
      exact hmask
    · exact hi.mask q b hb
  · intro q b hb e he d hd
    rw [hm] at hb
    split at hb
    · cases hb
      rw [hexits e he] at hd
      cases hd
    · obtain ⟨hmem, block', hblock', h⟩ := hi.link q b hb e he d hd
      exact ⟨hl ▸ hmem, block', hold d _ hblock', h⟩
  · intro a q hmem
    obtain ⟨b, hb, h⟩ := hi.linksTo a q (hl ▸ hmem)
    exact ⟨b, hold q b hb, hl ▸ h⟩
  · intro i q h
    rw [hf] at h
    split at h
    · next hidx =>
      cases h
      exact ⟨block, by rw [hm, if_pos rfl], hidx.symm⟩
    · obtain ⟨b, hb, hidx⟩ := hi.fast i q h
      exact ⟨b, hold q b hb, hidx⟩

theorem register (hi : LinksInv s) {block : JitBlock} (hp : s.blockMap.get? p = some block)
    (hm : s'.blockMap = s.blockMap) (hf : s'.fastBlockMap = s.fastBlockMap)
    (hl : s'.linksTo = s.linksTo ++ block.linkData.map fun (e : LinkData) => (e.exitAddress, p)) :
    LinksInv s' := by
  have hsub : ∀ l ∈ s.linksTo, l ∈ s'.linksTo := fun l h => hl ▸ List.mem_append_left _ h
  constructor
  · exact hm ▸ hi.mask
  · intro q b hb e he d hd
    obtain ⟨hmem, h⟩ := hi.link q b (hm ▸ hb) e he d hd
    exact ⟨hsub _ hmem, hm ▸ h⟩
  · intro a q hmem
    rw [hl, List.mem_append, List.mem_map] at hmem
    rw [hm]
    obtain hmem | ⟨e, he, heq⟩ := hmem
    · obtain ⟨b, hb, ha, hall⟩ := hi.linksTo a q hmem
      exact ⟨b, hb, ha, fun a' ha' => hsub _ (hall a' ha')⟩
    · cases heq
      refine ⟨block, hp, List.mem_map_of_mem he, fun a' ha' => ?_⟩
      obtain ⟨e', he', rfl⟩ := List.mem_map.mp ha'
      rw [hl]
      exact List.mem_append_right _ (List.mem_map_of_mem he')
  · rw [hf, hm]
    exact hi.fast

end LinksInv

/-- A block as the JIT has left it. -/
def newBlock (env : Env) (emAddress : BitVec 32) (normalEntry : BitVec 64)
    (exits : List (BitVec 32)) : JitBlock where
  normalEntry := normalEntry
  effectiveAddress := emAddress
  msrBits := env.msr &&& jitCacheMsrMask
  physicalAddress := (env.jitCacheTranslateAddress emAddress).address
  linkData := exits.map fun a => ⟨a, false, none⟩
  physicalAddresses := .empty
  fastBlockMapIndex := 0

theorem doJit_allocateBlock {t : JitBaseBlockCache} {emAddress : BitVec 32}
    (h : s.allocateBlock env p emAddress = some t) (normalEntry : BitVec 64)
    (exits : List (BitVec 32)) :
    s.blockMap.get? p = none ∧ ∃ m, t.doJit p normalEntry exits = { s with blockMap := m } ∧
      ∀ q, m.get? q =
        if q = p then some (newBlock env emAddress normalEntry exits) else s.blockMap.get? q := by
  unfold allocateBlock at h
  split at h
  · next hp =>
    cases h
    refine ⟨hp, _, rfl, fun q => ?_⟩
    rw [NodeMap.get?_modify, NodeMap.get?_push]
    split <;> rfl
  · cases h

namespace LinksInv

/-- `AllocateBlock` and `FinalizeBlock` with the JIT between them. -/
theorem compile (hi : LinksInv s) {t : JitBaseBlockCache} {emAddress : BitVec 32}
    {normalEntry : BitVec 64} {exits : List (BitVec 32)} {blockLink : Bool}
    {physicalAddresses : OrdSet (BitVec 32)} (h : s.allocateBlock env p emAddress = some t) :
    LinksInv ((t.doJit p normalEntry exits).finalizeBlock env p blockLink physicalAddresses) := by
  obtain ⟨hp, m, heq, hm⟩ := doJit_allocateBlock h normalEntry exits
  have hget : m.get? p = some (newBlock env emAddress normalEntry exits) := by
    rw [hm, if_pos rfl]
  unfold finalizeBlock
  rw [heq]
  simp only [hget]
  let block : JitBlock :=
    { newBlock env emAddress normalEntry exits with
      fastBlockMapIndex := fastLookupIndexForAddress emAddress
      physicalAddresses := physicalAddresses }
  have hget' : ∀ q, (m.modify p fun b =>
      { b with
        fastBlockMapIndex := fastLookupIndexForAddress emAddress
        physicalAddresses := physicalAddresses }).get? q =
      if q = p then some block else s.blockMap.get? q := by
    intro q
    rw [NodeMap.get?_modify, hm]
    split <;> rfl
  have hpush : LinksInv ((modifyBlock
      { s with
        blockMap := m
        fastBlockMap := Function.update s.fastBlockMap (fastLookupIndexForAddress emAddress) (some p) }
      p fun b =>
        { b with
          fastBlockMapIndex := fastLookupIndexForAddress emAddress
          physicalAddresses := physicalAddresses }).occupy p physicalAddresses) := by
    refine hi.push block hp ?_ ?_ hget' rfl fun i => Function.update_apply _ _ _ _
    · change env.msr &&& jitCacheMsrMask &&& jitCacheMsrMask = env.msr &&& jitCacheMsrMask
      rw [BitVec.and_assoc, BitVec.and_self]
    · intro e he
      obtain ⟨a, _, rfl⟩ := List.mem_map.mp he
      rfl
  split
  · refine LinksInv.linkBlock ?_ ?_
    · exact hpush.register ((hget' p).trans (if_pos rfl)) rfl rfl rfl
    · intro b hb
      have hbb : b = block := Option.some.inj (hb.symm.trans ((hget' p).trans (if_pos rfl)))
      cases hlinks : block.linkData with
      | nil => exact .inl (hbb ▸ hlinks)
      | cons e es =>
        refine .inr ⟨e.exitAddress, List.mem_append_right _ ?_⟩
        exact List.mem_cons_self ..
  · exact hpush

theorem clear : LinksInv s.clear where
  mask _ _ h := by cases h
  link _ _ h := by cases h
  linksTo _ _ h := by cases h
  fast _ _ h := by cases h

theorem step (hi : LinksInv s) {a : Env × Op} (h : JitCache.step s a = some s') : LinksInv s' := by
  obtain ⟨env, op⟩ := a
  cases op with
  | compile p emAddress normalEntry exits blockLink physicalAddresses =>
    obtain ⟨t, ht, rfl⟩ := Option.map_eq_some_iff.mp h
    exact hi.compile ht
  | dispatch pc =>
    cases h
    exact hi.dispatch
  | moveBlockIntoFastCache addr msr =>
    cases h
    exact hi.moveBlockIntoFastCache
  | invalidateICache address length forced => exact hi.invalidateICache h
  | erasePhysicalRange address length => exact hi.eraseMacroBlocks _ h
  | clear =>
    cases h
    exact .clear

end LinksInv

/-! ## runs -/

/-- What leads to a block leads to a live block with the right key. -/
structure LinksSound (s : JitBaseBlockCache) : Prop where
  exits : ∀ p b, s.blockMap.get? p = some b → ∀ e ∈ b.linkData, ∀ d, e.exitPtrs = some d →
    ∃ block, s.blockMap.get? d = some block ∧ block.effectiveAddress = e.exitAddress ∧
      block.msrBits = b.msrBits
  linksTo : ∀ a p, (a, p) ∈ s.linksTo → ∃ b, s.blockMap.get? p = some b
  fastBlockMap : ∀ i p, s.fastBlockMap i = some p →
    ∃ b, s.blockMap.get? p = some b ∧ b.fastBlockMapIndex = i

/-- **No dangling links**: in every state of every run, under translations that change from
one operation to the next. -/
theorem links_sound (h : Run step (fun _ _ => True) init s) : LinksSound s := by
  have hi : LinksInv s := h.invariant .init fun _ _ _ hi _ hs => hi.step hs
  constructor
  · intro p b hb e he d hd
    exact (hi.link p b hb e he d hd).2
  · intro a p hmem
    obtain ⟨b, hb, _⟩ := hi.linksTo a p hmem
    exact ⟨b, hb⟩
  · exact hi.fast

/-- Two blocks, compiled after one another, each with an exit to the other one. -/
def twoBlocks : List (Env × Op) :=
  let env : Env := ⟨fun a => ⟨true, a⟩, 0⟩
  [(env, .compile 1 0x1000 7 [0x2000] true (OrdSet.empty.insert 0x1000)),
    (env, .compile 2 0x2000 8 [0x1000] true (OrdSet.empty.insert 0x2000)),
    (env, .dispatch 0x1000)]

theorem links_sound_twoBlocks : ∃ s, Run.exec step init twoBlocks = some s ∧
      (s.blockMap.entries.map fun e => e.2.linkData.map (·.exitPtrs)) = [[some 2], [some 1]] ∧
      LinksSound s := by
  have h : ((Run.exec step init twoBlocks).map fun s =>
      s.blockMap.entries.map fun e => e.2.linkData.map (·.exitPtrs)) =
        some [[some 2], [some 1]] := by decide
  obtain ⟨s, hs, hlinks⟩ := Option.map_eq_some_iff.mp h
  exact ⟨s, hs, hlinks, links_sound (.of_exec twoBlocks (fun _ _ _ => trivial) hs)⟩

end DolphinCore.JitCache
