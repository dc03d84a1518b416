import DolphinCore.JitCache.Links

/-!
# DolphinCore.JitCache.Invalidate

What `InvalidateICache` leaves in the cache: the blocks with an instruction in the range
are gone, the other ones stay, and every line with an instruction is marked.  The macro
blocks of `block_range_map` and the marks of `valid_block` are kept in step with the blocks
by every operation, as long as a call with length 32 is for one whole line, and no range
goes past the end of the address space.
-/

namespace DolphinCore.JitCache

open JitBaseBlockCache

/-! ## marks -/

namespace ValidBlockBitSet

variable {v : ValidBlockBitSet} {bit bit' : BitVec 32}

theorem test_eq : v.test bit = (v.validBlock (bit / 32)).getLsbD (bit % 32).toNat := by
  have hlt : (bit % 32).toNat < 32 := by
    exact Nat.mod_lt _ (by decide)
  rw [← BitVec.testBit_toNat, Nat.testBit_eq_decide_div_mod_eq, test]
  exact decide_eq_decide.mpr (and_twoPow_ne_zero _ hlt)

theorem word_inj (hw : bit / 32 = bit' / 32) (hb : (bit % 32).toNat = (bit' % 32).toNat) :
    bit = bit' := by
  have hw := congrArg BitVec.toNat hw
  rw [BitVec.toNat_udiv, BitVec.toNat_udiv] at hw
  rw [BitVec.toNat_umod, BitVec.toNat_umod] at hb
  apply BitVec.eq_of_toNat_eq
  have h32 : (32 : BitVec 32).toNat = 32 := rfl
  rw [h32] at hw hb
  omega

theorem getLsbD_one_shiftLeft {i j : Nat} (hj : j < 32) :
    (1#32 <<< i).getLsbD j = decide (i = j) := by
  have h : (1#32 <<< i).getLsbD j = (decide (i < 32) && decide (i = j)) :=
    BitVec.getLsbD_twoPow i j
  rw [h]
  by_cases hij : i = j
  · simp [hij, hj]
  · simp [hij]

theorem test_set : (v.set bit).test bit' = (bit' = bit || v.test bit') := by
  have hlt : (bit' % 32).toNat < 32 := by
    exact Nat.mod_lt _ (by decide)
  rw [test_eq, test_eq, set]
  dsimp only
  rw [Function.update_apply]
  split
  · next hw =>
    rw [BitVec.getLsbD_or, ← hw, getLsbD_one_shiftLeft hlt, Bool.or_comm]
    congr 1
    rw [decide_eq_decide]
    exact ⟨fun hb => word_inj hw hb.symm, fun h => h ▸ rfl⟩
  · next hw =>
    have hne : bit' ≠ bit := fun h => hw (h ▸ rfl)
    simp [hne]

theorem test_clear : (v.clear bit).test bit' = (bit' ≠ bit && v.test bit') := by
  have hlt : (bit' % 32).toNat < 32 := by
    exact Nat.mod_lt _ (by decide)
  rw [test_eq, test_eq, clear]
  dsimp only
  rw [Function.update_apply]
  split
  · next hw =>
    rw [BitVec.getLsbD_and, BitVec.getLsbD_not, ← hw, getLsbD_one_shiftLeft hlt,
      decide_eq_true hlt, Bool.true_and, Bool.and_comm, ← decide_not]
    congr 1
    rw [decide_eq_decide]
    exact not_congr ⟨fun hb => word_inj hw hb.symm, fun h => h ▸ rfl⟩
  · next hw =>
    have hne : bit' ≠ bit := fun h => hw (h ▸ rfl)
    simp [hne]

theorem test_foldl_set {α : Type} (f : α → BitVec 32) (l : List α) (v : ValidBlockBitSet) :
    (l.foldl (fun v a => v.set (f a)) v).test bit = true ↔
      v.test bit = true ∨ ∃ a ∈ l, f a = bit := by
  induction l generalizing v with
  | nil => simp
  | cons a l ih =>
    rw [List.foldl_cons, ih, test_set]
    simp only [Bool.or_eq_true, decide_eq_true_eq, List.mem_cons, exists_eq_or_imp]
    rw [eq_comm, or_comm (a := f a = bit), or_assoc]

end ValidBlockBitSet

/-! ## macro blocks -/

/-- A block stands in a macro block. -/
def InBucket (m : OrdMap (BitVec 32) (OrdSet BlockPtr)) (k : BitVec 32) (p : BlockPtr) : Prop :=
  ∃ blocks, m.find k = some blocks ∧ p ∈ blocks

variable {m : OrdMap (BitVec 32) (OrdSet BlockPtr)} {k k' : BitVec 32} {p q : BlockPtr}

theorem InBucket.mem_keys (h : InBucket m k p) : k ∈ m.keys := by
  obtain ⟨blocks, hfind, _⟩ := h
  exact OrdMap.mem_keys_of_find hfind

theorem inBucket_insert :
    InBucket (m.modify k (·.insert p)) k' q ↔ InBucket m k' q ∨ (q = p ∧ k' = k) := by
  unfold InBucket
  rw [OrdMap.find_modify]
  split
  · next hk =>
    subst hk
    cases m.find k' with
    | none => simp [show (default : OrdSet BlockPtr) = .empty from rfl]
    | some blocks => simp [or_comm]
  · next hk => simp [hk]

theorem inBucket_eraseBlock :
    InBucket (m.modify k (·.erase p)) k' q ↔ InBucket m k' q ∧ ¬(q = p ∧ k' = k) := by
  unfold InBucket
  rw [OrdMap.find_modify]
  split
  · next hk =>
    subst hk
    cases m.find k' with
    | none => simp [show (default : OrdSet BlockPtr) = .empty from rfl]
    | some blocks => simp
  · next hk => simp [hk]

theorem inBucket_foldl_insert (l : List (BitVec 32)) (m : OrdMap (BitVec 32) (OrdSet BlockPtr)) :
    InBucket (l.foldl (fun m addr => m.modify (addr &&& rangeMask) (·.insert p)) m) k q ↔
      InBucket m k q ∨ (q = p ∧ ∃ a ∈ l, a &&& rangeMask = k) := by
  induction l generalizing m with
  | nil => simp
  | cons a l ih =>
    rw [List.foldl_cons, ih, inBucket_insert]
    simp only [List.mem_cons, exists_eq_or_imp, eq_comm (a := k)]
    tauto

theorem inBucket_foldl_erase (l : List (BitVec 32)) (m : OrdMap (BitVec 32) (OrdSet BlockPtr)) :
    InBucket (l.foldl (fun m addr =>
      if addr &&& rangeMask ≠ k then m.modify (addr &&& rangeMask) (·.erase p) else m) m) k' q ↔
      InBucket m k' q ∧ ¬(q = p ∧ k' ≠ k ∧ ∃ a ∈ l, a &&& rangeMask = k') := by
  induction l generalizing m with
  | nil => simp
  | cons a l ih =>
    rw [List.foldl_cons, ih]
    split
    · rw [inBucket_eraseBlock, eq_comm (a := k')]
      grind
    · grind

theorem mem_keys_foldl_erase (l : List (BitVec 32)) (m : OrdMap (BitVec 32) (OrdSet BlockPtr))
    (hl : ∀ a ∈ l, a &&& rangeMask ∈ m.keys) :
    k' ∈ (l.foldl (fun m addr =>
      if addr &&& rangeMask ≠ k then m.modify (addr &&& rangeMask) (·.erase p) else m) m).keys ↔
      k' ∈ m.keys := by
  induction l generalizing m with
  | nil => rfl
  | cons a l ih =>
    rw [List.foldl_cons]
    have ha := hl a (List.mem_cons_self ..)
    have hl' : ∀ a ∈ l, a &&& rangeMask ∈ m.keys := fun a h => hl a (List.mem_cons_of_mem _ h)
    split
    · rw [ih, OrdMap.mem_keys_modify]
      · exact ⟨fun h => h.elim (fun h => h ▸ ha) id, .inr⟩
      · intro a' h
        exact OrdMap.mem_keys_modify.mpr (.inr (hl' a' h))
    · exact ih m hl'

/-! ## the invariant -/

/-- A block apart from its links. -/
def body (s : JitBaseBlockCache) (p : BlockPtr) : Option JitBlock :=
  (s.blockMap.get? p).map JitBlock.unlinked

/-- A block stands in a macro block if and only if it has an instruction there. -/
def RangeInv (s : JitBaseBlockCache) : Prop :=
  ∀ k p, InBucket s.blockRangeMap k p ↔
    ∃ b, body s p = some b ∧ ∃ a ∈ b.physicalAddresses, a &&& rangeMask = k

/-- The lines with an instruction are marked. -/
def ValidInv (s : JitBaseBlockCache) : Prop :=
  ∀ p b, body s p = some b → ∀ a ∈ b.physicalAddresses, s.validBlock.test (a / 32) = true

variable {s s' t : JitBaseBlockCache} {env : Env} {address length : BitVec 32}

/-- Blocks may go, and nothing else happens. -/
structure Shrinks (s t : JitBaseBlockCache) : Prop where
  body : ∀ p, body t p = none ∨ body t p = JitCache.body s p
  validBlock : t.validBlock = s.validBlock

theorem Shrinks.refl : Shrinks s s := ⟨fun _ => .inr rfl, rfl⟩

theorem Shrinks.trans {u : JitBaseBlockCache} (h : Shrinks s t) (h' : Shrinks t u) :
    Shrinks s u where
  body p := (h'.body p).elim .inl fun h' =>
    (h.body p).elim (fun h => .inl (h'.trans h)) fun h => .inr (h'.trans h)
  validBlock := h'.validBlock.trans h.validBlock

theorem ValidInv.shrinks (hv : ValidInv s) (h : Shrinks s t) : ValidInv t := by
  intro p b hb a ha
  rw [h.validBlock]
  obtain hp | hp := h.body p
  · rw [hp] at hb
    cases hb
  · exact hv p b (hp ▸ hb) a ha

/-! ## removing a block -/

theorem destroyBlock_blockRangeMap : (s.destroyBlock p).blockRangeMap = s.blockRangeMap := by
  unfold destroyBlock unlinkBlock
  split
  · rfl
  · dsimp only
    split <;> rfl

theorem destroyBlock_validBlock : (s.destroyBlock p).validBlock = s.validBlock := by
  unfold destroyBlock unlinkBlock
  split
  · rfl
  · dsimp only
    split <;> rfl

theorem sameBlocks_destroyBlock : SameBlocks s (s.destroyBlock p) := by
  cases hp : s.blockMap.get? p with
  | none =>
    unfold destroyBlock
    rw [hp]
    exact .refl
  | some block =>
    intro q
    rw [destroyBlock_blockMap hp]
    exact sameBlocks_unlinkBlock q

variable {block : JitBlock} {stop : Option (BitVec 32)} {forced : Bool}

theorem body_removeBlock (q : BlockPtr) :
    body (s.removeBlock k p block) q = if q = p then none else body s q := by
  unfold removeBlock body
  rw [NodeMap.get?_erase]
  split
  · rfl
  · exact sameBlocks_destroyBlock q

theorem validBlock_removeBlock : (s.removeBlock k p block).validBlock = s.validBlock := by
  exact destroyBlock_validBlock

theorem RangeInv.removeBlock_aux (hr : RangeInv s) (hp : s.blockMap.get? p = some block)
    (k' : BitVec 32) (q : BlockPtr) :
    InBucket (s.removeBlock k p block).blockRangeMap k' q ↔
      InBucket s.blockRangeMap k' q ∧ q ≠ p := by
  unfold removeBlock
  rw [inBucket_eraseBlock, destroyBlock_blockRangeMap, inBucket_foldl_erase]
  constructor
  · rintro ⟨⟨hin, hother⟩, hhere⟩
    refine ⟨hin, ?_⟩
    rintro rfl
    obtain ⟨b, hb, a, ha, hk⟩ := (hr k' q).mp hin
    rw [body, hp] at hb
    cases hb
    exact hother ⟨rfl, fun h => hhere ⟨rfl, h⟩, a, ha, hk⟩
  · rintro ⟨hin, hne⟩
    exact ⟨⟨hin, fun h => hne h.1⟩, fun h => hne h.1⟩

theorem RangeInv.removeBlock (hr : RangeInv s) (hp : s.blockMap.get? p = some block) :
    RangeInv (s.removeBlock k p block) := by
  intro k' q
  rw [hr.removeBlock_aux hp, body_removeBlock, hr k' q]
  split
  · next hq => simp [hq]
  · next hq => simp [hq]

theorem RangeInv.mem_keys_removeBlock (hr : RangeInv s) (hp : s.blockMap.get? p = some block)
    (hin : InBucket s.blockRangeMap k p) :
    k' ∈ (s.removeBlock k p block).blockRangeMap.keys ↔ k' ∈ s.blockRangeMap.keys := by
  unfold JitBaseBlockCache.removeBlock
  have hk := hin.mem_keys
  rw [OrdMap.mem_keys_modify, destroyBlock_blockRangeMap,
    mem_keys_foldl_erase block.physicalAddresses.toList s.blockRangeMap fun a ha =>
      ((hr (a &&& rangeMask) p).mpr ⟨block.unlinked, by rw [body, hp]; rfl, a, ha, rfl⟩).mem_keys]
  exact ⟨fun h => h.elim (fun h => h ▸ hk) id, .inr⟩

/-! ## walking a macro block -/

/-- What the inner loop asks of a block. -/
def Hit (address length : BitVec 32) (b : JitBlock) : Bool := b.overlapsPhysicalRange address length

/-- The inner loop removes those of its blocks that overlap the range. -/
theorem eraseInMacroBlock_spec (address length : BitVec 32) (ps : List BlockPtr) :
    ∀ {s : JitBaseBlockCache}, RangeInv s → ps.Nodup →
    (∀ q ∈ ps, InBucket s.blockRangeMap k q) →
    ∃ t, eraseInMacroBlock k address length ps s = some t ∧ RangeInv t ∧
      t.validBlock = s.validBlock ∧ (∀ k', k' ∈ t.blockRangeMap.keys ↔ k' ∈ s.blockRangeMap.keys) ∧
      ∀ q, body t q =
        if q ∈ ps ∧ (body s q).any (Hit address length) then none else body s q := by
  induction ps with
  | nil =>
    intro s hr _ _
    exact ⟨s, rfl, hr, rfl, fun _ => Iff.rfl, fun q => by simp⟩
  | cons p ps ih =>
    intro s hr hnd hps
    obtain ⟨hp, hnd⟩ := List.nodup_cons.mp hnd
    have hin := hps p (List.mem_cons_self ..)
    have hrest : ∀ q ∈ ps, InBucket s.blockRangeMap k q :=
      fun q hq => hps q (List.mem_cons_of_mem _ hq)
    obtain ⟨b, hb, _⟩ := (hr k p).mp hin
    obtain ⟨block, hblock, rfl⟩ := Option.map_eq_some_iff.mp hb
    rw [eraseInMacroBlock]
    simp only [hblock]
    by_cases hhit : block.overlapsPhysicalRange address length = true
    · rw [if_pos hhit]
      have hrest' : ∀ q ∈ ps, InBucket (s.removeBlock k p block).blockRangeMap k q := by
        intro q hq
        rw [hr.removeBlock_aux hblock]
        exact ⟨hrest q hq, fun h => hp (h ▸ hq)⟩
      obtain ⟨t, ht, hrt, hv, hkeys, hbody⟩ := ih (hr.removeBlock hblock) hnd hrest'
      refine ⟨t, ht, hrt, hv.trans validBlock_removeBlock,
        fun k' => (hkeys k').trans (hr.mem_keys_removeBlock hblock hin), fun q => ?_⟩
      rw [hbody, body_removeBlock]
      by_cases hq : q = p
      · subst hq
        have hany : (body s q).any (Hit address length) = true := by
          rw [hb]
          exact hhit
        simp [hany]
      · simp [hq]
    · rw [if_neg hhit]
      obtain ⟨t, ht, hrt, hv, hkeys, hbody⟩ := ih hr hnd hrest
      refine ⟨t, ht, hrt, hv, hkeys, fun q => ?_⟩
      rw [hbody]
      by_cases hq : q = p
      · subst hq
        have hany : (body s q).any (Hit address length) = false := by
          rw [hb]
          exact Bool.eq_false_iff.mpr hhit
        simp [hany]
      · simp [hq]

theorem InBucket.nodup_toList {blocks : OrdSet BlockPtr} (hfind : m.find k = some blocks) :
    blocks.toList.Nodup ∧ ∀ q ∈ blocks.toList, InBucket m k q :=
  ⟨blocks.nodup, fun _ hq => ⟨blocks, hfind, hq⟩⟩

theorem inBucket_erase_isEmpty (hempty : (m.find k).any OrdSet.isEmpty = true) :
    InBucket (m.erase k) k' q ↔ InBucket m k' q := by
  unfold InBucket
  rw [OrdMap.find_erase]
  split
  · next hk =>
    subst hk
    simp only [reduceCtorEq, false_and, exists_const, false_iff]
    rintro ⟨blocks, hfind, hq⟩
    rw [hfind] at hempty
    exact OrdSet.not_mem_of_isEmpty hempty q hq
  · exact Iff.rfl

/-- The end of a round of the outer loop. -/
def dropEmpty (s : JitBaseBlockCache) (k : BitVec 32) : JitBaseBlockCache :=
  if (s.blockRangeMap.find k).any OrdSet.isEmpty then
    { s with blockRangeMap := s.blockRangeMap.erase k }
  else s

theorem RangeInv.dropEmpty (hr : RangeInv s) : RangeInv (dropEmpty s k) := by
  unfold JitCache.dropEmpty
  split
  · next hempty =>
    intro k' q
    rw [inBucket_erase_isEmpty hempty]
    exact hr k' q
  · exact hr

theorem body_dropEmpty : body (dropEmpty s k) p = body s p := by
  unfold dropEmpty
  split <;> rfl

theorem validBlock_dropEmpty : (dropEmpty s k).validBlock = s.validBlock := by
  unfold dropEmpty
  split <;> rfl

theorem mem_keys_dropEmpty (hk : k' ≠ k) :
    k' ∈ (dropEmpty s k).blockRangeMap.keys ↔ k' ∈ s.blockRangeMap.keys := by
  unfold dropEmpty
  split
  · rw [OrdMap.mem_keys_erase]
    exact and_iff_left hk
  · exact Iff.rfl

theorem eraseMacroBlocks_shrinks (fuel : Nat) :
    ∀ {s t : JitBaseBlockCache} {start : Option (BitVec 32)}, RangeInv s →
    eraseMacroBlocks address length stop fuel start s = some t → RangeInv t ∧ Shrinks s t := by
  induction fuel with
  | zero =>
    intro s t start hr h
    cases h
  | succ fuel ih =>
    intro s t start hr h
    unfold eraseMacroBlocks at h
    split at h
    · cases h
      exact ⟨hr, .refl⟩
    · cases start with
      | none => cases h
      | some k =>
        cases hfind : s.blockRangeMap.find k with
        | none => simp [hfind] at h
        | some blocks =>
          obtain ⟨hnd, hin⟩ := InBucket.nodup_toList hfind
          obtain ⟨u, hu, hru, hv, _, hbody⟩ :=
            eraseInMacroBlock_spec address length _ hr hnd hin
          simp only [hfind, hu] at h
          have hsu : Shrinks s (dropEmpty u k) := by
            refine ⟨fun q => ?_, validBlock_dropEmpty.trans hv⟩
            rw [body_dropEmpty, hbody]
            split
            · exact .inl rfl
            · exact .inr rfl
          obtain ⟨hrt, hs⟩ := ih (s := dropEmpty u k) hru.dropEmpty h
          exact ⟨hrt, hsu.trans hs⟩

/-! ## ranges -/

/-- An address in the range of `length` bytes from `pAddr`. -/
def InRange (pAddr length a : BitVec 32) : Prop :=
  pAddr.toNat ≤ a.toNat ∧ a.toNat < pAddr.toNat + length.toNat

theorem toNat_and_rangeMask (a : BitVec 32) : (a &&& rangeMask).toNat = a.toNat - a.toNat % 256 :=
  toNat_and_not_mask a 8 rfl

theorem toNat_add_length (hwrap : address.toNat + length.toNat < 2 ^ 32) :
    (address + length).toNat = address.toNat + length.toNat := by
  rw [BitVec.toNat_add, Nat.mod_eq_of_lt hwrap]

theorem hit_iff (hwrap : address.toNat + length.toNat < 2 ^ 32) {b : JitBlock} :
    Hit address length b = true ↔ ∃ a ∈ b.physicalAddresses, InRange address length a := by
  have hle : address ≤ address + length := by
    rw [BitVec.le_def, toNat_add_length hwrap]
    omega
  rw [Hit, JitBlock.overlapsPhysicalRange, decide_eq_true_eq, OrdSet.lowerBound_ne_iff hle]
  simp only [BitVec.le_def, BitVec.lt_def, toNat_add_length hwrap, InRange]

/-- How many rounds the outer loop can still make. -/
def rounds : Option (BitVec 32) → Nat
  | none => 0
  | some k => 2 ^ 32 - k.toNat

/-- Where the outer loop stands: the iterator has not passed the end of the range, and the
blocks that overlap the range have no instruction in a macro block that it has passed. -/
structure WalkInv (address length : BitVec 32) (stop start : Option (BitVec 32))
    (s : JitBaseBlockCache) : Prop where
  range : RangeInv s
  startKey : ∀ k, start = some k → k ∈ s.blockRangeMap.keys
  stopKey : ∀ e, stop = some e → e ∈ s.blockRangeMap.keys ∧ address + length ≤ e
  le : ∀ e, stop = some e → ∃ k, start = some k ∧ k ≤ e
  ahead : ∀ q b, body s q = some b → ∀ a ∈ b.physicalAddresses, InRange address length a →
    ∃ k, start = some k ∧ k ≤ a &&& rangeMask

theorem WalkInv.done (hw : WalkInv address length stop stop s)
    (hwrap : address.toNat + length.toNat < 2 ^ 32) {b : JitBlock} (hb : body s q = some b) :
    Hit address length b = false := by
  rw [Bool.eq_false_iff]
  intro hhit
  obtain ⟨a, ha, hin⟩ := (hit_iff hwrap).mp hhit
  obtain ⟨k, rfl, hk⟩ := hw.ahead q b hb a ha hin
  have hstop := (hw.stopKey k rfl).2
  rw [BitVec.le_def, toNat_and_rangeMask] at hk
  rw [BitVec.le_def, toNat_add_length hwrap] at hstop
  have := hin.2
  omega

/-- One round of the outer loop. -/
theorem WalkInv.round (hw : WalkInv address length stop (some k) s) (hne : some k ≠ stop)
    (hwrap : address.toNat + length.toNat < 2 ^ 32) {blocks : OrdSet BlockPtr}
    (hfind : s.blockRangeMap.find k = some blocks) (hrt : RangeInv t)
    (hkeys : ∀ k', k' ∈ t.blockRangeMap.keys ↔ k' ∈ s.blockRangeMap.keys) (hbody : ∀ q, body t q =
      if q ∈ blocks.toList ∧ (body s q).any (Hit address length) then none else body s q) :
    WalkInv address length stop (t.blockRangeMap.keys.next k) (dropEmpty t k) := by
  have hlt : ∀ e, stop = some e → k < e := by
    intro e he
    obtain ⟨k', hk', hle⟩ := hw.le e he
    cases hk'
    exact lt_of_le_of_ne hle fun h => hne (h ▸ he.symm)
  constructor
  · exact hrt.dropEmpty
  · intro k' hk'
    obtain ⟨hmem, hgt, _⟩ := OrdSet.next_eq_some hk'
    exact (mem_keys_dropEmpty (ne_of_gt hgt)).mpr hmem
  · intro e he
    obtain ⟨hmem, hle⟩ := hw.stopKey e he
    exact ⟨(mem_keys_dropEmpty (ne_of_gt (hlt e he))).mpr ((hkeys e).mpr hmem), hle⟩
  · intro e he
    have hmem := (hkeys e).mpr (hw.stopKey e he).1
    cases hnext : t.blockRangeMap.keys.next k with
    | none => exact absurd (OrdSet.next_eq_none hnext e hmem) (not_le.mpr (hlt e he))
    | some k' => exact ⟨k', rfl, (OrdSet.next_eq_some hnext).2.2 e hmem (hlt e he)⟩
  · intro q b hb a ha hin
    rw [body_dropEmpty] at hb
    have hbt := hb
    rw [hbody] at hb
    split at hb
    · cases hb
    · next hnot =>
      obtain ⟨k', hk', hle⟩ := hw.ahead q b hb a ha hin
      cases hk'
      -- a block with an instruction in macro block `k` has been removed
      have hka : k ≠ a &&& rangeMask := by
        rintro rfl
        obtain ⟨blocks', hfind', hq⟩ := (hw.range _ q).mpr ⟨b, hb, a, ha, rfl⟩
        cases Option.some.inj (hfind'.symm.trans hfind)
        refine hnot ⟨hq, ?_⟩
        rw [hb]
        exact (hit_iff hwrap).mpr ⟨a, ha, hin⟩
      have hgt : k < a &&& rangeMask := lt_of_le_of_ne hle hka
      have hmem : a &&& rangeMask ∈ t.blockRangeMap.keys :=
        ((hrt _ q).mpr ⟨b, hbt, a, ha, rfl⟩).mem_keys
      cases hnext : t.blockRangeMap.keys.next k with
      | none => exact absurd (OrdSet.next_eq_none hnext _ hmem) (not_le.mpr hgt)
      | some k' => exact ⟨k', rfl, (OrdSet.next_eq_some hnext).2.2 _ hmem hgt⟩

theorem rounds_next_lt (keys : OrdSet (BitVec 32)) (k : BitVec 32) : rounds (keys.next k) < rounds (some k) := by
  cases hnext : keys.next k with
  | none =>
    simp only [rounds]
    omega
  | some k' =>
    have hlt := (OrdSet.next_eq_some hnext).2.1
    rw [BitVec.lt_def] at hlt
    simp only [rounds]
    omega

theorem eraseMacroBlocks_spec (hwrap : address.toNat + length.toNat < 2 ^ 32) (fuel : Nat) :
    ∀ {s : JitBaseBlockCache} {start : Option (BitVec 32)},
    WalkInv address length stop start s → rounds start < fuel →
    ∃ t, eraseMacroBlocks address length stop fuel start s = some t ∧
      ∀ q, body t q = if (body s q).any (Hit address length) then none else body s q := by
  induction fuel with
  | zero =>
    intro s start _ h
    omega
  | succ fuel ih =>
    intro s start hw hfuel
    unfold eraseMacroBlocks
    by_cases heq : start = stop
    · subst heq
      refine ⟨s, if_pos rfl, fun q => ?_⟩
      cases hb : body s q with
      | none => simp
      | some b => simp [hw.done hwrap hb]
    · rw [if_neg heq]
      cases start with
      | none =>
        cases hstop : stop with
        | none => exact absurd hstop.symm heq
        | some e =>
          obtain ⟨k, hk, _⟩ := hw.le e hstop
          cases hk
      | some k =>
        obtain ⟨blocks, hfind⟩ := OrdMap.exists_find (hw.startKey k rfl)
        obtain ⟨hnd, hin⟩ := InBucket.nodup_toList hfind
        obtain ⟨u, hu, hru, _, hkeys, hbody⟩ :=
          eraseInMacroBlock_spec address length _ hw.range hnd hin
        have hround := hw.round heq hwrap hfind hru hkeys hbody
        have hlt := rounds_next_lt u.blockRangeMap.keys k
        obtain ⟨t, ht, hbt⟩ := ih hround (by omega)
        simp only [hfind, hu]
        refine ⟨t, ht, fun q => ?_⟩
        rw [hbt, body_dropEmpty, hbody]
        by_cases hhit : (body s q).any (Hit address length) = true
        · by_cases hq : q ∈ blocks.toList
          · simp [hhit, hq]
          · simp [hhit, hq]
        · simp [hhit]

theorem erasePhysicalRange_spec (hr : RangeInv s)
    (hwrap : address.toNat + length.toNat < 2 ^ 32) :
    ∃ t, s.erasePhysicalRange address length = some t ∧ RangeInv t ∧ Shrinks s t ∧
      ∀ q, body t q = if (body s q).any (Hit address length) then none else body s q := by
  have hmask : address &&& rangeMask ≤ address + length := by
    rw [BitVec.le_def, toNat_and_rangeMask, toNat_add_length hwrap]
    omega
  have hw : WalkInv address length (s.blockRangeMap.keys.lowerBound (address + length))
      (s.blockRangeMap.keys.lowerBound (address &&& rangeMask)) s := by
    constructor
    · exact hr
    · intro k hk
      exact (OrdSet.lowerBound_eq_some hk).1
    · intro e he
      obtain ⟨hmem, hle, _⟩ := OrdSet.lowerBound_eq_some he
      exact ⟨hmem, hle⟩
    · intro e he
      obtain ⟨hmem, hle, _⟩ := OrdSet.lowerBound_eq_some he
      have hle' := le_trans hmask hle
      cases hstart : s.blockRangeMap.keys.lowerBound (address &&& rangeMask) with
      | none => exact absurd (OrdSet.lowerBound_eq_none hstart e hmem) (not_lt.mpr hle')
      | some k => exact ⟨k, rfl, (OrdSet.lowerBound_eq_some hstart).2.2 e hmem hle'⟩
    · intro q b hb a ha hin
      have hmem := ((hr _ q).mpr ⟨b, hb, a, ha, rfl⟩).mem_keys
      have hle : address &&& rangeMask ≤ a &&& rangeMask := by
        rw [BitVec.le_def, toNat_and_rangeMask, toNat_and_rangeMask]
        have := hin.1
        omega
      cases hstart : s.blockRangeMap.keys.lowerBound (address &&& rangeMask) with
      | none => exact absurd (OrdSet.lowerBound_eq_none hstart _ hmem) (not_lt.mpr hle)
      | some k => exact ⟨k, rfl, (OrdSet.lowerBound_eq_some hstart).2.2 _ hmem hle⟩
  have hrounds : rounds (s.blockRangeMap.keys.lowerBound (address &&& rangeMask)) < 2 ^ 32 + 1 := by
    cases s.blockRangeMap.keys.lowerBound (address &&& rangeMask) with
    | none => simp [rounds]
    | some k =>
      simp only [rounds]
      omega
  obtain ⟨t, ht, hbody⟩ := eraseMacroBlocks_spec hwrap _ hw hrounds
  obtain ⟨hrt, hs⟩ := eraseMacroBlocks_shrinks _ hr ht
  exact ⟨t, ht, hrt, hs, hbody⟩

/-! ## the operations -/

/-- The loop over the addresses of `m_jit.js` ends if the last address it can reach is not
below its bound. -/
def WriteAddressesEnd (address length : BitVec 32) : Prop :=
  (address + length).toNat ≤ address.toNat ∨
    (address + length).toNat ≤ 2 ^ 32 - 4 + address.toNat % 4

theorem eraseWriteAddresses_spec {stop : BitVec 32} (fuel : Nat) :
    ∀ {s : JitBaseBlockCache} {i : BitVec 32},
    (stop.toNat ≤ i.toNat ∨ stop.toNat ≤ 2 ^ 32 - 4 + i.toNat % 4) →
    (stop.toNat - i.toNat + 3) / 4 < fuel →
    ∃ t, eraseWriteAddresses stop fuel i s = some t ∧ t.blockMap = s.blockMap ∧
      t.blockRangeMap = s.blockRangeMap ∧ t.validBlock = s.validBlock := by
  induction fuel with
  | zero =>
    intro s i _ h
    omega
  | succ fuel ih =>
    intro s i hend hfuel
    rw [eraseWriteAddresses]
    split
    · next hlt =>
      rw [BitVec.lt_def] at hlt
      have hnext : (i + 4).toNat = i.toNat + 4 := by
        exact Nat.mod_eq_of_lt (by have h4 : (4 : BitVec 32).toNat = 4 := rfl; omega)
      exact ih (by omega) (by omega)
    · exact ⟨s, rfl, rfl, rfl, rfl⟩

theorem eraseWriteAddresses_eq_some {stop : BitVec 32} (fuel : Nat) :
    ∀ {s t : JitBaseBlockCache} {i : BitVec 32}, eraseWriteAddresses stop fuel i s = some t →
    t.blockMap = s.blockMap ∧ t.blockRangeMap = s.blockRangeMap ∧ t.validBlock = s.validBlock := by
  induction fuel with
  | zero =>
    intro s t i h
    cases h
  | succ fuel ih =>
    intro s t i h
    rw [eraseWriteAddresses] at h
    split at h
    · obtain ⟨hm, hr, hv⟩ := ih h
      exact ⟨hm, hr, hv⟩
    · cases h
      exact ⟨rfl, rfl, rfl⟩

/-- What is asked of a call of `InvalidateICache`: the range does not go past the end of the
address space, a call with length 32 is for one line, and the loop over the addresses of
`m_jit.js` ends. -/
def InvalidateOk (env : Env) (address length : BitVec 32) (forced : Bool) : Prop :=
  (env.jitCacheTranslateAddress address).valid = true →
    (env.jitCacheTranslateAddress address).address.toNat + length.toNat < 2 ^ 32 ∧
    (length = 32 → (env.jitCacheTranslateAddress address).address.toNat % 32 = 0) ∧
    (forced = true ∨ WriteAddressesEnd address length)

/-- What a call of `InvalidateICache` is for. -/
structure Invalidated (s t : JitBaseBlockCache) (pAddr length : BitVec 32) : Prop where
  gone : ∀ p b, t.blockMap.get? p = some b → ∀ a ∈ b.physicalAddresses, ¬InRange pAddr length a
  kept : ∀ p b, s.blockMap.get? p = some b → (∀ a ∈ b.physicalAddresses, ¬InRange pAddr length a) →
    ∃ b', t.blockMap.get? p = some b' ∧ b'.unlinked = b.unlinked
  valid : ∀ p b, t.blockMap.get? p = some b → ∀ a ∈ b.physicalAddresses,
    t.validBlock.test (a / 32) = true

/-- A call returns, and has done what it is for. -/
def InvalidateSpec (s : JitBaseBlockCache) (env : Env) (address length : BitVec 32)
    (forced : Bool) : Prop :=
  (env.jitCacheTranslateAddress address).valid = true →
    ∃ t, s.invalidateICache env address length forced = some t ∧
      Invalidated s t (env.jitCacheTranslateAddress address).address length

theorem Invalidated.of_body {pAddr : BitVec 32}
    (hbody : ∀ q b, body t q = some b → body s q = some b ∧ ∀ a ∈ b.physicalAddresses, ¬InRange pAddr length a)
    (hkept : ∀ q b, body s q = some b → (∀ a ∈ b.physicalAddresses, ¬InRange pAddr length a) →
      body t q = some b)
    (hv : ValidInv t) : Invalidated s t pAddr length where
  gone p b hb := (hbody p b.unlinked (by rw [body, hb]; rfl)).2
  kept p b hb hout := Option.map_eq_some_iff.mp (hkept p b.unlinked (by rw [body, hb]; rfl) hout)
  valid p b hb := hv p b.unlinked (by rw [body, hb]; rfl)

theorem inRange_line {pAddr a : BitVec 32} (hline : pAddr.toNat % 32 = 0) :
    InRange pAddr 32 a ↔ a / 32 = pAddr / 32 := by
  have h32 : (32 : BitVec 32).toNat = 32 := rfl
  rw [← BitVec.toNat_inj, BitVec.toNat_udiv, BitVec.toNat_udiv, InRange, h32]
  omega

theorem invalidateICache_spec_of_inv (hr : RangeInv s) (hv : ValidInv s)
    (hok : InvalidateOk env address length forced) :
    InvalidateSpec s env address length forced := by
  intro hvalid
  obtain ⟨hwrap, hline, hend⟩ := hok hvalid
  unfold invalidateICache
  dsimp only
  rw [hvalid, if_neg (by decide)]
  generalize hp : (env.jitCacheTranslateAddress address).address = pAddr at hwrap hline ⊢
  split
  · -- no mark for the line: no block has an instruction in it
    next hfast =>
    simp only [Bool.and_eq_true, decide_eq_true_eq, Bool.not_eq_true'] at hfast
    obtain ⟨rfl, htest⟩ := hfast
    refine ⟨s, rfl, .of_body (fun q b hb => ⟨hb, fun a ha hin => ?_⟩) (fun q b hb _ => hb) hv⟩
    have hmark := hv q b hb a ha
    rw [(inRange_line (hline rfl)).mp hin, htest] at hmark
    cases hmark
  · -- the blocks in the range are removed
    let s' := if length = 32 then { s with validBlock := s.validBlock.clear (pAddr / 32) } else s
    have hm : s'.blockMap = s.blockMap ∧ s'.blockRangeMap = s.blockRangeMap := by
      dsimp only [s']
      split <;> exact ⟨rfl, rfl⟩
    have hbs : ∀ q, body s' q = body s q := fun q => by rw [body, body, hm.1]
    have hr' : RangeInv s' := fun k q => by rw [hm.2, hbs]; exact hr k q
    obtain ⟨t, ht, _, hs, hbody⟩ := erasePhysicalRange_spec hr' hwrap
    have hafter : ∀ q b, body t q = some b →
        body s q = some b ∧ ∀ a ∈ b.physicalAddresses, ¬InRange pAddr length a := by
      intro q b hb
      rw [hbody, hbs] at hb
      split at hb
      · cases hb
      · next hnot =>
        refine ⟨hb, fun a ha hin => hnot ?_⟩
        rw [hb]
        exact (hit_iff hwrap).mpr ⟨a, ha, hin⟩
    have hkept : ∀ q b, body s q = some b →
        (∀ a ∈ b.physicalAddresses, ¬InRange pAddr length a) → body t q = some b := by
      intro q b hb hout
      rw [hbody, hbs, hb, if_neg]
      intro hany
      obtain ⟨a, ha, hin⟩ := (hit_iff hwrap).mp hany
      exact hout a ha hin
    have hvt : ValidInv t := by
      intro q b hb a ha
      obtain ⟨hb, hout⟩ := hafter q b hb
      rw [hs.validBlock]
      dsimp only [s']
      split
      · next h32 =>
        subst h32
        have hne : a / 32 ≠ pAddr / 32 := fun h => hout a ha ((inRange_line (hline rfl)).mpr h)
        rw [ValidBlockBitSet.test_clear, decide_eq_true hne, Bool.true_and]
        exact hv q b hb a ha
      · exact hv q b hb a ha
    have hinv : Invalidated s t pAddr length := .of_body hafter hkept hvt
    have ht' : (if length = 32 then { s with validBlock := s.validBlock.clear (pAddr / 32) }
      else s).erasePhysicalRange pAddr length = some t := ht
    rw [ht']
    cases forced with
    | true => exact ⟨t, rfl, hinv⟩
    | false =>
      have hend' : WriteAddressesEnd address length := hend.resolve_left (by decide)
      obtain ⟨u, hu, hmap, _, hvu⟩ :=
        eraseWriteAddresses_spec (2 ^ 30 + 1) (s := t) hend' (by omega)
      refine ⟨u, hu, ?_⟩
      exact ⟨hmap ▸ hinv.gone, hmap ▸ hinv.kept, by rw [hmap, hvu]; exact hinv.valid⟩

/-! ## runs -/

theorem sameBlocks_linkBlockExits : SameBlocks s (s.linkBlockExits env p) :=
  .modifyBlock fun _ => JitBlock.unlinked_relink fun e => linkExit_exitAddress _ e

theorem linkBlock_fold (env : Env) (block : JitBlock) (qs : List BlockPtr) (t : JitBaseBlockCache) :
    let u := qs.foldl (fun s q =>
      match s.blockMap.get? q with
      | some b2 => if block.msrBits = b2.msrBits then s.linkBlockExits env q else s
      | none => s) t
    SameBlocks t u ∧ u.blockRangeMap = t.blockRangeMap ∧ u.validBlock = t.validBlock := by
  induction qs generalizing t with
  | nil => exact ⟨.refl, rfl, rfl⟩
  | cons q qs ih =>
    dsimp only [List.foldl_cons]
    split
    · split
      · obtain ⟨hs, hr, hv⟩ := ih (t.linkBlockExits env q)
        exact ⟨sameBlocks_linkBlockExits.trans hs, hr, hv⟩
      · exact ih t
    · exact ih t

theorem linkBlock_frame (env : Env) (s : JitBaseBlockCache) (p : BlockPtr) :
    SameBlocks s (s.linkBlock env p) ∧
    (s.linkBlock env p).blockRangeMap = s.blockRangeMap ∧
    (s.linkBlock env p).validBlock = s.validBlock := by
  unfold linkBlock
  split
  · exact ⟨.refl, rfl, rfl⟩
  · next block _ =>
    obtain ⟨hs, hr, hv⟩ := linkBlock_fold env block (equalRange (s.linkBlockExits env p).linksTo
      block.effectiveAddress) (s.linkBlockExits env p)
    exact ⟨sameBlocks_linkBlockExits.trans hs, hr, hv⟩

/-- Both invariants. -/
def CodeInv (s : JitBaseBlockCache) : Prop := RangeInv s ∧ ValidInv s

theorem CodeInv.init : CodeInv init := by
  refine ⟨fun k p => ?_, fun p b hb => by cases hb⟩
  constructor
  · rintro ⟨blocks, hfind, _⟩
    cases hfind
  · rintro ⟨b, hb, _⟩
    cases hb

/-- Where the instructions of a block are. -/
def instructions (s : JitBaseBlockCache) (p : BlockPtr) : Option (OrdSet (BitVec 32)) :=
  (s.blockMap.get? p).map (·.physicalAddresses)

theorem exists_body {P : OrdSet (BitVec 32) → Prop} :
    (∃ b, body s p = some b ∧ P b.physicalAddresses) ↔ ∃ as, instructions s p = some as ∧ P as := by
  rw [body, instructions]
  cases s.blockMap.get? p with
  | none => simp
  | some b =>
    simp only [Option.map_some, Option.some.injEq, exists_eq_left']
    exact Iff.rfl

theorem CodeInv.congr (hc : CodeInv s) (hb : ∀ p, instructions t p = instructions s p)
    (hr : t.blockRangeMap = s.blockRangeMap) (hv : t.validBlock = s.validBlock) : CodeInv t := by
  refine ⟨fun k p => ?_, fun p b h a ha => ?_⟩
  · rw [hr, hc.1 k p, exists_body (P := fun as => ∃ a ∈ as, a &&& rangeMask = k),
      exists_body (P := fun as => ∃ a ∈ as, a &&& rangeMask = k), hb]
  · have hex := (exists_body (P := fun as => a ∈ as)).mp ⟨b, h, ha⟩
    rw [hb] at hex
    obtain ⟨b', hb', ha'⟩ := exists_body.mpr hex
    rw [hv]
    exact hc.2 p b' hb' a ha'

theorem SameBlocks.instructions (h : SameBlocks s t) (p : BlockPtr) :
    instructions t p = instructions s p := by
  have hp := congrArg (Option.map (·.physicalAddresses)) (h p)
  rw [Option.map_map, Option.map_map] at hp
  exact hp

theorem CodeInv.occupy (hc : CodeInv s) (block : JitBlock) (hp : body s p = none)
    (hb : ∀ q, body t q = if q = p then some block else body s q)
    (hr : t.blockRangeMap = block.physicalAddresses.toList.foldl
      (fun m addr => m.modify (addr &&& rangeMask) (·.insert p)) s.blockRangeMap)
    (hv : t.validBlock = block.physicalAddresses.toList.foldl
      (fun v addr => v.set (addr / 32)) s.validBlock) : CodeInv t := by
  constructor
  · intro k q
    rw [hr, inBucket_foldl_insert, hb, hc.1 k q]
    split
    · next hq =>
      subst hq
      simp only [hp, reduceCtorEq, false_and, exists_false, false_or, true_and, Option.some.injEq,
        exists_eq_left']
      exact Iff.rfl
    · next hq => simp [hq]
  · intro q b h a ha
    rw [hv, ValidBlockBitSet.test_foldl_set (· / 32)]
    rw [hb] at h
    split at h
    · cases h
      exact .inr ⟨a, ha, rfl⟩
    · exact .inl (hc.2 q b h a ha)

theorem CodeInv.compile (hc : CodeInv s) {emAddress : BitVec 32}
    {normalEntry : BitVec 64} {exits : List (BitVec 32)} {blockLink : Bool}
    {physicalAddresses : OrdSet (BitVec 32)} (h : s.allocateBlock env p emAddress = some t) :
    CodeInv ((t.doJit p normalEntry exits).finalizeBlock env p blockLink physicalAddresses) := by
  obtain ⟨hp, m, heq, hm⟩ := doJit_allocateBlock h normalEntry exits
  have hget : m.get? p = some (newBlock env emAddress normalEntry exits) := by
    rw [hm, if_pos rfl]
  unfold finalizeBlock
  rw [heq]
  simp only [hget]
  let f : JitBlock → JitBlock := fun b =>
    { b with
      fastBlockMapIndex := fastLookupIndexForAddress emAddress
      physicalAddresses := physicalAddresses }
  have hoccupy : CodeInv ((modifyBlock
      { s with
        blockMap := m
        fastBlockMap := Function.update s.fastBlockMap (fastLookupIndexForAddress emAddress) (some p) }
      p f).occupy p physicalAddresses) := by
    refine hc.occupy (p := p) (f (newBlock env emAddress normalEntry exits)).unlinked
      (by rw [body, hp]; rfl) (fun q => ?_) rfl rfl
    change ((m.modify p f).get? q).map JitBlock.unlinked = _
    rw [NodeMap.get?_modify, hm, body]
    split <;> rfl
  split
  · obtain ⟨hs, hr, hv⟩ := linkBlock_frame env
      { ((modifyBlock
          { s with
            blockMap := m
            fastBlockMap :=
              Function.update s.fastBlockMap (fastLookupIndexForAddress emAddress) (some p) }
          p f).occupy p physicalAddresses) with
        linksTo := s.linksTo ++ (newBlock env emAddress normalEntry exits).linkData.map
          fun (e : LinkData) => (e.exitAddress, p) } p
    exact hoccupy.congr hs.instructions hr hv
  · exact hoccupy

theorem CodeInv.moveBlockIntoFastCache (hc : CodeInv s) {addr msr : BitVec 32} :
    CodeInv (s.moveBlockIntoFastCache env addr msr).2 := by
  unfold JitBaseBlockCache.moveBlockIntoFastCache
  split
  · exact hc
  · next p _ =>
    split
    · exact hc
    · next block _ =>
      refine hc.congr (fun q => ?_) rfl rfl
      change ((s.blockMap.modify p _).get? q).map _ = (s.blockMap.get? q).map _
      rw [NodeMap.get?_modify]
      split
      · rw [Option.map_map]
        rfl
      · rfl

theorem CodeInv.dispatch (hc : CodeInv s) {pc : BitVec 32} : CodeInv (s.dispatch env pc).2 := by
  unfold JitBaseBlockCache.dispatch
  dsimp only
  split
  · split
    · exact hc.moveBlockIntoFastCache
    · exact hc
  · exact hc.moveBlockIntoFastCache

theorem CodeInv.erasePhysicalRange (hc : CodeInv s)
    (h : s.erasePhysicalRange address length = some t) : CodeInv t := by
  obtain ⟨hr, hs⟩ := eraseMacroBlocks_shrinks _ hc.1 h
  exact ⟨hr, hc.2.shrinks hs⟩

theorem RangeInv.invalidateICache (hr : RangeInv s)
    (h : s.invalidateICache env address length forced = some t) : RangeInv t := by
  unfold JitBaseBlockCache.invalidateICache at h
  dsimp only at h
  split at h
  · cases h
    exact hr
  · split at h
    · cases h
      exact hr
    · split at h
      · cases h
      · next u herase =>
        have hru : RangeInv u := by
          refine (eraseMacroBlocks_shrinks _ ?_ herase).1
          split
          · exact hr
          · exact hr
        split at h
        · obtain ⟨hm, hrange, _⟩ := eraseWriteAddresses_eq_some _ h
          intro k q
          rw [hrange, body, hm]
          exact hru k q
        · cases h
          exact hru

theorem CodeInv.invalidateICache (hc : CodeInv s) (hok : InvalidateOk env address length forced)
    (h : s.invalidateICache env address length forced = some t) : CodeInv t := by
  refine ⟨hc.1.invalidateICache h, ?_⟩
  by_cases hvalid : (env.jitCacheTranslateAddress address).valid = true
  · obtain ⟨u, hu, hinv⟩ := invalidateICache_spec_of_inv hc.1 hc.2 hok hvalid
    cases Option.some.inj (h.symm.trans hu)
    intro q b hb a ha
    obtain ⟨b', hb', rfl⟩ := Option.map_eq_some_iff.mp hb
    exact hinv.valid q b' hb' a ha
  · unfold JitBaseBlockCache.invalidateICache at h
    simp only [hvalid, Bool.not_false, if_true] at h
    cases h
    exact hc.2

/-- The calls of `InvalidateICache` of a run are what they should be; nothing is asked of
the other operations. -/
def StepOk (_ : JitBaseBlockCache) (a : Env × Op) : Prop :=
  match a.2 with
  | .invalidateICache address length forced => InvalidateOk a.1 address length forced
  | _ => True

theorem CodeInv.step (hc : CodeInv s) {a : Env × Op} (hok : StepOk s a)
    (h : JitCache.step s a = some t) : CodeInv t := by
  obtain ⟨env, op⟩ := a
  cases op with
  | compile p emAddress normalEntry exits blockLink physicalAddresses =>
    obtain ⟨u, hu, rfl⟩ := Option.map_eq_some_iff.mp h
    exact hc.compile hu
  | dispatch pc =>
    cases h
    exact hc.dispatch
  | moveBlockIntoFastCache addr msr =>
    cases h
    exact hc.moveBlockIntoFastCache
  | invalidateICache address length forced => exact hc.invalidateICache hok h
  | erasePhysicalRange address length => exact hc.erasePhysicalRange h
  | clear =>
    cases h
    exact CodeInv.init.congr (fun _ => rfl) rfl rfl

/-- **Invalidation is exact** in every state of a run whose calls are for ranges inside the
address space and, with length 32, for whole lines. -/
theorem invalidateICache_spec {forced : Bool} (h : Run step StepOk init s)
    (hok : InvalidateOk env address length forced) :
    InvalidateSpec s env address length forced := by
  have hc : CodeInv s := h.invariant .init fun _ _ _ hc hok hs => hc.step hok hs
  exact invalidateICache_spec_of_inv hc.1 hc.2 hok

/-- The line of the first block of `twoBlocks` is invalidated. -/
theorem invalidateICache_spec_twoBlocks : ∃ s, Run.exec step init twoBlocks = some s ∧
      InvalidateSpec s ⟨fun a => ⟨true, a⟩, 0⟩ 0x1000 32 false := by
  have h : (Run.exec step init twoBlocks).isSome = true := by decide
  obtain ⟨s, hs⟩ := Option.isSome_iff_exists.mp h
  refine ⟨s, hs, invalidateICache_spec (.of_exec twoBlocks ?_ hs) ?_⟩
  · intro _ a ha
    simp only [twoBlocks, List.mem_cons, List.not_mem_nil, or_false] at ha
    obtain rfl | rfl | rfl := ha <;> exact trivial
  · exact fun _ => ⟨by decide, fun _ => by decide, .inr (.inr (by decide))⟩

/-! ## what goes wrong otherwise -/

/-- One block, with its only instruction at `0x1020`. -/
def oneBlock : List (Env × Op) :=
  [(⟨fun a => ⟨true, a⟩, 0⟩, .compile 1 0x1020 7 [] true (OrdSet.empty.insert 0x1020))]

/-- A range of 32 bytes that does not start a line is taken for the line it starts in: the
block with an instruction in its second half stays.  A range that goes past the end of the
address space is not walked to its end: the walk runs past the end of the map. -/
theorem not_invalidateSpec : ∃ s, Run step (fun _ _ => True) init s ∧
      ¬InvalidateSpec s ⟨fun a => ⟨true, a⟩, 0⟩ 0x1010 32 false ∧
      s.invalidateICache ⟨fun a => ⟨true, a⟩, 0⟩ 0xffffff00 0x200 true = none := by
  have h : ((Run.exec step init oneBlock).map fun s =>
      ((s.invalidateICache ⟨fun a => ⟨true, a⟩, 0⟩ 0x1010 32 false).map fun t =>
        (t.blockMap.get? 1).map (·.physicalAddresses.toList),
      (s.invalidateICache ⟨fun a => ⟨true, a⟩, 0⟩ 0xffffff00 0x200 true).isNone)) =
        some (some (some [0x1020]), true) := by decide
  obtain ⟨s, hs, hcalls⟩ := Option.map_eq_some_iff.mp h
  obtain ⟨hline, hwrap⟩ := Prod.mk.inj hcalls
  refine ⟨s, .of_exec oneBlock (fun _ _ _ => trivial) hs, ?_, Option.isNone_iff_eq_none.mp hwrap⟩
  intro hspec
  obtain ⟨t, ht, hinv⟩ := hspec rfl
  rw [ht, Option.map_some, Option.some.injEq] at hline
  obtain ⟨b, hb, hlist⟩ := Option.map_eq_some_iff.mp hline
  refine hinv.gone 1 b hb 0x1020 ?_ (by unfold InRange; decide)
  rw [← OrdSet.mem_toList, hlist]
  exact List.mem_cons_self ..

end DolphinCore.JitCache
