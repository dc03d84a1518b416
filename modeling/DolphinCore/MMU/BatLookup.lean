import DolphinCore.MMU.Tlb

/-!
# DolphinCore.MMU.BatLookup

A lookup in a BAT table against the registers it was built from.  The table is filled
by enumerating the patterns of a mask that need not be contiguous, later registers over
earlier ones; the lookup is a match of the registers themselves, the last one first.
-/

namespace DolphinCore.MMU

/-! ## memory checks -/

/-- `TMemCheck`, the addresses it covers. -/
structure TMemCheck where
  startAddress : BitVec 32
  endAddress : BitVec 32

def overlapsMemcheck (memChecks : List TMemCheck) (address length : BitVec 32) : Bool :=
  let pageEndSuffix := length - 1
  let pageEndAddress := address ||| pageEndSuffix
  memChecks.any fun memcheck =>
    ((memcheck.startAddress ||| pageEndSuffix) = pageEndAddress ||
      (memcheck.endAddress ||| pageEndSuffix) = pageEndAddress) ||
    ((memcheck.startAddress ||| pageEndSuffix) < pageEndAddress &&
      pageEndAddress < (memcheck.endAddress ||| pageEndSuffix))

def batPageSize : BitVec 32 := 0x20000

/-- The question asked of the memory checks for a block. -/
def blockOverlaps (memChecks : List TMemCheck) (address : BitVec 32) : Bool :=
  overlapsMemcheck memChecks address batPageSize

/-! ## matching the registers -/

/-- The block of an effective address. -/
def batPage (ea : BitVec 32) : BitVec 32 := ea >>> 17

/-- The pair is enabled, and its mask leaves its block number alone. -/
def BatPair.Usable (b : BatPair) : Prop := ¬(b.vs = 0 ∧ b.vp = 0) ∧ b.bepi &&& b.bl = 0

/-- The pair translates an effective address. -/
def BatPair.Matches (b : BatPair) (ea : BitVec 32) : Prop :=
  b.Usable ∧ batPage ea &&& ~~~b.bl = b.bepi

instance (b : BatPair) : Decidable b.Usable := inferInstanceAs (Decidable (_ ∧ _))

instance (b : BatPair) (ea : BitVec 32) : Decidable (b.Matches ea) :=
  inferInstanceAs (Decidable (_ ∧ _))

/-- Where the pair translates an effective address to. -/
def BatPair.translate (b : BatPair) (ea : BitVec 32) : BitVec 32 :=
  (b.brpn ||| (batPage ea &&& b.bl)) <<< 17 ||| (ea &&& 0x1ffff)

/-- The last of the pairs that match. -/
def directMatch (pairs : List BatPair) (ea : BitVec 32) : Option BatPair :=
  (pairs.filter fun b => b.Matches ea).getLast?

/-- All register pairs, in the order in which they are looked at. -/
def batPairs (spr : Fin 4 → BatPair) (extended : Option (Fin 4 → BatPair)) : List BatPair :=
  List.ofFn spr ++ (extended.map List.ofFn).getD []

/-- Addresses that Fake-MMU mode maps. -/
def InFakeSegment (ea : BitVec 32) : Prop := ea >>> 28 = 4 ∨ ea >>> 28 = 7

instance (ea : BitVec 32) : Decidable (InFakeSegment ea) := inferInstanceAs (Decidable (_ ∨ _))

/-! ## loops over masks -/

theorem foldl_update_unique {ι β : Type*} [DecidableEq ι] {w : α → Prop} [DecidablePred w]
    {idx : α → ι} (val : α → β) {k : ι} {c : Prop} [Decidable c] {a₀ : α} [DecidableEq α]
    {l : List α} (h : ∀ a ∈ l, (w a ∧ idx a = k) ↔ (c ∧ a = a₀)) (t : ι → β) :
    l.foldl (fun t a => if w a then Function.update t (idx a) (val a) else t) t k =
      if c ∧ a₀ ∈ l then val a₀ else t k := by
  induction l generalizing t with
  | nil => rw [List.foldl_nil, if_neg fun h => List.not_mem_nil h.2]
  | cons a l ih =>
    obtain ⟨ha, hl⟩ := List.forall_mem_cons.mp h
    rw [List.foldl_cons, ih hl]
    by_cases hwrites : w a ∧ idx a = k
    · obtain ⟨hc, rfl⟩ := ha.mp hwrites
      rw [if_pos hwrites.1, ← hwrites.2, Function.update_self, ite_self,
        if_pos ⟨hc, List.mem_cons_self ..⟩]
    · have hkeep : (if w a then Function.update t (idx a) (val a) else t) k = t k := by
        split
        · next hw => rw [Function.update_of_ne fun hk => hwrites ⟨hw, hk.symm⟩]
        · rfl
      have hiff : (c ∧ a₀ ∈ a :: l) ↔ (c ∧ a₀ ∈ l) := by
        rw [List.mem_cons]
        constructor
        · rintro ⟨hc, rfl | hmem⟩
          · exact absurd (ha.mpr ⟨hc, rfl⟩) hwrites
          · exact ⟨hc, hmem⟩
        · rintro ⟨hc, hmem⟩
          exact ⟨hc, .inr hmem⟩
      rw [hkeep, if_congr hiff rfl rfl]

variable {w : Nat} {x : BitVec 32}

theorem mem_range_ofNat {x m : BitVec w} (h : x ≤ m) :
    x ∈ (List.range (m.toNat + 1)).map (BitVec.ofNat w) := by
  refine List.mem_map.mpr ⟨x.toNat, List.mem_range.mpr ?_, BitVec.ofNat_toNat w x ▸ ?_⟩
  · exact Nat.lt_succ_of_le (BitVec.le_def.mp h)
  · rw [BitVec.setWidth_eq]

theorem and_le_right (x m : BitVec w) : x &&& m ≤ m := by
  exact Nat.and_le_right

theorem and_not_or_and (x m : BitVec w) : x &&& ~~~m ||| x &&& m = x := by
  rw [← BitVec.and_or_distrib_left, BitVec.not_or_self, BitVec.and_allOnes]

theorem and_not_or (x m : BitVec w) : x &&& ~~~m ||| m = x ||| m := by
  ext i
  simp only [BitVec.getElem_or, BitVec.getElem_and, BitVec.getElem_not]
  cases x[i] <;> cases m[i] <;> rfl

theorem or_eq_iff_of_mask {x j m p : BitVec w} (hx : x &&& m = 0) : (j &&& m = j ∧ x ||| j = p)
    ↔ (p &&& ~~~m = x ∧ j = p &&& m) := by
  constructor
  · rintro ⟨hj, rfl⟩
    have hxm : x &&& ~~~m = x := by
      have h := and_not_or_and x m
      rw [hx] at h
      simpa using h
    have hjm : j &&& ~~~m = 0 := by
      rw [← hj, BitVec.and_assoc, BitVec.and_not_self]
      simp
    constructor
    · rw [BitVec.and_or_distrib_right, hxm, hjm]
      simp
    · rw [BitVec.and_or_distrib_right, hx, hj]
      simp
  · rintro ⟨rfl, rfl⟩
    rw [BitVec.and_assoc, BitVec.and_self]
    exact ⟨rfl, and_not_or_and p m⟩

/-! ## block numbers -/

theorem toNat_batPage (ea : BitVec 32) : (batPage ea).toNat = ea.toNat / 131072 := by
  rw [batPage, BitVec.toNat_ushiftRight, Nat.shiftRight_eq_div_pow]

theorem batPage_lt (ea : BitVec 32) : (batPage ea).toNat < 32768 := by
  rw [toNat_batPage]
  omega

theorem BatPair.toNat_bepi_lt (b : BatPair) : b.bepi.toNat < 2 ^ 15 := batPage_lt b.batu

theorem BatPair.toNat_bl_lt (b : BatPair) : b.bl.toNat < 2 ^ 15 := by
  have hle := BitVec.le_def.mp (and_le_right (b.batu >>> 2) 0x7ff)
  have hmask : (0x7ff : BitVec 32).toNat = 2047 := rfl
  unfold BatPair.bl
  omega

theorem shiftLeft_ushiftRight_of_lt (h : x.toNat < 2 ^ 15) : x <<< 17 >>> 17 = x := by
  apply BitVec.eq_of_toNat_eq
  rw [BitVec.toNat_ushiftRight, BitVec.toNat_shiftLeft, Nat.shiftLeft_eq, Nat.shiftRight_eq_div_pow]
  omega

theorem setWidth_inj_of_lt {x y : BitVec 32} (hx : x.toNat < 2 ^ 15) (hy : y.toNat < 2 ^ 15) :
    x.setWidth 15 = y.setWidth 15 ↔ x = y := by
  constructor
  · intro h
    have h' := congrArg BitVec.toNat h
    rw [BitVec.toNat_setWidth, BitVec.toNat_setWidth, Nat.mod_eq_of_lt hx, Nat.mod_eq_of_lt hy] at h'
    exact BitVec.eq_of_toNat_eq h'
  · rintro rfl
    rfl

theorem toNat_or_lt {x y : BitVec 32} (hx : x.toNat < 2 ^ 15) (hy : y.toNat < 2 ^ 15) :
    (x ||| y).toNat < 2 ^ 15 := by
  exact Nat.or_lt_two_pow hx hy

/-! ## one register pair -/

/-- The entry that a pair writes for an effective address. -/
def BatPair.entry (s : State) (overlaps : BitVec 32 → Bool) (b : BatPair) (ea : BitVec 32) :
    BitVec 32 :=
  batEntry s overlaps (batPage ea <<< 17) ((b.brpn ||| (batPage ea &&& b.bl)) <<< 17)

section

variable (s : State) (overlaps : BitVec 32 → Bool)

theorem updateBATsPair_apply (table : BatTable) (b : BatPair) (ea : BitVec 32) :
    updateBATsPair s overlaps table b ((batPage ea).setWidth 15) =
      if b.Matches ea then b.entry s overlaps ea else table ((batPage ea).setWidth 15) := by
  unfold updateBATsPair
  by_cases hdisabled : b.vs = 0 ∧ b.vp = 0
  · rw [if_pos hdisabled, if_neg fun h => h.1.1 hdisabled]
  · rw [if_neg hdisabled]
    by_cases hbad : b.bepi &&& b.bl ≠ 0
    · rw [if_pos hbad, if_neg fun h => hbad h.1.2]
    · rw [if_neg hbad]
      have hgood : b.bepi &&& b.bl = 0 := not_not.mp hbad
      have hwrites : ∀ j ∈ (List.range (b.bl.toNat + 1)).map (BitVec.ofNat 32), (j &&& b.bl = j ∧
            (((b.bepi ||| j) <<< 17) >>> 17).setWidth 15 = (batPage ea).setWidth 15) ↔
          (batPage ea &&& ~~~b.bl = b.bepi ∧ j = batPage ea &&& b.bl) := by
        intro j _
        rw [← or_eq_iff_of_mask hgood]
        refine and_congr_right fun hj => ?_
        have hjlt : j.toNat < 2 ^ 15 := by
          have hle := BitVec.le_def.mp (hj ▸ and_le_right j b.bl)
          exact lt_of_le_of_lt hle b.toNat_bl_lt
        have hlt := toNat_or_lt b.toNat_bepi_lt hjlt
        rw [shiftLeft_ushiftRight_of_lt hlt, setWidth_inj_of_lt hlt (batPage_lt ea)]
      have hmem : batPage ea &&& b.bl ∈ (List.range (b.bl.toNat + 1)).map (BitVec.ofNat 32) :=
        mem_range_ofNat (and_le_right _ _)
      have hloop := foldl_update_unique
        (fun j => batEntry s overlaps ((b.bepi ||| j) <<< 17) ((b.brpn ||| j) <<< 17))
        hwrites table
      unfold updateBATsBlock
      simp only
      rw [hloop]
      by_cases hmatch : batPage ea &&& ~~~b.bl = b.bepi
      · have hpage : b.bepi ||| (batPage ea &&& b.bl) = batPage ea := by
          rw [← hmatch, and_not_or_and]
        rw [if_pos ⟨hmatch, hmem⟩, if_pos ⟨⟨hdisabled, hgood⟩, hmatch⟩, BatPair.entry, hpage]
      · rw [if_neg fun h => hmatch h.1, if_neg fun h => hmatch h.2]

theorem foldl_updateBATsPair (pairs : List BatPair) (table : BatTable) (ea : BitVec 32) :
    pairs.foldl (updateBATsPair s overlaps) table ((batPage ea).setWidth 15) =
      ((directMatch pairs ea).map fun b => b.entry s overlaps ea).getD
        (table ((batPage ea).setWidth 15)) := by
  induction pairs generalizing table with
  | nil => rfl
  | cons b pairs ih =>
    rw [List.foldl_cons, ih, updateBATsPair_apply]
    unfold directMatch
    by_cases hmatch : b.Matches ea
    · rw [if_pos hmatch, List.filter_cons_of_pos (by simpa using hmatch), List.getLast?_cons]
      cases (pairs.filter fun b => b.Matches ea).getLast? <;> rfl
    · rw [if_neg hmatch, List.filter_cons_of_neg (by simpa using hmatch)]

end

/-! ## entries -/

theorem shiftLeft_and_low (x : BitVec 32) {c : BitVec 32} (hc : BitVec.allOnes 32 <<< 17 &&& c = 0) :
    x <<< 17 &&& ~~~c = x <<< 17 := by
  have h := and_not_or_and (x <<< 17) c
  rw [shiftLeft_and_eq_zero x hc] at h
  simpa using h

theorem validBit_cases (s : State) (physicalAddress : BitVec 32) :
    validBit s physicalAddress = batMappedBit ∨
      validBit s physicalAddress = batMappedBit ||| batPhysicalBit := by
  unfold validBit
  split
  · exact .inr rfl
  · split
    · exact .inr rfl
    · split
      · exact .inr rfl
      · split
        · exact .inr rfl
        · exact .inl rfl

theorem batEntry_eq (s : State) (overlaps : BitVec 32 → Bool) (virtualAddress x : BitVec 32) :
    batEntry s overlaps virtualAddress (x <<< 17) = x <<< 17 ||| batMappedBit ∨
      (batEntry s overlaps virtualAddress (x <<< 17) =
        x <<< 17 ||| (batMappedBit ||| batPhysicalBit) ∧
        validBit s (x <<< 17) = batMappedBit ||| batPhysicalBit ∧ overlaps virtualAddress = false) := by
  unfold batEntry
  simp only
  cases hov : overlaps virtualAddress
  · rcases validBit_cases s (x <<< 17) with h | h
    · left
      rw [if_neg Bool.false_ne_true, h]
    · right
      rw [if_neg Bool.false_ne_true, h]
      exact ⟨rfl, rfl, rfl⟩
  · left
    rcases validBit_cases s (x <<< 17) with h | h
    · rw [h]
      rfl
    · rw [h]
      rfl

theorem entry_lookup (x : BitVec 32) {flags : BitVec 32}
    (hflags : flags = batMappedBit ∨ flags = batMappedBit ||| batPhysicalBit) :
    (x <<< 17 ||| flags) &&& 1 ≠ 0 ∧ (x <<< 17 ||| flags) &&& ~~~(3 : BitVec 32) = x <<< 17 := by
  have h1 := shiftLeft_and_eq_zero x (c := 1) (by decide)
  have h3 := shiftLeft_and_low x (c := 3) (by decide)
  rw [BitVec.and_or_distrib_right, BitVec.and_or_distrib_right, h1, h3]
  rcases hflags with rfl | rfl
  · exact ⟨by decide, by simp [batMappedBit]⟩
  · exact ⟨by decide, by simp [batMappedBit, batPhysicalBit]⟩

theorem batPage_shiftLeft (ea : BitVec 32) : batPage ea <<< 17 = ea &&& 0xFFFE0000 := by
  have hmask : (0xFFFE0000 : BitVec 32) = ~~~0x1ffff := by decide
  apply BitVec.eq_of_toNat_eq
  rw [hmask, toNat_and_not_mask ea 17 rfl, BitVec.toNat_shiftLeft, Nat.shiftLeft_eq, toNat_batPage]
  omega

/-! ## Fake-MMU mode -/

/-- The block that Fake-MMU mode maps an address to. -/
def fakeBlock (ea : BitVec 32) : BitVec 32 := 0x3F00 ||| (batPage ea &&& 0xff)

def fakeFlags (overlaps : BitVec 32 → Bool) (ea : BitVec 32) : BitVec 32 :=
  if overlaps (batPage ea <<< 17) then batMappedBit else batMappedBit ||| batPhysicalBit

theorem fakeBlock_shiftLeft (ea : BitVec 32) :
    (0x7E000000 : BitVec 32) ||| ((batPage ea &&& 0x7ff) <<< 17 &&& (0x01FFFFFF : BitVec 32)) =
      fakeBlock ea <<< 17 := by
  have hblock : (0x3F00 : BitVec 32) <<< 17 = 0x7E000000 := by decide
  have hlow : (0xff : BitVec 32) <<< 17 = (0x7ff : BitVec 32) <<< 17 &&& (0x01FFFFFF : BitVec 32) := by
    decide
  rw [fakeBlock, BitVec.shiftLeft_or_distrib, BitVec.shiftLeft_and_distrib,
    BitVec.shiftLeft_and_distrib, hblock, hlow, BitVec.and_assoc]

theorem fakeBlock_or (ea : BitVec 32) : fakeBlock ea <<< 17 ||| (ea &&& 0x1ffff) =
      (0x7E000000 : BitVec 32) ||| (ea &&& 0x01FFFFFF) := by
  have hblock : (0x3F00 : BitVec 32) <<< 17 = 0x7E000000 := by decide
  have hlow : ((0xFFFE0000 : BitVec 32) &&& (0xff : BitVec 32) <<< 17) ||| (0x1ffff : BitVec 32) =
      0x01FFFFFF := by decide
  rw [fakeBlock, BitVec.shiftLeft_or_distrib, BitVec.shiftLeft_and_distrib, hblock,
    batPage_shiftLeft, BitVec.or_assoc, BitVec.and_assoc, ← BitVec.and_or_distrib_left, hlow]

theorem updateFakeMMUBat_apply (overlaps : BitVec 32 → Bool) {startAddr : BitVec 32} {seg : Nat}
    (hseg : seg < 16) (hstart : (startAddr >>> 17).toNat = seg * 2048) (table : BatTable)
    (ea : BitVec 32) :
    updateFakeMMUBat overlaps startAddr table ((batPage ea).setWidth 15) =
      if (ea >>> 28).toNat = seg then fakeBlock ea <<< 17 ||| fakeFlags overlaps ea
      else table ((batPage ea).setWidth 15) := by
  have hmask : (0x7ff : BitVec 32).toNat = 2 ^ 11 - 1 := rfl
  have hlow : (batPage ea &&& 0x7ff).toNat = (batPage ea).toNat % 2048 := toNat_and_mask _ 11 hmask
  have hpage := batPage_lt ea
  have hsegment : (ea >>> 28).toNat = (batPage ea).toNat / 2048 := by
    rw [BitVec.toNat_ushiftRight, Nat.shiftRight_eq_div_pow, toNat_batPage]
    omega
  have hwrites : ∀ i ∈ (List.range 0x800).map (BitVec.ofNat 32),
      (True ∧ (i + startAddr >>> 17).setWidth 15 = (batPage ea).setWidth 15) ↔
        ((ea >>> 28).toNat = seg ∧ i = batPage ea &&& 0x7ff) := by
    intro i hi
    obtain ⟨n, hn, rfl⟩ := List.mem_map.mp hi
    have hn := List.mem_range.mp hn
    have hsum : (BitVec.ofNat 32 n + startAddr >>> 17).toNat = n + seg * 2048 := by
      rw [BitVec.toNat_add, BitVec.toNat_ofNat, hstart]
      omega
    have hlt : (BitVec.ofNat 32 n + startAddr >>> 17).toNat < 2 ^ 15 := by omega
    rw [true_and, setWidth_inj_of_lt hlt hpage, hsegment]
    constructor
    · intro heq
      rw [heq] at hsum
      refine ⟨by omega, BitVec.eq_of_toNat_eq ?_⟩
      rw [hlow, BitVec.toNat_ofNat]
      omega
    · rintro ⟨hs, hi⟩
      have hi' := congrArg BitVec.toNat hi
      rw [hlow, BitVec.toNat_ofNat] at hi'
      apply BitVec.eq_of_toNat_eq
      omega
  have hrange : (0x7ff : BitVec 32).toNat + 1 = 0x800 := rfl
  have hmem : batPage ea &&& 0x7ff ∈ (List.range 0x800).map (BitVec.ofNat 32) := by
    have h := mem_range_ofNat (and_le_right (batPage ea) 0x7ff)
    rwa [hrange] at h
  have hloop := foldl_update_unique (w := fun _ : BitVec 32 => True) (fun i : BitVec 32 =>
    (0x7E000000 ||| (i <<< 17 &&& 0x01FFFFFF)) |||
      if overlaps ((i + startAddr >>> 17) <<< 17) then batMappedBit
      else batMappedBit ||| batPhysicalBit) hwrites table
  unfold updateFakeMMUBat
  simp only [if_true, Nat.cast_ofNat] at hloop ⊢
  rw [hloop]
  by_cases hs : (ea >>> 28).toNat = seg
  · have hindex : (batPage ea &&& (0x7ff : BitVec 32)) + startAddr >>> 17 = batPage ea := by
      apply BitVec.eq_of_toNat_eq
      rw [BitVec.toNat_add, hlow, hstart]
      omega
    rw [if_pos ⟨hs, hmem⟩, if_pos hs, hindex, fakeBlock_shiftLeft, fakeFlags]
  · rw [if_neg fun h => hs h.1, if_neg hs]

/-! ## the table -/

theorem buildBatTable_eq (s : State) (overlaps : BitVec 32 → Bool) (spr : Fin 4 → BatPair)
    (extended : Option (Fin 4 → BatPair)) :
    buildBatTable s overlaps spr extended =
      let table := (batPairs spr extended).foldl (updateBATsPair s overlaps) fun _ => 0
      if s.fakeVMEM then
        updateFakeMMUBat overlaps 0x70000000 (updateFakeMMUBat overlaps 0x40000000 table)
      else table := by
  cases extended with
  | none =>
    simp only [buildBatTable, updateBATs, batPairs, Option.map_none, Option.getD_none,
      List.append_nil]
  | some spr' =>
    simp only [buildBatTable, updateBATs, batPairs, Option.map_some, Option.getD_some,
      List.foldl_append]

theorem buildBatTable_apply (s : State) (overlaps : BitVec 32 → Bool) (spr : Fin 4 → BatPair)
    (extended : Option (Fin 4 → BatPair)) (ea : BitVec 32) :
    buildBatTable s overlaps spr extended ((batPage ea).setWidth 15) =
      if s.fakeVMEM ∧ InFakeSegment ea then fakeBlock ea <<< 17 ||| fakeFlags overlaps ea
      else ((directMatch (batPairs spr extended) ea).map fun b => b.entry s overlaps ea).getD 0 := by
  have hsegment : InFakeSegment ea ↔ (ea >>> 28).toNat = 4 ∨ (ea >>> 28).toNat = 7 := by
    unfold InFakeSegment
    rw [← BitVec.toNat_inj, ← BitVec.toNat_inj]
    rfl
  have hpairs := foldl_updateBATsPair s overlaps (batPairs spr extended) (fun _ => 0) ea
  rw [buildBatTable_eq]
  by_cases hfake : s.fakeVMEM
  · rw [if_pos hfake, updateFakeMMUBat_apply overlaps (by decide : 7 < 16) (by decide),
      updateFakeMMUBat_apply overlaps (by decide : 4 < 16) (by decide)]
    by_cases h7 : (ea >>> 28).toNat = 7
    · rw [if_pos h7, if_pos ⟨hfake, hsegment.mpr (.inr h7)⟩]
    · by_cases h4 : (ea >>> 28).toNat = 4
      · rw [if_neg h7, if_pos h4, if_pos ⟨hfake, hsegment.mpr (.inl h4)⟩]
      · rw [if_neg h7, if_neg h4, if_neg fun h => (hsegment.mp h.2).elim h4 h7, hpairs]
  · rw [if_neg hfake, if_neg fun h => hfake h.1, hpairs]

/-! ## where memory is -/

/-- The address lies in RAM, EXRAM, the locked L1 cache or fake VMEM. -/
def Backed (s : State) (a : BitVec 32) : Prop :=
  a < 0x02000000 ∨ (s.exram = true ∧ a >>> 28 = 1 ∧ a &&& 0x0FFFFFFF < 0x04000000) ∨
    (a >>> 28 = 0xE ∧ a < 0xE0000000 + 0x40000) ∨
    (s.fakeVMEM = true ∧ a &&& 0xFE000000 = 0x7E000000)

theorem toNat_block_add {x i : BitVec 32} (hx : x.toNat % 131072 = 0) (hi : i.toNat < 131072) :
    (x + i).toNat = x.toNat + i.toNat := by
  rw [BitVec.toNat_add]
  omega

theorem toNat_shiftLeft_mod (x : BitVec 32) : (x <<< 17).toNat % 131072 = 0 := by
  rw [BitVec.toNat_shiftLeft, Nat.shiftLeft_eq]
  omega

theorem lt_iff_toNat {n : Nat} (hn : n < 2 ^ 32) : x < BitVec.ofNat 32 n ↔ x.toNat < n := by
  rw [BitVec.lt_def, BitVec.toNat_ofNat, Nat.mod_eq_of_lt hn]

theorem eq_iff_toNat {n : Nat} (hn : n < 2 ^ 32) : x = BitVec.ofNat 32 n ↔ x.toNat = n := by
  rw [← BitVec.toNat_inj, BitVec.toNat_ofNat, Nat.mod_eq_of_lt hn]

theorem toNat_topBits (x : BitVec 32) : (x >>> 28).toNat = x.toNat / 268435456 := by
  rw [BitVec.toNat_ushiftRight, Nat.shiftRight_eq_div_pow]

theorem toNat_and_fakeMask (x : BitVec 32) :
    (x &&& 0xFE000000).toNat = x.toNat - x.toNat % 33554432 := by
  have hmask : (0xFE000000 : BitVec 32) = ~~~0x01FFFFFF := by decide
  have hpow : 2 ^ 25 = 33554432 := rfl
  rw [hmask, toNat_and_not_mask x 25 rfl, hpow]

theorem backed_iff (s : State) (a : BitVec 32) : Backed s a ↔ a.toNat < 0x02000000 ∨
      (s.exram = true ∧ a.toNat / 268435456 = 1 ∧ a.toNat % 268435456 < 0x04000000) ∨
      (a.toNat / 268435456 = 0xE ∧ a.toNat < 0xE0040000) ∨
      (s.fakeVMEM = true ∧ a.toNat - a.toNat % 33554432 = 0x7E000000) := by
  have hlow : (a &&& 0x0FFFFFFF).toNat = a.toNat % 268435456 := toNat_and_mask a 28 rfl
  have hram : a < 0x02000000 ↔ a.toNat < 0x02000000 := lt_iff_toNat (by decide)
  have hexram : a >>> 28 = 1 ↔ a.toNat / 268435456 = 1 := by
    rw [← toNat_topBits]
    exact eq_iff_toNat (by decide)
  have hexramSize : a &&& 0x0FFFFFFF < 0x04000000 ↔ a.toNat % 268435456 < 0x04000000 := by
    rw [← hlow]
    exact lt_iff_toNat (by decide)
  have hl1 : a >>> 28 = 0xE ↔ a.toNat / 268435456 = 0xE := by
    rw [← toNat_topBits]
    exact eq_iff_toNat (by decide)
  have hl1Size : a < 0xE0000000 + 0x40000 ↔ a.toNat < 0xE0040000 := lt_iff_toNat (by decide)
  have hfake : a &&& 0xFE000000 = 0x7E000000 ↔ a.toNat - a.toNat % 33554432 = 0x7E000000 := by
    rw [← toNat_and_fakeMask]
    exact eq_iff_toNat (by decide)
  unfold Backed
  rw [hram, hexram, hexramSize, hl1, hl1Size, hfake]

theorem backed_block {s : State} {x i : BitVec 32} (h : Backed s (x <<< 17))
    (hi : i.toNat < 131072) : Backed s (x <<< 17 + i) := by
  have hx := toNat_shiftLeft_mod x
  rw [backed_iff] at h ⊢
  rw [toNat_block_add hx hi]
  rcases h with h | ⟨hexram, h, h'⟩ | ⟨h, h'⟩ | ⟨hfake, h⟩
  · exact .inl (by omega)
  · exact .inr (.inl ⟨hexram, by omega, by omega⟩)
  · exact .inr (.inr (.inl ⟨by omega, by omega⟩))
  · exact .inr (.inr (.inr ⟨hfake, by omega⟩))

theorem backed_of_validBit {s : State} {a : BitVec 32}
    (h : validBit s a = batMappedBit ||| batPhysicalBit) : Backed s a := by
  have hne : batMappedBit ≠ batMappedBit ||| batPhysicalBit := by decide
  unfold validBit at h
  split at h
  · next hfake =>
    rw [Bool.and_eq_true] at hfake
    exact .inr (.inr (.inr ⟨hfake.1, of_decide_eq_true hfake.2⟩))
  · split at h
    · next hram => exact .inl hram
    · split at h
      · next hexram =>
        rw [Bool.and_eq_true, Bool.and_eq_true] at hexram
        exact .inr (.inl ⟨hexram.1.1, of_decide_eq_true hexram.1.2, of_decide_eq_true hexram.2⟩)
      · split at h
        · next hl1 =>
          rw [Bool.and_eq_true] at hl1
          exact .inr (.inr (.inl ⟨of_decide_eq_true hl1.1, of_decide_eq_true hl1.2⟩))
        · exact absurd h hne

theorem backed_fakeBlock {s : State} (h : s.fakeVMEM = true) (ea : BitVec 32) :
    Backed s (fakeBlock ea <<< 17) := by
  have hhigh : (0x3F00 : BitVec 32) <<< 17 &&& 0xFE000000 = 0x7E000000 := by decide
  have hlow : (0xff : BitVec 32) <<< 17 &&& 0xFE000000 = 0 := by decide
  refine .inr (.inr (.inr ⟨h, ?_⟩))
  rw [fakeBlock, BitVec.shiftLeft_or_distrib, BitVec.shiftLeft_and_distrib,
    BitVec.and_or_distrib_right, BitVec.and_assoc, hlow, hhigh]
  simp

/-! ## memory checks of a block -/

theorem toNat_or_pageEnd (a : BitVec 32) :
    (a ||| 0x1ffff).toNat = a.toNat / 131072 * 131072 + 131071 := by
  have hsplit : a ||| 0x1ffff = (a &&& ~~~0x1ffff) + 0x1ffff := by
    have hdisjoint : a &&& ~~~0x1ffff &&& 0x1ffff = 0#32 := by
      rw [BitVec.and_assoc, BitVec.not_and_self]
      simp
    rw [BitVec.add_eq_or_of_and_eq_zero _ _ hdisjoint, and_not_or]
  have hmask : (0x1ffff : BitVec 32).toNat = 131071 := rfl
  rw [hsplit, BitVec.toNat_add, toNat_and_not_mask a 17 rfl, hmask]
  omega

theorem not_covered_of_blockOverlaps {memChecks : List TMemCheck} {ea : BitVec 32}
    (h : blockOverlaps memChecks (batPage ea <<< 17) = false) :
    ∀ memcheck ∈ memChecks, ∀ a, memcheck.startAddress ≤ a → a ≤ memcheck.endAddress →
      batPage a ≠ batPage ea := by
  intro memcheck hmem a hstart hend heq
  have hsuffix : batPageSize - 1 = 0x1ffff := by decide
  have hnot := List.any_eq_false.mp h memcheck hmem
  simp only [hsuffix, Bool.or_eq_true, decide_eq_true_iff, Bool.and_eq_true, not_or, not_and,
    ← BitVec.toNat_inj, BitVec.lt_def, toNat_or_pageEnd] at hnot
  have heq' := congrArg BitVec.toNat heq
  have hshift : (batPage ea <<< 17).toNat = ea.toNat / 131072 * 131072 := by
    rw [BitVec.toNat_shiftLeft, Nat.shiftLeft_eq, toNat_batPage]
    omega
  rw [toNat_batPage, toNat_batPage] at heq'
  rw [BitVec.le_def] at hstart hend
  obtain ⟨⟨hne, hne'⟩, hbetween⟩ := hnot
  omega

/-! ## lookups -/

/-- What a table is to do for every address: translate as the registers do, and allow direct
accesses only to blocks that are backed and that no memory check covers. -/
def LooksUp (s : State) (memChecks : List TMemCheck) (pairs : List BatPair)
    (table : BatTable) : Prop :=
  ∀ ea, translateBatAddress table ea =
      (if s.fakeVMEM ∧ InFakeSegment ea then some (0x7E000000 ||| (ea &&& 0x01FFFFFF))
      else (directMatch pairs ea).map fun b => b.translate ea) ∧
    (table ((batPage ea).setWidth 15) &&& batPhysicalBit ≠ 0 → (∀ i : BitVec 32, i.toNat < 131072 →
        Backed s ((table ((batPage ea).setWidth 15) &&& ~~~3) + i)) ∧
      ∀ memcheck ∈ memChecks, ∀ a, memcheck.startAddress ≤ a → a ≤ memcheck.endAddress →
        batPage a ≠ batPage ea)

theorem translateBatAddress_entry {table : BatTable} {ea x flags : BitVec 32}
    (h : table ((batPage ea).setWidth 15) = x <<< 17 ||| flags)
    (hflags : flags = batMappedBit ∨ flags = batMappedBit ||| batPhysicalBit) :
    translateBatAddress table ea = some (x <<< 17 ||| (ea &&& 0x1ffff)) := by
  obtain ⟨hmapped, hblock⟩ := entry_lookup x hflags
  have h' : table ((ea >>> 17).setWidth 15) = x <<< 17 ||| flags := h
  unfold translateBatAddress
  simp only [h']
  rw [if_neg hmapped, hblock]

theorem physicalBit_of_mapped (x : BitVec 32) :
    (x <<< 17 ||| batMappedBit) &&& batPhysicalBit = 0 := by
  have h2 := shiftLeft_and_eq_zero x (c := batPhysicalBit) (by decide)
  rw [BitVec.and_or_distrib_right, h2]
  decide

theorem looksUp_buildBatTable (s : State) (memChecks : List TMemCheck) (spr : Fin 4 → BatPair)
    (extended : Option (Fin 4 → BatPair)) :
    LooksUp s memChecks (batPairs spr extended)
      (buildBatTable s (blockOverlaps memChecks) spr extended) := by
  intro ea
  have hentry := buildBatTable_apply s (blockOverlaps memChecks) spr extended ea
  by_cases hfake : s.fakeVMEM ∧ InFakeSegment ea
  · rw [if_pos hfake] at hentry ⊢
    unfold fakeFlags at hentry
    cases hov : blockOverlaps memChecks (batPage ea <<< 17)
    · rw [hov, if_neg Bool.false_ne_true] at hentry
      refine ⟨?_, fun _ => ⟨fun i hi => ?_, not_covered_of_blockOverlaps hov⟩⟩
      · rw [translateBatAddress_entry hentry (.inr rfl), fakeBlock_or]
      · rw [hentry, (entry_lookup _ (.inr rfl)).2]
        exact backed_block (backed_fakeBlock hfake.1 ea) hi
    · rw [hov, if_pos rfl] at hentry
      refine ⟨?_, fun h => absurd ?_ h⟩
      · rw [translateBatAddress_entry hentry (.inl rfl), fakeBlock_or]
      · rw [hentry, physicalBit_of_mapped]
  · rw [if_neg hfake] at hentry ⊢
    cases hmatch : directMatch (batPairs spr extended) ea with
    | none =>
      rw [hmatch, Option.map_none, Option.getD_none] at hentry
      refine ⟨?_, fun h => absurd ?_ h⟩
      · have hentry' : buildBatTable s (blockOverlaps memChecks) spr extended
            ((ea >>> 17).setWidth 15) = 0 := hentry
        unfold translateBatAddress
        simp only [hentry']
        rfl
      · rw [hentry]
        exact BitVec.zero_and
    | some b =>
      rw [hmatch, Option.map_some, Option.getD_some, BatPair.entry] at hentry
      rcases batEntry_eq s (blockOverlaps memChecks) (batPage ea <<< 17)
        (b.brpn ||| (batPage ea &&& b.bl)) with h | ⟨h, hvalid, hov⟩
      · rw [h] at hentry
        refine ⟨translateBatAddress_entry hentry (.inl rfl), fun h => absurd ?_ h⟩
        rw [hentry, physicalBit_of_mapped]
      · rw [h] at hentry
        refine ⟨translateBatAddress_entry hentry (.inr rfl),
          fun _ => ⟨fun i hi => ?_, not_covered_of_blockOverlaps hov⟩⟩
        rw [hentry, (entry_lookup _ (.inr rfl)).2]
        exact backed_block (backed_of_validBit hvalid) hi

/-- **The rebuilt tables agree with the registers**, for all contents of the registers. -/
theorem looksUp_updated (s : State) (memChecks : List TMemCheck) (spr : Fin 4 → BatPair)
    (extended : Option (Fin 4 → BatPair)) :
    LooksUp s memChecks (batPairs spr extended)
      (dbatUpdated (blockOverlaps memChecks) spr extended s).dbatTable ∧
    LooksUp s memChecks (batPairs spr extended)
      (ibatUpdated (blockOverlaps memChecks) spr extended s).ibatTable :=
  ⟨looksUp_buildBatTable s memChecks spr extended, looksUp_buildBatTable s memChecks spr extended⟩

/-- One block at `0x80000000` that is mapped to the beginning of RAM. -/
def mapRAM : Fin 4 → BatPair := fun i => if i = 0 then ⟨0x80000002, 0⟩ else ⟨0, 0⟩

/-- A memory check is one of effective addresses: RAM is accessed directly through another
address although a memory check has its physical one. -/
theorem physical_memcheck_ignored :
    (dbatUpdated (blockOverlaps [⟨0x100, 0x100⟩]) mapRAM none clearedState).dbatTable 0x4000 &&&
        batPhysicalBit ≠ 0 ∧
      translateBatAddress
        (dbatUpdated (blockOverlaps [⟨0x100, 0x100⟩]) mapRAM none clearedState).dbatTable
        0x80000100 = some 0x100 := by
  decide

end DolphinCore.MMU
