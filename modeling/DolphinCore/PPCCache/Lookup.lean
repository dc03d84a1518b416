import DolphinCore.Lib.Bits
import DolphinCore.PPCCache.Basic

/-!
# DolphinCore.PPCCache.Lookup

The three lookup arrays as one map from slots to ways, and its agreement with the tags.
A slot is an array and an index in it; addresses with one slot are one line to the cache.

An 8-way cache of 128 sets that finds a line by comparing the tags of its set, and the
refinement: the instruction cache does what this cache does, lookup arrays and all.
-/

namespace DolphinCore.PPCCache

/-! ## slots -/

/-- A place in one of the lookup arrays. -/
inductive Slot
  | ram (index : BitVec 20)
  | ex (index : BitVec 21)
  | vmem (index : BitVec 20)
deriving DecidableEq

def slotOf (addr : BitVec 32) : Slot :=
  if addr &&& icacheVmemBit ≠ 0 then .vmem ((addr >>> 5).setWidth 20)
  else if addr &&& icacheExramBit ≠ 0 then .ex ((addr >>> 5).setWidth 21)
  else .ram ((addr >>> 5).setWidth 20)

/-- The set of the lines in a slot. -/
def Slot.set : Slot → BitVec 7
  | .ram index | .vmem index => index.setWidth 7
  | .ex index => index.setWidth 7

namespace InstructionCache

/-- The three arrays as one. -/
def way (c : InstructionCache) : Slot → Option (Fin 8)
  | .ram index => c.lookupTable index
  | .ex index => c.lookupTableEx index
  | .vmem index => c.lookupTableVmem index

end InstructionCache

theorem lookup_eq (c : InstructionCache) (addr : BitVec 32) : lookup c addr = c.way (slotOf addr) := by
  unfold lookup slotOf
  split
  · rfl
  · split <;> rfl

/-- The first address of the line a tag stands for. -/
def lineAddr (tag : BitVec 20) (set : BitVec 7) : BitVec 32 :=
  tag.setWidth 32 <<< 12 ||| set.setWidth 32 <<< 5

/-- The slot of the line that a way holds, or held last. -/
def InstructionCache.slot (c : InstructionCache) (set : BitVec 7) (t : Fin 8) : Slot :=
  slotOf (lineAddr (c.tags set t) set)

theorem toNat_lineAddr (tag : BitVec 20) (set : BitVec 7) :
    (lineAddr tag set).toNat = tag.toNat * 4096 + set.toNat * 32 := by
  have hor := Nat.two_pow_add_eq_or_of_lt (i := 12) (b := set.toNat * 2 ^ 5) (by omega) tag.toNat
  rw [lineAddr, BitVec.toNat_or, BitVec.toNat_shiftLeft, BitVec.toNat_shiftLeft,
    BitVec.toNat_setWidth, BitVec.toNat_setWidth, Nat.shiftLeft_eq, Nat.shiftLeft_eq,
    Nat.mod_eq_of_lt (by omega : tag.toNat < 2 ^ 32), Nat.mod_eq_of_lt (by omega : set.toNat < 2 ^ 32),
    Nat.mod_eq_of_lt (by omega : tag.toNat * 2 ^ 12 < 2 ^ 32),
    Nat.mod_eq_of_lt (by omega : set.toNat * 2 ^ 5 < 2 ^ 32), Nat.mul_comm tag.toNat (2 ^ 12), ← hor]
  omega

variable (addr : BitVec 32)

theorem toNat_setOf : (setOf addr).toNat = addr.toNat / 32 % 128 := by
  rw [setOf, BitVec.toNat_setWidth, BitVec.toNat_ushiftRight, Nat.shiftRight_eq_div_pow]

theorem toNat_tagOf : (tagOf addr).toNat = addr.toNat / 4096 := by
  rw [tagOf, BitVec.toNat_setWidth, BitVec.toNat_ushiftRight, Nat.shiftRight_eq_div_pow]
  omega

theorem toNat_lineAddr_of : (lineAddr (tagOf addr) (setOf addr)).toNat = addr.toNat / 32 * 32 := by
  rw [toNat_lineAddr, toNat_tagOf, toNat_setOf]
  omega

@[simp] theorem setOf_lineAddr (tag : BitVec 20) (set : BitVec 7) : setOf (lineAddr tag set) = set := by
  apply BitVec.eq_of_toNat_eq
  rw [toNat_setOf, toNat_lineAddr]
  omega

theorem and_vmem_ne_zero (a : BitVec 32) : a &&& icacheVmemBit ≠ 0 ↔ a.toNat / 2 ^ 29 % 2 = 1 :=
  and_twoPow_ne_zero a (by decide : 29 < 32)

theorem and_exram_ne_zero (a : BitVec 32) : a &&& icacheExramBit ≠ 0 ↔ a.toNat / 2 ^ 28 % 2 = 1 :=
  and_twoPow_ne_zero a (by decide : 28 < 32)

theorem slotOf_congr {a b : BitVec 32} (h : a.toNat / 32 = b.toNat / 32) : slotOf a = slotOf b := by
  have hshift : a >>> 5 = b >>> 5 := by
    apply BitVec.eq_of_toNat_eq
    rw [BitVec.toNat_ushiftRight, BitVec.toNat_ushiftRight, Nat.shiftRight_eq_div_pow,
      Nat.shiftRight_eq_div_pow]
    exact h
  have hv : a &&& icacheVmemBit ≠ 0 ↔ b &&& icacheVmemBit ≠ 0 := by
    rw [and_vmem_ne_zero, and_vmem_ne_zero]
    omega
  have he : a &&& icacheExramBit ≠ 0 ↔ b &&& icacheExramBit ≠ 0 := by
    rw [and_exram_ne_zero, and_exram_ne_zero]
    omega
  unfold slotOf
  rw [hshift, if_congr hv rfl rfl, if_congr he rfl rfl]

theorem slotOf_lineAddr_of :
    slotOf (lineAddr (tagOf addr) (setOf addr)) = slotOf addr := by
  apply slotOf_congr
  rw [toNat_lineAddr_of]
  omega

theorem set_slotOf : (slotOf addr).set = setOf addr := by
  unfold slotOf setOf
  split
  · rw [Slot.set, BitVec.setWidth_setWidth_of_le _ (by decide)]
  · split <;> rw [Slot.set, BitVec.setWidth_setWidth_of_le _ (by decide)]

theorem InstructionCache.set_slot (c : InstructionCache) (set : BitVec 7) (t : Fin 8) :
    (c.slot set t).set = set := by
  rw [slot, set_slotOf, setOf_lineAddr]

/-! ## updates of the arrays -/

theorem way_enter (c : InstructionCache) (addr : BitVec 32) (t : Fin 8) (s : Slot) :
    (enter c addr t).way s = if s = slotOf addr then some t else c.way s := by
  unfold enter slotOf
  split
  · cases s <;> simp [InstructionCache.way, Function.update_apply]
  · split <;> cases s <;> simp [InstructionCache.way, Function.update_apply]

theorem way_forget (c : InstructionCache) (set : BitVec 7) (t : Fin 8) (s : Slot) :
    (forget c set t).way s = if s = c.slot set t then none else c.way s := by
  have hline : (c.tags set t).setWidth 32 <<< 7 ||| set.setWidth 32 =
      lineAddr (c.tags set t) set >>> 5 := by
    have hor := Nat.two_pow_add_eq_or_of_lt (i := 7) (b := set.toNat) (by omega)
      (c.tags set t).toNat
    apply BitVec.eq_of_toNat_eq
    rw [BitVec.toNat_ushiftRight, toNat_lineAddr, Nat.shiftRight_eq_div_pow, BitVec.toNat_or,
      BitVec.toNat_shiftLeft, BitVec.toNat_setWidth, BitVec.toNat_setWidth, Nat.shiftLeft_eq,
      Nat.mod_eq_of_lt (by omega : (c.tags set t).toNat < 2 ^ 32),
      Nat.mod_eq_of_lt (by omega : set.toNat < 2 ^ 32),
      Nat.mod_eq_of_lt (by omega : (c.tags set t).toNat * 2 ^ 7 < 2 ^ 32),
      Nat.mul_comm _ (2 ^ 7), ← hor]
    omega
  have htag32 : ((c.tags set t).setWidth 32).toNat = (c.tags set t).toNat := by
    rw [BitVec.toNat_setWidth]
    omega
  have hvmem : (c.tags set t).setWidth 32 &&& icacheVmemBit >>> 12 ≠ 0 ↔
      lineAddr (c.tags set t) set &&& icacheVmemBit ≠ 0 := by
    have hbit := and_twoPow_ne_zero ((c.tags set t).setWidth 32) (by decide : 17 < 32)
    rw [and_vmem_ne_zero, toNat_lineAddr]
    refine Iff.trans hbit ?_
    omega
  have hexram : (c.tags set t).setWidth 32 &&& icacheExramBit >>> 12 ≠ 0 ↔
      lineAddr (c.tags set t) set &&& icacheExramBit ≠ 0 := by
    have hbit := and_twoPow_ne_zero ((c.tags set t).setWidth 32) (by decide : 16 < 32)
    rw [and_exram_ne_zero, toNat_lineAddr]
    refine Iff.trans hbit ?_
    omega
  unfold forget InstructionCache.slot slotOf
  dsimp only
  rw [hline, if_congr hvmem rfl rfl, if_congr hexram rfl rfl]
  split
  · cases s <;> simp [InstructionCache.way, Function.update_apply]
  · split <;> cases s <;> simp [InstructionCache.way, Function.update_apply]

/-! ## what the updates leave -/

/-- A cache that differs in the lookup arrays only. -/
structure SameContents (c c' : InstructionCache) : Prop where
  data : c'.data = c.data
  tags : c'.tags = c.tags
  plru : c'.plru = c.plru
  valid : c'.valid = c.valid

theorem SameContents.refl (c : InstructionCache) : SameContents c c := ⟨rfl, rfl, rfl, rfl⟩

theorem SameContents.trans {c c' c'' : InstructionCache} (h : SameContents c c')
    (h' : SameContents c' c'') : SameContents c c'' :=
  ⟨h'.data.trans h.data, h'.tags.trans h.tags, h'.plru.trans h.plru, h'.valid.trans h.valid⟩

theorem SameContents.slot {c c' : InstructionCache} (h : SameContents c c') (set : BitVec 7)
    (t : Fin 8) : c'.slot set t = c.slot set t := by
  rw [InstructionCache.slot, InstructionCache.slot, h.tags]

theorem forget_contents (c : InstructionCache) (set : BitVec 7) (t : Fin 8) :
    SameContents c (forget c set t) := by
  unfold forget
  dsimp only
  split
  · exact ⟨rfl, rfl, rfl, rfl⟩
  · split <;> exact ⟨rfl, rfl, rfl, rfl⟩

theorem enter_contents (c : InstructionCache) (addr : BitVec 32) (t : Fin 8) :
    SameContents c (enter c addr t) := by
  unfold enter
  split
  · exact ⟨rfl, rfl, rfl, rfl⟩
  · split <;> exact ⟨rfl, rfl, rfl, rfl⟩

/-! ## the arrays are exact -/

/-- A way is valid and holds the line of slot `s`. -/
def Holds (c : InstructionCache) (s : Slot) (t : Fin 8) : Prop :=
  (c.valid s.set).getLsbD t = true ∧ c.slot s.set t = s

/-- The arrays give a way for a slot exactly if that way holds its line. -/
def Exact (c : InstructionCache) : Prop := ∀ s t, c.way s = some t ↔ Holds c s t

theorem exact_reset (c : InstructionCache) : Exact (reset c) := by
  intro s t
  cases s <;> simp [reset, InstructionCache.way, Holds]

theorem Exact.congr {c c' : InstructionCache} (h : Exact c) (hway : c'.way = c.way)
    (hvalid : c'.valid = c.valid) (htags : c'.tags = c.tags) : Exact c' := by
  intro s t
  rw [hway, Holds, hvalid, InstructionCache.slot, htags]
  exact h s t

/-- The loop of `Invalidate`. -/
def forgetWays (c : InstructionCache) (set : BitVec 7) (l : List (Fin 8)) (c' : InstructionCache) :
    InstructionCache :=
  l.foldl (fun c' (i : Fin 8) => if (c.valid set).getLsbD i then forget c' set i else c') c'

theorem forgetWays_contents (c : InstructionCache) (set : BitVec 7) : (l : List (Fin 8)) →
    (c' : InstructionCache) → SameContents c' (forgetWays c set l c')
  | [], c' => .refl c'
  | i :: l, c' => by
    rw [forgetWays, List.foldl_cons, ← forgetWays]
    refine SameContents.trans ?_ (forgetWays_contents c set l _)
    split
    · exact forget_contents ..
    · exact .refl c'

theorem way_forgetWays (c : InstructionCache) (set : BitVec 7) (s : Slot) : (l : List (Fin 8)) →
    (c' : InstructionCache) → (forgetWays c set l c').way s =
      if ∃ i ∈ l, (c.valid set).getLsbD i = true ∧ c'.slot set i = s then none else c'.way s
  | [], _ => by simp [forgetWays]
  | i :: l, c' => by
    rw [forgetWays, List.foldl_cons, ← forgetWays, way_forgetWays c set s l]
    simp only [List.mem_cons, exists_eq_or_imp]
    by_cases hi : (c.valid set).getLsbD i = true
    · simp only [hi, if_true, true_and, (forget_contents c' set i).slot, way_forget]
      by_cases hs : c'.slot set i = s
      · simp only [hs, true_or, if_true, ite_self]
      · simp only [hs, Ne.symm hs, false_or, if_false]
    · simp only [hi, if_false, false_and, false_or, Bool.false_eq_true]

@[simp] theorem way_with (c : InstructionCache) (data : BitVec 7 → Fin 8 → Line)
    (tags : BitVec 7 → Fin 8 → BitVec 20) (plru : BitVec 7 → BitVec 7) (valid : BitVec 7 → BitVec 8) :
    ({ c with data := data, tags := tags, plru := plru, valid := valid } : InstructionCache).way =
      c.way := by
  funext s
  cases s <;> rfl

variable {c : InstructionCache}

theorem way_invalidate (h : Exact c) {hid0 : HID0} (hice : hid0.ice = true) (addr : BitVec 32)
    (s : Slot) : (invalidate hid0 c addr).way s = if s.set = setOf addr then none else c.way s := by
  have hinv : (invalidate hid0 c addr).way s =
      (forgetWays c (setOf addr) (List.finRange 8) c).way s := by
    rw [invalidate, hice]
    exact congrFun (way_with ..) s
  rw [hinv, way_forgetWays]
  by_cases hs : s.set = setOf addr
  · rw [if_pos hs]
    cases hway : c.way s with
    | none => exact ite_self none
    | some t =>
      have hholds := (h s t).mp hway
      rw [Holds, hs] at hholds
      exact if_pos ⟨t, List.mem_finRange t, hholds⟩
  · rw [if_neg hs, if_neg]
    rintro ⟨i, _, _, hi⟩
    rw [← hi, InstructionCache.set_slot] at hs
    exact hs rfl

theorem invalidate_contents {hid0 : HID0} (hice : hid0.ice = true) (addr : BitVec 32) :
    (invalidate hid0 c addr).data = c.data ∧
      (invalidate hid0 c addr).tags = c.tags ∧ (invalidate hid0 c addr).plru = c.plru ∧
      (invalidate hid0 c addr).valid = Function.update c.valid (setOf addr) 0 := by
  have hcontents := forgetWays_contents c (setOf addr) (List.finRange 8) c
  rw [invalidate, hice]
  simp only [Bool.not_true, Bool.false_eq_true, if_false]
  rw [← forgetWays]
  exact ⟨hcontents.data, hcontents.tags, hcontents.plru, by rw [hcontents.valid]⟩

theorem exact_invalidate (h : Exact c) (hid0 : HID0) (addr : BitVec 32) :
    Exact (invalidate hid0 c addr) := by
  cases hice : hid0.ice with
  | false =>
    rw [invalidate, hice]
    exact h
  | true =>
    obtain ⟨_, htags, _, hvalid⟩ := invalidate_contents (c := c) hice addr
    intro s t
    rw [way_invalidate h hice, Holds, hvalid, InstructionCache.slot, htags]
    by_cases hs : s.set = setOf addr
    · simp [hs]
    · rw [if_neg hs, Function.update_of_ne hs]
      exact h s t

/-! ## loading a line -/

/-- A cache with the line of an address in way `t`. -/
structure Loaded (mem : Memory) (addr : BitVec 32) (t : Fin 8) (c c' : InstructionCache) : Prop where
  data : c'.data = Function.update c.data (setOf addr) (Function.update (c.data (setOf addr)) t
    (copyFromEmu mem (c.data (setOf addr) t) (addr &&& ~~~0x1f)))
  tags : c'.tags = Function.update c.tags (setOf addr)
    (Function.update (c.tags (setOf addr)) t (tagOf addr))
  plru : c'.plru = c.plru
  valid : c'.valid = Function.update c.valid (setOf addr)
    (c.valid (setOf addr) ||| (1 : BitVec 8) <<< t.val)

theorem loaded_load (mem : Memory) (c : InstructionCache) (addr : BitVec 32) (t : Fin 8) :
    Loaded mem addr t c (load mem c addr t) := by
  have hforget : SameContents (copyLine mem c addr t)
      (if ((copyLine mem c addr t).valid (setOf addr)).getLsbD t then
        forget (copyLine mem c addr t) (setOf addr) t else copyLine mem c addr t) := by
    split
    · exact forget_contents ..
    · exact .refl _
  have henter := hforget.trans (enter_contents _ addr t)
  unfold load
  dsimp only
  exact ⟨henter.data, by rw [henter.tags]; rfl, henter.plru, by rw [henter.valid]; rfl⟩

theorem way_load (mem : Memory) (c : InstructionCache) (addr : BitVec 32) (t : Fin 8) (s : Slot) :
    (load mem c addr t).way s =
      if s = slotOf addr then some t
      else if (c.valid (setOf addr)).getLsbD t = true ∧ s = c.slot (setOf addr) t then none
      else c.way s := by
  unfold load
  rw [way_with, way_enter]
  split
  · rfl
  · split
    · next h =>
        have hvalid : (c.valid (setOf addr)).getLsbD t = true := h
        rw [way_forget, copyLine, way_with]
        simp only [hvalid, true_and]
        rfl
    · next h =>
        have hvalid : (c.valid (setOf addr)).getLsbD t ≠ true := h
        rw [copyLine, way_with, if_neg fun h' => hvalid h'.1]

theorem getLsbD_or_shiftLeft (v : BitVec 8) (t i : Fin 8) :
    (v ||| (1 : BitVec 8) <<< t.val).getLsbD i = (v.getLsbD i || decide (i = t)) := by
  have hbit : ∀ t i : Fin 8, ((1 : BitVec 8) <<< t.val).getLsbD i = decide (i = t) := by decide
  rw [BitVec.getLsbD_or, hbit]

/-- Loading a line that is not cached keeps the arrays exact. -/
theorem exact_load (h : Exact c) (mem : Memory) {addr : BitVec 32} (hmiss : lookup c addr = none)
    (t : Fin 8) : Exact (load mem c addr t) := by
  have hloaded := loaded_load mem c addr t
  rw [lookup_eq] at hmiss
  intro s u
  have hslot : (load mem c addr t).slot s.set u = slotOf (lineAddr (Function.update c.tags
      (setOf addr) (Function.update (c.tags (setOf addr)) t (tagOf addr)) s.set u) s.set) := by
    rw [InstructionCache.slot, hloaded.tags]
  rw [way_load, Holds, hloaded.valid, hslot]
  by_cases hset : s.set = setOf addr
  · rw [hset, Function.update_self, Function.update_self, getLsbD_or_shiftLeft]
    by_cases hu : u = t
    · subst hu
      rw [Function.update_self, slotOf_lineAddr_of]
      by_cases hs : s = slotOf addr
      · simp [hs]
      · -- the line that was in the way is gone
        rw [if_neg hs]
        refine iff_of_false (fun hway => ?_) fun h' => hs h'.2.symm
        split at hway
        · cases hway
        · next hne =>
            have hholds := (h s u).mp hway
            rw [Holds, hset] at hholds
            exact hne ⟨hholds.1, hholds.2.symm⟩
    · rw [Function.update_of_ne hu]
      have hholds : (((c.valid (setOf addr)).getLsbD u || decide (u = t)) = true ∧
          slotOf (lineAddr (c.tags (setOf addr) u) (setOf addr)) = s) ↔ c.way s = some u := by
        rw [h s u, Holds, hset, InstructionCache.slot, decide_eq_false hu, Bool.or_false]
      rw [hholds]
      by_cases hs : s = slotOf addr
      · rw [if_pos hs, hs, hmiss]
        exact iff_of_false (fun h' => hu (Option.some.inj h').symm) (fun h' => by cases h')
      · rw [if_neg hs]
        split
        · next hold =>
            have hway : c.way s = some t := (h s t).mpr (by rw [Holds, hset]; exact ⟨hold.1, hold.2.symm⟩)
            rw [hway]
            exact iff_of_false (fun h' => by cases h') fun h' => hu (Option.some.inj h').symm
        · exact Iff.rfl
  · have hs : s ≠ slotOf addr := by
      intro hs
      rw [hs, set_slotOf] at hset
      exact hset rfl
    have hold : s ≠ c.slot (setOf addr) t := by
      intro hs
      rw [hs, InstructionCache.set_slot] at hset
      exact hset rfl
    rw [if_neg hs, if_neg fun h' => hold h'.2, Function.update_of_ne hset, Function.update_of_ne hset]
    exact h s u

end DolphinCore.PPCCache

namespace DolphinCore.PPCCache

/-! ## the cache with tag search -/

/-- Addresses of one line, as far as the cache can tell. -/
def SameLine (a b : BitVec 32) : Prop := slotOf a = slotOf b

instance (a b : BitVec 32) : Decidable (SameLine a b) :=
  inferInstanceAs (Decidable (slotOf a = slotOf b))

/-- A way without a tag is free; the words last loaded to it stay there. -/
structure SearchCache where
  data : BitVec 7 → Fin 8 → Line
  tags : BitVec 7 → Fin 8 → Option (BitVec 20)
  plru : BitVec 7 → BitVec 7

namespace SearchCache

/-- The way whose tag is that of the line. -/
def find (c : SearchCache) (addr : BitVec 32) : Option (Fin 8) :=
  (List.finRange 8).find? fun i : Fin 8 =>
    match c.tags (setOf addr) i with
    | some tag => decide (SameLine (lineAddr tag (setOf addr)) addr)
    | none => false

/-- A free way if there is one, or else the one that was not used for longest. -/
def selectWay (c : SearchCache) (set : BitVec 7) : Fin 8 :=
  match (List.finRange 8).find? fun i : Fin 8 => (c.tags set i).isNone with
  | some i => i
  | none => wayFromPlru (c.plru set)

def load (mem : Memory) (c : SearchCache) (addr : BitVec 32) (t : Fin 8) : SearchCache where
  data := Function.update c.data (setOf addr) (Function.update (c.data (setOf addr)) t
    (copyFromEmu mem (c.data (setOf addr) t) (addr &&& ~~~0x1f)))
  tags := Function.update c.tags (setOf addr)
    (Function.update (c.tags (setOf addr)) t (some (tagOf addr)))
  plru := c.plru

def useWay (c : SearchCache) (addr : BitVec 32) (t : Fin 8) : BitVec 32 × SearchCache :=
  let set := setOf addr
  (c.data set t ((addr >>> 2).setWidth 3),
    { c with plru := Function.update c.plru set (c.plru set &&& ~~~plruMask t ||| plruValue t) })

def read (hid0 : HID0) (mem : Memory) (c : SearchCache) (addr : BitVec 32) :
    Option (BitVec 32 × SearchCache) :=
  if !hid0.ice then (readU32 mem addr).map fun w => (w, c)
  else
    match c.find addr with
    | some t => some (c.useWay addr t)
    | none =>
      if hid0.ilock then (readU32 mem addr).map fun w => (w, c)
      else
        let t := c.selectWay (setOf addr)
        some ((c.load mem addr t).useWay addr t)

def invalidate (hid0 : HID0) (c : SearchCache) (addr : BitVec 32) : SearchCache :=
  if !hid0.ice then c else { c with tags := Function.update c.tags (setOf addr) fun _ => none }

def reset (c : SearchCache) : SearchCache := { c with tags := fun _ _ => none, plru := fun _ => 0 }

end SearchCache

/-! ## the refinement -/

namespace InstructionCache

/-- The tags and the words, without the lookup arrays. -/
def abs (c : InstructionCache) : SearchCache where
  data := c.data
  tags set i := if (c.valid set).getLsbD i then some (c.tags set i) else none
  plru := c.plru

end InstructionCache

theorem abs_reset (c : InstructionCache) : (reset c).abs = c.abs.reset := by
  simp [InstructionCache.abs, reset, SearchCache.reset]

theorem abs_invalidate (hid0 : HID0) (c : InstructionCache) (addr : BitVec 32) :
    (invalidate hid0 c addr).abs = c.abs.invalidate hid0 addr := by
  cases hice : hid0.ice with
  | false =>
    rw [invalidate, SearchCache.invalidate, hice]
    rfl
  | true =>
    obtain ⟨hdata, htags, hplru, hvalid⟩ := invalidate_contents (c := c) hice addr
    rw [SearchCache.invalidate, hice, InstructionCache.abs, hdata, htags, hplru, hvalid]
    simp only [InstructionCache.abs, Bool.not_true, Bool.false_eq_true, if_false]
    congr 1
    funext set i
    by_cases hset : set = setOf addr
    · subst hset
      simp
    · rw [Function.update_of_ne hset, Function.update_of_ne hset]

theorem find_abs {c : InstructionCache} (h : Exact c) (addr : BitVec 32) :
    c.abs.find addr = lookup c addr := by
  have htest : ∀ i : Fin 8, (match c.abs.tags (setOf addr) i with
      | some tag => decide (SameLine (lineAddr tag (setOf addr)) addr)
      | none => false) = true ↔ c.way (slotOf addr) = some i := by
    intro i
    rw [h (slotOf addr) i, Holds, set_slotOf]
    unfold InstructionCache.abs
    dsimp only
    cases hvalid : (c.valid (setOf addr)).getLsbD i with
    | false => simp
    | true =>
      simp only [if_true, decide_eq_true_eq, true_and]
      rfl
  rw [lookup_eq, SearchCache.find]
  cases hfind : (List.finRange 8).find? fun i : Fin 8 => (match c.abs.tags (setOf addr) i with
      | some tag => decide (SameLine (lineAddr tag (setOf addr)) addr)
      | none => false) with
  | some i =>
    have hi := List.find?_some hfind
    exact ((htest i).mp hi).symm
  | none =>
    cases hway : c.way (slotOf addr) with
    | none => rfl
    | some i =>
      have hnone := List.find?_eq_none.mp hfind i (List.mem_finRange i)
      exact absurd ((htest i).mpr hway) hnone

theorem selectWay_abs (c : InstructionCache) (set : BitVec 7) :
    c.abs.selectWay set = selectWay c set := by
  have hfree : ∀ m : BitVec 8, ((List.finRange 8).find? fun w : Fin 8 => !m.getLsbD w) =
      if m ≠ 0xff then some (wayFromValid m) else none := by decide
  have htest : (fun i : Fin 8 => (c.abs.tags set i).isNone) =
      fun i : Fin 8 => !(c.valid set).getLsbD i := by
    funext i
    unfold InstructionCache.abs
    dsimp only
    cases (c.valid set).getLsbD i <;> rfl
  rw [SearchCache.selectWay, htest, hfree, selectWay]
  by_cases hfull : c.valid set ≠ 0xff
  · rw [if_pos hfull, if_pos hfull]
  · rw [if_neg hfull, if_neg hfull]
    rfl

theorem abs_load (mem : Memory) (c : InstructionCache) (addr : BitVec 32) (t : Fin 8) :
    (load mem c addr t).abs = c.abs.load mem addr t := by
  have hloaded := loaded_load mem c addr t
  rw [InstructionCache.abs, hloaded.data, hloaded.tags, hloaded.plru, hloaded.valid]
  unfold SearchCache.load InstructionCache.abs
  congr 1
  funext set i
  by_cases hset : set = setOf addr
  · subst hset
    simp only [Function.update_self, getLsbD_or_shiftLeft]
    by_cases hi : i = t
    · subst hi
      simp
    · simp [hi]
  · simp only [Function.update_of_ne hset]

theorem readInstruction_abs {c : InstructionCache} (h : Exact c) (hid0 : HID0) (mem : Memory)
    (addr : BitVec 32) :
    (readInstruction hid0 mem c addr).map (Prod.map id InstructionCache.abs) =
      c.abs.read hid0 mem addr := by
  unfold readInstruction SearchCache.read
  rw [find_abs h]
  split
  · rw [Option.map_map]
    rfl
  · cases lookup c addr with
    | some t => rfl
    | none =>
      dsimp only
      split
      · rw [Option.map_map]
        rfl
      · rw [selectWay_abs, ← abs_load]
        rfl

theorem exact_readInstruction {c c' : InstructionCache} (h : Exact c) {hid0 : HID0} {mem : Memory}
    {addr w : BitVec 32} (hread : readInstruction hid0 mem c addr = some (w, c')) : Exact c' := by
  have huse : ∀ c t, Exact c → Exact (useWay c addr t).2 := by
    intro c t hc
    exact hc.congr (way_with ..) rfl rfl
  unfold readInstruction at hread
  split at hread
  · obtain ⟨w', _, hw⟩ := Option.map_eq_some_iff.mp hread
    rw [← (Prod.mk.inj hw).2]
    exact h
  · cases hmiss : lookup c addr with
    | some t =>
      rw [hmiss] at hread
      rw [← (Prod.mk.inj (Option.some.inj hread)).2]
      exact huse c t h
    | none =>
      rw [hmiss] at hread
      dsimp only at hread
      split at hread
      · obtain ⟨w', _, hw⟩ := Option.map_eq_some_iff.mp hread
        rw [← (Prod.mk.inj hw).2]
        exact h
      · rw [← (Prod.mk.inj (Option.some.inj hread)).2]
        exact huse _ _ (exact_load h mem hmiss _)

end DolphinCore.PPCCache
