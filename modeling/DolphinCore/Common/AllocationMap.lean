import DolphinCore.Lib.Run
import Mathlib.Data.BitVec
import Mathlib.Data.List.Basic

/-!
# DolphinCore.Common.AllocationMap

The circular allocation map (`AllocationMap.h`): one bit for each slot, set
while the slot is free, in words of 64.  The map holds whole words, whatever the
number of slots is; it is sound exactly when the two agree and a slot fits the
`int` that is returned.
-/

namespace DolphinCore.Common

def bitCount : Nat := 64

structure AllocationMap where
  slotGroups : List (BitVec 64)
  currentSlot : Nat
  slotCount : Nat

namespace AllocationMap

/-- `AllocationMap(size_t size)` -/
def init (size : BitVec 64) : AllocationMap where
  slotGroups :=
    List.replicate (size.toNat / bitCount + if size.toNat % bitCount ≠ 0 then 1 else 0)
      (BitVec.allOnes 64)
  currentSlot := 2 ^ 64 - 1
  slotCount := size.toNat

def leastSignificantSetBit (v : BitVec 64) : Nat :=
  ((List.range 64).find? fun i => v.getLsbD i).getD 64

/-- The loop over the groups from `group` on: the first free slot behind the given bit. -/
def scan : List (BitVec 64) → Nat → Nat → Option Nat
  | [], _, _ => none
  | g :: groups, group, bit =>
    let bs := g >>> bit
    if bs ≠ 0 then some (group * bitCount + (bit + leastSignificantSetBit bs))
    else scan groups (group + 1) 0

/-- A slot number as the `int` that is returned. -/
def toInt (slot : Nat) : Int := (BitVec.ofNat 32 slot).toInt

/-- The slot that `AllocateSlot` finds: at the end of the groups the search starts again once. -/
def found (m : AllocationMap) : Option Nat :=
  let next := (m.currentSlot + 1) % 2 ^ 64
  let restarted := decide (m.slotCount ≤ next)
  let next := if restarted then 0 else next
  match scan (m.slotGroups.drop (next / bitCount)) (next / bitCount) (next % bitCount) with
  | some slot => some slot
  | none => if restarted then none else scan m.slotGroups 0 0

/-- The map when a slot is disabled. -/
def take (m : AllocationMap) (slot : Nat) : AllocationMap :=
  { m with
    slotGroups := m.slotGroups.modify (slot / bitCount) (· &&& ~~~(1#64 <<< (slot % bitCount)))
    currentSlot := slot }

def allocateSlot (m : AllocationMap) : Int × AllocationMap :=
  match m.found with
  | some slot => (toInt slot, m.take slot)
  | none => (-1, { m with currentSlot := 0 })

def releaseSlot (m : AllocationMap) (index : Nat) : AllocationMap :=
  { m with
    slotGroups := m.slotGroups.modify (index / bitCount) (· ||| (1#64 <<< (index % bitCount))) }

/-! ## clients -/

/-- What a client of the map does. -/
inductive Command where
  | allocateSlot
  | releaseSlot (index : Nat)

/-- A map with the slots that are allocated. -/
structure Client where
  map : AllocationMap
  allocated : List Int

/-- A client releases slots that are allocated only. -/
def Client.step (c : Client) : Command → Option Client
  | .allocateSlot =>
    let (index, map) := c.map.allocateSlot
    some ⟨map, if index = -1 then c.allocated else index :: c.allocated⟩
  | .releaseSlot index =>
    if (index : Int) ∈ c.allocated then
      some ⟨c.map.releaseSlot index, c.allocated.filter (· ≠ index)⟩
    else none

/-- What a client begins with. -/
def Client.init (size : BitVec 64) : Client := ⟨AllocationMap.init size, []⟩

/-- The index that would be returned is `-1` exactly when all slots are allocated, and else a
slot that is not. -/
def Client.Answers (n : Nat) (c : Client) : Prop :=
  (c.map.allocateSlot.1 = -1 ↔ ∀ i < n, (i : Int) ∈ c.allocated) ∧ (c.map.allocateSlot.1 ≠ -1 →
      (∃ i < n, c.map.allocateSlot.1 = (i : Int)) ∧ c.map.allocateSlot.1 ∉ c.allocated)

/-- Every call of every client is answered so. -/
def Sound (size : BitVec 64) : Prop :=
  ∀ c, Run Client.step (fun _ _ => True) (Client.init size) c → c.Answers size.toNat

/-! ## the search -/

theorem leastSignificantSetBit_spec {v : BitVec 64} (h : v ≠ 0) :
    leastSignificantSetBit v < 64 ∧ v.getLsbD (leastSignificantSetBit v) = true ∧
      ∀ i < leastSignificantSetBit v, v.getLsbD i = false := by
  unfold leastSignificantSetBit
  cases hf : (List.range 64).find? fun i => v.getLsbD i with
  | none =>
    refine absurd (BitVec.eq_of_getLsbD_eq fun i hi => ?_) h
    have := List.find?_eq_none.mp hf i (by simpa using hi)
    simpa using this
  | some b =>
    obtain ⟨hb, h1, h2⟩ := List.find?_range_eq_some.mp hf
    simp_all

/-- The slot is free in the words. -/
def freeIn (groups : List (BitVec 64)) (slot : Nat) : Bool :=
  (groups.getD (slot / 64) 0).getLsbD (slot % 64)

variable {slot : Nat} {m : AllocationMap} {size : BitVec 64}

theorem freeIn_cons {g : BitVec 64} {groups : List (BitVec 64)} : freeIn (g :: groups) slot =
      if slot < 64 then g.getLsbD slot else freeIn groups (slot - 64) := by
  unfold freeIn
  split
  case isTrue h => simp [Nat.div_eq_of_lt h, Nat.mod_eq_of_lt h]
  case isFalse h =>
    obtain ⟨s, rfl⟩ : ∃ s, slot = s + 64 := ⟨slot - 64, by omega⟩
    simp

variable (groups : List (BitVec 64))

theorem scan_spec : ∀ (group : Nat) {b : Nat}, b < 64 →
    match scan groups group b with
    | some slot => ∃ k, slot = group * 64 + k ∧ b ≤ k ∧ k < groups.length * 64 ∧
        freeIn groups k = true ∧ ∀ j, b ≤ j → j < k → freeIn groups j = false
    | none => ∀ j, b ≤ j → freeIn groups j = false := by
  induction groups with
  | nil => intro group bit hbit; simp [scan, freeIn]
  | cons g groups ih =>
    intro group bit hbit
    by_cases hbs : g >>> bit = 0
    · have hnone : ∀ j, bit ≤ j → j < 64 → g.getLsbD j = false := by
        intro j hj hlt
        have := congrArg (BitVec.getLsbD · (j - bit)) hbs
        simpa [BitVec.getLsbD_ushiftRight, Nat.add_sub_of_le hj] using this
      have hih := ih (group + 1) (b := 0) (by omega)
      simp only [scan, hbs, ne_eq, not_true_eq_false, if_false]
      cases hs : scan groups (group + 1) 0 with
      | none =>
        rw [hs] at hih
        intro j hj
        rw [freeIn_cons]
        split
        · exact hnone j hj (by assumption)
        · exact hih _ (by omega)
      | some slot =>
        rw [hs] at hih
        obtain ⟨k, rfl, -, hk, hfree, hleast⟩ := hih
        refine ⟨k + 64, by omega, by omega, by simp; omega, by simpa [freeIn_cons], ?_⟩
        intro j hj hlt
        rw [freeIn_cons]
        split
        · exact hnone j hj (by assumption)
        · exact hleast _ (by omega) (by omega)
    · obtain ⟨-, hset, hleast⟩ := leastSignificantSetBit_spec hbs
      rw [BitVec.getLsbD_ushiftRight] at hset
      have hlt : bit + leastSignificantSetBit (g >>> bit) < 64 := BitVec.lt_of_getLsbD hset
      simp only [scan, ne_eq, hbs, not_false_eq_true, if_true, bitCount]
      refine ⟨_, rfl, by omega, by simp; omega, by simp [freeIn_cons, hlt, hset], ?_⟩
      intro j hj hj'
      have := hleast (j - bit) (by omega)
      rw [BitVec.getLsbD_ushiftRight, Nat.add_sub_of_le hj] at this
      rw [freeIn_cons, if_pos (by omega), this]

theorem freeIn_drop (group k : Nat) :
    freeIn (groups.drop group) k = freeIn groups (group * 64 + k) := by
  have h1 : (group * 64 + k) / 64 = group + k / 64 := by omega
  have h2 : (group * 64 + k) % 64 = k % 64 := by omega
  simp [freeIn, h1, h2, List.getD]

theorem scan_drop_spec (pos : Nat) :
    match scan (groups.drop (pos / 64)) (pos / 64) (pos % 64) with
    | some slot => pos ≤ slot ∧ slot < groups.length * 64 ∧ freeIn groups slot = true ∧
        ∀ j, pos ≤ j → j < slot → freeIn groups j = false
    | none => ∀ j, pos ≤ j → freeIn groups j = false := by
  have h := scan_spec (groups.drop (pos / 64)) (pos / 64) (b := pos % 64) (by omega)
  cases hs : scan (groups.drop (pos / 64)) (pos / 64) (pos % 64) with
  | none =>
    rw [hs] at h
    intro j hj
    have := h (j - pos / 64 * 64) (by omega)
    rwa [freeIn_drop, Nat.add_sub_of_le (by omega)] at this
  | some slot =>
    rw [hs] at h
    obtain ⟨k, rfl, hk, hlen, hfree, hleast⟩ := h
    rw [freeIn_drop] at hfree
    rw [List.length_drop, Nat.sub_mul] at hlen
    refine ⟨by omega, by omega, hfree, fun j hj hlt => ?_⟩
    have := hleast (j - pos / 64 * 64) (by omega) (by omega)
    rwa [freeIn_drop, Nat.add_sub_of_le (by omega)] at this

/-- Whether a slot is free. -/
def free (m : AllocationMap) (slot : Nat) : Bool := freeIn m.slotGroups slot

theorem found_spec (m : AllocationMap) :
    match m.found with
    | some slot => slot < m.slotGroups.length * 64 ∧ m.free slot = true
    | none => ∀ j, m.free j = false := by
  have hwhole := scan_drop_spec m.slotGroups 0
  simp only [Nat.zero_div, Nat.zero_mod, List.drop_zero] at hwhole
  have hpass := scan_drop_spec m.slotGroups
    (if m.slotCount ≤ (m.currentSlot + 1) % 2 ^ 64 then 0 else (m.currentSlot + 1) % 2 ^ 64)
  simp only [found, bitCount, decide_eq_true_eq]
  split at hpass
  case h_1 slot hs => exact ⟨hpass.2.1, hpass.2.2.1⟩
  case h_2 hs =>
    by_cases hrestarted : m.slotCount ≤ (m.currentSlot + 1) % 2 ^ 64
    · simp only [hrestarted, if_true] at hpass ⊢
      exact fun j => hpass j (Nat.zero_le j)
    · simp only [hrestarted, if_false]
      split at hwhole
      case h_1 => exact ⟨hwhole.2.1, hwhole.2.2.1⟩
      case h_2 => exact fun j => hwhole j (Nat.zero_le j)

theorem found_of_free_start {p : Nat}
    (hpos : (if m.slotCount ≤ (m.currentSlot + 1) % 2 ^ 64 then 0 else (m.currentSlot + 1) % 2 ^ 64) = p)
    (hle : p ≤ slot) (hfree : m.free slot = true)
    (hused : ∀ j, p ≤ j → j < slot → m.free j = false) : m.found = some slot := by
  have h := scan_drop_spec m.slotGroups p
  simp only [found, bitCount, decide_eq_true_eq, hpos]
  split at h
  case h_1 slot' hs =>
    obtain ⟨hle', -, hfree', hleast⟩ := h
    rcases Nat.lt_trichotomy slot slot' with hlt | rfl | hlt
    · have := hleast slot hle hlt
      simp [free, this] at hfree
    · rfl
    · have := hused slot' hle' hlt
      simp [free, hfree'] at this
  case h_2 =>
    have := h slot hle
    simp [free, this] at hfree

theorem getLsbD_one_shiftLeft {i j : Nat} (hj : j < 64) :
    (1#64 <<< i).getLsbD j = decide (j = i) := by
  rcases Nat.lt_trichotomy j i with h | rfl | h
  · simp [h, Nat.ne_of_lt h]
  · simp [hj]
  · have : j - i ≠ 0 := by omega
    simp [hj, Nat.not_lt.mpr h.le, Nat.ne_of_gt h, BitVec.getLsbD_one, this]

theorem freeIn_modify (f : BitVec 64 → BitVec 64) (slot j : Nat) :
    freeIn (groups.modify (slot / 64) f) j =
      if j / 64 = slot / 64 ∧ j < groups.length * 64 then
        (f (groups.getD (j / 64) 0)).getLsbD (j % 64)
      else freeIn groups j := by
  simp only [freeIn, List.getD_eq_getElem?_getD, List.getElem?_modify]
  by_cases hlt : j / 64 < groups.length
  · have hj : j < groups.length * 64 := by omega
    by_cases heq : slot / 64 = j / 64
    · simp [hj, hlt, heq]
    · simp [hlt, heq, Ne.symm heq]
  · have hj : ¬j < groups.length * 64 := by omega
    simp [hj, List.getElem?_eq_none (Nat.not_lt.mp hlt)]

theorem freeIn_take (slot j : Nat) :
    freeIn (groups.modify (slot / 64) (· &&& ~~~(1#64 <<< (slot % 64)))) j =
      (freeIn groups j && decide (j ≠ slot)) := by
  have hmod : j % 64 < 64 := by omega
  rw [freeIn_modify]
  split
  case isTrue h =>
    simp only [BitVec.getLsbD_and, BitVec.getLsbD_not, hmod, getLsbD_one_shiftLeft hmod, freeIn]
    have : j % 64 = slot % 64 ↔ j = slot := by omega
    simp [this]
  case isFalse h =>
    by_cases heq : j = slot
    · subst heq
      have hout : ¬j / 64 < groups.length := by
        intro hlt
        exact h ⟨rfl, by omega⟩
      simp [freeIn, List.getD_eq_getElem?_getD, List.getElem?_eq_none (Nat.not_lt.mp hout)]
    · simp [heq]

theorem freeIn_giveBack {groups : List (BitVec 64)} (hslot : slot < groups.length * 64) (j : Nat) :
    freeIn (groups.modify (slot / 64) (· ||| (1#64 <<< (slot % 64)))) j =
      (freeIn groups j || decide (j = slot)) := by
  have hmod : j % 64 < 64 := by omega
  rw [freeIn_modify]
  split
  case isTrue h =>
    simp only [BitVec.getLsbD_or, getLsbD_one_shiftLeft hmod, freeIn]
    have : j % 64 = slot % 64 ↔ j = slot := by omega
    simp [this]
  case isFalse h =>
    have : j ≠ slot := by
      rintro rfl
      exact h ⟨rfl, hslot⟩
    simp [this]

theorem toInt_of_lt (h : slot < 2 ^ 31) : toInt slot = slot := by
  rw [toInt, BitVec.toInt_eq_toNat_of_lt] <;> simp <;> omega

theorem allocateSlot_of_found (h : m.found = some slot) :
    m.allocateSlot = (toInt slot, m.take slot) := by
  rw [allocateSlot, h]

theorem step_of_found {c : Client} (h : c.map.found = some slot) (hlt : slot < 2 ^ 31) :
    c.step .allocateSlot = some ⟨c.map.take slot, (slot : Int) :: c.allocated⟩ := by
  have hne : (slot : Int) ≠ -1 := by omega
  rw [Client.step, allocateSlot_of_found h]
  simp only [toInt_of_lt hlt, hne, if_false]

theorem allocateSlot_of_none (h : m.found = none) :
    m.allocateSlot = (-1, { m with currentSlot := 0 }) := by
  rw [allocateSlot, h]

/-! ## whole words -/

/-- The bits of the map are the slots that are not allocated. -/
structure Tracks (n : Nat) (c : Client) : Prop where
  length : c.map.slotGroups.length * 64 = n
  free_iff : ∀ i < n, c.map.free i = true ↔ (i : Int) ∉ c.allocated
  slots : ∀ x ∈ c.allocated, ∃ i < n, x = (i : Int)

namespace Tracks

variable {n : Nat} {c : Client}

theorem answers (hn : n ≤ 2 ^ 31) (h : Tracks n c) : c.Answers n := by
  have hfound := found_spec c.map
  unfold Client.Answers allocateSlot
  cases hf : c.map.found with
  | none =>
    rw [hf] at hfound
    refine ⟨⟨fun _ i hi => ?_, fun _ => rfl⟩, fun hne => absurd rfl hne⟩
    have := h.free_iff i hi
    simpa [hfound i] using this
  | some slot =>
    rw [hf] at hfound
    obtain ⟨hlt, hfree⟩ := hfound
    rw [h.length] at hlt
    have hnot := (h.free_iff slot hlt).mp hfree
    simp only [toInt_of_lt (show slot < 2 ^ 31 by omega)]
    refine ⟨⟨fun hm => by omega, fun hall => absurd (hall slot hlt) hnot⟩, fun _ => ⟨⟨slot, hlt, rfl⟩, hnot⟩⟩

theorem step (hn : n ≤ 2 ^ 31) (h : Tracks n c) (command : Command) {c' : Client}
    (hstep : c.step command = some c') : Tracks n c' := by
  cases command with
  | allocateSlot =>
    have hfound := found_spec c.map
    cases hf : c.map.found with
    | none =>
      simp only [Client.step, allocateSlot_of_none hf, Option.some.injEq, if_true] at hstep
      subst hstep
      exact ⟨h.length, h.free_iff, h.slots⟩
    | some slot =>
      rw [hf] at hfound
      obtain ⟨hlt, -⟩ := hfound
      rw [h.length] at hlt
      rw [step_of_found hf (by omega), Option.some.injEq] at hstep
      subst hstep
      refine ⟨by simpa [take] using h.length, fun i hi => ?_, ?_⟩
      · have := h.free_iff i hi
        simp only [free, take, bitCount, freeIn_take] at this ⊢
        simp [this, and_comm]
      · intro x hx
        rcases List.mem_cons.mp hx with rfl | hx
        · exact ⟨slot, hlt, rfl⟩
        · exact h.slots x hx
  | releaseSlot index =>
    simp only [Client.step, Option.ite_none_right_eq_some, Option.some.injEq] at hstep
    obtain ⟨hmem, rfl⟩ := hstep
    obtain ⟨i, hi, heq⟩ := h.slots _ hmem
    obtain rfl : index = i := by omega
    refine ⟨by simpa [releaseSlot] using h.length, fun j hj => ?_, ?_⟩
    · have := h.free_iff j hj
      simp only [free, releaseSlot, bitCount] at this ⊢
      rw [freeIn_giveBack (by rw [h.length]; exact hi)]
      by_cases hji : j = index
      · simp [hji]
      · simp_all
    · intro x hx
      exact h.slots x (List.mem_of_mem_filter hx)

end Tracks

theorem freeIn_replicate (k j : Nat) :
    freeIn (List.replicate k (BitVec.allOnes 64)) j = decide (j < k * 64) := by
  have hmod : j % 64 < 64 := by omega
  by_cases h : j / 64 < k
  · have : j < k * 64 := by omega
    have hones : (BitVec.allOnes 64).getLsbD (j % 64) = true := by
      rw [BitVec.getLsbD_allOnes, decide_eq_true hmod]
    simp only [freeIn, List.getD_eq_getElem?_getD, List.getElem?_replicate, h, if_true,
      Option.getD_some, hones, this, decide_true]
  · have : ¬j < k * 64 := by omega
    simp [freeIn, List.getD_eq_getElem?_getD, h, this]

theorem Tracks.init (h : 64 ∣ size.toNat) : Tracks size.toNat (Client.init size) := by
  have hlen : (Client.init size).map.slotGroups.length * 64 = size.toNat := by
    simp [Client.init, AllocationMap.init, bitCount, Nat.mod_eq_zero_of_dvd h]
    omega
  refine ⟨hlen, fun i hi => ?_, by simp [Client.init]⟩
  rw [← hlen] at hi
  simp only [free, Client.init, AllocationMap.init, freeIn_replicate, List.length_replicate] at hi ⊢
  simpa using hi

/-! ## slots taken one after the other -/

/-- The map after the first `k` slots were taken in turn. -/
structure Filled (size : BitVec 64) (k : Nat) (c : Client) : Prop where
  slotCount : c.map.slotCount = size.toNat
  length : size.toNat ≤ c.map.slotGroups.length * 64
  whole : ¬64 ∣ size.toNat → size.toNat < c.map.slotGroups.length * 64
  free_eq : ∀ j, c.map.free j = decide (k ≤ j ∧ j < c.map.slotGroups.length * 64)
  current : (c.map.currentSlot + 1) % 2 ^ 64 = k
  slots : ∀ x ∈ c.allocated, ∃ i < k, x = (i : Int)

theorem le_groups (size : BitVec 64) : size.toNat ≤ (Client.init size).map.slotGroups.length * 64 ∧
      (¬64 ∣ size.toNat → size.toNat < (Client.init size).map.slotGroups.length * 64) := by
  by_cases h : size.toNat % 64 = 0 <;>
    simp [Client.init, AllocationMap.init, bitCount, h] <;> omega

theorem Filled.init (size : BitVec 64) : Filled size 0 (Client.init size) where
  slotCount := rfl
  length := (le_groups size).1
  whole := (le_groups size).2
  free_eq j := by
    simp only [Client.init, AllocationMap.init, free, freeIn_replicate, List.length_replicate,
      Nat.zero_le, true_and]
  current := by simp [Client.init, AllocationMap.init]
  slots := by simp [Client.init]

theorem Filled.found {k : Nat} {c : Client} (h : Filled size k c) (hk : k < size.toNat) :
    c.map.found = some k := by
  have hlen := h.length
  refine found_of_free_start (p := k) ?_ le_rfl ?_ fun j hj hlt => by omega
  · rw [h.current, h.slotCount, if_neg (by omega)]
  · simp [h.free_eq]
    omega

theorem exists_filled (size : BitVec 64) : ∀ k, k ≤ size.toNat → k ≤ 2 ^ 31 →
    ∃ c, Run Client.step (fun _ _ => True) (Client.init size) c ∧ Filled size k c
  | 0, _, _ => ⟨_, .refl, .init size⟩
  | k + 1, hk, hk' => by
    obtain ⟨c, hrun, h⟩ := exists_filled size k (by omega) (by omega)
    refine ⟨_, .tail .allocateSlot hrun trivial (step_of_found (h.found (by omega)) (by omega)), ?_⟩
    refine ⟨h.slotCount, by simpa [take] using h.length, by simpa [take] using h.whole,
      fun j => ?_, ?_, ?_⟩
    · have := h.free_eq j
      simp only [free, take, bitCount, freeIn_take, List.length_modify] at this ⊢
      rw [this, ← Bool.decide_and]
      exact decide_eq_decide.mpr (by omega)
    · exact Nat.mod_eq_of_lt (show k + 1 < 2 ^ 64 by omega)
    · intro x hx
      rcases List.mem_cons.mp hx with rfl | hx
      · exact ⟨k, by omega, rfl⟩
      · obtain ⟨i, hi, rfl⟩ := h.slots x hx
        exact ⟨i, by omega, rfl⟩

theorem not_sound_of_not_dvd (hdvd : ¬64 ∣ size.toNat) (hle : size.toNat ≤ 2 ^ 31) :
    ¬Sound size := by
  intro hsound
  obtain ⟨c, hrun, h⟩ := exists_filled size size.toNat le_rfl hle
  have hfound : c.map.found = some size.toNat := by
    refine found_of_free_start (p := 0) ?_ (Nat.zero_le _) ?_ fun j _ hlt => ?_
    · rw [h.current, h.slotCount, if_pos le_rfl]
    · simpa [h.free_eq] using h.whole hdvd
    · simp [h.free_eq]
      omega
  have hint := toInt_of_lt (show size.toNat < 2 ^ 31 by omega)
  obtain ⟨-, hslot⟩ := hsound c hrun
  rw [allocateSlot_of_found hfound, hint] at hslot
  obtain ⟨⟨i, hi, heq⟩, -⟩ := hslot (by omega)
  omega

theorem not_sound_of_lt (hlt : 2 ^ 31 < size.toNat) : ¬Sound size := by
  intro hsound
  obtain ⟨c, hrun, h⟩ := exists_filled size (2 ^ 31) hlt.le le_rfl
  obtain ⟨-, hslot⟩ := hsound c hrun
  have hneg : toInt (2 ^ 31) = -2 ^ 31 := by decide
  rw [allocateSlot_of_found (h.found hlt), hneg] at hslot
  obtain ⟨⟨i, -, heq⟩, -⟩ := hslot (by omega)
  omega

/-- The map answers all clients rightly exactly when it is made of whole words and its slots fit
an `int`. -/
theorem sound_iff (size : BitVec 64) : Sound size ↔ 64 ∣ size.toNat ∧ size.toNat ≤ 2 ^ 31 := by
  constructor
  · intro hsound
    have hle : size.toNat ≤ 2 ^ 31 := by
      by_contra hlt
      exact not_sound_of_lt (Nat.not_le.mp hlt) hsound
    refine ⟨?_, hle⟩
    by_contra hdvd
    exact not_sound_of_not_dvd hdvd hle hsound
  · rintro ⟨hdvd, hle⟩ c hrun
    have := hrun.invariant (I := Tracks size.toNat) (.init hdvd)
      fun _ command _ h _ hstep => h.step hle command hstep
    exact this.answers hle

/-- A map of one slot hands out a second one. -/
theorem oneSlot_not_sound : ¬Sound 1 := by
  intro hsound
  have hrun : Run Client.step (fun _ _ => True) (Client.init 1)
      ⟨(AllocationMap.init 1).allocateSlot.2, [0]⟩ := .single .allocateSlot trivial rfl
  obtain ⟨-, hslot⟩ := hsound _ hrun
  obtain ⟨⟨i, hi, heq⟩, -⟩ := hslot (by decide)
  have hone : (AllocationMap.init 1).allocateSlot.2.allocateSlot.1 = 1 := by decide
  have hsize : BitVec.toNat (1 : BitVec 64) = 1 := rfl
  rw [hsize] at hi
  simp only [hone] at heq
  omega

end AllocationMap

end DolphinCore.Common
