import DolphinCore.Lib.Prefixes
import Mathlib.Data.BitVec
import Mathlib.Data.Set.Basic

/-!
# DolphinCore.Common.ConstantBuffer

The constant buffer and its dirty regions (`ConstantBuffer.h`).  Regions are
closed intervals of constant numbers, kept sorted.  They are exactly the numbers
updated as long as no region at one end of the number range is taken for a
neighbour of one at the other end: the tests for neighbours add one in 32 bits.
-/

namespace DolphinCore.Common

/-- A pair of `regionvector`, of 32-bit numbers. -/
abbrev Region := Nat × Nat

namespace Region

/-- The test whether the region from `x` to `y` overlaps another one or stands next to it. -/
def Touches (x y : Nat) (r : Region) : Prop :=
  (x ≤ r.2 ∧ r.1 ≤ y) ∨ (y + 1) % 2 ^ 32 = r.1 ∨ (r.2 + 1) % 2 ^ 32 = x

instance (x y : Nat) (r : Region) : Decidable (Touches x y r) := by
  unfold Touches
  infer_instance

/-- The loop of `AddDirtyRegion`: the region that is carried from one place to the next is the
new one, until it takes the place of a later one and that one is carried on. -/
def add (x y : Nat) : List Region → List Region
  | [] => [(x, y)]
  | r :: rs =>
    if Touches x y r then (min r.1 x, max r.2 y) :: rs
    else if r.1 > x then (x, y) :: add r.1 r.2 rs
    else r :: add x y rs

end Region

structure ConstatBuffer (α : Type) where
  buffer : Nat → α
  dirtyRegions : List Region
  dirty : Bool
  dirtyRegionDisabled : Bool

namespace ConstatBuffer

variable {α : Type}

/-- `ConstatBuffer(void* buffer, size_t size)` -/
def init (buffer : Nat → α) : ConstatBuffer α := ⟨buffer, [], false, false⟩

def addDirtyRegion (c : ConstatBuffer α) (constNumber size : BitVec 32) : ConstatBuffer α :=
  if c.dirtyRegionDisabled then { c with dirty := true }
  else { c with
    dirty := true
    dirtyRegions := Region.add constNumber.toNat (constNumber + size - 1).toNat c.dirtyRegions }

/-- Values written from an index on. -/
def write (c : ConstatBuffer α) (idx : BitVec 32) (n : Nat) (f : Nat → α) : ConstatBuffer α :=
  { c with
    buffer := fun k => if idx.toNat ≤ k ∧ k < idx.toNat + n then f (k - idx.toNat) else c.buffer k }

/-- Four values of which the last is nought, taken three by three. -/
def padded [Zero α] (f : Nat → α) (k : Nat) : α := if k % 4 = 3 then 0 else f (k / 4 * 3 + k % 4)

/-- The functions that update constants. -/
inductive Command (α : Type) where
  | setConstant (constNumber index : BitVec 32) (f : α)
  | setConstant4 (constNumber : BitVec 32) (f1 f2 f3 f4 : α)
  | setConstant3v (constNumber : BitVec 32) (f : Nat → α)
  | setConstant4v (constNumber : BitVec 32) (f : Nat → α)
  | setMultiConstant3v (constNumber count : BitVec 32) (f : Nat → α)
  | setMultiConstant4v (constNumber count : BitVec 32) (f : Nat → α)
  | getBufferToUpdate (constNumber count : BitVec 32)

namespace Command

/-- The first constant that is updated. -/
def number : Command α → BitVec 32
  | setConstant n _ _ | setConstant4 n _ _ _ _ | setConstant3v n _ | setConstant4v n _
  | setMultiConstant3v n _ _ | setMultiConstant4v n _ _ | getBufferToUpdate n _ => n

/-- How many are updated. -/
def count : Command α → BitVec 32
  | setMultiConstant3v _ c _ | setMultiConstant4v _ c _ | getBufferToUpdate _ c => c
  | _ => 1

variable [Zero α]

/-- The values that are written. -/
def store (c : ConstatBuffer α) : Command α → ConstatBuffer α
  | setConstant n index f => c.write (n * 4 + index) 1 fun _ => f
  | setConstant4 n f1 f2 f3 f4 => c.write (n * 4) 4 fun k => [f1, f2, f3, f4].getD k 0
  | setConstant3v n f => c.write (n * 4) 4 (padded f)
  | setConstant4v n f => c.write (n * 4) 4 f
  | setMultiConstant3v n count f => c.write (n * 4) (4 * count.toNat) (padded f)
  | setMultiConstant4v n count f => c.write (n * 4) (4 * count.toNat) f
  | getBufferToUpdate _ _ => c

/-- One of the functions. -/
def run (c : ConstatBuffer α) (cmd : Command α) : ConstatBuffer α :=
  (cmd.store c).addDirtyRegion cmd.number cmd.count

end Command

def clear (c : ConstatBuffer α) : ConstatBuffer α :=
  if c.dirtyRegionDisabled then { c with dirty := false }
  else { c with dirty := false, dirtyRegions := [] }

/-- The buffer after a list of updates. -/
def runAll [Zero α] (c : ConstatBuffer α) (cmds : List (Command α)) : ConstatBuffer α :=
  cmds.foldl Command.run c

/-- The constants that a list of updates is about. -/
def updated (cmds : List (Command α)) : Set Nat :=
  {k | ∃ cmd ∈ cmds, cmd.number.toNat ≤ k ∧ k < cmd.number.toNat + cmd.count.toNat}

/-- The regions are sorted and their union is the set. -/
def Describe (regions : List Region) (s : Set Nat) : Prop :=
  (∀ k, (∃ r ∈ regions, r.1 ≤ k ∧ k ≤ r.2) ↔ k ∈ s) ∧ regions.Pairwise fun r r' => r.1 ≤ r'.1

end ConstatBuffer

namespace Region

/-! ## adding a region -/

/-- Regions that are not empty, with 32-bit numbers, the first ones increasing. -/
structure Ordered (rs : List Region) : Prop where
  le : ∀ r ∈ rs, r.1 ≤ r.2 ∧ r.2 < 2 ^ 32
  pairwise : rs.Pairwise fun r r' => r.1 < r'.1

variable {rs : List Region} {r : Region}

theorem Ordered.tail (h : Ordered (r :: rs)) : Ordered rs :=
  ⟨fun r' hr => h.le r' (by simp [hr]), (List.pairwise_cons.mp h.pairwise).2⟩

theorem Ordered.head_lt (h : Ordered (r :: rs)) :
    ∀ r' ∈ rs, r.1 < r'.1 := (List.pairwise_cons.mp h.pairwise).1

theorem Ordered.cons (hr : r.1 ≤ r.2 ∧ r.2 < 2 ^ 32) (hlt : ∀ r' ∈ rs, r.1 < r'.1)
    (h : Ordered rs) : Ordered (r :: rs) :=
  ⟨List.forall_mem_cons.mpr ⟨hr, h.le⟩, List.pairwise_cons.mpr ⟨hlt, h.pairwise⟩⟩

/-- The number lies in one of the regions. -/
def Covered (rs : List Region) (k : Nat) : Prop := ∃ r ∈ rs, r.1 ≤ k ∧ k ≤ r.2

@[simp] theorem covered_nil {k : Nat} : ¬Covered [] k := by simp [Covered]

@[simp] theorem covered_cons {k : Nat} :
    Covered (r :: rs) k ↔ (r.1 ≤ k ∧ k ≤ r.2) ∨ Covered rs k := by simp [Covered]

/-- No test of a neighbour wraps round. -/
def Apart (x y : Nat) (r : Region) : Prop :=
  ¬(y + 1 = 2 ^ 32 ∧ r.1 = 0 ∧ r.2 + 1 < x) ∧ ¬(r.2 + 1 = 2 ^ 32 ∧ x = 0 ∧ y + 1 < r.1)

theorem merge_iff {x y k : Nat} (ht : Touches x y r) (ha : Apart x y r) (hxy : x ≤ y)
    (hr : r.1 ≤ r.2) (hy : y < 2 ^ 32) (hr' : r.2 < 2 ^ 32) : (min r.1 x ≤ k ∧ k ≤ max r.2 y)
    ↔ (r.1 ≤ k ∧ k ≤ r.2) ∨ (x ≤ k ∧ k ≤ y) := by
  unfold Touches at ht
  unfold Apart at ha
  omega

theorem first_mem_add {r' : Region} (rs : List Region) : ∀ {x y : Nat}, r' ∈ add x y rs →
    r'.1 = x ∨ ∃ r ∈ rs, r'.1 = r.1 := by
  induction rs with
  | nil =>
    intro x y h
    simp_all [add]
  | cons r rs ih =>
    intro x y h
    simp only [add] at h
    split at h
    case isTrue =>
      rcases List.mem_cons.mp h with rfl | h
      · rcases min_choice r.1 x with hmin | hmin <;> simp [hmin]
      · exact .inr ⟨r', by simp [h], rfl⟩
    case isFalse =>
      split at h
      case isTrue =>
        rcases List.mem_cons.mp h with rfl | h
        · exact .inl rfl
        · rcases ih h with heq | ⟨r₁, hr₁, heq⟩
          · exact .inr ⟨r, by simp, heq⟩
          · exact .inr ⟨r₁, by simp [hr₁], heq⟩
      case isFalse =>
        rcases List.mem_cons.mp h with rfl | h
        · exact .inr ⟨r', by simp, rfl⟩
        · rcases ih h with heq | ⟨r₁, hr₁, heq⟩
          · exact .inl heq
          · exact .inr ⟨r₁, by simp [hr₁], heq⟩

theorem add_cons {x y : Nat} (h : Ordered (r :: rs)) (hxy : x ≤ y) (hy : y < 2 ^ 32)
    (ha : Apart x y r) (hrest : ∀ x' y', 0 < x' → x' ≤ y' → y' < 2 ^ 32 →
      Ordered (add x' y' rs) ∧ ∀ k, Covered (add x' y' rs) k ↔ (x' ≤ k ∧ k ≤ y') ∨ Covered rs k) :
    Ordered (add x y (r :: rs)) ∧
      ∀ k, Covered (add x y (r :: rs)) k ↔ (x ≤ k ∧ k ≤ y) ∨ Covered (r :: rs) k := by
  have hr := h.le r (by simp)
  simp only [add]
  split
  case isTrue ht =>
    refine ⟨h.tail.cons (by simp; omega) fun r' hr' => ?_, fun k => ?_⟩
    · exact lt_of_le_of_lt (min_le_left _ _) (h.head_lt r' hr')
    · rw [covered_cons, covered_cons, merge_iff ht ha hxy hr.1 hy hr.2]
      tauto
  case isFalse ht =>
    split
    case isTrue hlt =>
      obtain ⟨hord, hcov⟩ := hrest r.1 r.2 (by omega) hr.1 hr.2
      refine ⟨hord.cons ⟨hxy, hy⟩ fun r' hr' => ?_, fun k => by rw [covered_cons, covered_cons, hcov]⟩
      rcases first_mem_add rs hr' with heq | ⟨r₁, hr₁, heq⟩
      · simpa [heq] using hlt
      · have := h.head_lt r₁ hr₁
        omega
    case isFalse hle =>
      -- The two do not meet, so the new region lies behind this one.
      have hbehind : r.2 < x := by
        unfold Touches at ht
        omega
      obtain ⟨hord, hcov⟩ := hrest x y (by omega) hxy hy
      refine ⟨hord.cons hr fun r' hr' => ?_, fun k => by rw [covered_cons, covered_cons, hcov]; tauto⟩
      rcases first_mem_add rs hr' with heq | ⟨r₁, hr₁, heq⟩
      · omega
      · have := h.head_lt r₁ hr₁
        omega

theorem add_spec_pos (rs : List Region) : ∀ {x y : Nat}, Ordered rs → (∀ r ∈ rs, 0 < r.1) → 0 < x →
    x ≤ y → y < 2 ^ 32 → Ordered (add x y rs) ∧
      ∀ k, Covered (add x y rs) k ↔ (x ≤ k ∧ k ≤ y) ∨ Covered rs k := by
  induction rs with
  | nil =>
    intro x y _ _ _ hxy hy
    refine ⟨Ordered.cons ⟨hxy, hy⟩ (by simp) ⟨by simp, .nil⟩, by simp [add]⟩
  | cons r rs ih =>
    intro x y h hpos hx hxy hy
    have hr := hpos r (by simp)
    refine add_cons h hxy hy ⟨by omega, by omega⟩ fun x' y' hx' hxy' hy' => ?_
    exact ih h.tail (fun r' hr' => hpos r' (by simp [hr'])) hx' hxy' hy'

theorem add_spec {x y : Nat} (h : Ordered rs) (hxy : x ≤ y) (hy : y < 2 ^ 32)
    (ha : ∀ r ∈ rs.head?, Apart x y r) :
    Ordered (add x y rs) ∧ ∀ k, Covered (add x y rs) k ↔ (x ≤ k ∧ k ≤ y) ∨ Covered rs k := by
  cases rs with
  | nil => exact ⟨Ordered.cons ⟨hxy, hy⟩ (by simp) ⟨by simp, .nil⟩, by simp [add]⟩
  | cons r rs =>
    refine add_cons h hxy hy (ha r (by simp)) fun x' y' hx' hxy' hy' => ?_
    exact add_spec_pos rs h.tail (fun r' hr' => by have := h.head_lt r' hr'; omega) hx' hxy' hy'

theorem add_of_not_apart {x y : Nat} (hy : y < 2 ^ 32) (hr : r.2 < 2 ^ 32) (ha : ¬Apart x y r) :
    add x y (r :: rs) = (0, 2 ^ 32 - 1) :: rs := by
  have ht : Touches x y r := by
    unfold Apart at ha
    unfold Touches
    omega
  rw [add, if_pos ht]
  unfold Apart at ha
  congr 2 <;> omega

theorem second_lt_add (rs : List Region) : ∀ {x y : Nat}, y < 2 ^ 32 → (∀ r ∈ rs, r.2 < 2 ^ 32) →
    ∀ r ∈ add x y rs, r.2 < 2 ^ 32 := by
  induction rs with
  | nil =>
    intro x y hy _ r hr
    simp_all [add]
  | cons r rs ih =>
    intro x y hy h r' hr'
    have hr := h r (by simp)
    have hrs : ∀ r ∈ rs, r.2 < 2 ^ 32 := fun r hr => h r (by simp [hr])
    simp only [add] at hr'
    split at hr'
    case isTrue =>
      rcases List.mem_cons.mp hr' with rfl | hr'
      · exact max_lt hr hy
      · exact hrs r' hr'
    case isFalse =>
      split at hr'
      case isTrue =>
        rcases List.mem_cons.mp hr' with rfl | hr'
        · exact hy
        · exact ih hr hrs r' hr'
      case isFalse =>
        rcases List.mem_cons.mp hr' with rfl | hr'
        · exact hr
        · exact ih hy hrs r' hr'

end Region

namespace ConstatBuffer

open Region

variable {α : Type}

/-! ## sequences of updates -/

theorem updated_append (cmds : List (Command α)) (cmd : Command α) (k : Nat) :
    k ∈ updated (cmds ++ [cmd]) ↔
      k ∈ updated cmds ∨ (cmd.number.toNat ≤ k ∧ k < cmd.number.toNat + cmd.count.toNat) := by
  simp [updated, or_and_right, exists_or]

/-- An update of 32-bit numbers that leaves the two ends of the number range apart, or after which
all numbers were updated. -/
def Admissible (regions : List Region) (before : List (Command α)) (cmd : Command α) : Prop :=
  cmd.number.toNat + cmd.count.toNat ≤ 2 ^ 32 ∧
    ((∀ r ∈ regions.head?, Apart cmd.number.toNat (cmd.number + cmd.count - 1).toNat r) ∨
      ∀ k < 2 ^ 32, k ∈ updated (before ++ [cmd]))

theorem toNat_last {number count : BitVec 32} (hcount : count ≠ 0)
    (h : number.toNat + count.toNat ≤ 2 ^ 32) :
    (number + count - 1).toNat = number.toNat + count.toNat - 1 := by
  have hpos : count.toNat ≠ 0 := fun h0 => hcount (BitVec.eq_of_toNat_eq h0)
  have hone : BitVec.toNat (1 : BitVec 32) = 1 := rfl
  rw [BitVec.toNat_sub, BitVec.toNat_add, hone]
  omega

/-- The regions describe the updates so far. -/
structure Dirty (regions : List Region) (before : List (Command α)) : Prop where
  ordered : Ordered regions
  covered_iff : ∀ k, Covered regions k ↔ k ∈ updated before

variable {regions : List Region}

theorem Dirty.describe {before : List (Command α)} (h : Dirty regions before) :
    Describe regions (updated before) :=
  ⟨h.covered_iff, h.ordered.pairwise.imp Nat.le_of_lt⟩

theorem Dirty.step {before : List (Command α)} {cmd : Command α} (h : Dirty regions before)
    (hcount : cmd.count ≠ 0) (hok : Admissible regions before cmd) :
    Dirty (add cmd.number.toNat (cmd.number + cmd.count - 1).toNat regions) (before ++ [cmd]) := by
  obtain ⟨hle, hends⟩ := hok
  have hlast := toNat_last hcount hle
  have hpos : cmd.count.toNat ≠ 0 := fun h0 => hcount (BitVec.eq_of_toNat_eq h0)
  by_cases hapart : ∀ r ∈ regions.head?, Apart cmd.number.toNat (cmd.number + cmd.count - 1).toNat r
  · obtain ⟨hord, hcov⟩ := add_spec h.ordered (by omega) (BitVec.isLt _) hapart
    refine ⟨hord, fun k => ?_⟩
    rw [hcov, updated_append, h.covered_iff, hlast, or_comm]
    exact or_congr_right (by omega)
  · have hall := hends.resolve_left hapart
    cases regions with
    | nil => simp at hapart
    | cons r rs =>
      have hr := h.ordered.le r (by simp)
      rw [add_of_not_apart (BitVec.isLt _) hr.2 (by simpa using hapart)]
      refine ⟨h.ordered.tail.cons (by simp) fun r' hr' => ?_, fun k => ⟨fun hk => hall k ?_, ?_⟩⟩
      · have := h.ordered.head_lt r' hr'
        simp only
        omega
      · rcases covered_cons.mp hk with hk | ⟨r', hr', hk⟩
        · omega
        · have := h.ordered.le r' (by simp [hr'])
          omega
      · intro hk
        refine covered_cons.mpr (.inl ⟨Nat.zero_le k, ?_⟩)
        rcases (updated_append before cmd k).mp hk with hk | hk
        · obtain ⟨r', hr', hk⟩ := (h.covered_iff k).mpr hk
          have := h.ordered.le r' hr'
          simp only
          omega
        · simp only
          omega

theorem Dirty.admissible {before : List (Command α)} {cmd : Command α} (h : Dirty regions before)
    (hcount : cmd.count ≠ 0)
    (hdescribe : Describe (add cmd.number.toNat (cmd.number + cmd.count - 1).toNat regions)
      (updated (before ++ [cmd]))) : Admissible regions before cmd := by
  have hpos : cmd.count.toNat ≠ 0 := fun h0 => hcount (BitVec.eq_of_toNat_eq h0)
  refine ⟨?_, ?_⟩
  · have hmem : cmd.number.toNat + cmd.count.toNat - 1 ∈ updated (before ++ [cmd]) :=
      (updated_append before cmd _).mpr (.inr (by omega))
    obtain ⟨r, hr, hk⟩ := (hdescribe.1 _).mpr hmem
    have := second_lt_add regions (BitVec.isLt _) (fun r hr => (h.ordered.le r hr).2) r hr
    omega
  · by_cases hapart : ∀ r ∈ regions.head?, Apart cmd.number.toNat (cmd.number + cmd.count - 1).toNat r
    · exact .inl hapart
    · refine .inr fun k hk => (hdescribe.1 k).mp ?_
      cases regions with
      | nil => simp at hapart
      | cons r rs =>
        have hr := h.ordered.le r (by simp)
        rw [add_of_not_apart (BitVec.isLt _) hr.2 (by simpa using hapart)]
        exact ⟨(0, 2 ^ 32 - 1), by simp, Nat.zero_le k, Nat.le_pred_of_lt hk⟩

variable [Zero α]

theorem dirtyRegions_store (c : ConstatBuffer α) (cmd : Command α) :
    (cmd.store c).dirtyRegions = c.dirtyRegions ∧
      (cmd.store c).dirtyRegionDisabled = c.dirtyRegionDisabled := by
  cases cmd <;> exact ⟨rfl, rfl⟩

theorem runAll_append (c : ConstatBuffer α) (cmds : List (Command α)) (cmd : Command α) :
    c.runAll (cmds ++ [cmd]) = cmd.run (c.runAll cmds) := by
  simp [runAll]

theorem dirtyRegionDisabled_runAll (c : ConstatBuffer α) (cmds : List (Command α)) :
    (c.runAll cmds).dirtyRegionDisabled = c.dirtyRegionDisabled := by
  induction cmds using List.reverseRecOn with
  | nil => rfl
  | append_singleton cmds cmd ih =>
    rw [runAll_append, Command.run, addDirtyRegion]
    split <;> simp [dirtyRegions_store, ih]

theorem dirtyRegions_run {c : ConstatBuffer α} (h : c.dirtyRegionDisabled = false)
    (cmd : Command α) : (cmd.run c).dirtyRegions =
      add cmd.number.toNat (cmd.number + cmd.count - 1).toNat c.dirtyRegions := by
  simp [Command.run, addDirtyRegion, dirtyRegions_store, h]

/-- After every part of a sequence of updates the regions are right, exactly when every update of
the sequence is admissible where it comes. -/
theorem describe_iff (c : ConstatBuffer α) (cmds : List (Command α))
    (henabled : c.dirtyRegionDisabled = false) (hcount : ∀ cmd ∈ cmds, cmd.count ≠ 0) :
    (∀ before, before <+: cmds → Describe (c.clear.runAll before).dirtyRegions (updated before)) ↔
      ∀ before cmd, before ++ [cmd] <+: cmds →
        Admissible (c.clear.runAll before).dirtyRegions before cmd := by
  have hclear : c.clear.dirtyRegionDisabled = false := by simp [clear, henabled]
  have hnext : ∀ before cmd, (c.clear.runAll (before ++ [cmd])).dirtyRegions =
      add cmd.number.toNat (cmd.number + cmd.count - 1).toNat (c.clear.runAll before).dirtyRegions := by
    intro before cmd
    rw [runAll_append, dirtyRegions_run (by rw [dirtyRegionDisabled_runAll, hclear])]
  have hstart : Dirty (c.clear.runAll []).dirtyRegions ([] : List (Command α)) := by
    have : (c.clear.runAll []).dirtyRegions = [] := by simp [runAll, clear, henabled]
    rw [this]
    exact ⟨⟨by simp, .nil⟩, by simp [updated]⟩
  refine prefixes_iff (I := fun before => Dirty (c.clear.runAll before).dirtyRegions before) hstart
    (fun _ h => h.describe) (fun before cmd hmem h hok => ?_) (fun before cmd hmem h hd => ?_)
  · rw [hnext]
    exact h.step (hcount cmd hmem) hok
  · rw [hnext] at hd
    exact h.admissible (hcount cmd hmem) hd

/-- Two constants next to each other, and one apart. -/
theorem describe_iff_three :
    let c : ConstatBuffer Nat := init fun _ => 0
    let cmds := [.getBufferToUpdate 3 1, .getBufferToUpdate 8 2, .setConstant 4 0 7]
    (∀ before, before <+: cmds → Describe (c.clear.runAll before).dirtyRegions (updated before)) ↔
      ∀ before cmd, before ++ [cmd] <+: cmds →
        Admissible (c.clear.runAll before).dirtyRegions before cmd :=
  describe_iff _ _ rfl (by simp [Command.count])

/-- The constants at the two ends become one region of all numbers. -/
theorem ends_not_described : ¬∀ cmds : List (Command Nat), (∀ cmd ∈ cmds, cmd.count ≠ 0) →
    Describe ((init fun _ => 0).clear.runAll cmds).dirtyRegions (updated cmds) := by
  intro h
  have hd := h [.setConstant 0 0 1, .setConstant 0xffffffff 0 1] (by simp [Command.count])
  have hregions : ((init fun _ => 0).clear.runAll
      [.setConstant 0 0 1, .setConstant 0xffffffff 0 1]).dirtyRegions = [(0, 0xffffffff)] := rfl
  rw [hregions] at hd
  have h5 := (hd.1 5).mp ⟨(0, 0xffffffff), by simp, by decide, by decide⟩
  simp [updated, Command.number, Command.count] at h5

end ConstatBuffer

end DolphinCore.Common
