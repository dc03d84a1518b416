import Mathlib.Data.List.Sort
import Mathlib.Data.BitVec

/-!
# DolphinCore.Lib.Ordered

Ordered sets and maps, as `std::set` and `std::map` are: the keys in increasing order,
without repetition.  An iterator is the key it stands at, and `none` is the end.
-/

namespace DolphinCore

instance bitVecLinearOrder : LinearOrder (BitVec w) where
  le_refl := BitVec.le_refl
  le_trans _ _ _ := BitVec.le_trans
  le_antisymm _ _ := BitVec.le_antisymm
  le_total := BitVec.le_total
  lt_iff_le_not_ge a b := by
    rw [BitVec.lt_def, BitVec.le_def, BitVec.le_def]
    omega
  toDecidableLE := inferInstance

/-! ## sets -/

/-- A set, listed in increasing order. -/
structure OrdSet (α : Type u) [LinearOrder α] where
  toList : List α
  sorted : toList.Pairwise (· < ·)

variable {α : Type u} [LinearOrder α]

theorem find?_sorted {l : List α} (hl : l.Pairwise (· < ·)) {p : α → Bool} {x : α}
    (h : l.find? p = some x) : x ∈ l ∧ p x = true ∧ ∀ y ∈ l, p y = true → x ≤ y := by
  refine ⟨List.mem_of_find?_eq_some h, List.find?_some h, ?_⟩
  intro y hy hp
  obtain ⟨_, as, bs, rfl, has⟩ := List.find?_eq_some_iff_append.mp h
  rw [List.mem_append, List.mem_cons] at hy
  obtain hy | rfl | hy := hy
  · have := has y hy
    simp [hp] at this
  · exact le_rfl
  · have hx := (List.pairwise_append.mp hl).2.1
    exact le_of_lt ((List.pairwise_cons.mp hx).1 y hy)

theorem getLast?_sorted {l : List α} (hl : l.Pairwise (· < ·)) {x : α} (h : l.getLast? = some x) :
    x ∈ l ∧ ∀ y ∈ l, y ≤ x := by
  obtain ⟨l', rfl⟩ := List.getLast?_eq_some_iff.mp h
  refine ⟨List.mem_append_right _ (List.mem_singleton_self x), fun y hy => ?_⟩
  rcases List.mem_append.mp hy with hy | hy
  · exact le_of_lt ((List.pairwise_append.mp hl).2.2 y hy x (List.mem_singleton_self x))
  · exact le_of_eq (List.mem_singleton.mp hy)

namespace OrdSet

instance : Membership α (OrdSet α) := ⟨fun s a => a ∈ s.toList⟩

instance : DecidablePred (· ∈ (s : OrdSet α)) := fun a => inferInstanceAs (Decidable (a ∈ s.toList))

theorem mem_toList {s : OrdSet α} {a : α} : a ∈ s.toList ↔ a ∈ s := Iff.rfl

theorem nodup (s : OrdSet α) : s.toList.Nodup :=
  s.sorted.imp fun h => ne_of_lt h

/-- The empty set. -/
def empty : OrdSet α := ⟨[], .nil⟩

instance : Inhabited (OrdSet α) := ⟨empty⟩

@[simp] theorem not_mem_empty (a : α) : a ∉ (empty : OrdSet α) := List.not_mem_nil

/-- Nothing is in the set. -/
def isEmpty (s : OrdSet α) : Bool := s.toList.isEmpty

theorem not_mem_of_isEmpty {s : OrdSet α} (h : s.isEmpty = true) (a : α) : a ∉ s := by
  rw [← mem_toList, List.isEmpty_iff.mp h]
  exact List.not_mem_nil

def insert (s : OrdSet α) (a : α) : OrdSet α :=
  if h : a ∈ s then s
  else
    { toList := s.toList.orderedInsert (· ≤ ·) a
      sorted := by
        have hle : (s.toList.orderedInsert (· ≤ ·) a).Pairwise (· ≤ ·) :=
          (s.sorted.imp le_of_lt).orderedInsert a _
        have hne : (s.toList.orderedInsert (· ≤ ·) a).Nodup :=
          ((List.perm_orderedInsert _ a _).nodup_iff).mpr (List.nodup_cons.mpr ⟨h, s.nodup⟩)
        exact (List.pairwise_and_iff.mpr ⟨hle, hne⟩).imp fun h => lt_of_le_of_ne h.1 h.2 }

@[simp] theorem mem_insert {s : OrdSet α} {a b : α} : b ∈ s.insert a ↔ b = a ∨ b ∈ s := by
  unfold insert
  split
  · next h => exact ⟨.inr, fun h' => h'.elim (fun hb => hb ▸ h) id⟩
  · exact List.mem_orderedInsert _

def erase (s : OrdSet α) (a : α) : OrdSet α :=
  ⟨s.toList.filter (· ≠ a), s.sorted.filter _⟩

@[simp] theorem mem_erase {s : OrdSet α} {a b : α} : b ∈ s.erase a ↔ b ∈ s ∧ b ≠ a := by
  rw [erase, ← mem_toList, List.mem_filter, mem_toList, decide_eq_true_eq]

/-- `lower_bound`: the first element that is not less than `a`. -/
def lowerBound (s : OrdSet α) (a : α) : Option α := s.toList.find? (a ≤ ·)

/-- The iterator after the one at `a`. -/
def next (s : OrdSet α) (a : α) : Option α := s.toList.find? (a < ·)

theorem lowerBound_eq_some {s : OrdSet α} {a x : α} (h : s.lowerBound a = some x) :
    x ∈ s ∧ a ≤ x ∧ ∀ y ∈ s, a ≤ y → x ≤ y := by
  obtain ⟨hx, hp, hmin⟩ := find?_sorted s.sorted h
  exact ⟨hx, of_decide_eq_true hp, fun y hy hay => hmin y hy (decide_eq_true hay)⟩

theorem lowerBound_eq_none {s : OrdSet α} {a : α} (h : s.lowerBound a = none) : ∀ y ∈ s, y < a := by
  intro y hy
  have := List.find?_eq_none.mp h y hy
  simpa using this

theorem next_eq_some {s : OrdSet α} {a x : α} (h : s.next a = some x) :
    x ∈ s ∧ a < x ∧ ∀ y ∈ s, a < y → x ≤ y := by
  obtain ⟨hx, hp, hmin⟩ := find?_sorted s.sorted h
  exact ⟨hx, of_decide_eq_true hp, fun y hy hay => hmin y hy (decide_eq_true hay)⟩

theorem next_eq_none {s : OrdSet α} {a : α} (h : s.next a = none) : ∀ y ∈ s, y ≤ a := by
  intro y hy
  have := List.find?_eq_none.mp h y hy
  simpa using this

theorem lowerBound_ne_iff {s : OrdSet α} {a b : α} (hab : a ≤ b) :
    s.lowerBound a ≠ s.lowerBound b ↔ ∃ x ∈ s, a ≤ x ∧ x < b := by
  constructor
  · intro hne
    cases ha : s.lowerBound a with
    | none =>
      cases hb : s.lowerBound b with
      | none => rw [ha, hb] at hne; exact absurd rfl hne
      | some y =>
        obtain ⟨hy, hby, _⟩ := lowerBound_eq_some hb
        exact absurd (lowerBound_eq_none ha y hy) (not_lt.mpr (le_trans hab hby))
    | some x =>
      obtain ⟨hx, hax, hmin⟩ := lowerBound_eq_some ha
      refine ⟨x, hx, hax, ?_⟩
      by_contra hbx
      have hbx := not_lt.mp hbx
      cases hb : s.lowerBound b with
      | none => exact absurd (lowerBound_eq_none hb x hx) (not_lt.mpr hbx)
      | some y =>
        obtain ⟨hy, hby, hmin'⟩ := lowerBound_eq_some hb
        have hxy : x = y := le_antisymm (hmin y hy (le_trans hab hby)) (hmin' x hx hbx)
        rw [ha, hb, hxy] at hne
        exact hne rfl
  · rintro ⟨x, hx, hax, hxb⟩ heq
    cases ha : s.lowerBound a with
    | none => exact absurd (lowerBound_eq_none ha x hx) (not_lt.mpr hax)
    | some y =>
      have hyx := (lowerBound_eq_some ha).2.2 x hx hax
      have hby := (lowerBound_eq_some (heq ▸ ha)).2.1
      exact absurd (lt_of_lt_of_le hxb hby) (not_lt.mpr hyx)

end OrdSet

/-! ## maps -/

/-- A map with its keys in increasing order. -/
structure OrdMap (κ : Type u) (ν : Type v) [LinearOrder κ] where
  keys : OrdSet κ
  find : κ → Option ν
  mem_keys : ∀ k, k ∈ keys ↔ (find k).isSome

namespace OrdMap

variable {κ : Type u} {ν : Type v} [LinearOrder κ]

/-- The empty map. -/
def empty : OrdMap κ ν := ⟨.empty, fun _ => none, fun k => by simp⟩

@[simp] theorem find_empty (k : κ) : (empty : OrdMap κ ν).find k = none := rfl

variable {m : OrdMap κ ν}

theorem mem_keys_of_find {k : κ} {v : ν} (h : m.find k = some v) : k ∈ m.keys := by
  rw [m.mem_keys, h]
  rfl

theorem eq_empty (h : m.keys.isEmpty = true) : m = empty := by
  obtain ⟨⟨keys, _⟩, find, hmem⟩ := m
  obtain rfl : keys = [] := List.isEmpty_iff.mp h
  have hfind : find = fun _ => none := funext fun k => by
    cases hk : find k with
    | none => rfl
    | some v => exact absurd ((hmem k).mpr (by rw [hk]; rfl)) List.not_mem_nil
  subst hfind
  rfl

theorem exists_find {k : κ} (h : k ∈ m.keys) : ∃ v, m.find k = some v :=
  Option.isSome_iff_exists.mp ((m.mem_keys k).mp h)

/-- `map[k]` changed by `f`; a key that is missing is entered with the default value. -/
def modify [Inhabited ν] (m : OrdMap κ ν) (k : κ) (f : ν → ν) : OrdMap κ ν where
  keys := m.keys.insert k
  find := Function.update m.find k (some (f ((m.find k).getD default)))
  mem_keys k' := by
    rw [OrdSet.mem_insert, Function.update_apply]
    split
    · next h => simp [h]
    · next h => rw [m.mem_keys, or_iff_right h]

theorem find_modify [Inhabited ν] (m : OrdMap κ ν) (k k' : κ) (f : ν → ν) : (m.modify k f).find k' =
      if k' = k then some (f ((m.find k).getD default)) else m.find k' :=
  Function.update_apply _ _ _ _

theorem mem_keys_modify [Inhabited ν] {k k' : κ} {f : ν → ν} :
    k' ∈ (m.modify k f).keys ↔ k' = k ∨ k' ∈ m.keys := OrdSet.mem_insert

/-- `emplace`, which leaves a key that is there as it is. -/
def emplace (m : OrdMap κ ν) (k : κ) (v : ν) : OrdMap κ ν where
  keys := m.keys.insert k
  find := Function.update m.find k (some ((m.find k).getD v))
  mem_keys k' := by
    rw [OrdSet.mem_insert, Function.update_apply]
    split
    · next h => simp [h]
    · next h => rw [m.mem_keys, or_iff_right h]

theorem find_emplace (m : OrdMap κ ν) (k k' : κ) (v : ν) :
    (m.emplace k v).find k' = if k' = k then some ((m.find k).getD v) else m.find k' :=
  Function.update_apply _ _ _ _

theorem mem_keys_emplace {k k' : κ} {v : ν} :
    k' ∈ (m.emplace k v).keys ↔ k' = k ∨ k' ∈ m.keys := OrdSet.mem_insert

/-- The values in the order of their keys. -/
def values (m : OrdMap κ ν) : List ν := m.keys.toList.filterMap m.find

theorem map_values {key : ν → κ} (h : ∀ k v, m.find k = some v → key v = k) :
    m.values.map key = m.keys.toList := by
  have hall : ∀ l : List κ, (∀ k ∈ l, k ∈ m.keys) → (l.filterMap m.find).map key = l := by
    intro l hl
    induction l with
    | nil => rfl
    | cons k l ih =>
      obtain ⟨v, hv⟩ := exists_find (hl k (List.mem_cons_self ..))
      rw [List.filterMap_cons_some hv, List.map_cons, h k v hv,
        ih fun k' hk' => hl k' (List.mem_cons_of_mem _ hk')]
  exact hall _ fun _ hk => hk

/-- `erase` of a key. -/
def erase (m : OrdMap κ ν) (k : κ) : OrdMap κ ν where
  keys := m.keys.erase k
  find := Function.update m.find k none
  mem_keys k' := by
    rw [OrdSet.mem_erase, Function.update_apply, m.mem_keys]
    split
    · next h => simp [h]
    · next h => rw [and_iff_left h]

theorem find_erase (m : OrdMap κ ν) (k k' : κ) :
    (m.erase k).find k' = if k' = k then none else m.find k' :=
  Function.update_apply _ _ _ _

theorem mem_keys_erase {k k' : κ} : k' ∈ (m.erase k).keys ↔ k' ∈ m.keys ∧ k' ≠ k := OrdSet.mem_erase

end OrdMap

end DolphinCore
