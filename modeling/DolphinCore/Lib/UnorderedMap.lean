import Mathlib.Data.List.Nodup
import Mathlib.Data.List.Perm.Basic

/-!
# DolphinCore.Lib.UnorderedMap

A hash map with buckets: nodes with distinct keys, in the order of iteration, and
the bucket of each key. An insertion may put the new node anywhere, rearrange the
others and choose new buckets.
-/

namespace DolphinCore

structure UnorderedMap (κ ν : Type _) where
  nodes : List (κ × ν)
  bucket : κ → Nat
  nodup : (nodes.map Prod.fst).Nodup

namespace UnorderedMap

variable {κ ν : Type _} [DecidableEq κ] {m : UnorderedMap κ ν} {key other : κ} {v : ν}

/-- The nodes of the bucket of a key, in the order of iteration. -/
def bucketNodes (m : UnorderedMap κ ν) (key : κ) : List (κ × ν) :=
  m.nodes.filter fun node => m.bucket node.1 = m.bucket key

def find (m : UnorderedMap κ ν) (key : κ) : Option ν :=
  (m.nodes.find? fun node => node.1 = key).map Prod.snd

def erase (m : UnorderedMap κ ν) (key : κ) : UnorderedMap κ ν :=
  { m with
    nodes := m.nodes.filter fun node => node.1 ≠ key
    nodup := m.nodup.sublist (List.filter_sublist.map _) }

/-- The value of a key is changed in its place. -/
def modify (m : UnorderedMap κ ν) (key : κ) (f : ν → ν) : UnorderedMap κ ν :=
  { m with
    nodes := m.nodes.map fun node => if node.1 = key then (node.1, f node.2) else node
    nodup := by
      have hkeys : ∀ node : κ × ν,
          (if node.1 = key then (node.1, f node.2) else node).1 = node.1 := by
        intro node
        split <;> rfl
      rw [List.map_map]
      exact (List.map_congr_left fun node _ => hkeys node) ▸ m.nodup }

/-- How the library inserts. -/
structure Insertion (κ ν : Type _) [DecidableEq κ] where
  insert : UnorderedMap κ ν → κ → ν → UnorderedMap κ ν
  perm : ∀ m key v, (insert m key v).nodes.Perm ((key, v) :: (m.erase key).nodes)

/-! ## what is found -/

theorem find?_eq_some_iff {nodes : List (κ × ν)} (hnodup : (nodes.map Prod.fst).Nodup) :
    (nodes.find? fun node => node.1 = key).map Prod.snd = some v ↔ (key, v) ∈ nodes := by
  induction nodes with
  | nil => simp
  | cons node nodes ih =>
    obtain ⟨k, w⟩ := node
    obtain ⟨hnot, hnodes⟩ := List.nodup_cons.mp hnodup
    by_cases hk : k = key
    · subst hk
      have hmem : (k, v) ∉ nodes := fun h => hnot (List.mem_map.mpr ⟨_, h, rfl⟩)
      simp [hmem, eq_comm]
    · have hne : key ≠ k := fun h => hk h.symm
      rw [List.find?_cons_of_neg (by simpa using hk), ih hnodes]
      simp [hne]

theorem find_eq_some_iff : m.find key = some v ↔ (key, v) ∈ m.nodes := find?_eq_some_iff m.nodup

theorem find_eq_none_iff : m.find key = none ↔ ∀ v, (key, v) ∉ m.nodes := by
  rw [Option.eq_none_iff_forall_ne_some]
  exact forall_congr' fun v => not_congr find_eq_some_iff

theorem find_congr {m' : UnorderedMap κ ν}
    (h : ∀ v, (key, v) ∈ m'.nodes ↔ (key, v) ∈ m.nodes) : m'.find key = m.find key := by
  refine Option.ext fun v => ?_
  rw [find_eq_some_iff, find_eq_some_iff, h]

theorem mem_erase {node : κ × ν} : node ∈ (m.erase key).nodes ↔ node ∈ m.nodes ∧ node.1 ≠ key := by
  unfold erase
  simp

@[simp] theorem find_erase :
    (m.erase key).find other = if other = key then none else m.find other := by
  split
  · next h =>
    refine find_eq_none_iff.mpr fun v hv => ?_
    exact (mem_erase.mp hv).2 h
  · next h => exact find_congr fun v => by simp [mem_erase, h]

theorem mem_modify {f : ν → ν} {node : κ × ν} : node ∈ (m.modify key f).nodes ↔
    ∃ old ∈ m.nodes, (if old.1 = key then (old.1, f old.2) else old) = node := by
  unfold modify
  simp

@[simp] theorem find_modify {f : ν → ν} :
    (m.modify key f).find other = if other = key then (m.find key).map f else m.find other := by
  split
  · next h =>
    subst h
    refine Option.ext fun v => ?_
    rw [find_eq_some_iff, mem_modify, Option.map_eq_some_iff]
    constructor
    · rintro ⟨⟨k, w⟩, hmem, heq⟩
      split at heq
      · next hk =>
        cases heq
        exact ⟨w, find_eq_some_iff.mpr hmem, rfl⟩
      · next hk =>
        cases heq
        exact absurd rfl hk
    · rintro ⟨w, hw, rfl⟩
      exact ⟨(other, w), find_eq_some_iff.mp hw, if_pos rfl⟩
  · next h =>
    refine find_congr fun v => ?_
    rw [mem_modify]
    constructor
    · rintro ⟨⟨k, w⟩, hmem, heq⟩
      split at heq
      · next hk =>
        cases heq
        exact absurd hk h
      · cases heq
        exact hmem
    · intro hmem
      exact ⟨_, hmem, if_neg h⟩

@[simp] theorem Insertion.find_insert (i : Insertion κ ν) :
    (i.insert m key v).find other = if other = key then some v else m.find other := by
  have hmem : ∀ node, node ∈ (i.insert m key v).nodes ↔
      node = (key, v) ∨ node ∈ m.nodes ∧ node.1 ≠ key := by
    intro node
    rw [(i.perm m key v).mem_iff, List.mem_cons, mem_erase]
  split
  · next h =>
    subst h
    exact find_eq_some_iff.mpr ((hmem _).mpr (.inl rfl))
  · next h =>
    refine find_congr fun w => ?_
    rw [hmem]
    simp [h]

/-- New nodes in front of the others, with the buckets as they are. -/
def Insertion.front (κ ν : Type _) [DecidableEq κ] : Insertion κ ν where
  insert m key v :=
    { m with
      nodes := (key, v) :: (m.erase key).nodes
      nodup := by
        refine List.nodup_cons.mpr ⟨fun hmem => ?_, (m.erase key).nodup⟩
        obtain ⟨node, hnode, hkey⟩ := List.mem_map.mp hmem
        exact (mem_erase.mp hnode).2 hkey }
  perm _ _ _ := .refl _

end UnorderedMap

end DolphinCore
