import Mathlib.Data.List.Nodup

/-!
# DolphinCore.Lib.NodeMap

Nodes of a container under their addresses, in the order in which they were added.  An
address is given to at most one node at a time, and may be given out again after the node
has been erased.
-/

namespace DolphinCore

/-- Nodes with pairwise different addresses. -/
structure NodeMap (β : Type u) where
  entries : List (Nat × β)
  nodup : (entries.map Prod.fst).Nodup

namespace NodeMap

variable {β : Type u} {m : NodeMap β} {p q : Nat} {b : β} {f : β → β}

/-- No nodes. -/
def empty : NodeMap β := ⟨[], .nil⟩

/-- The node at an address. -/
def get? (m : NodeMap β) (p : Nat) : Option β :=
  (m.entries.find? (·.1 = p)).map Prod.snd

@[simp] theorem get?_empty (p : Nat) : (empty : NodeMap β).get? p = none := rfl

theorem get?_eq_some : m.get? p = some b ↔ (p, b) ∈ m.entries := by
  rw [get?, Option.map_eq_some_iff]
  constructor
  · rintro ⟨⟨q, c⟩, h, rfl⟩
    have hq : q = p := by simpa using List.find?_some h
    exact hq ▸ List.mem_of_find?_eq_some h
  · intro h
    refine ⟨(p, b), ?_, rfl⟩
    obtain ⟨as, bs, heq⟩ := List.append_of_mem h
    rw [List.find?_eq_some_iff_append]
    refine ⟨by simp, as, bs, heq, ?_⟩
    intro c hc
    have hnd := m.nodup
    rw [heq, List.map_append, List.nodup_append] at hnd
    simpa using hnd.2.2 c.1 (List.mem_map_of_mem hc) p (by simp)

theorem get?_eq_none : m.get? p = none ↔ p ∉ m.entries.map Prod.fst := by
  rw [get?, Option.map_eq_none_iff, List.find?_eq_none]
  constructor
  · intro h hp
    obtain ⟨e, he, rfl⟩ := List.mem_map.mp hp
    simpa using h e he
  · intro h e he
    rw [decide_eq_true_eq]
    rintro rfl
    exact h (List.mem_map_of_mem he)

/-- Adds a node at a free address, at the end. -/
def push (m : NodeMap β) (p : Nat) (b : β) (h : m.get? p = none) : NodeMap β where
  entries := m.entries ++ [(p, b)]
  nodup := by
    rw [List.map_append, List.nodup_append]
    refine ⟨m.nodup, by simp, ?_⟩
    rintro a ha b' hb' rfl
    simp only [List.map_cons, List.map_nil, List.mem_singleton] at hb'
    exact get?_eq_none.mp h (hb' ▸ ha)

theorem get?_push (h : m.get? p = none) (q : Nat) :
    (m.push p b h).get? q = if q = p then some b else m.get? q := by
  apply Option.ext
  intro c
  rw [get?_eq_some, push, List.mem_append, List.mem_singleton, Prod.mk.injEq, ← get?_eq_some]
  split
  · next hq =>
    rw [hq, h]
    simp [eq_comm]
  · next hq => simp [hq]

/-- Changes the node at an address. -/
def modify (m : NodeMap β) (p : Nat) (f : β → β) : NodeMap β where
  entries := m.entries.map fun e => if e.1 = p then (e.1, f e.2) else e
  nodup := by
    have h : Prod.fst ∘ (fun e : Nat × β => if e.1 = p then (e.1, f e.2) else e) = Prod.fst := by
      funext e
      simp only [Function.comp_apply]
      split <;> rfl
    rw [List.map_map, h]
    exact m.nodup

theorem get?_modify (m : NodeMap β) (p q : Nat) (f : β → β) :
    (m.modify p f).get? q = if q = p then (m.get? q).map f else m.get? q := by
  rw [get?, modify, List.find?_map, Option.map_map]
  have h : (fun e : Nat × β => decide (e.1 = q)) ∘
      (fun e : Nat × β => if e.1 = p then (e.1, f e.2) else e) = fun e => decide (e.1 = q) := by
    funext e
    simp only [Function.comp_apply]
    split <;> rfl
  rw [h, get?]
  cases hfind : m.entries.find? fun e => decide (e.1 = q) with
  | none => simp
  | some e =>
    have he : e.1 = q := by simpa using List.find?_some hfind
    by_cases hq : q = p
    · simp [he, hq]
    · simp [he, hq]

theorem get?_foldl_modify (hf : ∀ b, f (f b) = f b) (ps : List Nat) (m : NodeMap β) (q : Nat) :
    (ps.foldl (fun m p => m.modify p f) m).get? q =
      if q ∈ ps then (m.get? q).map f else m.get? q := by
  induction ps generalizing m with
  | nil => simp
  | cons p ps ih =>
    rw [List.foldl_cons, ih, get?_modify]
    by_cases hqp : q = p
    · by_cases hqs : q ∈ ps
      · cases hm : m.get? q <;> simp [hqp, hqp ▸ hqs, hf]
      · simp [hqp, hqp ▸ hqs]
    · simp [hqp]

/-- Erases the node at an address. -/
def erase (m : NodeMap β) (p : Nat) : NodeMap β where
  entries := m.entries.filter (·.1 ≠ p)
  nodup := m.nodup.sublist (List.filter_sublist.map _)

theorem get?_erase (m : NodeMap β) (p q : Nat) :
    (m.erase p).get? q = if q = p then none else m.get? q := by
  apply Option.ext
  intro c
  rw [get?_eq_some, erase, List.mem_filter, ← get?_eq_some, decide_eq_true_eq]
  split
  · next hq => simp [hq]
  · next hq => simp [hq]

end NodeMap

end DolphinCore
