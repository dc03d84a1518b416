import Mathlib.Data.List.Basic

/-!
# DolphinCore.Lib.TimedQueue

Queues of timed items, served by time, and in the order they were put in when the times
agree; and traces whose every entry is justified by the entries before it.
-/

namespace DolphinCore

structure TimedItem (α : Type _) where
  time : Int
  item : α
deriving DecidableEq

namespace TimedQueue

variable {α β : Type _}

/-- An item goes behind all items that are due no later. -/
def put (e : TimedItem α) : List (TimedItem α) → List (TimedItem α)
  | [] => [e]
  | f :: q => if e.time < f.time then e :: f :: q else f :: put e q

/-- Served by time. -/
def Sorted (q : List (TimedItem α)) : Prop := q.Pairwise fun e f => e.time ≤ f.time

/-- The items of one kind, in the order in which they are served. -/
def items (kind : α → Option β) (q : List (TimedItem α)) : List β :=
  q.filterMap fun e => kind e.item

theorem mem_put {e f : TimedItem α} {q : List (TimedItem α)} : f ∈ put e q ↔ f = e ∨ f ∈ q := by
  induction q with
  | nil => simp [put]
  | cons g q ih =>
    rw [put]
    split
    · rw [List.mem_cons]
    · rw [List.mem_cons, ih, List.mem_cons]
      exact or_left_comm

@[simp] theorem length_put (e : TimedItem α) (q : List (TimedItem α)) :
    (put e q).length = q.length + 1 := by
  induction q with
  | nil => rfl
  | cons f q ih =>
    rw [put]
    split
    · rfl
    · rw [List.length_cons, ih, List.length_cons]

theorem put_eq_cons {e : TimedItem α} {q : List (TimedItem α)} (h : ∀ f ∈ q, e.time < f.time) :
    put e q = e :: q := by
  cases q with
  | nil => rfl
  | cons f q => rw [put, if_pos (h f (List.mem_cons_self ..))]

theorem Sorted.put {q : List (TimedItem α)} (h : Sorted q) (e : TimedItem α) :
    Sorted (put e q) := by
  induction q with
  | nil => exact List.pairwise_singleton ..
  | cons f q ih =>
    have hq := List.pairwise_cons.mp h
    rw [TimedQueue.put]
    split
    · next hlt =>
      refine List.pairwise_cons.mpr ⟨fun g hg => ?_, h⟩
      obtain rfl | hg := List.mem_cons.mp hg
      · omega
      · have := hq.1 g hg
        omega
    · next hle =>
      refine List.pairwise_cons.mpr ⟨fun g hg => ?_, ih hq.2⟩
      obtain rfl | hg := mem_put.mp hg
      · omega
      · exact hq.1 g hg

theorem Sorted.tail {e : TimedItem α} {q : List (TimedItem α)} (h : Sorted (e :: q)) : Sorted q :=
  (List.pairwise_cons.mp h).2

theorem put_append {e : TimedItem α} {q q' : List (TimedItem α)} (h : ∀ f ∈ q, f.time ≤ e.time) :
    put e (q ++ q') = q ++ put e q' := by
  induction q with
  | nil => rfl
  | cons f q ih =>
    have hf := h f (List.mem_cons_self ..)
    rw [List.cons_append, put, if_neg (by omega), ih fun g hg => h g (List.mem_cons_of_mem f hg),
      List.cons_append]

@[simp] theorem items_cons (kind : α → Option β) (e : TimedItem α) (q : List (TimedItem α)) :
    items kind (e :: q) = (kind e.item).toList ++ items kind q := by
  rw [items, List.filterMap_cons]
  cases kind e.item <;> rfl

theorem items_put_of_none {kind : α → Option β} {e : TimedItem α} (he : kind e.item = none)
    (q : List (TimedItem α)) : items kind (put e q) = items kind q := by
  induction q with
  | nil => rw [put, items_cons, he, Option.toList_none, List.nil_append]
  | cons f q ih =>
    rw [put]
    split
    · rw [items_cons, he, Option.toList_none, List.nil_append]
    · rw [items_cons, ih, items_cons]

theorem items_put_perm (kind : α → Option β) (e : TimedItem α) (q : List (TimedItem α)) :
    (items kind (put e q)).Perm (items kind q ++ (kind e.item).toList) := by
  induction q with
  | nil =>
    rw [put, items_cons]
    exact .of_eq (List.append_nil _)
  | cons f q ih =>
    rw [put]
    split
    · rw [items_cons]
      exact List.perm_append_comm
    · rw [items_cons, items_cons, List.append_assoc]
      exact ih.append_left _

theorem items_put_last {kind : α → Option β} {e : TimedItem α} {q : List (TimedItem α)} (hs : Sorted q)
    (h : ∀ f ∈ q, (kind f.item).isSome → f.time ≤ e.time) :
    items kind (put e q) = items kind q ++ (kind e.item).toList := by
  induction q with
  | nil =>
    rw [put, items_cons]
    exact List.append_nil _
  | cons f q ih =>
    rw [put]
    split
    · next hlt =>
      -- everything behind is due later, so it is of other kinds
      have hnone : items kind (f :: q) = [] := by
        rw [items, List.filterMap_eq_nil_iff]
        intro g hg
        by_contra hsome
        have hle := h g hg (Option.isSome_iff_ne_none.mpr hsome)
        obtain rfl | hmem := List.mem_cons.mp hg
        · omega
        · have := (List.pairwise_cons.mp hs).1 g hmem
          omega
      rw [items_cons, hnone, List.append_nil, List.nil_append]
    · rw [items_cons, items_cons, ih hs.tail fun g hg => h g (List.mem_cons_of_mem f hg),
        List.append_assoc]

end TimedQueue

/-! ## traces -/

/-- Every entry meets a condition on the entries before it. -/
def EachAfter (P : List α → α → Prop) (l : List α) : Prop :=
  ∀ before x after, l = before ++ x :: after → P before x

theorem EachAfter.nil (P : List α → α → Prop) : EachAfter P [] := by
  intro before x after h
  cases before <;> cases h

theorem EachAfter.concat {P : List α → α → Prop} {l : List α} {x : α} (h : EachAfter P l)
    (hx : P l x) : EachAfter P (l ++ [x]) := by
  intro before y after heq
  obtain rfl | ⟨after, z, rfl⟩ := List.eq_nil_or_concat after
  · obtain ⟨rfl, hxy⟩ := List.append_inj' heq rfl
    cases hxy
    exact hx
  · rw [List.concat_eq_append, ← List.cons_append, ← List.append_assoc] at heq
    obtain ⟨rfl, -⟩ := List.append_inj' heq rfl
    exact h _ _ _ rfl

theorem EachAfter.of_concat {P : List α → α → Prop} {l : List α} {x : α}
    (h : EachAfter P (l ++ [x])) : EachAfter P l ∧ P l x := by
  refine ⟨fun before y after heq => h before y (after ++ [x]) ?_, h l x [] rfl⟩
  rw [heq, List.append_assoc, List.cons_append]

end DolphinCore
