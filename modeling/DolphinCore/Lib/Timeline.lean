import Mathlib.Data.List.TakeWhile

/-!
# DolphinCore.Lib.Timeline

A stream of items with events between them: an event that has a time is put in
front of the item at that position, behind the events that come before it in
their list.
-/

namespace DolphinCore

/-- An item of the stream, or an event. -/
inductive Timed (α β : Type _) where
  | item (x : α)
  | event (u : β)
deriving DecidableEq

namespace Timed

variable {α β : Type _}

/-- The items of a timeline, in order. -/
def items (ts : List (Timed α β)) : List α :=
  ts.filterMap fun
    | item x => some x
    | event _ => none

/-- The events of a timeline, in order. -/
def events (ts : List (Timed α β)) : List β :=
  ts.filterMap fun
    | item _ => none
    | event u => some u

@[simp] theorem items_append (ts us : List (Timed α β)) : items (ts ++ us) = items ts ++ items us :=
  List.filterMap_append

@[simp] theorem events_append (ts us : List (Timed α β)) :
    events (ts ++ us) = events ts ++ events us :=
  List.filterMap_append

@[simp] theorem items_map_event (us : List β) : items (us.map (event (α := α))) = [] := by
  unfold items
  rw [List.filterMap_map]
  exact List.filterMap_eq_nil_iff.mpr fun _ _ => rfl

@[simp] theorem events_map_event (us : List β) : events (us.map (event (α := α))) = us := by
  unfold events
  rw [List.filterMap_map]
  exact List.filterMap_some

@[simp] theorem items_cons_item (x : α) (ts : List (Timed α β)) :
    items (item x :: ts) = x :: items ts := rfl

@[simp] theorem events_cons_item (x : α) (ts : List (Timed α β)) :
    events (item x :: ts) = events ts := rfl

@[simp] theorem events_cons_event (u : β) (ts : List (Timed α β)) :
    events (event u :: ts) = u :: events ts := rfl

theorem exists_item {ts : List (Timed α β)} {i : Nat} (h : i < (items ts).length) :
    ∃ pre x post, ts = pre ++ item x :: post ∧ (items pre).length = i := by
  induction ts generalizing i with
  | nil => exact absurd h (Nat.not_lt_zero i)
  | cons t ts ih =>
    cases t with
    | event u =>
      obtain ⟨pre, x, post, rfl, hpre⟩ := ih h
      exact ⟨event u :: pre, x, post, rfl, hpre⟩
    | item x =>
      cases i with
      | zero => exact ⟨[], x, ts, rfl, rfl⟩
      | succ i =>
        obtain ⟨pre, y, post, rfl, hpre⟩ := ih (Nat.lt_of_succ_lt_succ h)
        exact ⟨item x :: pre, y, post, rfl, congrArg (· + 1) hpre⟩

end Timed

open Timed

section

variable {α β : Type _} (time : β → Nat)

/-- The items from position `p` on, each behind the events whose time has come. -/
def timeline : Nat → List α → List β → List (Timed α β)
  | _, [], _ => []
  | p, x :: xs, us =>
    (us.takeWhile fun u => time u ≤ p).map event ++
      item x :: timeline (p + 1) xs (us.dropWhile fun u => time u ≤ p)

/-- The events whose time does not come at these items. -/
def laterEvents : Nat → List α → List β → List β
  | _, [], us => us
  | p, _ :: xs, us => laterEvents (p + 1) xs (us.dropWhile fun u => time u ≤ p)

variable {time} {p : Nat} {xs ys : List α} {u : β} {us : List β}

theorem items_timeline : items (timeline time p xs us) = xs := by
  induction xs generalizing p us with
  | nil => rfl
  | cons x xs ih =>
    rw [timeline, items_append, items_map_event, items_cons_item, ih]
    rfl

theorem events_timeline : events (timeline time p xs us) ++ laterEvents time p xs us = us := by
  induction xs generalizing p us with
  | nil => rfl
  | cons x xs ih =>
    rw [timeline, laterEvents, events_append, events_map_event, events_cons_item,
      List.append_assoc, ih, List.takeWhile_append_dropWhile]

theorem timeline_append : timeline time p (xs ++ ys) us =
    timeline time p xs us ++ timeline time (p + xs.length) ys (laterEvents time p xs us) := by
  induction xs generalizing p us with
  | nil => rfl
  | cons x xs ih =>
    rw [List.cons_append, timeline, timeline, ih, laterEvents, List.length_cons,
      Nat.add_right_comm p 1, ← Nat.add_assoc, List.append_assoc]
    rfl

theorem laterEvents_append : laterEvents time p (xs ++ ys) us =
    laterEvents time (p + xs.length) ys (laterEvents time p xs us) := by
  induction xs generalizing p us with
  | nil => rfl
  | cons x xs ih =>
    rw [List.cons_append, laterEvents, laterEvents, ih, List.length_cons,
      Nat.add_right_comm p 1, ← Nat.add_assoc]

theorem timeline_nil : timeline time p xs [] = xs.map item := by
  induction xs generalizing p with
  | nil => rfl
  | cons x xs ih => exact congrArg (item x :: ·) ih

theorem laterEvents_nil : laterEvents time p xs [] = ([] : List β) := by
  induction xs generalizing p with
  | nil => rfl
  | cons x xs ih => exact ih

theorem timeline_of_le (h : p + xs.length ≤ time u) :
    timeline time p xs (u :: us) = xs.map item ∧ laterEvents time p xs (u :: us) = u :: us := by
  induction xs generalizing p with
  | nil => exact ⟨rfl, rfl⟩
  | cons x xs ih =>
    rw [List.length_cons] at h
    have hlt : ¬ time u ≤ p := by omega
    obtain ⟨htl, hlater⟩ := ih (show p + 1 + xs.length ≤ time u by omega)
    rw [timeline, laterEvents, List.takeWhile_cons_of_neg (by simpa using hlt),
      List.dropWhile_cons_of_neg (by simpa using hlt), htl, hlater]
    exact ⟨rfl, rfl⟩

theorem timeline_of_ge (h : time u ≤ p) (hne : xs ≠ []) :
    timeline time p xs (u :: us) = event u :: timeline time p xs us ∧
      laterEvents time p xs (u :: us) = laterEvents time p xs us := by
  cases xs with
  | nil => exact absurd rfl hne
  | cons x xs =>
    rw [timeline, laterEvents, List.takeWhile_cons_of_pos (by simpa using h),
      List.dropWhile_cons_of_pos (by simpa using h)]
    exact ⟨rfl, rfl⟩

theorem mem_of_mem_laterEvents {v : β} (h : v ∈ laterEvents time p xs us) : v ∈ us := by
  rw [← @events_timeline α β time p xs us]
  exact List.mem_append_right _ h

theorem laterEvents_eq_nil (hne : xs ≠ []) (h : ∀ u ∈ us, time u < p + xs.length) :
    laterEvents time p xs us = [] := by
  rw [← List.dropLast_concat_getLast hne, laterEvents_append]
  refine List.dropWhile_eq_nil_iff.mpr fun u hu => decide_eq_true ?_
  have hlt := h u (mem_of_mem_laterEvents hu)
  rw [List.length_dropLast]
  omega

/-! ## sorted events -/

theorem takeWhile_eq_filter (hsorted : us.Pairwise fun u v => time u ≤ time v) (p : Nat) :
    us.takeWhile (fun u => time u ≤ p) = us.filter fun u => time u ≤ p := by
  induction us with
  | nil => rfl
  | cons u us ih =>
    obtain ⟨hle, hus⟩ := List.pairwise_cons.mp hsorted
    by_cases hu : time u ≤ p
    · rw [List.takeWhile_cons_of_pos (by simpa using hu), List.filter_cons_of_pos (by simpa using hu),
        ih hus]
    · rw [List.takeWhile_cons_of_neg (by simpa using hu), List.filter_cons_of_neg (by simpa using hu)]
      refine (List.filter_eq_nil_iff.mpr fun v hv => ?_).symm
      have := hle v hv
      simp only [decide_eq_true_eq]
      omega

/-- **At each item** of a stream with sorted events exactly the events whose time has come are
before it. -/
theorem events_before (hsorted : us.Pairwise fun u v => time u ≤ time v)
    {pre post : List (Timed α β)} {x : α} (h : timeline time p xs us = pre ++ item x :: post) :
    events pre = us.filter fun u => time u ≤ p + (items pre).length := by
  induction xs generalizing p us pre with
  | nil => exact absurd h.symm (by simp [timeline])
  | cons y ys ih =>
    have htake := takeWhile_eq_filter hsorted p
    rcases List.append_eq_append_iff.mp h with ⟨mid, rfl, hmid⟩ | ⟨mid, hpre, hmid⟩
    · cases mid with
      | nil => simp [htake]
      | cons t mid =>
        obtain ⟨rfl, hrest⟩ := List.cons.inj hmid
        have hdrop := ih (hsorted.sublist (List.dropWhile_sublist _)) hrest
        have hall : ∀ u ∈ us.takeWhile (fun u => time u ≤ p),
            decide (time u ≤ p + (1 + (items mid).length)) = true := by
          intro u hu
          have := List.mem_takeWhile_imp hu
          simp only [decide_eq_true_eq] at this ⊢
          omega
        rw [events_append, events_map_event, events_cons_item, items_append, items_map_event,
          items_cons_item, List.nil_append, List.length_cons, Nat.add_comm (items mid).length 1,
          hdrop, Nat.add_assoc]
        have hsplit : ∀ q, us.filter q = (us.takeWhile fun u => time u ≤ p).filter q ++
            (us.dropWhile fun u => time u ≤ p).filter q := fun q => by
          rw [← List.filter_append, List.takeWhile_append_dropWhile]
        rw [hsplit, List.filter_eq_self.mpr hall]
    · cases mid with
      | nil =>
        rw [List.append_nil] at hpre
        simp [← hpre, htake]
      | cons t mid =>
        obtain ⟨rfl, -⟩ := List.cons.inj hmid
        have hmem : item x ∈ (us.takeWhile fun u => time u ≤ p).map (event (α := α)) := by
          rw [hpre]
          exact List.mem_append_right _ (List.mem_cons_self ..)
        obtain ⟨u, -, hu⟩ := List.mem_map.mp hmem
        cases hu

/-! ## items with places -/

variable (time) in
/-- Items that have their place in the stream, each behind the events whose time has come. -/
def placedTimeline : List (α × Nat) → List β → List (Timed α β)
  | [], _ => []
  | (x, p) :: xs, us =>
    (us.takeWhile fun u => time u ≤ p).map event ++
      item x :: placedTimeline xs (us.dropWhile fun u => time u ≤ p)

variable (time) in
/-- The events whose time does not come at these items. -/
def placedLater : List (α × Nat) → List β → List β
  | [], us => us
  | (_, p) :: xs, us => placedLater xs (us.dropWhile fun u => time u ≤ p)

theorem timeline_eq_placed : timeline time p xs us = placedTimeline time (xs.zipIdx p) us ∧
    laterEvents time p xs us = placedLater time (xs.zipIdx p) us := by
  induction xs generalizing p us with
  | nil => exact ⟨rfl, rfl⟩
  | cons x xs ih =>
    rw [timeline, laterEvents, List.zipIdx_cons, placedTimeline, placedLater, ih.1, ih.2]
    exact ⟨rfl, rfl⟩

variable {places ps qs : List (α × Nat)}

theorem placedTimeline_append : placedTimeline time (ps ++ qs) us =
    placedTimeline time ps us ++ placedTimeline time qs (placedLater time ps us) := by
  induction ps generalizing us with
  | nil => rfl
  | cons q ps ih => simp [placedTimeline, placedLater, ih]

theorem items_placedTimeline : items (placedTimeline time places us) = places.map Prod.fst := by
  induction places generalizing us with
  | nil => rfl
  | cons q places ih => simp [placedTimeline, ih]

theorem events_placedTimeline :
    events (placedTimeline time places us) ++ placedLater time places us = us := by
  induction places generalizing us with
  | nil => rfl
  | cons q places ih => simp [placedTimeline, placedLater, ih]

theorem lt_of_dropWhile_cons {q : Nat} {v : β} {vs : List β}
    (h : us.dropWhile (fun u => time u ≤ q) = v :: vs) : q < time v := by
  have hhead := List.head?_dropWhile_not (fun u => decide (time u ≤ q)) us
  rw [h] at hhead
  simpa using hhead

/-- **The time of all events comes** when behind each of them there is an item. -/
theorem placedLater_eq_nil_iff (hinc : places.Pairwise fun q r => q.2 < r.2) :
    placedLater time places us = [] ↔ ∀ u ∈ us, ∃ q ∈ places, time u ≤ q.2 := by
  induction places generalizing us with
  | nil =>
    rw [placedLater, List.eq_nil_iff_forall_not_mem]
    simp
  | cons q places ih =>
    obtain ⟨hq, hplaces⟩ := List.pairwise_cons.mp hinc
    rw [placedLater, ih hplaces]
    constructor
    · intro h u hu
      rw [← List.takeWhile_append_dropWhile (p := fun u => decide (time u ≤ q.2)) (l := us)] at hu
      rcases List.mem_append.mp hu with hu | hu
      · exact ⟨q, List.mem_cons_self .., by simpa using List.mem_takeWhile_imp hu⟩
      · obtain ⟨r, hr, hle⟩ := h u hu
        exact ⟨r, List.mem_cons_of_mem _ hr, hle⟩
    · intro h u hu
      obtain ⟨v, vs, hv⟩ := List.exists_cons_of_ne_nil (List.ne_nil_of_mem hu)
      have hvmem : v ∈ us := (List.dropWhile_sublist _).subset (hv ▸ List.mem_cons_self ..)
      have hlt := lt_of_dropWhile_cons hv
      -- the item behind the first one that is left is behind `u` too, or `u` has its own
      obtain ⟨r, hr, hle⟩ := h v hvmem
      obtain ⟨r', hr', hle'⟩ := h u ((List.dropWhile_sublist _).subset hu)
      rcases List.mem_cons.mp hr with rfl | hmem
      · omega
      · rcases List.mem_cons.mp hr' with rfl | hmem'
        · exact ⟨r, hmem, by have := hq r hmem; omega⟩
        · exact ⟨r', hmem', hle'⟩

/-- No event comes behind an item at which its time has come. -/
def Timely (time : β → Nat) (places : List (α × Nat)) (ts : List (Timed α β)) : Prop :=
  ∀ pre x post, ts = pre ++ item x :: post → ∀ q, places[(items pre).length]? = some q →
    ∀ u ∈ events post, q.2 < time u

/-- What is behind an item are the events whose time had not come there. -/
theorem placedTimeline_split {pre post : List (Timed α β)} {x : α} {q : α × Nat}
    (hinc : places.Pairwise fun q r => q.2 < r.2)
    (h : placedTimeline time places us = pre ++ item x :: post)
    (hq : places[(items pre).length]? = some q) :
    events post ++ placedLater time places us = us.dropWhile fun u => time u ≤ q.2 := by
  induction places generalizing us pre with
  | nil => exact absurd h.symm (by simp [placedTimeline])
  | cons r places ih =>
    obtain ⟨hr, hplaces⟩ := List.pairwise_cons.mp hinc
    rcases List.append_eq_append_iff.mp h with ⟨mid, rfl, hmid⟩ | ⟨mid, hpre, hmid⟩
    · cases mid with
      | nil =>
        obtain ⟨-, rfl⟩ := List.cons.inj hmid
        obtain rfl : r = q := by simpa using hq
        exact events_placedTimeline
      | cons t mid =>
        obtain ⟨rfl, hrest⟩ := List.cons.inj hmid
        have hq' : places[(items mid).length]? = some q := by simpa using hq
        have hlt := hr q (List.mem_of_getElem? hq')
        rw [placedLater, ih hplaces hrest hq']
        have hbefore : ∀ u ∈ us.takeWhile (fun u => time u ≤ r.2),
            decide (time u ≤ q.2) = true := by
          intro u hu
          have := List.mem_takeWhile_imp hu
          simp only [decide_eq_true_eq] at this ⊢
          omega
        have hdrop : (us.takeWhile (fun u => time u ≤ r.2) ++
            us.dropWhile fun u => time u ≤ r.2).dropWhile (fun u => time u ≤ q.2) =
              (us.dropWhile fun u => time u ≤ r.2).dropWhile fun u => time u ≤ q.2 :=
          List.dropWhile_append_of_pos hbefore
        rw [← hdrop, List.takeWhile_append_dropWhile]
    · cases mid with
      | nil =>
        obtain ⟨-, rfl⟩ := List.cons.inj hmid
        rw [List.append_nil] at hpre
        obtain rfl : r = q := by simpa [← hpre] using hq
        exact events_placedTimeline
      | cons t mid =>
        obtain ⟨rfl, -⟩ := List.cons.inj hmid
        have hmem : item x ∈ (us.takeWhile fun u => time u ≤ r.2).map (event (α := α)) := by
          rw [hpre]
          exact List.mem_append_right _ (List.mem_cons_self ..)
        obtain ⟨u, -, hu⟩ := List.mem_map.mp hmem
        cases hu

theorem forall_mem_dropWhile_iff {p : β → Bool} :
    (∀ u ∈ us.dropWhile p, ¬ p u) ↔ us.Pairwise fun u v => p v → p u := by
  induction us with
  | nil => simp
  | cons u us ih =>
    cases hu : p u with
    | true =>
      rw [List.dropWhile_cons_of_pos hu, ih]
      simp [hu]
    | false =>
      simp only [List.dropWhile_cons, hu, Bool.false_eq_true, if_false, List.forall_mem_cons,
        List.pairwise_cons, not_false_eq_true, true_and]
      refine ⟨fun h => ⟨fun v hv => by simpa using h v hv, ?_⟩,
        fun h v hv => by simpa using h.1 v hv⟩
      exact List.pairwise_of_forall_mem_list fun v _ w hw hpw => absurd hpw (h w hw)

/-- **When all are in time**: nowhere in front of an item an event stands behind one that is due
after the item. -/
theorem timely_iff (hinc : places.Pairwise fun q r => q.2 < r.2)
    (hall : placedLater time places us = []) :
    Timely time places (placedTimeline time places us) ↔
      us.Pairwise fun u v => ∀ q ∈ places, time v ≤ q.2 → time u ≤ q.2 := by
  have hpair : (us.Pairwise fun u v => ∀ q ∈ places, time v ≤ q.2 → time u ≤ q.2) ↔
      ∀ q ∈ places, ∀ u ∈ us.dropWhile (fun u => time u ≤ q.2), q.2 < time u := by
    rw [List.pairwise_iff_forall_sublist]
    constructor
    · intro h q hq u hu
      have := forall_mem_dropWhile_iff (p := fun u => decide (time u ≤ q.2)).mpr
        (List.pairwise_iff_forall_sublist.mpr fun {v w} hvw => by simpa using h hvw q hq) u hu
      simpa using this
    · intro h u v huv q hq hle
      have := List.pairwise_iff_forall_sublist.mp
        ((forall_mem_dropWhile_iff (p := fun u => decide (time u ≤ q.2))).mp fun w hw => by
          simpa using h q hq w hw) huv
      simpa using this (by simpa using hle)
  rw [hpair]
  constructor
  · intro h q hq u hu
    obtain ⟨i, hi, rfl⟩ := List.mem_iff_getElem.mp hq
    have hlen : i < (items (placedTimeline time places us)).length := by
      rw [items_placedTimeline, List.length_map]
      exact hi
    obtain ⟨pre, x, post, hsplit, hpre⟩ := exists_item hlen
    have hplace : places[(items pre).length]? = some places[i] := by
      rw [hpre]
      exact List.getElem?_eq_getElem hi
    have hevents := placedTimeline_split hinc hsplit hplace
    rw [hall, List.append_nil] at hevents
    exact h pre x post hsplit _ hplace u (hevents ▸ hu)
  · intro h pre x post hsplit q hq u hu
    have hevents := placedTimeline_split hinc hsplit hq
    rw [hall, List.append_nil] at hevents
    exact h q (List.mem_of_getElem? hq) u (hevents ▸ hu)

end

end DolphinCore
