import DolphinCore.CoreTiming.QueueOrder

/-!
# DolphinCore.CoreTiming.Ledger

What becomes of a scheduled event.  A ledger books, next to the scheduler's state, the
events that were scheduled, those that were dispatched and those that were removed;
no function of the scheduler reads the books.
-/

namespace DolphinCore.CoreTiming

open Heap

/-- What a callback gets of its event.  Clock changes move the time, and a queue
numbers what it takes in; the ticket stays. -/
def Event.ticket (ev : Event) : EventType × Nat := (ev.type, ev.userdata)

structure Ledger where
  state : State
  scheduled : List (EventType × Nat)
  dispatched : List (EventType × Nat)
  removed : List (EventType × Nat)

namespace Ledger

def init (oc : OCFactor) : Ledger := ⟨CoreTiming.init oc, [], [], []⟩

/-- The tickets of the events of both queues. -/
def tickets (s : State) : List (EventType × Nat) :=
  (s.eventQueue.toList ++ s.tsQueue).map Event.ticket

/-- An action, with its entry in the books.  The books of a loaded state open with the
events that were saved. -/
def step (l : Ledger) (a : Action) : Option Ledger :=
  (CoreTiming.step l.state a).map fun s =>
    match a with
    | .scheduleEvent _ eventType userdata _ _ =>
        { l with state := s, scheduled := l.scheduled ++ [(eventType, userdata)] }
    | .dispatch =>
        { l with
          state := s
          dispatched := l.dispatched ++ ((popEvent l.state).map (·.1.ticket)).toList }
    | .removeEvent eventType =>
        { l with
          state := s
          removed := l.removed ++
            (l.state.eventQueue.toList.map Event.ticket).filter (·.1 = eventType) }
    | .removeAllEvents eventType =>
        { l with
          state := s
          removed := l.removed ++ (tickets l.state).filter (·.1 = eventType) }
    | .doStateRead saved =>
        ⟨s, (saved.events.map (SavedEvent.load s.eventTypes)).toList.map Event.ticket, [], []⟩
    | _ => { l with state := s }

/-- Every event scheduled is pending, was dispatched or was removed, as often as it was
scheduled. -/
def Balanced (l : Ledger) : Prop :=
  (l.dispatched ++ l.removed ++ tickets l.state).Perm l.scheduled

/-! ## the tickets after each function -/

theorem tickets_eq {s t : State} (hq : t.eventQueue = s.eventQueue) (ht : t.tsQueue = s.tsQueue) :
    tickets t = tickets s := by
  rw [tickets, tickets, hq, ht]

theorem tickets_pushEvent (s : State) (ev : Event) :
    (tickets (pushEvent s ev)).Perm (tickets s ++ [ev.ticket]) := by
  have hq := (pushEvent_perm s ev).map Event.ticket
  have hts : (pushEvent s ev).tsQueue = s.tsQueue := rfl
  rw [List.map_append] at hq
  rw [tickets, tickets, hts, List.map_append, List.map_append, List.append_assoc]
  refine (hq.append_right _).trans ?_
  rw [List.append_assoc]
  exact List.perm_append_comm.append_left _

theorem moveEvents_tsQueue (s : State) : (moveEvents s).tsQueue = [] := by
  obtain ⟨q, id, h⟩ := moveEvents_frame s
  rw [h]

/-- Moving events to the queue leaves the tickets of both queues together. -/
theorem tickets_moveEvents (s : State) : (tickets (moveEvents s)).Perm (tickets s) := by
  have hfold : ∀ (evs : List Event) (t : State), t.tsQueue = [] →
      (tickets (evs.foldl pushEvent t)).Perm (tickets t ++ evs.map Event.ticket) := by
    intro evs
    induction evs with
    | nil => simp
    | cons ev evs ih =>
        intro t ht
        refine (ih (pushEvent t ev) ht).trans ?_
        rw [List.map_cons, ← List.singleton_append, ← List.append_assoc]
        exact (tickets_pushEvent t ev).append_right _
  have h := hfold s.tsQueue { s with tsQueue := [] } rfl
  simpa [tickets, moveEvents] using h

/-- Removing takes out the tickets of that type in the queue and leaves the others. -/
theorem tickets_removeEvent (s : State) (eventType : EventType) :
    ((s.eventQueue.toList.map Event.ticket).filter (·.1 = eventType) ++
      tickets (removeEvent s eventType)).Perm (tickets s) := by
  obtain ⟨q, hq⟩ := removeEvent_frame s eventType
  have hts : (removeEvent s eventType).tsQueue = s.tsQueue := by rw [hq]
  have hmap : (s.eventQueue.toList.filter (·.type ≠ eventType)).map Event.ticket =
      (s.eventQueue.toList.map Event.ticket).filter (fun t => !decide (t.1 = eventType)) := by
    simp [List.filter_map, Function.comp_def, Event.ticket]
    rfl
  have hkept := (removeEvent_perm s eventType).map Event.ticket
  rw [hmap] at hkept
  rw [tickets, tickets, hts, List.map_append, List.map_append, ← List.append_assoc]
  refine ((hkept.append_left _).trans ?_).append_right _
  exact List.filter_append_perm _ _

theorem tickets_removeAllEvents (s : State) (eventType : EventType) :
    ((tickets s).filter (·.1 = eventType) ++ tickets (removeAllEvents s eventType)).Perm
      (tickets s) := by
  have hqueue : tickets (moveEvents s) = (moveEvents s).eventQueue.toList.map Event.ticket := by
    rw [tickets, moveEvents_tsQueue, List.append_nil]
  have hmoved := tickets_moveEvents s
  have hremoved := tickets_removeEvent (moveEvents s) eventType
  rw [← hqueue] at hremoved
  exact ((hmoved.symm.filter _).append_right _).trans (hremoved.trans hmoved)

theorem tickets_scheduleEvent (s : State) (cycles : Int) (eventType : EventType) (userdata : Nat)
    (frm : FromThread) (isCPU : Bool) :
    (tickets (scheduleEvent s cycles eventType userdata frm isCPU)).Perm
      (tickets s ++ [(eventType, userdata)]) := by
  rw [scheduleEvent]
  split
  · split
    · exact tickets_pushEvent s _
    · have hts : (forceExceptionCheck s cycles).tsQueue = s.tsQueue := by
        obtain ⟨slice, downcount, h⟩ := forceExceptionCheck_frame s cycles
        rw [h]
      rw [← tickets_eq (forceExceptionCheck_eventQueue s cycles) hts]
      exact tickets_pushEvent _ _
  · simp [tickets, Event.ticket]

/-! ## runs -/

/-- **Step lemma**: every action keeps the books balanced, and loading opens balanced ones. -/
theorem Balanced.step {l m : Ledger} {a : Action} (h : l.Balanced) (hs : l.step a = some m) :
    m.Balanced := by
  rw [Ledger.step, Option.map_eq_some_iff] at hs
  obtain ⟨s, hs, rfl⟩ := hs
  have hkeep {t : State} (ht : (tickets t).Perm (tickets l.state)) :
      Balanced { l with state := t } := (ht.append_left _).trans h
  have hremove {t : State} {out : List (EventType × Nat)}
      (ht : (out ++ tickets t).Perm (tickets l.state)) :
      Balanced { l with state := t, removed := l.removed ++ out } := by
    rw [Balanced, ← List.append_assoc, List.append_assoc _ out]
    exact (ht.append_left _).trans h
  have hdispatch {t : State} {out : List (EventType × Nat)}
      (ht : (out ++ tickets t).Perm (tickets l.state)) :
      Balanced { l with state := t, dispatched := l.dispatched ++ out } := by
    have hcomm : (out ++ l.removed).Perm (l.removed ++ out) := List.perm_append_comm
    have hswap := hcomm.append_left l.dispatched
    rw [← List.append_assoc, ← List.append_assoc] at hswap
    refine (hswap.append_right _).trans ?_
    rw [List.append_assoc]
    exact (ht.append_left _).trans h
  cases a with
  | scheduleEvent cycles eventType userdata frm isCPU =>
      cases hs
      have ht := tickets_scheduleEvent l.state cycles eventType userdata frm isCPU
      have hall := (ht.append_left (l.dispatched ++ l.removed)).trans
        (List.append_assoc .. ▸ h.append_right _)
      exact hall
  | dispatch =>
      rw [CoreTiming.step, Option.map_eq_some_iff] at hs
      obtain ⟨⟨evt, t⟩, hp, rfl⟩ := hs
      have hq := (popEvent_perm_cons hp).map Event.ticket
      have hts : t.tsQueue = l.state.tsQueue := by
        obtain ⟨_, _, _, rfl⟩ := popEvent_eq_some hp
        rfl
      have htickets : ([evt.ticket] ++ tickets t).Perm (tickets l.state) := by
        rw [tickets, tickets, hts, List.map_append, List.map_append, ← List.append_assoc]
        exact hq.symm.append_right _
      simp only [hp, Option.map_some, Option.toList_some]
      exact hdispatch htickets
  | removeEvent eventType =>
      cases hs
      exact hremove (tickets_removeEvent l.state eventType)
  | removeAllEvents eventType =>
      cases hs
      exact hremove (tickets_removeAllEvents l.state eventType)
  | moveEvents | doStateMeasure | doStateWrite | advanceBegin =>
      cases hs
      exact hkeep (tickets_moveEvents l.state)
  | adjustEventQueueTimes new old =>
      rw [CoreTiming.step, Option.ite_none_left_eq_some] at hs
      obtain ⟨_, ⟨⟩⟩ := hs
      refine hkeep ?_
      have hsame : Event.ticket ∘ adjustTime l.state.globalTimer new old = Event.ticket := rfl
      simp [tickets, adjustEventQueueTimes, hsame]
  | advanceEnd =>
      rw [CoreTiming.step, Option.ite_none_left_eq_some] at hs
      obtain ⟨_, ⟨⟩⟩ := hs
      exact hkeep (.refl _)
  | forceExceptionCheck cycles =>
      obtain ⟨slice, downcount, hf⟩ := forceExceptionCheck_frame l.state cycles
      rw [CoreTiming.step, hf] at hs
      cases hs
      exact hkeep (.refl _)
  | doStateRead saved =>
      cases hs
      have hts : (doStateRead l.state saved).tsQueue = [] := moveEvents_tsQueue _
      have htickets : (tickets (doStateRead l.state saved)).Perm ((saved.events.map
          (SavedEvent.load (doStateRead l.state saved).eventTypes)).toList.map Event.ticket) := by
        rw [tickets, hts, List.append_nil]
        exact (makeHeap_perm Event.gt _).toList.map Event.ticket
      exact htickets
  | execute | idle | registerEvent =>
      cases hs
      exact hkeep (.refl _)

/-- **No event is lost**: in every run of the scheduler, an event that was scheduled since the last
load is dispatched, removed or pending, exactly once. -/
theorem balanced_of_run {oc : OCFactor} {l : Ledger}
    (h : Run Ledger.step (fun _ _ => True) (Ledger.init oc) l) :
    (l.dispatched ++ l.removed ++ tickets l.state).Perm l.scheduled :=
  h.invariant (I := Balanced) (.refl _) fun _ _ _ h _ hs => h.step hs

/-- Two events from other threads, of which one is removed. -/
theorem balanced_of_run_twoEvents : ∃ l, Run Ledger.step (fun _ _ => True) (init .one) l ∧
    l.removed = [(⟨"ChangeSIDevice"⟩, 8)] ∧
    (l.dispatched ++ l.removed ++ tickets l.state).Perm l.scheduled := by
  have h : Run Ledger.step (fun _ _ => True) (init .one) _ :=
    .of_exec [.scheduleEvent 0 ⟨"VICallback"⟩ 7 .nonCPU false,
      .scheduleEvent 0 ⟨"ChangeSIDevice"⟩ 8 .nonCPU false, .removeAllEvents ⟨"ChangeSIDevice"⟩]
      (by simp) rfl
  exact ⟨_, h, rfl, balanced_of_run h⟩

end Ledger

/-! ## Advance -/

/-- The front of the queue is its least event, so that none is due where the front is not. -/
theorem lt_time_of_not_due {s : State} (h : IsHeap Event.gt s.eventQueue)
    (hdue : eventDue s = false) : ∀ e ∈ s.eventQueue, s.globalTimer < e.time := by
  intro e he
  have h0 : 0 < s.eventQueue.size := Array.size_pos_of_mem he
  rw [eventDue, dif_pos h0, decide_eq_false_iff_not, Int.not_le] at hdue
  have hle := (front_isLeast h h0).2 e he
  omega

/-- **`Advance`**, with callbacks that take any steps, takes only steps of the scheduler, and returns
with no event of the queue due. -/
theorem advance_settles {oc oc' : OCFactor} {s s' : State} (h : Run step KeepsOrder (init oc) s)
    {callback : Event → Int → State → State} {fuel : Nat}
    (hcallback : ∀ evt late s, Run step KeepsOrder s (callback evt late s))
    (ha : advance callback fuel oc' s = some s') :
    Run step KeepsOrder (init oc) s' ∧ ∀ e ∈ s'.eventQueue, s'.globalTimer < e.time := by
  have hok : ∀ s, KeepsOrder s .dispatch := fun _ => trivial
  rw [advance, Option.map_eq_some_iff] at ha
  obtain ⟨t, ht, rfl⟩ := ha
  obtain ⟨hloop, hdue⟩ := dispatchLoop_run hcallback hok fuel ht
  have hbegin : Run step KeepsOrder s (advanceBegin s oc') := .single (.advanceBegin oc') trivial rfl
  have hrun : Run step KeepsOrder (init oc) t := (h.trans hbegin).trans hloop
  have hheap : IsHeap Event.gt t.eventQueue :=
    hrun.invariant (isHeap_empty _) fun _ _ _ hI hok hs => step_isHeap hI hok hs
  exact ⟨.tail .advanceEnd hrun trivial (by simp [step, hdue]), lt_time_of_not_due hheap hdue⟩

/-- A callback that schedules itself again in 10000 cycles, called once. -/
theorem advance_settles_again : ∃ s', advance
      (fun evt late s => scheduleEvent s (10000 - late) evt.type 0 .cpu true) 3 .one
        (scheduleEvent (init .one) 0 ⟨"VICallback"⟩ 0 .cpu true) = some s' ∧
    ∀ e ∈ s'.eventQueue, s'.globalTimer < e.time := by
  obtain ⟨s', hs⟩ := Option.isSome_iff_exists.mp (show (advance
      (fun evt late s => scheduleEvent s (10000 - late) evt.type 0 .cpu true) 3 .one
        (scheduleEvent (init .one) 0 ⟨"VICallback"⟩ 0 .cpu true)).isSome = true by decide +kernel)
  refine ⟨s', hs, (advance_settles (.single (.scheduleEvent 0 ⟨"VICallback"⟩ 0 .cpu true)
    trivial rfl) ?_ hs).2⟩
  exact fun evt late s => .single (.scheduleEvent (10000 - late) evt.type 0 .cpu true) trivial rfl

end DolphinCore.CoreTiming
