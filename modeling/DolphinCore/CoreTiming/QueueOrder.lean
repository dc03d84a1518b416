import DolphinCore.CoreTiming.Step

/-!
# DolphinCore.CoreTiming.QueueOrder

`s_event_queue` as a min-heap for the order (time, `fifo_order`).  Every function
of the scheduler keeps it but one: `AdjustEventQueueTimes` rescales the times in
place.  Scaling is monotone, but it truncates, so a parent and a child with
different times can end up at the same time, and then their `fifo_order`s, which
the heap had no reason to keep in order, decide.
-/

namespace DolphinCore.CoreTiming

open Heap

/-! ## every function but the clock change -/

variable {s : State}

theorem pushEvent_isHeap (h : IsHeap Event.gt s.eventQueue) (ev : Event) :
    IsHeap Event.gt (pushEvent s ev).eventQueue :=
  pushHeap_push_isHeap Event.gt_strictWeak h _

theorem moveEvents_isHeap (h : IsHeap Event.gt s.eventQueue) :
    IsHeap Event.gt (moveEvents s).eventQueue :=
  moveEvents_invariant (I := fun s => IsHeap Event.gt s.eventQueue) h
    fun _ ev _ h => pushEvent_isHeap h ev

theorem scheduleEvent_isHeap (h : IsHeap Event.gt s.eventQueue) (cycles : Int)
    (eventType : EventType) (userdata : Nat) (frm : FromThread) (isCPU : Bool) :
    IsHeap Event.gt (scheduleEvent s cycles eventType userdata frm isCPU).eventQueue := by
  unfold scheduleEvent
  split
  · apply pushEvent_isHeap
    split
    · exact h
    · simpa using h
  · exact h

theorem removeEvent_isHeap (h : IsHeap Event.gt s.eventQueue) (eventType : EventType) :
    IsHeap Event.gt (removeEvent s eventType).eventQueue := by
  unfold removeEvent
  dsimp only
  split
  · exact makeHeap_isHeap Event.gt_strictWeak _
  · exact h

theorem popEvent_isHeap {s s' : State} {evt : Event} (h : IsHeap Event.gt s.eventQueue)
    (hp : popEvent s = some (evt, s')) : IsHeap Event.gt s'.eventQueue := by
  obtain ⟨_, _, _, rfl⟩ := popEvent_eq_some hp
  exact popHeap_pop_isHeap Event.gt_strictWeak h

/-! ## the clock change -/

/-- The remaining ticks of an event after the clock change. -/
def scaledTicks (globalTimer : Int) (newPPCClock oldPPCClock : Nat) (ev : Event) : Int :=
  ((ev.time - globalTimer) * newPPCClock).tdiv oldPPCClock

theorem scaledTicks_mono (globalTimer : Int) (new : Nat) {old : Nat} (hold : old ≠ 0) {e f : Event}
    (h : e.time ≤ f.time) :
    scaledTicks globalTimer new old e ≤ scaledTicks globalTimer new old f := by
  have hmul : (e.time - globalTimer) * new ≤ (f.time - globalTimer) * new :=
    Int.mul_le_mul_of_nonneg_right (by omega) (by omega)
  exact Int.tdiv_le_tdiv (Int.natCast_pos.mpr (Nat.pos_of_ne_zero hold)) hmul

theorem scaledTicks_congr (globalTimer : Int) (new old : Nat) {e f : Event} (h : e.time = f.time) :
    scaledTicks globalTimer new old e = scaledTicks globalTimer new old f := by
  rw [scaledTicks, scaledTicks, h]

@[simp] theorem adjustTime_time (globalTimer : Int) (new old : Nat) (ev : Event) :
    (adjustTime globalTimer new old ev).time = globalTimer + scaledTicks globalTimer new old ev :=
  rfl

@[simp] theorem adjustTime_fifoOrder (globalTimer : Int) (new old : Nat) (ev : Event) :
    (adjustTime globalTimer new old ev).fifoOrder = ev.fifoOrder := rfl

/-- The condition on a clock change: no parent and child of the heap that are due at
different times and were scheduled in the other order are rounded to one tick. -/
def ClockChangeKeepsOrder (s : State) (new old : Nat) : Prop :=
  ∀ j (hj : j < s.eventQueue.size) (hp : parent j < s.eventQueue.size),
    s.eventQueue[parent j].time < s.eventQueue[j].time →
    s.eventQueue[j].fifoOrder < s.eventQueue[parent j].fifoOrder →
    scaledTicks s.globalTimer new old s.eventQueue[parent j] ≠
      scaledTicks s.globalTimer new old s.eventQueue[j]

instance (s : State) (new old : Nat) : Decidable (ClockChangeKeepsOrder s new old) :=
  inferInstanceAs (Decidable (∀ j (hj : j < s.eventQueue.size) (hp : parent j < s.eventQueue.size),
    s.eventQueue[parent j].time < s.eventQueue[j].time →
    s.eventQueue[j].fifoOrder < s.eventQueue[parent j].fifoOrder →
    scaledTicks s.globalTimer new old s.eventQueue[parent j] ≠
      scaledTicks s.globalTimer new old s.eventQueue[j]))

theorem adjustEventQueueTimes_isHeap_iff (h : IsHeap Event.gt s.eventQueue) (new : Nat) {old : Nat}
    (hold : old ≠ 0) :
    IsHeap Event.gt (adjustEventQueueTimes s new old).eventQueue ↔
      ClockChangeKeepsOrder s new old := by
  unfold adjustEventQueueTimes
  rw [isHeap_map_iff]
  constructor
  · intro hheap j hj hp htime hfifo hscaled
    have hj' := hheap j hj hp
    rw [Event.gt_eq_false] at hj'
    simp only [adjustTime_time, adjustTime_fifoOrder] at hj'
    omega
  · intro hcond j hj hp
    have hj' := h j hj hp
    have hne := hcond j hj hp
    rw [Event.gt_eq_false] at hj' ⊢
    simp only [adjustTime_time, adjustTime_fifoOrder]
    rcases hj' with htime | ⟨htime, hfifo⟩
    · have hscaled := scaledTicks_mono s.globalTimer new hold (Int.le_of_lt htime)
      omega
    · have hscaled := scaledTicks_congr s.globalTimer new old htime
      omega

/-! ## runs -/

/-- An event of the queue that no other precedes: the order of `operator<`. -/
def IsLeast (s : State) (evt : Event) : Prop :=
  evt ∈ s.eventQueue ∧ ∀ e ∈ s.eventQueue,
    evt.time < e.time ∨ (evt.time = e.time ∧ evt.fifoOrder ≤ e.fifoOrder)

instance (s : State) (evt : Event) : Decidable (IsLeast s evt) :=
  inferInstanceAs (Decidable (_ ∧ _))

/-- The condition on the steps of a run: every clock change keeps the order. -/
def KeepsOrder (s : State) : Action → Prop
  | .adjustEventQueueTimes new old => ClockChangeKeepsOrder s new old
  | _ => True

theorem front_isLeast (h : IsHeap Event.gt s.eventQueue) (h0 : 0 < s.eventQueue.size) :
    IsLeast s s.eventQueue[0] := by
  refine ⟨Array.getElem_mem h0, ?_⟩
  intro e he
  rw [← Event.gt_eq_false]
  exact h.front_not_comp_mem Event.gt_strictWeak h0 e he

theorem advanceEnd_slice_le (h : IsHeap Event.gt s.eventQueue) {e : Event} (he : e ∈ s.eventQueue) :
    (advanceEnd s).globalTimer + (advanceEnd s).sliceLength ≤ e.time := by
  have h0 : 0 < s.eventQueue.size := Array.size_pos_of_mem he
  have hle := (front_isLeast h h0).2 e he
  simp only [advanceEnd, h0, dite_true]
  omega

theorem step_isHeap {s s' : State} {a : Action} (h : IsHeap Event.gt s.eventQueue)
    (hok : KeepsOrder s a) (hs : step s a = some s') : IsHeap Event.gt s'.eventQueue := by
  cases a with
  | dispatch =>
    simp only [step, Option.map_eq_some_iff] at hs
    obtain ⟨⟨evt, t⟩, hp, rfl⟩ := hs
    exact popEvent_isHeap h hp
  | adjustEventQueueTimes new old =>
    rw [step] at hs
    split at hs
    · contradiction
    · next hold =>
        cases hs
        exact (adjustEventQueueTimes_isHeap_iff h new hold).mpr hok
  | advanceEnd =>
    rw [step] at hs
    split at hs
    · contradiction
    · cases hs
      exact h
  | scheduleEvent cycles eventType userdata frm isCPU =>
    cases hs
    exact scheduleEvent_isHeap h cycles eventType userdata frm isCPU
  | forceExceptionCheck cycles =>
    cases hs
    rw [forceExceptionCheck_eventQueue]
    exact h
  | removeEvent eventType =>
    cases hs
    exact removeEvent_isHeap h eventType
  | removeAllEvents eventType =>
    cases hs
    exact removeEvent_isHeap (moveEvents_isHeap h) eventType
  | moveEvents =>
    cases hs
    exact moveEvents_isHeap h
  | advanceBegin oc =>
    cases hs
    exact moveEvents_isHeap h
  | doStateMeasure =>
    cases hs
    exact moveEvents_isHeap h
  | doStateWrite =>
    cases hs
    exact moveEvents_isHeap h
  | doStateRead saved =>
    cases hs
    exact makeHeap_isHeap Event.gt_strictWeak _
  | execute downcount =>
    cases hs
    exact h
  | idle =>
    cases hs
    exact h
  | registerEvent name =>
    cases hs
    exact h

/-- **Queue order**: in every run whose clock changes keep the order, the queue is a
min-heap, its front is the least pending event, that is the event dispatched next,
and the next slice ends no later than any event is due. -/
theorem eventQueue_ordered {oc : OCFactor} {s : State} (h : Run step KeepsOrder (init oc) s) :
    IsHeap Event.gt s.eventQueue ∧ (∀ h0 : 0 < s.eventQueue.size, IsLeast s s.eventQueue[0]) ∧
      (∀ evt s', popEvent s = some (evt, s') → IsLeast s evt) ∧
      (∀ e ∈ s.eventQueue, (advanceEnd s).globalTimer + (advanceEnd s).sliceLength ≤ e.time) := by
  have hheap : IsHeap Event.gt s.eventQueue :=
    h.invariant (isHeap_empty _) fun _ _ _ hI hok hs => step_isHeap hI hok hs
  refine ⟨hheap, front_isLeast hheap, ?_, fun e he => advanceEnd_slice_le hheap he⟩
  intro evt s' hp
  obtain ⟨h0, rfl, _, _⟩ := popEvent_eq_some hp
  exact front_isLeast hheap h0

/-- In the first slice, an event due in 1000 cycles and then one due in 999. -/
def scheduleLateThenEarly : List Action :=
  [.advanceBegin .one, .advanceEnd,
    .scheduleEvent 1000 ⟨"VICallback"⟩ 0 .cpu true, .scheduleEvent 999 ⟨"DSPCallback"⟩ 0 .cpu true]

/-- The queue after `scheduleLateThenEarly`: the second event is the root. -/
def lateThenEarly : State :=
  let s := advanceEnd (advanceBegin (init .one) .one)
  let s := scheduleEvent s 1000 ⟨"VICallback"⟩ 0 .cpu true
  scheduleEvent s 999 ⟨"DSPCallback"⟩ 0 .cpu true

theorem lateThenEarly_run {ok : State → Action → Prop}
    (hok : ∀ s, ∀ a ∈ scheduleLateThenEarly, ok s a) : Run step ok (init .one) lateThenEarly :=
  Run.of_exec _ hok rfl

/-- From 486 MHz to 729 MHz the two events stay apart. -/
theorem eventQueue_ordered_speedUp :
    IsHeap Event.gt (adjustEventQueueTimes lateThenEarly 729000000 486000000).eventQueue :=
  (eventQueue_ordered ((lateThenEarly_run (by simp [scheduleLateThenEarly, KeepsOrder])).tail
    (.adjustEventQueueTimes 729000000 486000000)
    (show ClockChangeKeepsOrder lateThenEarly _ _ by decide +kernel) rfl)).1

/-- From 729 MHz to 486 MHz both fall on tick 666, the later one still in front. -/
theorem eventQueue_unordered_slowDown :
    ∃ s, Run step (fun _ _ => True) (init .one) s ∧ ¬ IsHeap Event.gt s.eventQueue ∧
      ∃ h0 : 0 < s.eventQueue.size, ¬ IsLeast s s.eventQueue[0] :=
  ⟨adjustEventQueueTimes lateThenEarly 486000000 729000000,
    (lateThenEarly_run (by simp)).tail (.adjustEventQueueTimes 486000000 729000000) trivial rfl,
    by decide +kernel, by decide +kernel⟩

end DolphinCore.CoreTiming
