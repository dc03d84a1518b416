import DolphinCore.CoreTiming.Basic
import DolphinCore.Lib.Run

/-!
# DolphinCore.CoreTiming.Step

The scheduler as a transition system.  `Advance` and `ProcessFifoWaitEvents` are
cut at their callbacks: `advanceBegin` (or `moveEvents`), then `dispatch` for each
event popped, then `advanceEnd`; whatever a callback does is further actions
between a `dispatch` and the next one.  So a run of actions covers every
interleaving of the CPU thread, of the callbacks and of the other threads.
-/

namespace DolphinCore.CoreTiming

/-- One atomic step of some thread. -/
inductive Action
  /-- The CPU executes and leaves `downcount` behind. -/
  | execute (downcount : Int)
  | scheduleEvent (cyclesIntoFuture : Int) (eventType : EventType) (userdata : Nat)
      (frm : FromThread) (isCPUThread : Bool)
  | forceExceptionCheck (cycles : Int)
  | removeEvent (eventType : EventType)
  | removeAllEvents (eventType : EventType)
  | moveEvents
  | idle
  | advanceBegin (oc : OCFactor)
  | dispatch
  | advanceEnd
  | adjustEventQueueTimes (newPPCClock oldPPCClock : Nat)
  | doStateMeasure
  | doStateWrite
  | doStateRead (saved : SavedState)
  | registerEvent (name : String)

/-- The effect of an action; `none` where the source cannot take it. -/
def step (s : State) : Action → Option State
  | .execute downcount => some { s with downcount := downcount }
  | .scheduleEvent cycles eventType userdata frm isCPU =>
    some (scheduleEvent s cycles eventType userdata frm isCPU)
  | .forceExceptionCheck cycles => some (forceExceptionCheck s cycles)
  | .removeEvent eventType => some (removeEvent s eventType)
  | .removeAllEvents eventType => some (removeAllEvents s eventType)
  | .moveEvents => some (moveEvents s)
  | .idle => some (idle s)
  | .advanceBegin oc => some (advanceBegin s oc)
  | .dispatch => (popEvent s).map Prod.snd
  | .advanceEnd => if eventDue s then none else some (advanceEnd s)
  | .adjustEventQueueTimes new old => if old = 0 then none else some (adjustEventQueueTimes s new old)
  | .doStateMeasure => some (doStateMeasure s)
  | .doStateWrite => some (doStateWrite s).2
  | .doStateRead saved => some (doStateRead s saved)
  | .registerEvent name => some (registerEvent s name)

/-! ## what the parts of a step do to the queue -/

variable {s s' : State}

theorem popEvent_eq_some {evt : Event} (h : popEvent s = some (evt, s')) :
    ∃ h0 : 0 < s.eventQueue.size, evt = s.eventQueue[0] ∧ s.eventQueue[0].time ≤ s.globalTimer ∧
      s' = { s with eventQueue := (Heap.popHeap Event.gt s.eventQueue).pop } := by
  unfold popEvent at h
  split at h
  · next h0 =>
      split at h
      · next hdue =>
          rw [Option.some.injEq, Prod.mk.injEq] at h
          exact ⟨h0, h.1.symm, hdue, h.2.symm⟩
      · contradiction
  · contradiction

theorem popEvent_eq_none_iff {s : State} : popEvent s = none ↔ eventDue s = false := by
  unfold popEvent eventDue
  split
  · split <;> simp [*]
  · simp

theorem pushEvent_perm (s : State) (ev : Event) : (pushEvent s ev).eventQueue.toList.Perm
    (s.eventQueue.toList ++ [{ ev with fifoOrder := s.eventFifoId }]) := by
  have hp := (Heap.pushHeap_perm Event.gt
    (s.eventQueue.push { ev with fifoOrder := s.eventFifoId })).toList
  rw [Array.toList_push] at hp
  exact hp

theorem popEvent_perm_cons {evt : Event} (h : popEvent s = some (evt, s')) :
    s.eventQueue.toList.Perm (evt :: s'.eventQueue.toList) := by
  obtain ⟨h0, rfl, _, rfl⟩ := popEvent_eq_some h
  have hpop := (Heap.popHeap_pop_perm Event.gt s.eventQueue h0).toList
  rw [Array.toList_push] at hpop
  exact hpop.symm.trans (List.perm_append_singleton _ _)

theorem popEvent_perm {evt : Event} (h : popEvent s = some (evt, s')) :
    (s.eventQueue.toList.erase evt).Perm s'.eventQueue.toList := by
  have hperm := (popEvent_perm_cons h).erase evt
  rw [List.erase_cons_head] at hperm
  exact hperm

theorem forceExceptionCheck_frame (s : State) (cycles : Int) : ∃ slice downcount,
    forceExceptionCheck s cycles = { s with sliceLength := slice, downcount := downcount } := by
  unfold forceExceptionCheck
  split
  · exact ⟨_, _, rfl⟩
  · exact ⟨_, _, rfl⟩

@[simp] theorem forceExceptionCheck_eventQueue (s : State) (cycles : Int) :
    (forceExceptionCheck s cycles).eventQueue = s.eventQueue := by
  obtain ⟨slice, downcount, h⟩ := forceExceptionCheck_frame s cycles
  rw [h]

@[simp] theorem forceExceptionCheck_eventFifoId (s : State) (cycles : Int) :
    (forceExceptionCheck s cycles).eventFifoId = s.eventFifoId := by
  obtain ⟨slice, downcount, h⟩ := forceExceptionCheck_frame s cycles
  rw [h]

@[simp] theorem forceExceptionCheck_globalTimer (s : State) (cycles : Int) :
    (forceExceptionCheck s cycles).globalTimer = s.globalTimer := by
  obtain ⟨slice, downcount, h⟩ := forceExceptionCheck_frame s cycles
  rw [h]

@[simp] theorem forceExceptionCheck_isGlobalTimerSane (s : State) (cycles : Int) :
    (forceExceptionCheck s cycles).isGlobalTimerSane = s.isGlobalTimerSane := by
  obtain ⟨slice, downcount, h⟩ := forceExceptionCheck_frame s cycles
  rw [h]

theorem removeEvent_frame (s : State) (eventType : EventType) :
    ∃ q, removeEvent s eventType = { s with eventQueue := q } := by
  unfold removeEvent
  dsimp only
  split
  · exact ⟨_, rfl⟩
  · exact ⟨_, rfl⟩

@[simp] theorem removeEvent_eventFifoId (s : State) (eventType : EventType) :
    (removeEvent s eventType).eventFifoId = s.eventFifoId := by
  obtain ⟨q, h⟩ := removeEvent_frame s eventType
  rw [h]

theorem removeEvent_perm (s : State) (eventType : EventType) :
    (removeEvent s eventType).eventQueue.toList.Perm
      (s.eventQueue.toList.filter (·.type ≠ eventType)) := by
  have hkept : (s.eventQueue.filter (·.type ≠ eventType)).toList =
      s.eventQueue.toList.filter (·.type ≠ eventType) := Array.toList_filter
  unfold removeEvent
  dsimp only
  split
  · rw [← hkept]
    exact (Heap.makeHeap_perm Event.gt _).toList
  · next hsize =>
      have hlen : (s.eventQueue.toList.filter (·.type ≠ eventType)).length =
          s.eventQueue.toList.length := by
        rw [← hkept, Array.length_toList, Array.length_toList]
        exact Classical.not_not.mp hsize
      rw [List.filter_eq_self.mpr (List.length_filter_eq_length_iff.mp hlen)]

/-! ## moving events -/

theorem moveEvents_invariant {I : State → Prop} {s : State} (h0 : I { s with tsQueue := [] })
    (hpush : ∀ t, ∀ ev ∈ s.tsQueue, I t → I (pushEvent t ev)) : I (moveEvents s) := by
  unfold moveEvents
  generalize { s with tsQueue := [] } = t at h0
  generalize s.tsQueue = evs at hpush
  induction evs generalizing t with
  | nil => exact h0
  | cons ev evs ih =>
    have hev : I (pushEvent t ev) := hpush t ev (List.mem_cons_self ..) h0
    exact ih _ hev fun t e he => hpush t e (List.mem_cons_of_mem _ he)

theorem moveEvents_frame (s : State) : ∃ q id,
    moveEvents s = { s with eventQueue := q, eventFifoId := id, tsQueue := [] } := by
  have hframe : ∃ q id, moveEvents s =
      { { s with tsQueue := [] } with eventQueue := q, eventFifoId := id } :=
    moveEvents_invariant (s := s)
      (I := fun t => ∃ q id, t = { { s with tsQueue := [] } with eventQueue := q, eventFifoId := id })
      ⟨_, _, rfl⟩ (by rintro t ev - ⟨q, id, rfl⟩; exact ⟨_, _, rfl⟩)
  obtain ⟨q, id, h⟩ := hframe
  exact ⟨q, id, h⟩

@[simp] theorem moveEvents_eventTypes (s : State) : (moveEvents s).eventTypes = s.eventTypes := by
  obtain ⟨q, id, h⟩ := moveEvents_frame s
  rw [h]

/-! ## the source's loops as runs of actions -/

variable {callback : Event → Int → State → State} {ok : State → Action → Prop}

theorem dispatchLoop_run (hcb : ∀ evt late s, Run step ok s (callback evt late s))
    (hok : ∀ s, ok s .dispatch) :
    ∀ fuel {s s' : State}, dispatchLoop callback fuel s = some s' →
      Run step ok s s' ∧ eventDue s' = false
  | 0, s, s', h => by simp [dispatchLoop] at h
  | fuel + 1, s, s', h => by
    rw [dispatchLoop] at h
    cases hp : popEvent s with
    | none =>
      rw [hp] at h
      have hs : s = s' := by simpa using h
      subst hs
      exact ⟨.refl, popEvent_eq_none_iff.mp hp⟩
    | some p =>
      obtain ⟨evt, s₁⟩ := p
      rw [hp] at h
      have hd : Run step ok s s₁ := .single .dispatch (hok s) (by simp [step, hp])
      obtain ⟨hr, hdue⟩ := dispatchLoop_run hcb hok fuel h
      exact ⟨(hd.trans (hcb _ _ _)).trans hr, hdue⟩

theorem advance_run (hcb : ∀ evt late s, Run step ok s (callback evt late s))
    (hok : ∀ s, ok s .dispatch) {oc : OCFactor} (hbegin : ∀ s, ok s (.advanceBegin oc))
    (hend : ∀ s, ok s .advanceEnd) {fuel : Nat} (h : advance callback fuel oc s = some s') :
    Run step ok s s' := by
  unfold advance at h
  rw [Option.map_eq_some_iff] at h
  obtain ⟨t, ht, rfl⟩ := h
  obtain ⟨hr, hdue⟩ := dispatchLoop_run hcb hok fuel ht
  have hb : Run step ok s (advanceBegin s oc) := .single _ (hbegin s) rfl
  exact .tail .advanceEnd (hb.trans hr) (hend t) (by simp [step, hdue])

theorem processFifoWaitEvents_run (hcb : ∀ evt late s, Run step ok s (callback evt late s))
    (hok : ∀ s, ok s .dispatch) (hmove : ∀ s, ok s .moveEvents) {fuel : Nat}
    (h : processFifoWaitEvents callback fuel s = some s') : Run step ok s s' := by
  have hm : Run step ok s (moveEvents s) := .single .moveEvents (hmove s) rfl
  exact hm.trans (dispatchLoop_run hcb hok fuel h).1

end DolphinCore.CoreTiming
