import DolphinCore.CoreTiming.QueueOrder

/-!
# DolphinCore.CoreTiming.FifoOrder

`fifo_order` as the order in which events were added to the queue, in sessions that
save and load states.  A session carries, next to the scheduler's state, the pending
events listed in the order they were added: the list says what the numbers are for,
and no function of the scheduler reads it.
-/

namespace DolphinCore.CoreTiming

open Heap

/-! ## numbering -/

/-- Events as `MoveEvents` numbers them, from the counter `id` on. -/
def numberFrom (id : Nat) : List Event → List Event
  | [] => []
  | ev :: evs => { ev with fifoOrder := id } :: numberFrom (nextFifoId id) evs

theorem nextFifoId_of_lt {id : Nat} (h : id + 1 < 2 ^ 64) : nextFifoId id = id + 1 :=
  Nat.mod_eq_of_lt h

theorem foldl_pushEvent_eventFifoId : (evs : List Event) → (s : State) →
    s.eventFifoId + evs.length < 2 ^ 64 →
    (evs.foldl pushEvent s).eventFifoId = s.eventFifoId + evs.length
  | [], _, _ => rfl
  | ev :: evs, s, hid => by
    rw [List.length_cons] at hid
    have hnext : (pushEvent s ev).eventFifoId = s.eventFifoId + 1 :=
      nextFifoId_of_lt (by omega)
    rw [List.foldl_cons, foldl_pushEvent_eventFifoId evs _ (by omega), hnext, List.length_cons]
    omega

theorem moveEvents_eventFifoId {s : State} (hid : s.eventFifoId + s.tsQueue.length < 2 ^ 64) :
    (moveEvents s).eventFifoId = s.eventFifoId + s.tsQueue.length :=
  foldl_pushEvent_eventFifoId s.tsQueue { s with tsQueue := [] } hid

/-- The pending events of `s` in the order they were added: their numbers increase
along the list and stay below the counter. -/
structure InOrder (s : State) (order : List Event) : Prop where
  perm : order.Perm s.eventQueue.toList
  sorted : order.Pairwise fun e f => e.fifoOrder < f.fifoOrder
  below : ∀ e ∈ order, e.fifoOrder < s.eventFifoId

namespace InOrder

variable {s t : State} {order : List Event}

theorem congr (h : InOrder s order) (hq : t.eventQueue = s.eventQueue)
    (hid : t.eventFifoId = s.eventFifoId) : InOrder t order where
  perm := by rw [hq]; exact h.perm
  sorted := h.sorted
  below := by rw [hid]; exact h.below

theorem push (h : InOrder s order) (hid : s.eventFifoId + 1 < 2 ^ 64) (ev : Event) :
    InOrder (pushEvent s ev) (order ++ [{ ev with fifoOrder := s.eventFifoId }]) where
  perm := (h.perm.append_right _).trans (pushEvent_perm s ev).symm
  sorted := by
    rw [List.pairwise_append]
    refine ⟨h.sorted, List.pairwise_singleton .., ?_⟩
    simpa using h.below
  below := by
    have hnext : (pushEvent s ev).eventFifoId = s.eventFifoId + 1 := nextFifoId_of_lt hid
    rw [hnext, List.forall_mem_append, List.forall_mem_singleton]
    exact ⟨fun e he => Nat.lt_succ_of_lt (h.below e he), Nat.lt_succ_self _⟩

theorem foldl_push : {s : State} → {order : List Event} → InOrder s order →
    (evs : List Event) → s.eventFifoId + evs.length < 2 ^ 64 →
    InOrder (evs.foldl pushEvent s) (order ++ numberFrom s.eventFifoId evs)
  | s, order, h, [], _ => by
    rw [numberFrom, List.append_nil]
    exact h
  | s, order, h, ev :: evs, hid => by
    rw [List.length_cons] at hid
    have hnext : (pushEvent s ev).eventFifoId = s.eventFifoId + 1 :=
      nextFifoId_of_lt (by omega)
    have hin := foldl_push (h.push (by omega) ev) evs (by omega)
    rw [List.append_assoc] at hin
    exact hin

theorem moveEvents (h : InOrder s order) (hid : s.eventFifoId + s.tsQueue.length < 2 ^ 64) :
    InOrder (moveEvents s) (order ++ numberFrom s.eventFifoId s.tsQueue) :=
  foldl_push (h.congr (t := { s with tsQueue := [] }) rfl rfl) s.tsQueue hid

theorem removeEvent (h : InOrder s order) (eventType : EventType) :
    InOrder (removeEvent s eventType) (order.filter (·.type ≠ eventType)) where
  perm := (h.perm.filter _).trans (removeEvent_perm s eventType).symm
  sorted := h.sorted.filter _
  below e he := by
    rw [removeEvent_eventFifoId]
    exact h.below e (List.mem_of_mem_filter he)

theorem pop (h : InOrder s order) {evt : Event} (hp : popEvent s = some (evt, t)) :
    InOrder t (order.erase evt) where
  perm := (h.perm.erase evt).trans (popEvent_perm hp)
  sorted := h.sorted.sublist (List.erase_sublist ..)
  below e he := by
    obtain ⟨_, _, _, rfl⟩ := popEvent_eq_some hp
    exact h.below e (List.mem_of_mem_erase he)

theorem adjust (h : InOrder s order) (new old : Nat) :
    InOrder (adjustEventQueueTimes s new old) (order.map (adjustTime s.globalTimer new old)) where
  perm := by
    have hmap : (adjustEventQueueTimes s new old).eventQueue.toList =
        s.eventQueue.toList.map (adjustTime s.globalTimer new old) := Array.toList_map
    rw [hmap]
    exact h.perm.map _
  sorted := by
    rw [List.pairwise_map]
    exact h.sorted
  below := by
    rw [List.forall_mem_map]
    exact h.below

theorem dispatched_first (h : InOrder s order) {evt : Event} (hl : IsLeast s evt) :
    ∃ before after, order = before ++ evt :: after ∧ ∀ e ∈ before, evt.time < e.time := by
  have hmem : evt ∈ order := h.perm.mem_iff.mpr (Array.mem_toList_iff.mpr hl.1)
  obtain ⟨before, after, horder⟩ := List.append_of_mem hmem
  refine ⟨before, after, horder, ?_⟩
  intro e he
  have hsorted := h.sorted
  rw [horder, List.pairwise_append] at hsorted
  have hlt := hsorted.2.2 e he evt (List.mem_cons_self ..)
  have hin : e ∈ s.eventQueue :=
    Array.mem_toList_iff.mp (h.perm.mem_iff.mp (horder ▸ List.mem_append_left _ he))
  have hle := hl.2 e hin
  omega

end InOrder

/-! ## sessions with savestates -/

/-- The scheduler, its pending events in the order they were added, and the
savestates taken so far, each with that order. -/
structure Session where
  state : State
  order : List Event
  saves : List (SavedState × List Event)

def Session.init (oc : OCFactor) : Session := ⟨CoreTiming.init oc, [], []⟩

inductive SessionAction
  | act (a : Action)
  | save
  /-- Load the `i`-th of the savestates taken so far. -/
  | load (i : Nat)

/-- The pending events after a step, in the order they were added. -/
def orderAfter (s : State) (order : List Event) : Action → List Event
  | .scheduleEvent cycles eventType userdata frm isCPU =>
    if fromCPUThread frm isCPU then
      order ++ [⟨getTicks s + cycles, s.eventFifoId, userdata, eventType⟩]
    else order
  | .removeEvent eventType => order.filter (·.type ≠ eventType)
  | .removeAllEvents eventType =>
    (order ++ numberFrom s.eventFifoId s.tsQueue).filter (·.type ≠ eventType)
  | .moveEvents | .advanceBegin _ | .doStateMeasure =>
    order ++ numberFrom s.eventFifoId s.tsQueue
  | .dispatch =>
    match popEvent s with
    | some (evt, _) => order.erase evt
    | none => order
  | .adjustEventQueueTimes new old => order.map (adjustTime s.globalTimer new old)
  | _ => order

/-- Saving and loading go through `save` and `load` only. -/
def Session.step (s : Session) : SessionAction → Option Session
  | .act .doStateWrite | .act (.doStateRead _) => none
  | .act a =>
    (CoreTiming.step s.state a).map fun t =>
      { s with state := t, order := orderAfter s.state s.order a }
  | .save =>
    let (saved, t) := doStateWrite s.state
    let order := s.order ++ numberFrom s.state.eventFifoId s.state.tsQueue
    some ⟨t, order, s.saves ++ [(saved, order)]⟩
  | .load i =>
    s.saves[i]?.map fun (saved, order) =>
      { s with
        state := doStateRead s.state saved
        order := order.map fun ev => ev.save.load s.state.eventTypes }

/-- A savestate that holds no number from the counter on that its load leaves, the
counter saved plus the off-thread events pending at the load. -/
def Loadable (s : State) (saved : SavedState) : Prop :=
  saved.eventFifoId + s.tsQueue.length < 2 ^ 64 ∧
    ∀ e ∈ saved.events, e.fifoOrder < saved.eventFifoId + s.tsQueue.length

instance (s : State) (saved : SavedState) : Decidable (Loadable s saved) :=
  inferInstanceAs (Decidable (_ ∧ _))

/-- The condition on the steps of a session: the 64-bit counter does not wrap, only
loadable savestates are loaded, and clock changes keep the order. -/
def KeepsNumbering (s : Session) : SessionAction → Prop
  | .act (.scheduleEvent ..) => s.state.eventFifoId + 1 < 2 ^ 64
  | .act (.removeAllEvents _) | .act .moveEvents | .act (.advanceBegin _)
  | .act .doStateMeasure | .save => s.state.eventFifoId + s.state.tsQueue.length < 2 ^ 64
  | .act (.adjustEventQueueTimes new old) => ClockChangeKeepsOrder s.state new old
  | .act _ => True
  | .load i => ∀ p ∈ s.saves[i]?, Loadable s.state p.1

@[simp] theorem keepsNumbering_load {s : Session} {i : Nat} :
    KeepsNumbering s (.load i) ↔ ∀ p ∈ s.saves[i]?, Loadable s.state p.1 := Iff.rfl

/-- A savestate holds the events of its list, with their numbers. -/
structure SavedInOrder (saved : SavedState) (order : List Event) : Prop where
  perm : (order.map Event.save).Perm saved.events.toList
  sorted : order.Pairwise fun e f => e.fifoOrder < f.fifoOrder

theorem InOrder.save {s : State} {order : List Event} (h : InOrder s order)
    (hid : s.eventFifoId + s.tsQueue.length < 2 ^ 64) :
    SavedInOrder (doStateWrite s).1 (order ++ numberFrom s.eventFifoId s.tsQueue) where
  perm := by
    have hevents : (doStateWrite s).1.events.toList =
        (CoreTiming.moveEvents s).eventQueue.toList.map Event.save := Array.toList_map
    rw [hevents]
    exact (h.moveEvents hid).perm.map Event.save
  sorted := (h.moveEvents hid).sorted

theorem SavedInOrder.load {saved : SavedState} {order : List Event} (h : SavedInOrder saved order)
    {s : State} (hl : Loadable s saved) :
    InOrder (doStateRead s saved) (order.map fun ev => ev.save.load s.eventTypes) where
  perm := by
    have hload : (saved.events.map (SavedEvent.load s.eventTypes)).toList =
        saved.events.toList.map (SavedEvent.load s.eventTypes) := Array.toList_map
    have hp := h.perm.map (SavedEvent.load s.eventTypes)
    rw [← hload, List.map_map] at hp
    have hheap : (doStateRead s saved).eventQueue.toList.Perm
        (saved.events.map (SavedEvent.load s.eventTypes)).toList := by
      simp only [doStateRead, moveEvents_eventTypes]
      exact (makeHeap_perm Event.gt _).toList
    exact hp.trans hheap.symm
  sorted := by
    rw [List.pairwise_map]
    exact h.sorted
  below := by
    have hcount : (doStateRead s saved).eventFifoId = saved.eventFifoId + s.tsQueue.length :=
      moveEvents_eventFifoId hl.1
    rw [hcount, List.forall_mem_map]
    intro ev hev
    exact hl.2 ev.save
      (Array.mem_toList_iff.mp (h.perm.mem_iff.mp (List.mem_map_of_mem hev)))

/-! ## runs -/

/-- What every session keeps. -/
structure Session.Good (s : Session) : Prop where
  heap : IsHeap Event.gt s.state.eventQueue
  inOrder : InOrder s.state s.order
  saved : ∀ p ∈ s.saves, SavedInOrder p.1 p.2

/-- The queue and the numbering after an action of the scheduler. -/
theorem InOrder.step {s : Session} {t : State} {a : Action} (h : InOrder s.state s.order)
    (hok : KeepsNumbering s (.act a)) (hs : CoreTiming.step s.state a = some t)
    (hsave : a ≠ .doStateWrite) (hload : ∀ saved, a ≠ .doStateRead saved) :
    InOrder t (orderAfter s.state s.order a) := by
  cases a with
  | scheduleEvent cycles eventType userdata frm isCPU =>
    cases hs
    rw [orderAfter, scheduleEvent]
    split
    · split
      · exact h.push hok _
      · have hforce : InOrder (forceExceptionCheck s.state cycles) s.order :=
          h.congr (by simp) (by simp)
        have hid : (forceExceptionCheck s.state cycles).eventFifoId + 1 < 2 ^ 64 := by
          rw [forceExceptionCheck_eventFifoId]
          exact hok
        have hpush := hforce.push hid ⟨getTicks s.state + cycles, 0, userdata, eventType⟩
        rw [forceExceptionCheck_eventFifoId] at hpush
        exact hpush
    · exact h.congr rfl rfl
  | removeEvent eventType =>
    cases hs
    exact h.removeEvent eventType
  | removeAllEvents eventType =>
    cases hs
    exact (h.moveEvents hok).removeEvent eventType
  | moveEvents =>
    cases hs
    exact h.moveEvents hok
  | advanceBegin oc =>
    cases hs
    exact (h.moveEvents hok).congr rfl rfl
  | doStateMeasure =>
    cases hs
    exact h.moveEvents hok
  | dispatch =>
    simp only [CoreTiming.step, Option.map_eq_some_iff] at hs
    obtain ⟨⟨evt, u⟩, hp, rfl⟩ := hs
    rw [orderAfter, hp]
    exact h.pop hp
  | advanceEnd =>
    rw [CoreTiming.step] at hs
    split at hs
    · contradiction
    · cases hs
      exact h.congr rfl rfl
  | adjustEventQueueTimes new old =>
    rw [CoreTiming.step] at hs
    split at hs
    · contradiction
    · cases hs
      exact h.adjust new old
  | doStateWrite => exact absurd rfl hsave
  | doStateRead saved => exact absurd rfl (hload saved)
  | forceExceptionCheck cycles =>
    cases hs
    exact h.congr (by simp) (by simp)
  | execute downcount =>
    cases hs
    exact h.congr rfl rfl
  | idle =>
    cases hs
    exact h.congr rfl rfl
  | registerEvent name =>
    cases hs
    exact h.congr rfl rfl

theorem Session.step_act {s t : Session} {a : Action} (h : s.step (.act a) = some t) :
    a ≠ .doStateWrite ∧ (∀ saved, a ≠ .doStateRead saved) ∧
      ∃ u, CoreTiming.step s.state a = some u ∧
        t = { s with state := u, order := orderAfter s.state s.order a } := by
  unfold Session.step at h
  split at h
  · contradiction
  · contradiction
  · next a' hw hr heq =>
      cases heq
      rw [Option.map_eq_some_iff] at h
      obtain ⟨u, hu, rfl⟩ := h
      exact ⟨hw, hr, u, hu, rfl⟩
  · next heq => cases heq
  · next heq => cases heq

theorem Session.step_good {s t : Session} {a : SessionAction} (h : s.Good)
    (hok : KeepsNumbering s a) (hs : s.step a = some t) : t.Good := by
  cases a with
  | act a =>
    obtain ⟨hw, hr, u, hu, rfl⟩ := Session.step_act hs
    refine ⟨step_isHeap h.heap ?_ hu, h.inOrder.step hok hu hw hr, h.saved⟩
    cases a <;> trivial
  | save =>
    cases hs
    refine ⟨moveEvents_isHeap h.heap, h.inOrder.moveEvents hok, ?_⟩
    rw [List.forall_mem_append, List.forall_mem_singleton]
    exact ⟨h.saved, h.inOrder.save hok⟩
  | load i =>
    rw [Session.step, Option.map_eq_some_iff] at hs
    obtain ⟨⟨saved, order⟩, hp, rfl⟩ := hs
    have hsaved : SavedInOrder saved order := h.saved _ (List.mem_of_getElem? hp)
    exact ⟨makeHeap_isHeap Event.gt_strictWeak _, hsaved.load (hok (saved, order) hp), h.saved⟩

theorem Session.init_good (oc : OCFactor) : (Session.init oc).Good where
  heap := isHeap_empty _
  inOrder := ⟨.refl _, .nil, by simp [Session.init]⟩
  saved := by simp [Session.init]

/-- **Numbering**: in every session whose steps keep the numbering, the pending events
carry distinct numbers below the counter, and the event dispatched next was added
before every other one due at its tick. -/
theorem fifoOrder_distinct {oc : OCFactor} {s : Session}
    (h : Run Session.step KeepsNumbering (Session.init oc) s) :
    (s.state.eventQueue.toList.map Event.fifoOrder).Nodup ∧
      (∀ e ∈ s.state.eventQueue, e.fifoOrder < s.state.eventFifoId) ∧
      s.order.Perm s.state.eventQueue.toList ∧
      ∀ evt t, popEvent s.state = some (evt, t) →
        ∃ before after, s.order = before ++ evt :: after ∧ ∀ e ∈ before, evt.time < e.time := by
  have hgood : s.Good :=
    h.invariant (Session.init_good oc) fun _ _ _ hI hok hs => Session.step_good hI hok hs
  have hin := hgood.inOrder
  refine ⟨?_, ?_, hin.perm, ?_⟩
  · rw [(hin.perm.map Event.fifoOrder).symm.nodup_iff, List.nodup_iff_pairwise_ne,
      List.pairwise_map]
    exact hin.sorted.imp Nat.ne_of_lt
  · intro e he
    exact hin.below e (hin.perm.mem_iff.mpr (Array.mem_toList_iff.mpr he))
  · intro evt t hp
    obtain ⟨h0, rfl, _, _⟩ := popEvent_eq_some hp
    exact hin.dispatched_first (front_isLeast hgood.heap h0)

/-- One event, saved and loaded again after another one was scheduled. -/
def saveThenLoad : List SessionAction :=
  [.act (.scheduleEvent 1000 ⟨"VICallback"⟩ 0 .cpu true), .save,
    .act (.scheduleEvent 1000 ⟨"DSPCallback"⟩ 0 .cpu true), .load 0]

theorem fifoOrder_distinct_saveThenLoad :
    ∃ s, Run.exec Session.step (Session.init .one) saveThenLoad = some s ∧
      (s.state.eventQueue.toList.map Event.fifoOrder).Nodup ∧
      ∀ e ∈ s.state.eventQueue, e.fifoOrder < s.state.eventFifoId := by
  have h : Run Session.step KeepsNumbering (Session.init .one) _ :=
    Run.single (.act (.scheduleEvent 1000 ⟨"VICallback"⟩ 0 .cpu true))
      (show _ + 1 < 2 ^ 64 by decide) rfl
  have h := h.tail .save (show _ < 2 ^ 64 by decide) rfl
  have h := h.tail (.act (.scheduleEvent 1000 ⟨"DSPCallback"⟩ 0 .cpu true))
    (show _ + 1 < 2 ^ 64 by decide) rfl
  have h := h.tail (.load 0) (keepsNumbering_load.mpr (by decide +kernel)) rfl
  exact ⟨_, rfl, (fifoOrder_distinct h).1, (fifoOrder_distinct h).2.1⟩

/-- An off-thread event arrives between the measuring and the writing pass of a save. -/
def pushBeforeWrite : List SessionAction :=
  [.act .doStateMeasure, .act (.scheduleEvent 0 ⟨"ChangeSIDevice"⟩ 0 .nonCPU false), .save,
    .load 0, .act (.scheduleEvent 0 ⟨"VICallback"⟩ 0 .cpu true)]

/-- The counter loaded is the number of the event loaded, and the next event gets it again. -/
theorem fifoOrder_duplicate_pushBeforeWrite :
    ∃ s, Run Session.step (fun _ _ => True) (Session.init .one) s ∧
      ¬ (s.state.eventQueue.toList.map Event.fifoOrder).Nodup :=
  ⟨_, Run.of_exec pushBeforeWrite (by simp) rfl, by decide +kernel⟩

end DolphinCore.CoreTiming
