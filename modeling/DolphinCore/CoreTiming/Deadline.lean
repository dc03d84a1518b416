import DolphinCore.CoreTiming.QueueOrder

/-!
# DolphinCore.CoreTiming.Deadline

When events run, at overclock factor 1 and without clock changes.  The deadline of a
slice is `global_timer + slice_length`; `ForceExceptionCheck` shortens it in the middle
of a slice and `Advance` derives it anew.  The tick counter never goes back, the
deadline of a slice is never past the time of a pending event that the CPU thread
scheduled, and so an event is late by the overshoot of the slice at most, or by the
distance it was scheduled into the past.
-/

namespace DolphinCore.CoreTiming

open Heap

/-! ## the slice -/

/-- What every function keeps of the slice at factor 1. -/
structure Clocked (s : State) : Prop where
  one : s.lastOCFactor.IsOne
  sliceNonneg : 0 ≤ s.sliceLength
  sliceLe : s.sliceLength ≤ maxSliceLength
  downcountLe : s.downcount ≤ s.sliceLength

namespace Clocked

variable {s : State}

theorem downcountToCycles_eq (h : Clocked s) {n : Int} (h0 : 0 ≤ n) (hn : n ≤ maxSliceLength) :
    s.downcountToCycles n = n := by
  rw [maxSliceLength] at hn
  exact h.one.downcountToCycles (by omega) (by omega)

theorem cyclesToDowncount_eq (h : Clocked s) {n : Int} (h0 : 0 ≤ n) (hn : n ≤ maxSliceLength) :
    s.cyclesToDowncount n = n := by
  rw [maxSliceLength] at hn
  exact h.one.cyclesToDowncount (by omega) (by omega)

theorem downcountToCycles_le (h : Clocked s) : s.downcountToCycles s.downcount ≤ s.sliceLength :=
  calc
    s.downcountToCycles s.downcount ≤ s.downcountToCycles s.sliceLength :=
      s.lastOCFactor.mono h.downcountLe
    _ = s.sliceLength := h.downcountToCycles_eq h.sliceNonneg h.sliceLe

theorem forceExceptionCheck (h : Clocked s) (cycles : Int) :
    let t := forceExceptionCheck s cycles
    Clocked t ∧ t.sliceLength - t.downcountToCycles t.downcount =
        s.sliceLength - s.downcountToCycles s.downcount ∧
      t.sliceLength ≤ s.sliceLength ∧
      t.sliceLength ≤ s.sliceLength - s.downcountToCycles s.downcount + max 0 cycles ∧
      (s.downcount = s.sliceLength → t.downcount = t.sliceLength) := by
  have hle := h.downcountToCycles_le
  have hmax := h.sliceLe
  have hself := h.downcountToCycles_eq h.sliceNonneg h.sliceLe
  unfold CoreTiming.forceExceptionCheck
  split
  · next hlt =>
      have hdown : s.cyclesToDowncount (max 0 cycles) = max 0 cycles :=
        h.cyclesToDowncount_eq (by omega) (by omega)
      have hback : s.downcountToCycles (max 0 cycles) = max 0 cycles :=
        h.downcountToCycles_eq (by omega) (by omega)
      rw [hdown]
      unfold State.downcountToCycles at *
      refine ⟨⟨h.one, ?_, ?_, ?_⟩, ?_, ?_, ?_, fun hfull => ?_⟩ <;> dsimp only
      case refine_7 =>
        rw [hfull, hself]
        omega
      all_goals omega
  · next hle' => exact ⟨h, rfl, Int.le_refl _, by omega, id⟩

end Clocked

/-! ## steps that leave the timer alone -/

/-- Two states with the same timer: they may differ in the queues. -/
structure SameTimer (s t : State) : Prop where
  globalTimer : t.globalTimer = s.globalTimer
  sliceLength : t.sliceLength = s.sliceLength
  downcount : t.downcount = s.downcount
  lastOCFactor : t.lastOCFactor = s.lastOCFactor
  sane : t.isGlobalTimerSane = s.isGlobalTimerSane

variable {evt : Event}

namespace SameTimer

variable {s t u : State}

theorem refl (s : State) : SameTimer s s := ⟨rfl, rfl, rfl, rfl, rfl⟩

theorem trans (h : SameTimer s t) (h' : SameTimer t u) : SameTimer s u where
  globalTimer := h'.globalTimer.trans h.globalTimer
  sliceLength := h'.sliceLength.trans h.sliceLength
  downcount := h'.downcount.trans h.downcount
  lastOCFactor := h'.lastOCFactor.trans h.lastOCFactor
  sane := h'.sane.trans h.sane

theorem downcountToCycles (h : SameTimer s t) :
    t.downcountToCycles t.downcount = s.downcountToCycles s.downcount := by
  rw [State.downcountToCycles, State.downcountToCycles, h.lastOCFactor, h.downcount]

theorem getTicks (h : SameTimer s t) : getTicks t = getTicks s := by
  rw [CoreTiming.getTicks, CoreTiming.getTicks, h.downcountToCycles, h.globalTimer,
    h.sliceLength, h.sane]

theorem clocked (h : SameTimer s t) (hc : Clocked s) : Clocked t where
  one := by rw [h.lastOCFactor]; exact hc.one
  sliceNonneg := by rw [h.sliceLength]; exact hc.sliceNonneg
  sliceLe := by rw [h.sliceLength]; exact hc.sliceLe
  downcountLe := by rw [h.sliceLength, h.downcount]; exact hc.downcountLe

theorem pushEvent (s : State) (ev : Event) : SameTimer s (pushEvent s ev) :=
  ⟨rfl, rfl, rfl, rfl, rfl⟩

theorem moveEvents (s : State) : SameTimer s (moveEvents s) := by
  obtain ⟨q, id, h⟩ := moveEvents_frame s
  rw [h]
  exact ⟨rfl, rfl, rfl, rfl, rfl⟩

theorem removeEvent (s : State) (eventType : EventType) :
    SameTimer s (removeEvent s eventType) := by
  obtain ⟨q, h⟩ := removeEvent_frame s eventType
  rw [h]
  exact ⟨rfl, rfl, rfl, rfl, rfl⟩

theorem popEvent (h : popEvent s = some (evt, t)) : SameTimer s t := by
  obtain ⟨_, _, _, rfl⟩ := popEvent_eq_some h
  exact ⟨rfl, rfl, rfl, rfl, rfl⟩

end SameTimer

theorem moveEvents_subperm (s : State) :
    s.eventQueue.toList.Subperm (moveEvents s).eventQueue.toList :=
  moveEvents_invariant (I := fun t => s.eventQueue.toList.Subperm t.eventQueue.toList)
    (List.Subperm.refl _) fun t ev _ h =>
      h.trans ((List.sublist_append_left ..).subperm.trans (pushEvent_perm t ev).symm.subperm)

/-! ## the slice at any factor -/

/-- What holds of the slice outside `Advance` at any factor: the cycles executed in it
are not negative. -/
structure SliceOk (s : State) : Prop where
  nonneg : 0 ≤ s.sliceLength
  le : s.sliceLength ≤ maxSliceLength
  executed : s.downcountToCycles s.downcount ≤ s.sliceLength

namespace SliceOk

variable {s t : State}

theorem init (oc : OCFactor) : SliceOk (init oc) where
  nonneg := show (0 : Int) ≤ maxSliceLength by decide
  le := Int.le_refl maxSliceLength
  executed := oc.roundTrip (by decide) (Int.le_refl _)

theorem sameTimer (h : SliceOk s) (ht : SameTimer s t) : SliceOk t where
  nonneg := by rw [ht.sliceLength]; exact h.nonneg
  le := by rw [ht.sliceLength]; exact h.le
  executed := by rw [ht.downcountToCycles, ht.sliceLength]; exact h.executed

theorem forceExceptionCheck (h : SliceOk s) (cycles : Int) :
    SliceOk (forceExceptionCheck s cycles) := by
  obtain ⟨h0, hle, hex⟩ := h
  unfold CoreTiming.forceExceptionCheck
  split
  · next hlt =>
      have hround := s.lastOCFactor.roundTrip (n := max 0 cycles) (by omega) (by omega)
      unfold State.downcountToCycles at hex hlt
      unfold State.cyclesToDowncount
      refine ⟨?_, ?_, ?_⟩ <;> dsimp only [State.downcountToCycles] <;> omega
  · exact ⟨h0, hle, hex⟩

theorem setDowncount (h : SliceOk s) {downcount : Int}
    (hle : s.downcountToCycles downcount ≤ s.sliceLength) :
    SliceOk { s with downcount := downcount } := ⟨h.nonneg, h.le, hle⟩

theorem globalTimer_le_getTicks (h : SliceOk s) : s.globalTimer ≤ getTicks s := by
  have hex := h.executed
  unfold getTicks
  split <;> omega

end SliceOk

theorem advanceEnd_sliceOk {s : State} (hdue : eventDue s = false)
    (hslice : 0 < s.eventQueue.size ∨ 0 ≤ s.sliceLength ∧ s.sliceLength ≤ maxSliceLength) :
    SliceOk (advanceEnd s) := by
  have hbounds : 0 ≤ (advanceEnd s).sliceLength ∧ (advanceEnd s).sliceLength ≤ maxSliceLength := by
    unfold eventDue at hdue
    unfold advanceEnd maxSliceLength at *
    dsimp only
    split
    · next hq =>
        rw [dif_pos hq, decide_eq_false_iff_not] at hdue
        omega
    · next hq => omega
  exact ⟨hbounds.1, hbounds.2, s.lastOCFactor.roundTrip hbounds.1 hbounds.2⟩

/-! ## the timeline -/

/-- Where a run is: before the first `Advance`, in a slice, or in an `Advance` that
found the downcount `overshoot` cycles below zero. -/
inductive Phase
  | boot
  | slice
  | advancing (overshoot : Int)
deriving DecidableEq

/-- The scheduler with its phase and the pending events scheduled from the CPU thread,
each with the ticks at scheduling. -/
structure Timeline where
  state : State
  phase : Phase
  scheduled : List (Event × Int)

def Timeline.init (oc : OCFactor) : Timeline := ⟨CoreTiming.init oc, .boot, []⟩

def phaseAfter (s : State) (phase : Phase) : Action → Phase
  | .advanceBegin _ => .advancing (max 0 (-s.downcountToCycles s.downcount))
  | .advanceEnd => .slice
  | _ => phase

def scheduledAfter (s : State) (scheduled : List (Event × Int)) : Action → List (Event × Int)
  | .scheduleEvent cycles eventType userdata frm isCPU =>
    if fromCPUThread frm isCPU then
      scheduled ++ [(⟨getTicks s + cycles, s.eventFifoId, userdata, eventType⟩, getTicks s)]
    else scheduled
  | .removeEvent eventType | .removeAllEvents eventType =>
    scheduled.filter (·.1.type ≠ eventType)
  | .dispatch =>
    match popEvent s with
    | some (evt, _) => scheduled.eraseP (evt == ·.1)
    | none => scheduled
  | _ => scheduled

def Timeline.step (s : Timeline) (a : Action) : Option Timeline :=
  (CoreTiming.step s.state a).map fun t =>
    ⟨t, phaseAfter s.state s.phase a, scheduledAfter s.state s.scheduled a⟩

/-- The steps of a run at factor 1 without clock changes: the CPU executes in slices
only, where it lowers the downcount, and idles only while some of it is left. -/
def AtFactorOne (s : Timeline) : Action → Prop
  | .execute downcount => s.phase = .slice ∧ downcount ≤ s.state.downcount
  | .idle => s.phase = .slice ∧ 0 ≤ s.state.downcount
  | .advanceBegin oc => oc.IsOne ∧ (s.phase = .boot ∨ s.phase = .slice)
  | .advanceEnd => ∃ overshoot, s.phase = .advancing overshoot
  | .adjustEventQueueTimes _ _ | .doStateRead _ => False
  | _ => True

/-- By how much the slice that ended ran past its deadline. -/
def Phase.overshoot : Phase → Int
  | .advancing overshoot => overshoot
  | _ => 0

/-- The tick that no pending event of the CPU thread is due before, unless it was
scheduled into the past: the deadline of the slice, in a slice. -/
def Timeline.deadline (s : Timeline) : Int :=
  match s.phase with
  | .boot => s.state.globalTimer
  | .slice => s.state.globalTimer + s.state.sliceLength
  | .advancing overshoot => s.state.globalTimer - overshoot

/-- What every step keeps. -/
structure Timeline.Good (s : Timeline) : Prop where
  heap : IsHeap Event.gt s.state.eventQueue
  clocked : Clocked s.state
  sane : s.state.isGlobalTimerSane = decide (s.phase ≠ .slice)
  boot : s.phase = .boot → s.state.downcount = s.state.sliceLength
  overshoot : 0 ≤ s.phase.overshoot
  pending : (s.scheduled.map Prod.fst).Subperm s.state.eventQueue.toList
  bound : ∀ p ∈ s.scheduled, s.deadline ≤ max p.2 p.1.time

namespace Timeline.Good

variable {s : Timeline}

theorem init {oc : OCFactor} (hone : oc.IsOne) : (Timeline.init oc).Good := by
  have hdown : oc.cyclesToDowncount maxSliceLength = maxSliceLength :=
    hone.cyclesToDowncount (by decide) (by decide)
  exact {
    heap := isHeap_empty _
    clocked := ⟨hone, (show (0 : Int) ≤ maxSliceLength by decide), Int.le_refl _, Int.le_of_eq hdown⟩
    sane := rfl
    boot := fun _ => hdown
    overshoot := Int.le_refl _
    pending := List.Subperm.refl _
    bound := by simp [Timeline.init] }

variable {t : State}

theorem sameTimer (h : s.Good) {scheduled : List (Event × Int)} (ht : SameTimer s.state t)
    (hheap : IsHeap Event.gt t.eventQueue)
    (hpending : (scheduled.map Prod.fst).Subperm t.eventQueue.toList)
    (hmem : ∀ p ∈ scheduled, p ∈ s.scheduled) : Timeline.Good ⟨t, s.phase, scheduled⟩ where
  heap := hheap
  clocked := ht.clocked h.clocked
  sane := by
    rw [ht.sane]
    exact h.sane
  boot hphase := by
    rw [ht.downcount, ht.sliceLength]
    exact h.boot hphase
  overshoot := h.overshoot
  pending := hpending
  bound p hp := by
    have hsame : Timeline.deadline ⟨t, s.phase, scheduled⟩ = s.deadline := by
      unfold Timeline.deadline
      rw [ht.globalTimer, ht.sliceLength]
    rw [hsame]
    exact h.bound p (hmem p hp)

theorem push (h : s.Good) (ev : Event) {ticks : Int} (hb : s.deadline ≤ max ticks ev.time) :
    Timeline.Good ⟨pushEvent s.state ev, s.phase,
      s.scheduled ++ [({ ev with fifoOrder := s.state.eventFifoId }, ticks)]⟩ where
  heap := pushEvent_isHeap h.heap ev
  clocked := (SameTimer.pushEvent s.state ev).clocked h.clocked
  sane := h.sane
  boot := h.boot
  overshoot := h.overshoot
  pending := by
    rw [List.map_append]
    exact ((List.subperm_append_right _).mpr h.pending).trans (pushEvent_perm s.state ev).symm.subperm
  bound := by
    rw [List.forall_mem_append, List.forall_mem_singleton]
    exact ⟨h.bound, hb⟩

theorem forceExceptionCheck (h : s.Good) (cycles : Int) :
    let t : Timeline := ⟨forceExceptionCheck s.state cycles, s.phase, s.scheduled⟩
    t.Good ∧ getTicks t.state = getTicks s.state ∧
      (s.phase = .slice → t.deadline ≤ getTicks s.state + max 0 cycles) := by
  obtain ⟨hclocked, hexec, hle, hend, hfull⟩ := h.clocked.forceExceptionCheck cycles
  have hdeadline : Timeline.deadline
      ⟨CoreTiming.forceExceptionCheck s.state cycles, s.phase, s.scheduled⟩ ≤ s.deadline := by
    unfold Timeline.deadline
    rw [forceExceptionCheck_globalTimer]
    cases s.phase <;> dsimp only <;> omega
  refine ⟨⟨?_, hclocked, ?_, ?_, h.overshoot, ?_, ?_⟩, ?_, ?_⟩
  · rw [forceExceptionCheck_eventQueue]
    exact h.heap
  · rw [forceExceptionCheck_isGlobalTimerSane]
    exact h.sane
  · exact fun hphase => hfull (h.boot hphase)
  · rw [forceExceptionCheck_eventQueue]
    exact h.pending
  · intro p hp
    exact Int.le_trans hdeadline (h.bound p hp)
  · unfold CoreTiming.getTicks
    rw [forceExceptionCheck_isGlobalTimerSane, forceExceptionCheck_globalTimer, hexec]
  · intro hphase
    have hsane : s.state.isGlobalTimerSane = false := by simp [h.sane, hphase]
    unfold Timeline.deadline CoreTiming.getTicks
    rw [hphase, hsane, forceExceptionCheck_globalTimer]
    dsimp only
    rw [if_neg (by decide)]
    omega

theorem deadline_le_getTicks (h : s.Good) (hsane : s.state.isGlobalTimerSane = true) :
    s.deadline ≤ getTicks s.state := by
  have hphase := h.sane
  have hover := h.overshoot
  rw [hsane, eq_comm, decide_eq_true_eq] at hphase
  unfold CoreTiming.getTicks Timeline.deadline
  rw [if_pos hsane]
  split
  · exact Int.le_refl _
  · next hslice => exact absurd hslice hphase
  · next hadv =>
      rw [hadv] at hover
      simp only [Phase.overshoot] at hover
      omega

theorem scheduleEvent (h : s.Good) (cycles : Int) (eventType : EventType) (userdata : Nat)
    (frm : FromThread) (isCPU : Bool) :
    let t : Timeline := ⟨scheduleEvent s.state cycles eventType userdata frm isCPU, s.phase,
      scheduledAfter s.state s.scheduled (.scheduleEvent cycles eventType userdata frm isCPU)⟩
    t.Good ∧ getTicks t.state = getTicks s.state := by
  rw [CoreTiming.scheduleEvent, scheduledAfter]
  split
  · split
    · next hsane =>
        have hb := h.deadline_le_getTicks hsane
        have hb' : s.deadline ≤ max (getTicks s.state) (getTicks s.state + cycles) := by omega
        exact ⟨h.push ⟨_, 0, userdata, eventType⟩ hb', (SameTimer.pushEvent _ _).getTicks⟩
    · next hsane =>
        have hslice : s.phase = .slice := by simpa [h.sane] using hsane
        obtain ⟨hgood, hticks, hb⟩ := h.forceExceptionCheck cycles
        have hb' : Timeline.deadline ⟨CoreTiming.forceExceptionCheck s.state cycles, s.phase,
            s.scheduled⟩ ≤ max (getTicks s.state) (getTicks s.state + cycles) := by
          have := hb hslice
          omega
        have hpush := hgood.push ⟨getTicks s.state + cycles, 0, userdata, eventType⟩ hb'
        rw [forceExceptionCheck_eventFifoId] at hpush
        exact ⟨hpush, (SameTimer.pushEvent _ _).getTicks.trans hticks⟩
  · have ht : SameTimer s.state
        { s.state with tsQueue := s.state.tsQueue ++
            [⟨s.state.globalTimer + cycles, 0, userdata, eventType⟩] } := ⟨rfl, rfl, rfl, rfl, rfl⟩
    exact ⟨h.sameTimer ht h.heap h.pending fun p hp => hp, ht.getTicks⟩

/-- `Advance` turns the cycles executed into ticks and starts from the overshoot. -/
theorem advanceBegin (h : s.Good) {oc : OCFactor} (hone : oc.IsOne)
    (hphase : s.phase = .boot ∨ s.phase = .slice) :
    let t : Timeline := ⟨advanceBegin s.state oc,
      .advancing (max 0 (-s.state.downcountToCycles s.state.downcount)), s.scheduled⟩
    t.Good ∧ getTicks t.state = getTicks s.state := by
  have hm := SameTimer.moveEvents s.state
  have htimer : (CoreTiming.advanceBegin s.state oc).globalTimer = s.state.globalTimer +
      (s.state.sliceLength - s.state.downcountToCycles s.state.downcount) := by
    unfold CoreTiming.advanceBegin
    dsimp only
    rw [hm.globalTimer, hm.sliceLength, hm.downcountToCycles]
  have hboot : s.phase = .boot →
      s.state.downcountToCycles s.state.downcount = s.state.sliceLength := by
    intro hp
    rw [h.boot hp]
    exact h.clocked.downcountToCycles_eq h.clocked.sliceNonneg h.clocked.sliceLe
  refine ⟨⟨moveEvents_isHeap h.heap, ⟨hone, ?_, ?_, ?_⟩, rfl, nofun, ?_, ?_, ?_⟩, ?_⟩
  · show (0 : Int) ≤ maxSliceLength
    decide
  · exact Int.le_refl maxSliceLength
  · show (CoreTiming.moveEvents s.state).downcount ≤ maxSliceLength
    rw [hm.downcount]
    exact Int.le_trans h.clocked.downcountLe h.clocked.sliceLe
  · exact Int.le_max_left ..
  · exact h.pending.trans (moveEvents_subperm s.state)
  · intro p hp
    have hb := h.bound p hp
    unfold Timeline.deadline at hb ⊢
    dsimp only
    rcases hphase with hp | hp
    · have := hboot hp
      rw [hp] at hb
      dsimp only at hb
      omega
    · rw [hp] at hb
      dsimp only at hb
      omega
  · have hsane' : (CoreTiming.advanceBegin s.state oc).isGlobalTimerSane = true := rfl
    rw [getTicks, if_pos hsane', htimer, getTicks]
    rcases hphase with hp | hp
    · have hsane : s.state.isGlobalTimerSane = true := by simp [h.sane, hp]
      rw [if_pos hsane, hboot hp]
      omega
    · have hsane : ¬ s.state.isGlobalTimerSane = true := by simp [h.sane, hp]
      rw [if_neg hsane]

theorem advanceEnd (h : s.Good) (hphase : s.phase ≠ .slice) (hdue : eventDue s.state = false) :
    let t : Timeline := ⟨advanceEnd s.state, .slice, s.scheduled⟩
    t.Good ∧ getTicks t.state = getTicks s.state := by
  have hslice := advanceEnd_sliceOk hdue (.inr ⟨h.clocked.sliceNonneg, h.clocked.sliceLe⟩)
  have hdown : (CoreTiming.advanceEnd s.state).downcount =
      (CoreTiming.advanceEnd s.state).sliceLength :=
    h.clocked.cyclesToDowncount_eq hslice.nonneg hslice.le
  have hclocked : Clocked (CoreTiming.advanceEnd s.state) :=
    ⟨h.clocked.one, hslice.nonneg, hslice.le, Int.le_of_eq hdown⟩
  refine ⟨⟨h.heap, hclocked, rfl, nofun, Int.le_refl _, h.pending, ?_⟩, ?_⟩
  · intro p hp
    have hmem : p.1 ∈ s.state.eventQueue :=
      Array.mem_toList_iff.mp (h.pending.subset (List.mem_map_of_mem hp))
    have hb := advanceEnd_slice_le h.heap hmem
    exact Int.le_trans hb (Int.le_max_right ..)
  · have hsane : s.state.isGlobalTimerSane = true := by simp [h.sane, hphase]
    have hend : (CoreTiming.advanceEnd s.state).isGlobalTimerSane = false := rfl
    have htimer : (CoreTiming.advanceEnd s.state).globalTimer = s.state.globalTimer := rfl
    dsimp only
    rw [getTicks, getTicks, if_pos hsane, if_neg (by simp [hend]), hdown,
      hclocked.downcountToCycles_eq hslice.nonneg hslice.le, htimer]
    omega

theorem setDowncount (h : s.Good) (hphase : s.phase = .slice)
    (ht : SameTimer { s.state with downcount := t.downcount } t)
    (hq : t.eventQueue = s.state.eventQueue) (hle : t.downcount ≤ s.state.downcount) :
    Timeline.Good ⟨t, s.phase, s.scheduled⟩ ∧ getTicks s.state ≤ getTicks t := by
  have hclocked : Clocked { s.state with downcount := t.downcount } :=
    ⟨h.clocked.one, h.clocked.sliceNonneg, h.clocked.sliceLe,
      Int.le_trans hle h.clocked.downcountLe⟩
  refine ⟨⟨?_, ht.clocked hclocked, ?_, ?_, h.overshoot, ?_, ?_⟩, ?_⟩
  · rw [hq]
    exact h.heap
  · rw [ht.sane]
    exact h.sane
  · intro hboot
    rw [hphase] at hboot
    contradiction
  · rw [hq]
    exact h.pending
  · intro p hp
    have hsame : Timeline.deadline ⟨t, s.phase, s.scheduled⟩ = s.deadline := by
      unfold Timeline.deadline
      rw [ht.globalTimer, ht.sliceLength]
    rw [hsame]
    exact h.bound p hp
  · have hsane : ¬ s.state.isGlobalTimerSane = true := by simp [h.sane, hphase]
    have hsane' : ¬ t.isGlobalTimerSane = true := by
      rw [ht.sane]
      exact hsane
    have hmono : t.downcountToCycles t.downcount ≤ s.state.downcountToCycles s.state.downcount := by
      rw [State.downcountToCycles, State.downcountToCycles, ht.lastOCFactor]
      exact s.state.lastOCFactor.mono hle
    rw [getTicks, getTicks, if_neg hsane, if_neg hsane', ht.globalTimer, ht.sliceLength]
    dsimp only
    omega

theorem dispatch (h : s.Good) (hp : popEvent s.state = some (evt, t)) :
    Timeline.Good ⟨t, s.phase, s.scheduled.eraseP (evt == ·.1)⟩ := by
  have hmap : (s.scheduled.eraseP (evt == ·.1)).map Prod.fst = (s.scheduled.map Prod.fst).erase evt := by
    rw [List.erase_eq_eraseP, List.eraseP_map]
    rfl
  refine h.sameTimer (SameTimer.popEvent hp) (popEvent_isHeap h.heap hp) ?_
    fun p hp => List.mem_of_mem_eraseP hp
  rw [hmap]
  exact (h.pending.erase evt).trans (popEvent_perm hp).subperm

theorem removeEvent (h : s.Good) (eventType : EventType) :
    Timeline.Good ⟨removeEvent s.state eventType, s.phase,
      s.scheduled.filter (·.1.type ≠ eventType)⟩ := by
  have hmap : (s.scheduled.filter (·.1.type ≠ eventType)).map Prod.fst =
      (s.scheduled.map Prod.fst).filter (·.type ≠ eventType) := by
    rw [List.filter_map]
    rfl
  refine h.sameTimer (SameTimer.removeEvent _ _) (removeEvent_isHeap h.heap _) ?_
    fun p hp => List.mem_of_mem_filter hp
  rw [hmap]
  exact (h.pending.filter _).trans (removeEvent_perm _ _).symm.subperm

theorem moveEvents (h : s.Good) : Timeline.Good ⟨moveEvents s.state, s.phase, s.scheduled⟩ :=
  h.sameTimer (SameTimer.moveEvents _) (moveEvents_isHeap h.heap)
    (h.pending.trans (moveEvents_subperm _)) fun _ hp => hp

/-- Every step keeps the invariant, and the ticks never go back. -/
theorem step (h : s.Good) {a : Action} {t : Timeline} (hok : AtFactorOne s a)
    (hs : s.step a = some t) : t.Good ∧ getTicks s.state ≤ getTicks t.state := by
  rw [Timeline.step, Option.map_eq_some_iff] at hs
  obtain ⟨u, hu, rfl⟩ := hs
  cases a with
  | execute downcount =>
    cases hu
    exact h.setDowncount hok.1 (SameTimer.refl _) rfl hok.2
  | idle =>
    cases hu
    exact h.setDowncount hok.1 ⟨rfl, rfl, rfl, rfl, rfl⟩ rfl hok.2
  | scheduleEvent cycles eventType userdata frm isCPU =>
    cases hu
    obtain ⟨hgood, hticks⟩ := h.scheduleEvent cycles eventType userdata frm isCPU
    exact ⟨hgood, Int.le_of_eq hticks.symm⟩
  | forceExceptionCheck cycles =>
    cases hu
    obtain ⟨hgood, hticks, _⟩ := h.forceExceptionCheck cycles
    exact ⟨hgood, Int.le_of_eq hticks.symm⟩
  | removeEvent eventType =>
    cases hu
    exact ⟨h.removeEvent eventType, Int.le_of_eq (SameTimer.removeEvent _ _).getTicks.symm⟩
  | removeAllEvents eventType =>
    cases hu
    have hticks := ((SameTimer.moveEvents s.state).trans (SameTimer.removeEvent _ eventType)).getTicks
    exact ⟨h.moveEvents.removeEvent eventType, Int.le_of_eq hticks.symm⟩
  | moveEvents =>
    cases hu
    exact ⟨h.moveEvents, Int.le_of_eq (SameTimer.moveEvents _).getTicks.symm⟩
  | doStateMeasure =>
    cases hu
    exact ⟨h.moveEvents, Int.le_of_eq (SameTimer.moveEvents _).getTicks.symm⟩
  | doStateWrite =>
    cases hu
    exact ⟨h.moveEvents, Int.le_of_eq (SameTimer.moveEvents _).getTicks.symm⟩
  | advanceBegin oc =>
    cases hu
    obtain ⟨hgood, hticks⟩ := h.advanceBegin hok.1 hok.2
    exact ⟨hgood, Int.le_of_eq hticks.symm⟩
  | dispatch =>
    simp only [CoreTiming.step, Option.map_eq_some_iff] at hu
    obtain ⟨⟨evt, v⟩, hp, rfl⟩ := hu
    simp only [phaseAfter, scheduledAfter, hp]
    exact ⟨h.dispatch hp, Int.le_of_eq (SameTimer.popEvent hp).getTicks.symm⟩
  | advanceEnd =>
    obtain ⟨overshoot, hphase⟩ := hok
    rw [CoreTiming.step] at hu
    split at hu
    · contradiction
    · next hdue =>
        cases hu
        have hne : s.phase ≠ .slice := by rw [hphase]; exact Phase.noConfusion
        obtain ⟨hgood, hticks⟩ := h.advanceEnd hne (by simpa using hdue)
        exact ⟨hgood, Int.le_of_eq hticks.symm⟩
  | adjustEventQueueTimes new old => exact absurd hok id
  | doStateRead saved => exact absurd hok id
  | registerEvent name =>
    cases hu
    exact ⟨h.sameTimer ⟨rfl, rfl, rfl, rfl, rfl⟩ h.heap h.pending fun _ hp => hp, Int.le_refl _⟩

theorem cyclesLate_le (h : s.Good) (hp : popEvent s.state = some (evt, t)) :
    evt.time ≤ s.state.globalTimer ∧ ∀ ticks, (evt, ticks) ∈ s.scheduled →
      cyclesLate t evt ≤ s.phase.overshoot + max 0 (ticks - evt.time) := by
  obtain ⟨_, rfl, hdue, rfl⟩ := popEvent_eq_some hp
  refine ⟨hdue, ?_⟩
  intro ticks hmem
  have hb := h.bound _ hmem
  have hslice := h.clocked.sliceNonneg
  unfold Timeline.deadline at hb
  unfold cyclesLate Phase.overshoot
  cases hphase : s.phase <;> rw [hphase] at hb <;> dsimp only at hb ⊢ <;> omega

end Timeline.Good

/-! ## runs -/

/-- **Deadlines**: in every run at factor 1 without clock changes, the ticks never go
back; in a slice the deadline is not past the time of a pending event scheduled from the
CPU thread, or past the ticks at its scheduling; and no event runs before its time or
later than the overshoot plus the distance it was scheduled into the past. -/
theorem deadline_kept {oc : OCFactor} (hone : oc.IsOne) {s : Timeline}
    (h : Run Timeline.step AtFactorOne (Timeline.init oc) s) :
    (∀ a t, AtFactorOne s a → s.step a = some t → getTicks s.state ≤ getTicks t.state) ∧
      (s.phase = .slice → ∀ p ∈ s.scheduled,
        s.state.globalTimer + s.state.sliceLength ≤ max p.2 p.1.time) ∧
      ∀ evt t, popEvent s.state = some (evt, t) → evt.time ≤ s.state.globalTimer ∧
        ∀ ticks, (evt, ticks) ∈ s.scheduled →
          cyclesLate t evt ≤ s.phase.overshoot + max 0 (ticks - evt.time) := by
  have hgood : s.Good := h.invariant (Timeline.Good.init hone) fun _ _ _ hI hok hs => (hI.step hok hs).1
  refine ⟨fun a t hok hs => (hgood.step hok hs).2, ?_, fun evt t hp => hgood.cyclesLate_le hp⟩
  intro hphase p hp
  have hb := hgood.bound p hp
  rw [Timeline.deadline, hphase] at hb
  exact hb

/-- An event scheduled in the first slice, run by the next `Advance`. -/
theorem deadline_kept_firstSlice :
    ∃ s : Timeline, s.phase = .advancing 5 ∧ ∀ evt t, popEvent s.state = some (evt, t) →
      ∀ ticks, (evt, ticks) ∈ s.scheduled → cyclesLate t evt ≤ 5 + max 0 (ticks - evt.time) := by
  have h : Run Timeline.step AtFactorOne (Timeline.init .one) _ :=
    Run.single (Action.advanceBegin .one) ⟨OCFactor.one_isOne, .inl rfl⟩ rfl
  have h := h.tail Action.advanceEnd ⟨_, rfl⟩ rfl
  have h := h.tail (Action.scheduleEvent 1000 ⟨"VICallback"⟩ 0 .cpu true) trivial rfl
  have h := h.tail (Action.execute (-5)) ⟨rfl, by decide⟩ rfl
  have h := h.tail (Action.advanceBegin .one) ⟨OCFactor.one_isOne, .inr rfl⟩ rfl
  exact ⟨_, rfl, fun evt t hp => ((deadline_kept OCFactor.one_isOne h).2.2 evt t hp).2⟩

/-- The steps of a run in which the CPU does no more than lower the downcount. -/
def DowncountDecreases (s : Timeline) : Action → Prop
  | .execute downcount => downcount ≤ s.state.downcount
  | .advanceBegin oc => oc.IsOne
  | .adjustEventQueueTimes _ _ | .doStateRead _ => False
  | _ => True

/-- Without the conditions of `AtFactorOne`: `Idle` below zero takes the overshoot back,
before the first `Advance` the slice is the full one, and the overshoot adds to the
distance an event was scheduled into the past. -/
theorem deadline_missed :
    (∃ s t, Run Timeline.step DowncountDecreases (Timeline.init .one) s ∧ s.phase = .slice ∧
      s.step .idle = some t ∧ getTicks t.state < getTicks s.state) ∧
    (∃ s, Run Timeline.step DowncountDecreases (Timeline.init .one) s ∧ s.phase = .boot ∧
      ∃ p ∈ s.scheduled, max p.2 p.1.time < s.state.globalTimer + s.state.sliceLength) ∧
    (∃ s, Run Timeline.step DowncountDecreases (Timeline.init .one) s ∧
      ∃ p ∈ s.scheduled, (popEvent s.state).map Prod.fst = some p.1 ∧
        max s.phase.overshoot (p.2 - p.1.time) < cyclesLate s.state p.1) := by
  have hslice : Run Timeline.step DowncountDecreases (Timeline.init .one) _ :=
    (Run.single (Action.advanceBegin .one) OCFactor.one_isOne rfl).tail Action.advanceEnd trivial rfl
  refine ⟨?_, ?_, ?_⟩
  · exact ⟨_, _, hslice.tail (Action.execute (-10)) (show _ ≤ _ by decide) rfl, rfl, rfl,
      by decide⟩
  · exact ⟨_, Run.single (Action.scheduleEvent 100 ⟨"VICallback"⟩ 0 .cpu true) trivial rfl, rfl,
      _, List.mem_singleton.mpr rfl, by decide⟩
  · have h := hslice.tail (Action.scheduleEvent (-10) ⟨"VICallback"⟩ 0 .cpu true) trivial rfl
    have h := h.tail (Action.execute (-5)) (show _ ≤ _ by decide) rfl
    have h := h.tail (Action.advanceBegin .one) OCFactor.one_isOne rfl
    exact ⟨_, h, by decide +kernel⟩

end DolphinCore.CoreTiming
