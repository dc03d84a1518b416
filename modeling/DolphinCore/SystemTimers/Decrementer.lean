import Mathlib.Data.Multiset.Filter
import DolphinCore.CoreTiming.Deadline

/-!
# DolphinCore.SystemTimers.Decrementer

The decrementer of `Core/HW/SystemTimers.cpp`: the register as `mtspr` and `mfspr` see
it, and the event that raises the exception.  The register is not counted down; a read
derives it from the ticks since the write, while the exception is an event of the
scheduler.
-/

namespace DolphinCore.SystemTimers

open CoreTiming

/-! ## the model -/

/-- `TIMER_RATIO`: clock cycles for each tick of the decrementer. -/
def timerRatio : Nat := 12

def etDec : EventType := ⟨"DecCallback"⟩

/-- The scheduler with the phase it is in, the register and the decrementer's bit of
the pending exceptions. -/
structure Machine where
  timing : State
  phase : Phase
  /-- `spr[SPR_DEC]`, a `u32` -/
  sprDec : Nat
  /-- `Exceptions & EXCEPTION_DECREMENTER` -/
  exceptionDecrementer : Bool

def Machine.ticks (m : Machine) : Int := getTicks m.timing

/-- `SystemTimers::Init` and `ResetRegisters`, for the decrementer. -/
def Machine.init (oc : OCFactor) : Machine where
  timing :=
    { registerEvent (CoreTiming.init oc) etDec.name with
      fakeDecStartValue := 0xFFFFFFFF
      fakeDecStartTicks := 0 }
  phase := .boot
  sprDec := 0xFFFFFFFF
  exceptionDecrementer := false

/-- The top bit of a 32-bit register. -/
def topBit (value : Nat) : Bool := decide (2 ^ 31 ≤ value)

def decrementerCallback (m : Machine) : Machine :=
  { m with sprDec := 0xFFFFFFFF, exceptionDecrementer := true }

/-- `DecrementerSet`: the product `decValue * TIMER_RATIO` is one of 32-bit integers. -/
def decrementerSet (m : Machine) : Machine :=
  let timing := removeEvent m.timing etDec
  if topBit m.sprDec then { m with timing := timing }
  else
    let timing := { timing with
      fakeDecStartTicks := getTicks timing
      fakeDecStartValue := m.sprDec }
    { m with
      timing := scheduleEvent timing (m.sprDec * timerRatio % 2 ^ 32 : Nat) etDec 0 .cpu true }

/-- `GetFakeDecrementer`: 64-bit ticks, truncated to 32 bits after the division. -/
def getFakeDecrementer (s : State) : Nat :=
  let elapsed := ((getTicks s - s.fakeDecStartTicks) % 2 ^ 64).toNat / timerRatio
  (((s.fakeDecStartValue : Int) - (elapsed % 2 ^ 32 : Nat)) % 2 ^ 32).toNat

/-- `mtspr` to `SPR_DEC`: setting the top bit by hand raises the exception at once. -/
def mtsprDec (m : Machine) (value : Nat) : Machine :=
  decrementerSet { m with
    sprDec := value
    exceptionDecrementer := m.exceptionDecrementer || (!topBit m.sprDec && topBit value) }

/-- `mfspr` of `SPR_DEC`: the value read, which the register keeps. -/
def mfsprDec (m : Machine) : Nat × Machine :=
  let m := if topBit m.sprDec then m else { m with sprDec := getFakeDecrementer m.timing }
  (m.sprDec, m)

/-! ## runs -/

inductive MachineAction
  /-- A step of the scheduler; dispatching a decrementer event runs its callback. -/
  | core (a : Action)
  | mtsprDec (value : Nat)
  | mfsprDec
  /-- `CheckExceptions` takes the exception. -/
  | takeException

def Machine.step (m : Machine) : MachineAction → Option Machine
  | .core .dispatch =>
    (popEvent m.timing).map fun (evt, timing) =>
      if evt.type = etDec then decrementerCallback { m with timing := timing }
      else { m with timing := timing }
  | .core a =>
    (CoreTiming.step m.timing a).map fun timing =>
      { m with timing := timing, phase := phaseAfter m.timing m.phase a }
  | .mtsprDec value => some (SystemTimers.mtsprDec m value)
  | .mfsprDec => some (SystemTimers.mfsprDec m).2
  | .takeException => some { m with exceptionDecrementer := false }

/-- The steps of a run without clock changes and savestate loads: the CPU executes in
slices, where it lowers the downcount; decrementer events are `decrementerSet`'s alone;
and `Advance` does not set up a negative slice (it never does while an event is pending). -/
def Normal (m : Machine) : MachineAction → Prop
  | .core (.execute downcount) => m.phase = .slice ∧ downcount ≤ m.timing.downcount
  | .core .idle => m.phase = .slice
  | .core (.scheduleEvent _ eventType _ _ _) | .core (.removeEvent eventType)
  | .core (.removeAllEvents eventType) => eventType ≠ etDec
  | .core (.advanceBegin _) => m.phase = .boot ∨ m.phase = .slice
  | .core .advanceEnd => (∃ overshoot, m.phase = .advancing overshoot) ∧
      (0 < m.timing.eventQueue.size ∨
        0 ≤ m.timing.sliceLength ∧ m.timing.sliceLength ≤ maxSliceLength)
  | .core (.adjustEventQueueTimes _ _) | .core (.doStateRead _) => False
  | _ => True

/-- The steps of a run that does not write the register. -/
def Quiet (m : Machine) : MachineAction → Prop
  | .mtsprDec _ => False
  | a => Normal m a

/-- Quiet steps from states between the tick `start` and the expiry of `value`. -/
def BeforeExpiry (start : Int) (value : Nat) (m : Machine) (a : MachineAction) : Prop :=
  Quiet m a ∧ start ≤ m.ticks ∧ m.ticks < start + value * timerRatio

/-- The times of the pending decrementer events. -/
def decTimes (s : State) : Multiset Int :=
  ((s.eventQueue.toList.filter (·.type = etDec)).map Event.time : List Int)

/-! ## what a write of `value` promises -/

/-- What the decrementer does after `value` is written. -/
structure DecrementerSpec (m : Machine) (value : Nat) : Prop where
  /-- Exactly one event is pending, `value * TIMER_RATIO` cycles from now. -/
  scheduled : decTimes (mtsprDec m value).timing = {m.ticks + value * timerRatio}
  /-- Before the expiry, reads count down by one every `TIMER_RATIO` ticks. -/
  read : ∀ m', Run Machine.step (BeforeExpiry m.ticks value) (mtsprDec m value) m' →
    m.ticks ≤ m'.ticks → m'.ticks < m.ticks + value * timerRatio →
    ((mfsprDec m').1 : Int) = value - (m'.ticks - m.ticks) / timerRatio
  /-- The event stays pending until a timer that has reached the expiry. -/
  pending : ∀ m', Run Machine.step Quiet (mtsprDec m value) m' →
    decTimes m'.timing = {m.ticks + value * timerRatio} ∨
      decTimes m'.timing = 0 ∧ m.ticks + value * timerRatio ≤ m'.timing.globalTimer
  /-- The step that runs it raises the exception and makes the register negative. -/
  raised : ∀ m' a m'', Run Machine.step Quiet (mtsprDec m value) m' → Quiet m' a →
    m'.step a = some m'' → decTimes m'.timing ≠ 0 → decTimes m''.timing = 0 →
    m''.exceptionDecrementer = true ∧ m''.sprDec = 0xFFFFFFFF
  /-- The first `Advance` whose timer reaches the expiry runs it. -/
  onTime : ∀ m' m'', Run Machine.step Quiet (mtsprDec m value) m' →
    Quiet m' (.core .advanceEnd) → m'.step (.core .advanceEnd) = some m'' →
    (decTimes m''.timing = 0 ↔ m.ticks + value * timerRatio ≤ m''.timing.globalTimer)
  /-- Writing the register again cancels the event. -/
  rewritten : ∀ m' value', Run Machine.step Quiet (mtsprDec m value) m' →
    decTimes (mtsprDec m' value').timing =
      if topBit value' then 0 else {m'.ticks + (value' * timerRatio % 2 ^ 32 : Nat)}

/-! ## the pending decrementer events -/

variable {s t : State} {m m' : Machine} {a : MachineAction} {value : Nat}

theorem decTimes_perm (evs : List Event)
    (h : t.eventQueue.toList.Perm (evs ++ s.eventQueue.toList)) :
    decTimes t = ((evs.filter (·.type = etDec)).map Event.time : List Int) + decTimes s := by
  have hperm := (h.filter (·.type = etDec)).map Event.time
  rw [List.filter_append, List.map_append] at hperm
  exact Multiset.coe_eq_coe.mpr hperm

theorem decTimes_congr (h : t.eventQueue = s.eventQueue) : decTimes t = decTimes s := by
  rw [decTimes, decTimes, h]

theorem decTimes_pushEvent (s : State) (ev : Event) : decTimes (pushEvent s ev) =
      if ev.type = etDec then ev.time ::ₘ decTimes s else decTimes s := by
  rw [decTimes_perm _ ((pushEvent_perm s ev).trans (List.perm_append_comm ..))]
  split
  · next h => simp [h]
  · next h => simp [h]

theorem decTimes_popEvent {evt : Event} (h : popEvent s = some (evt, t)) :
    decTimes s = if evt.type = etDec then evt.time ::ₘ decTimes t else decTimes t := by
  rw [decTimes_perm [evt] (popEvent_perm_cons h)]
  split
  · next h => simp [h]
  · next h => simp [h]

theorem decTimes_removeEvent (s : State) (eventType : EventType) :
    decTimes (removeEvent s eventType) = if eventType = etDec then 0 else decTimes s := by
  have hperm := ((removeEvent_perm s eventType).filter (·.type = etDec)).map Event.time
  rw [decTimes, Multiset.coe_eq_coe.mpr hperm, List.filter_filter]
  split
  · next h =>
      subst h
      simp
  · next h =>
      congr 2
      apply List.filter_congr
      intro e _
      by_cases he : e.type = etDec <;> simp [he, Ne.symm h]

/-- Off-thread events are not decrementer events. -/
def NoOffThreadDec (s : State) : Prop := ∀ ev ∈ s.tsQueue, ev.type ≠ etDec

theorem decTimes_moveEvents {s : State} (h : NoOffThreadDec s) :
    decTimes (moveEvents s) = decTimes s := by
  refine moveEvents_invariant (I := fun t => decTimes t = decTimes s) rfl ?_
  intro t ev hev ht
  rw [decTimes_pushEvent, if_neg (h ev hev), ht]

theorem decTimes_scheduleEvent (s : State) (cycles : Int) (eventType : EventType)
    (userdata : Nat) (frm : FromThread) (isCPU : Bool) :
    decTimes (scheduleEvent s cycles eventType userdata frm isCPU) =
      if fromCPUThread frm isCPU = true ∧ eventType = etDec then
        (getTicks s + cycles) ::ₘ decTimes s
      else decTimes s := by
  unfold scheduleEvent
  split
  · next hcpu =>
      have hq : decTimes (if s.isGlobalTimerSane = true then s else forceExceptionCheck s cycles) =
          decTimes s := by
        split
        · rfl
        · exact decTimes_congr (forceExceptionCheck_eventQueue s cycles)
      rw [decTimes_pushEvent, hq]
      simp [hcpu]
  · next hcpu => simp [hcpu, decTimes]

theorem decTimes_mtsprDec (m : Machine) (value : Nat) : decTimes (mtsprDec m value).timing =
      if topBit value then 0 else {m.ticks + (value * timerRatio % 2 ^ 32 : Nat)} := by
  have hticks : ∀ start startValue, getTicks { removeEvent m.timing etDec with
      fakeDecStartTicks := start, fakeDecStartValue := startValue } = m.ticks :=
    fun start startValue => ((SameTimer.removeEvent m.timing etDec).trans
      ⟨rfl, rfl, rfl, rfl, rfl⟩).getTicks
  have hremove : ∀ start startValue, decTimes { removeEvent m.timing etDec with
      fakeDecStartTicks := start, fakeDecStartValue := startValue } = 0 := by
    intro start startValue
    have h := decTimes_removeEvent m.timing etDec
    exact h
  unfold mtsprDec decrementerSet
  split
  · exact hremove _ _
  · rw [decTimes_scheduleEvent, if_pos ⟨rfl, rfl⟩, hticks, hremove]
    rfl

/-! ## what every run keeps -/

structure Machine.Good (m : Machine) : Prop where
  heap : Heap.IsHeap Event.gt m.timing.eventQueue
  sane : m.timing.isGlobalTimerSane = decide (m.phase ≠ .slice)
  slice : m.phase = .boot ∨ m.phase = .slice → SliceOk m.timing
  offThread : NoOffThreadDec m.timing

/-- What a step of the scheduler that is not a dispatch keeps of the decrementer. -/
structure Keeps (s t : State) : Prop where
  timer : s.globalTimer ≤ t.globalTimer
  decTimes : decTimes t = decTimes s
  startValue : t.fakeDecStartValue = s.fakeDecStartValue
  startTicks : t.fakeDecStartTicks = s.fakeDecStartTicks

theorem Machine.init_good (oc : OCFactor) : (Machine.init oc).Good where
  heap := Heap.isHeap_empty _
  sane := rfl
  slice _ := (SliceOk.init oc).sameTimer ⟨rfl, rfl, rfl, rfl, rfl⟩
  offThread := by simp [NoOffThreadDec, Machine.init, registerEvent, CoreTiming.init]

namespace Machine.Good

variable {m : Machine}

theorem globalTimer_le_ticks (h : m.Good) : m.timing.globalTimer ≤ m.ticks := by
  by_cases hphase : m.phase = .slice
  · exact (h.slice (.inr hphase)).globalTimer_le_getTicks
  · have hsane : m.timing.isGlobalTimerSane = true := by simp [h.sane, hphase]
    rw [Machine.ticks, getTicks, if_pos hsane]

theorem sameTimer (h : m.Good) {t : State} (ht : SameTimer m.timing t)
    (hheap : Heap.IsHeap Event.gt t.eventQueue) (hoff : NoOffThreadDec t) :
    Machine.Good { m with timing := t } where
  heap := hheap
  sane := by
    rw [ht.sane]
    exact h.sane
  slice hphase := (h.slice hphase).sameTimer ht
  offThread := hoff

theorem moveEvents (h : m.Good) : Machine.Good { m with timing := moveEvents m.timing } ∧
      Keeps m.timing (moveEvents m.timing) := by
  have hdec := decTimes_moveEvents h.offThread
  have hheap := moveEvents_isHeap h.heap
  have ht := SameTimer.moveEvents m.timing
  obtain ⟨q, id, hm⟩ := moveEvents_frame m.timing
  rw [hm] at hdec hheap ht ⊢
  exact ⟨h.sameTimer ht hheap (by simp [NoOffThreadDec]), Int.le_refl _, hdec, rfl, rfl⟩

theorem removeEvent (h : m.Good) (eventType : EventType) :
    Machine.Good { m with timing := removeEvent m.timing eventType } := by
  have hheap := removeEvent_isHeap h.heap eventType
  have ht := SameTimer.removeEvent m.timing eventType
  obtain ⟨q, hq⟩ := removeEvent_frame m.timing eventType
  rw [hq] at hheap ht ⊢
  exact h.sameTimer ht hheap h.offThread

theorem forceExceptionCheck (h : m.Good) (cycles : Int) :
    Machine.Good { m with timing := forceExceptionCheck m.timing cycles } ∧
      Keeps m.timing (forceExceptionCheck m.timing cycles) := by
  have hslice := fun hphase => (h.slice hphase).forceExceptionCheck cycles
  obtain ⟨slice, downcount, hf⟩ := forceExceptionCheck_frame m.timing cycles
  rw [hf] at hslice ⊢
  exact ⟨⟨h.heap, h.sane, hslice, h.offThread⟩, Int.le_refl _, rfl, rfl, rfl⟩

theorem pushEvent (h : m.Good) (ev : Event) :
    Machine.Good { m with timing := pushEvent m.timing ev } :=
  h.sameTimer (SameTimer.pushEvent _ _) (pushEvent_isHeap h.heap ev) h.offThread

theorem scheduleEvent (h : m.Good) (cycles : Int) (eventType : EventType) (userdata : Nat)
    (frm : FromThread) (isCPU : Bool)
    (hoff : fromCPUThread frm isCPU = false → eventType ≠ etDec) :
    Machine.Good { m with timing := scheduleEvent m.timing cycles eventType userdata frm isCPU } := by
  unfold CoreTiming.scheduleEvent
  split
  · split
    · exact h.pushEvent _
    · exact (h.forceExceptionCheck cycles).1.pushEvent _
  · next hcpu =>
      refine h.sameTimer ⟨rfl, rfl, rfl, rfl, rfl⟩ h.heap ?_
      simp only [Bool.not_eq_true] at hcpu
      unfold NoOffThreadDec
      rw [List.forall_mem_append, List.forall_mem_singleton]
      exact ⟨h.offThread, hoff hcpu⟩

end Machine.Good

theorem Keeps.removeEvent (s : State) {eventType : EventType} (hne : eventType ≠ etDec) :
    Keeps s (removeEvent s eventType) := by
  have hdec := decTimes_removeEvent s eventType
  rw [if_neg hne] at hdec
  obtain ⟨q, hq⟩ := removeEvent_frame s eventType
  rw [hq] at hdec ⊢
  exact ⟨Int.le_refl _, hdec, rfl, rfl⟩

theorem scheduleEvent_frame (s : State) (cycles : Int) (eventType : EventType)
    (userdata : Nat) (frm : FromThread) (isCPU : Bool) :
    let t := scheduleEvent s cycles eventType userdata frm isCPU
    t.globalTimer = s.globalTimer ∧ t.fakeDecStartValue = s.fakeDecStartValue ∧
      t.fakeDecStartTicks = s.fakeDecStartTicks := by
  unfold CoreTiming.scheduleEvent
  split
  · split
    · exact ⟨rfl, rfl, rfl⟩
    · obtain ⟨slice, downcount, hf⟩ := forceExceptionCheck_frame s cycles
      rw [hf]
      exact ⟨rfl, rfl, rfl⟩
  · exact ⟨rfl, rfl, rfl⟩

theorem Keeps.scheduleEvent (s : State) (cycles : Int) {eventType : EventType}
    (hne : eventType ≠ etDec) (userdata : Nat) (frm : FromThread) (isCPU : Bool) :
    Keeps s (scheduleEvent s cycles eventType userdata frm isCPU) := by
  obtain ⟨htimer, hvalue, hticks⟩ := scheduleEvent_frame s cycles eventType userdata frm isCPU
  have hdec := decTimes_scheduleEvent s cycles eventType userdata frm isCPU
  rw [if_neg (by simp [hne])] at hdec
  exact ⟨Int.le_of_eq htimer.symm, hdec, hvalue, hticks⟩

/-! ## the steps of the scheduler -/

/-- Every step of the scheduler keeps the invariant, and all but a dispatch keep the
decrementer. -/
theorem Machine.Good.core_step {m : Machine} {a : Action} {t : State} (h : m.Good)
    (hok : Normal m (.core a)) (hs : CoreTiming.step m.timing a = some t) :
    Machine.Good { m with timing := t, phase := phaseAfter m.timing m.phase a } ∧
      (a ≠ .dispatch → Keeps m.timing t) := by
  cases a with
  | execute downcount =>
    cases hs
    have hslice := h.slice (.inr hok.1)
    have hle := Int.le_trans (m.timing.lastOCFactor.mono hok.2) hslice.executed
    exact ⟨⟨h.heap, h.sane, fun _ => hslice.setDowncount hle, h.offThread⟩,
      fun _ => ⟨Int.le_refl _, rfl, rfl, rfl⟩⟩
  | idle =>
    cases hs
    have hslice := h.slice (.inr hok)
    have hle : m.timing.downcountToCycles 0 ≤ m.timing.sliceLength := by
      rw [State.downcountToCycles, m.timing.lastOCFactor.zero]
      exact hslice.nonneg
    refine ⟨⟨h.heap, h.sane, fun _ => ?_, h.offThread⟩, fun _ => ⟨Int.le_refl _, rfl, rfl, rfl⟩⟩
    exact (hslice.setDowncount hle).sameTimer ⟨rfl, rfl, rfl, rfl, rfl⟩
  | scheduleEvent cycles eventType userdata frm isCPU =>
    cases hs
    exact ⟨h.scheduleEvent cycles eventType userdata frm isCPU fun _ => hok,
      fun _ => Keeps.scheduleEvent _ _ hok _ _ _⟩
  | forceExceptionCheck cycles =>
    cases hs
    exact ⟨(h.forceExceptionCheck cycles).1, fun _ => (h.forceExceptionCheck cycles).2⟩
  | removeEvent eventType =>
    cases hs
    exact ⟨h.removeEvent eventType, fun _ => Keeps.removeEvent _ hok⟩
  | removeAllEvents eventType =>
    cases hs
    obtain ⟨hgood, htimer, hdec, hvalue, hticks⟩ := h.moveEvents
    obtain ⟨htimer', hdec', hvalue', hticks'⟩ := Keeps.removeEvent (CoreTiming.moveEvents m.timing) hok
    exact ⟨hgood.removeEvent eventType, fun _ => ⟨Int.le_trans htimer htimer', hdec'.trans hdec,
      hvalue'.trans hvalue, hticks'.trans hticks⟩⟩
  | moveEvents =>
    cases hs
    exact ⟨h.moveEvents.1, fun _ => h.moveEvents.2⟩
  | doStateMeasure =>
    cases hs
    exact ⟨h.moveEvents.1, fun _ => h.moveEvents.2⟩
  | doStateWrite =>
    cases hs
    exact ⟨h.moveEvents.1, fun _ => h.moveEvents.2⟩
  | registerEvent name =>
    cases hs
    exact ⟨h.sameTimer ⟨rfl, rfl, rfl, rfl, rfl⟩ h.heap h.offThread,
      fun _ => ⟨Int.le_refl _, rfl, rfl, rfl⟩⟩
  | dispatch =>
    simp only [CoreTiming.step, Option.map_eq_some_iff] at hs
    obtain ⟨⟨evt, u⟩, hp, rfl⟩ := hs
    refine ⟨h.sameTimer (SameTimer.popEvent hp) (popEvent_isHeap h.heap hp) ?_,
      fun hne => absurd rfl hne⟩
    obtain ⟨_, _, _, rfl⟩ := popEvent_eq_some hp
    exact h.offThread
  | advanceBegin oc =>
    cases hs
    obtain ⟨hgood, htimer, hdec, hvalue, hticks⟩ := h.moveEvents
    have hslice := hgood.slice hok
    refine ⟨⟨hgood.heap, rfl, by simp [phaseAfter], hgood.offThread⟩,
      fun _ => ⟨?_, hdec, hvalue, hticks⟩⟩
    have hex := hslice.executed
    unfold CoreTiming.advanceBegin
    dsimp only at hex ⊢
    omega
  | advanceEnd =>
    rw [CoreTiming.step] at hs
    split at hs
    · contradiction
    · next hdue =>
        cases hs
        have hslice := advanceEnd_sliceOk (by simpa using hdue) hok.2
        exact ⟨⟨h.heap, rfl, fun _ => hslice, h.offThread⟩,
          fun _ => ⟨Int.le_refl _, rfl, rfl, rfl⟩⟩
  | adjustEventQueueTimes new old => exact absurd hok id
  | doStateRead saved => exact absurd hok id

/-! ## the steps of the machine -/

theorem Machine.step_core {a : Action} (hne : a ≠ .dispatch) (h : m.step (.core a) = some m') :
    ∃ t, CoreTiming.step m.timing a = some t ∧
      m' = { m with timing := t, phase := phaseAfter m.timing m.phase a } := by
  unfold Machine.step at h
  split at h
  · next heq =>
      cases heq
      exact absurd rfl hne
  · next heq =>
      cases heq
      rw [Option.map_eq_some_iff] at h
      obtain ⟨t, ht, rfl⟩ := h
      exact ⟨t, ht, rfl⟩
  · next heq => cases heq
  · next heq => cases heq
  · next heq => cases heq

theorem Machine.step_dispatch (h : m.step (.core .dispatch) = some m') :
    ∃ evt t, popEvent m.timing = some (evt, t) ∧
      m' = if evt.type = etDec then decrementerCallback { m with timing := t }
        else { m with timing := t } := by
  rw [Machine.step, Option.map_eq_some_iff] at h
  obtain ⟨⟨evt, t⟩, hp, rfl⟩ := h
  exact ⟨evt, t, hp, rfl⟩

namespace Machine.Good

theorem congr (h : m.Good) (ht : m'.timing = m.timing) (hp : m'.phase = m.phase) : m'.Good where
  heap := by rw [ht]; exact h.heap
  sane := by rw [ht, hp]; exact h.sane
  slice := by rw [ht, hp]; exact h.slice
  offThread := by rw [ht]; exact h.offThread

theorem mtsprDec (h : m.Good) (value : Nat) : (mtsprDec m value).Good := by
  have hremove := h.removeEvent etDec
  unfold SystemTimers.mtsprDec decrementerSet
  split
  · exact hremove.congr rfl rfl
  · have hset : Machine.Good { m with timing :=
        { CoreTiming.removeEvent m.timing etDec with
          fakeDecStartTicks := getTicks (CoreTiming.removeEvent m.timing etDec)
          fakeDecStartValue := value } } :=
      hremove.sameTimer ⟨rfl, rfl, rfl, rfl, rfl⟩ hremove.heap hremove.offThread
    exact (hset.scheduleEvent _ etDec 0 .cpu true nofun).congr rfl rfl

theorem step (h : m.Good) (hok : Normal m a) (hs : m.step a = some m') : m'.Good := by
  cases a with
  | core a =>
    by_cases ha : a = .dispatch
    · subst ha
      obtain ⟨evt, t, hp, rfl⟩ := Machine.step_dispatch hs
      have hgood := (h.core_step hok (show CoreTiming.step m.timing .dispatch = some t by
        simp [CoreTiming.step, hp])).1
      split
      · exact hgood.congr rfl rfl
      · exact hgood.congr rfl rfl
    · obtain ⟨t, ht, rfl⟩ := Machine.step_core ha hs
      exact (h.core_step hok ht).1
  | mtsprDec value =>
    cases hs
    exact h.mtsprDec value
  | mfsprDec =>
    cases hs
    unfold SystemTimers.mfsprDec
    split
    · exact h
    · exact h.congr rfl rfl
  | takeException =>
    cases hs
    exact h.congr rfl rfl

end Machine.Good

/-- After a write: the event is pending, or the timer has reached its time. -/
structure Waiting (expiry : Int) (m : Machine) : Prop where
  good : m.Good
  pending : decTimes m.timing = {expiry} ∨ decTimes m.timing = 0 ∧ expiry ≤ m.timing.globalTimer

namespace Waiting

variable {expiry : Int}

theorem pop (h : Waiting expiry m) {evt : Event} {t : State}
    (hp : popEvent m.timing = some (evt, t)) (htype : evt.type = etDec) :
    evt.time = expiry ∧ decTimes t = 0 ∧ expiry ≤ t.globalTimer := by
  have hdec := decTimes_popEvent hp
  rw [if_pos htype] at hdec
  rcases h.pending with hone | ⟨hzero, _⟩
  · rw [hone, Multiset.singleton_eq_cons_iff] at hdec
    obtain ⟨htime, hzero⟩ := hdec
    obtain ⟨_, rfl, hdue, rfl⟩ := popEvent_eq_some hp
    exact ⟨htime.symm, hzero, htime ▸ hdue⟩
  · rw [hzero] at hdec
    exact absurd hdec (Multiset.zero_ne_cons)

theorem keeps (h : Waiting expiry m) (hk : Keeps m.timing m'.timing) (hgood : m'.Good) :
    Waiting expiry m' := by
  refine ⟨hgood, ?_⟩
  rw [hk.decTimes]
  rcases h.pending with hone | ⟨hzero, hle⟩
  · exact .inl hone
  · exact .inr ⟨hzero, Int.le_trans hle hk.timer⟩

theorem step (h : Waiting expiry m) (hok : Quiet m a) (hs : m.step a = some m') :
    (Keeps m.timing m'.timing ∧ (m'.sprDec = m.sprDec ∨ m'.sprDec = getFakeDecrementer m.timing)) ∨
    (expiry ≤ m.timing.globalTimer ∧ expiry ≤ m'.timing.globalTimer ∧ decTimes m'.timing = 0 ∧
      m'.exceptionDecrementer = true ∧ m'.sprDec = 0xFFFFFFFF) := by
  cases a with
  | core a =>
    by_cases ha : a = .dispatch
    · subst ha
      obtain ⟨evt, t, hp, rfl⟩ := Machine.step_dispatch hs
      have htimer : t.globalTimer = m.timing.globalTimer := (SameTimer.popEvent hp).globalTimer
      by_cases htype : evt.type = etDec
      · obtain ⟨_, hzero, hle⟩ := h.pop hp htype
        rw [if_pos htype]
        exact .inr ⟨htimer ▸ hle, hle, hzero, rfl, rfl⟩
      · have hdec := decTimes_popEvent hp
        rw [if_neg htype] at hdec ⊢
        obtain ⟨_, _, _, rfl⟩ := popEvent_eq_some hp
        exact .inl ⟨⟨Int.le_refl _, hdec.symm, rfl, rfl⟩, .inl rfl⟩
    · obtain ⟨t, ht, rfl⟩ := Machine.step_core ha hs
      exact .inl ⟨(h.good.core_step hok ht).2 ha, .inl rfl⟩
  | mtsprDec value => exact absurd hok id
  | mfsprDec =>
    cases hs
    unfold SystemTimers.mfsprDec
    split
    · exact .inl ⟨⟨Int.le_refl _, rfl, rfl, rfl⟩, .inl rfl⟩
    · exact .inl ⟨⟨Int.le_refl _, rfl, rfl, rfl⟩, .inr rfl⟩
  | takeException =>
    cases hs
    exact .inl ⟨⟨Int.le_refl _, rfl, rfl, rfl⟩, .inl rfl⟩

end Waiting

theorem Quiet.normal {m : Machine} (h : Quiet m a) : Normal m a := by
  cases a with
  | mtsprDec value => exact absurd h id
  | _ => exact h

theorem Waiting.run {expiry : Int} (h : Waiting expiry m) (hr : Run Machine.step Quiet m m') :
    Waiting expiry m' := by
  refine hr.invariant h fun s a t hI hok hs => ?_
  have hgood := hI.good.step hok.normal hs
  rcases hI.step hok hs with ⟨hk, _⟩ | ⟨_, hle, hzero, _⟩
  · exact hI.keeps hk hgood
  · exact ⟨hgood, .inr ⟨hzero, hle⟩⟩

/-! ## reads -/

/-- Between a write and its expiry: the event is pending, and the register and what it
is derived from are in place. -/
structure Counting (start : Int) (value : Nat) (m : Machine) : Prop where
  waiting : Waiting (start + value * timerRatio) m
  startTicks : m.timing.fakeDecStartTicks = start
  startValue : m.timing.fakeDecStartValue = value
  positive : topBit m.sprDec = false

theorem getFakeDecrementer_eq {s : State} {start : Int} (hv : value < 2 ^ 31)
    (hstart : s.fakeDecStartTicks = start) (hvalue : s.fakeDecStartValue = value)
    (hle : start ≤ getTicks s) (hlt : getTicks s < start + value * timerRatio) :
    (getFakeDecrementer s : Int) = value - (getTicks s - start) / timerRatio := by
  obtain ⟨elapsed, helapsed⟩ : ∃ elapsed : Nat, getTicks s - start = elapsed :=
    ⟨(getTicks s - start).toNat, by omega⟩
  unfold timerRatio at hlt
  have hmod : (elapsed : Int) % 2 ^ 64 = elapsed := by omega
  unfold getFakeDecrementer timerRatio
  dsimp only
  omega

namespace Counting

variable {start : Int}

theorem getFakeDecrementer_lt (h : Counting start value m) (hv : value < 2 ^ 31)
    (hle : start ≤ m.ticks) (hlt : m.ticks < start + value * timerRatio) :
    getFakeDecrementer m.timing < 2 ^ 31 := by
  have heq := getFakeDecrementer_eq hv h.startTicks h.startValue hle hlt
  have hdiv : 0 ≤ (getTicks m.timing - start) / timerRatio :=
    Int.ediv_nonneg (by unfold Machine.ticks at hle; omega) (by decide)
  omega

theorem step (h : Counting start value m) (hv : value < 2 ^ 31) (hok : BeforeExpiry start value m a)
    (hs : m.step a = some m') : Counting start value m' := by
  obtain ⟨hquiet, hle, hlt⟩ := hok
  have hgood := h.waiting.good.step hquiet.normal hs
  rcases h.waiting.step hquiet hs with ⟨hk, hspr⟩ | ⟨hdue, _⟩
  · refine ⟨h.waiting.keeps hk hgood, hk.startTicks.trans h.startTicks,
      hk.startValue.trans h.startValue, ?_⟩
    rcases hspr with hspr | hspr <;> rw [hspr]
    · exact h.positive
    · have hlt' := h.getFakeDecrementer_lt hv hle hlt
      simpa [topBit] using hlt'
  · -- the event would have to be due before its time
    have hticks := h.waiting.good.globalTimer_le_ticks
    omega

end Counting

theorem decTimes_mtsprDec_of_lt (m : Machine) (hv : value < 2 ^ 31)
    (hwrap : value * timerRatio < 2 ^ 32) :
    decTimes (mtsprDec m value).timing = {m.ticks + value * timerRatio} := by
  have htop : topBit value = false := by simpa [topBit] using hv
  rw [decTimes_mtsprDec, htop, Nat.mod_eq_of_lt hwrap]
  simp

theorem mtsprDec_counting {m : Machine} (h : m.Good) (hv : value < 2 ^ 31)
    (hwrap : value * timerRatio < 2 ^ 32) : Counting m.ticks value (mtsprDec m value) := by
  have htop : topBit value = false := by simpa [topBit] using hv
  have hticks : getTicks (removeEvent m.timing etDec) = m.ticks :=
    (SameTimer.removeEvent m.timing etDec).getTicks
  have hset : mtsprDec m value = { m with
      timing := scheduleEvent { removeEvent m.timing etDec with
        fakeDecStartTicks := getTicks (removeEvent m.timing etDec)
        fakeDecStartValue := value } (value * timerRatio % 2 ^ 32 : Nat) etDec 0 .cpu true
      sprDec := value
      exceptionDecrementer := m.exceptionDecrementer || (!topBit m.sprDec && topBit value) } := by
    unfold mtsprDec decrementerSet
    simp only [htop]
    rfl
  refine ⟨⟨h.mtsprDec value, .inl (decTimes_mtsprDec_of_lt m hv hwrap)⟩, ?_, ?_, ?_⟩
  · rw [hset]
    exact (scheduleEvent_frame _ _ _ _ _ _).2.2.trans hticks
  · rw [hset]
    exact (scheduleEvent_frame _ _ _ _ _ _).2.1
  · rw [hset]
    exact htop

/-! ## the specification -/

theorem advanceEnd_not_due (h : m.Good) (hs : m.step (.core .advanceEnd) = some m') {time : Int}
    (hp : decTimes m'.timing = {time}) :
    m'.timing.globalTimer < time := by
  obtain ⟨t, ht, rfl⟩ := Machine.step_core (a := .advanceEnd) nofun hs
  rw [CoreTiming.step] at ht
  split at ht
  · contradiction
  · next hdue =>
      cases ht
      have hmem : time ∈ decTimes (advanceEnd m.timing) := by
        rw [hp]
        exact Multiset.mem_singleton_self _
      rw [decTimes, Multiset.mem_coe, List.mem_map] at hmem
      obtain ⟨e, he, rfl⟩ := hmem
      have hmem : e ∈ m.timing.eventQueue := Array.mem_toList_iff.mp (List.mem_of_mem_filter he)
      have h0 : 0 < m.timing.eventQueue.size := Array.size_pos_of_mem hmem
      have hle := (front_isLeast h.heap h0).2 e hmem
      have htimer : (advanceEnd m.timing).globalTimer = m.timing.globalTimer := rfl
      unfold eventDue at hdue
      rw [dif_pos h0, decide_eq_true_eq] at hdue
      dsimp only
      omega

theorem decrementerSpec_of_lt {m : Machine} (h : m.Good) (hv : value < 2 ^ 31)
    (hwrap : value * timerRatio < 2 ^ 32) : DecrementerSpec m value := by
  have hcount := mtsprDec_counting h hv hwrap
  have hwait : ∀ m', Run Machine.step Quiet (mtsprDec m value) m' →
      Waiting (m.ticks + value * timerRatio) m' := fun m' hr => hcount.waiting.run hr
  constructor
  case scheduled => exact decTimes_mtsprDec_of_lt m hv hwrap
  case read =>
    intro m' hr hle hlt
    have hcount' : Counting m.ticks value m' :=
      hr.invariant hcount fun _ _ _ hI hok hs => hI.step hv hok hs
    have htop := hcount'.positive
    simp only [mfsprDec, htop]
    exact getFakeDecrementer_eq hv hcount'.startTicks hcount'.startValue hle hlt
  case pending => exact fun m' hr => (hwait m' hr).pending
  case raised =>
    intro m' a m'' hr hok hs hne hzero
    rcases (hwait m' hr).step hok hs with ⟨hk, _⟩ | ⟨_, _, _, hraised⟩
    · rw [hk.decTimes] at hzero
      exact absurd hzero hne
    · exact hraised
  case onTime =>
    intro m' m'' hr hok hs
    have hwait'' := hwait m'' (hr.tail _ hok hs)
    rcases hwait''.pending with hone | ⟨hzero, hle⟩
    · have hlt := advanceEnd_not_due (hwait m' hr).good hs hone
      rw [hone]
      exact ⟨fun h0 => absurd h0 (Multiset.singleton_ne_zero _), fun hle => absurd hle (by omega)⟩
    · exact ⟨fun _ => hle, fun _ => hzero⟩
  case rewritten => exact fun m' value' _ => decTimes_mtsprDec m' value'

/-- **Decrementer**: in every state a run reaches, a write of a value with the top bit
clear keeps its promises exactly if the product with `TIMER_RATIO` fits 32 bits. -/
theorem decrementerSpec_iff {oc : OCFactor} {m : Machine}
    (h : Run Machine.step Normal (Machine.init oc) m) {value : Nat} (hv : value < 2 ^ 31) :
    DecrementerSpec m value ↔ value * timerRatio < 2 ^ 32 := by
  have hgood : m.Good :=
    h.invariant (Machine.init_good oc) fun _ _ _ hI hok hs => hI.step hok hs
  constructor
  · intro hspec
    have hdec := hspec.scheduled
    have htop : topBit value = false := by simpa [topBit] using hv
    rw [decTimes_mtsprDec, htop] at hdec
    have htime := Multiset.singleton_inj.mp hdec
    omega
  · exact decrementerSpec_of_lt hgood hv

/-- The machine after the first `Advance`. -/
def Machine.firstSlice : Machine :=
  { Machine.init .one with
    timing := advanceEnd (advanceBegin (Machine.init .one).timing .one)
    phase := .slice }

theorem Machine.firstSlice_run :
    Run Machine.step Normal (Machine.init .one) Machine.firstSlice := by
  have h : Run Machine.step Normal (Machine.init .one) _ :=
    Run.single (MachineAction.core (.advanceBegin .one)) (.inl rfl) rfl
  exact h.tail (MachineAction.core .advanceEnd)
    ⟨⟨_, rfl⟩, .inr ⟨by decide, by decide⟩⟩ rfl

theorem decrementerSpec_iff_largest :
    DecrementerSpec Machine.firstSlice 0x15555555 ↔ 0x15555555 * timerRatio < 2 ^ 32 :=
  decrementerSpec_iff Machine.firstSlice_run (by decide)

/-- The next value wraps: its event is due after 8 cycles. -/
theorem decrementerSpec_wraps : Run Machine.step Normal (Machine.init .one) Machine.firstSlice ∧
      decTimes (mtsprDec Machine.firstSlice 0x15555556).timing = {Machine.firstSlice.ticks + 8} ∧
      ¬ DecrementerSpec Machine.firstSlice 0x15555556 := by
  have hdec : decTimes (mtsprDec Machine.firstSlice 0x15555556).timing =
      {Machine.firstSlice.ticks + 8} := decTimes_mtsprDec _ _
  refine ⟨Machine.firstSlice_run, hdec, fun hspec => ?_⟩
  have htime := Multiset.singleton_inj.mp (hdec.symm.trans hspec.scheduled)
  unfold timerRatio at htime
  omega

end DolphinCore.SystemTimers
