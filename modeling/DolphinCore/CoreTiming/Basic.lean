import Mathlib.Algebra.Group.Int.Units
import DolphinCore.Lib.Heap

/-!
# DolphinCore.CoreTiming.Basic

The event scheduler of `Core/CoreTiming.cpp`: the state, and each function as the
source computes it.

Signed counters (`s64` cycles and the `int` slice length and downcount) are `Int`:
their overflow is undefined in the source, so the model speaks of executions
without it.  The unsigned event counter wraps at `2 ^ 64`.  Other threads only
reach the scheduler through `s_ts_queue`, whose pushes are serialized by
`s_ts_write_lock`, so a push is one atomic step.
-/

namespace DolphinCore.CoreTiming

open Heap

def maxSliceLength : Int := 20000

/-! ## the overclock factor -/

/-- An overclock factor as the two conversions computed with it.  The products are
binary32 arithmetic in the source: rounding is monotone, and a slice converted to
a downcount and back does not grow. -/
structure OCFactor where
  /-- `DowncountToCycles`: multiply by `last_OC_factor_inverted`. -/
  downcountToCycles : Int → Int
  /-- `CyclesToDowncount`: multiply by `s_last_OC_factor`. -/
  cyclesToDowncount : Int → Int
  mono : ∀ {a b}, a ≤ b → downcountToCycles a ≤ downcountToCycles b
  zero : downcountToCycles 0 = 0
  roundTrip : ∀ {n}, 0 ≤ n → n ≤ maxSliceLength → downcountToCycles (cyclesToDowncount n) ≤ n

/-- The factor `1.0f`: a product with it is exact as long as the integer is. -/
structure OCFactor.IsOne (oc : OCFactor) : Prop where
  downcountToCycles : ∀ {n}, -2 ^ 24 ≤ n → n ≤ 2 ^ 24 → oc.downcountToCycles n = n
  cyclesToDowncount : ∀ {n}, -2 ^ 24 ≤ n → n ≤ 2 ^ 24 → oc.cyclesToDowncount n = n

/-- The exact conversions, `1.0f` on every cycle count of up to 24 bits. -/
def OCFactor.one : OCFactor where
  downcountToCycles := id
  cyclesToDowncount := id
  mono := fun h => h
  zero := rfl
  roundTrip := fun _ _ => Int.le_refl _

theorem OCFactor.one_isOne : OCFactor.one.IsOne := ⟨fun _ _ => rfl, fun _ _ => rfl⟩

/-! ## events -/

/-- An event type; the name identifies it in `s_event_types`. -/
structure EventType where
  name : String
deriving DecidableEq

structure Event where
  time : Int
  fifoOrder : Nat
  userdata : Nat
  type : EventType
deriving DecidableEq

/-- `operator>`: by time, and by the order added to the queue when the times agree. -/
def Event.gt (left right : Event) : Bool :=
  decide (right.time < left.time) ||
    (decide (left.time = right.time) && decide (right.fifoOrder < left.fifoOrder))

@[simp] theorem Event.gt_eq_true {e f : Event} :
    e.gt f = true ↔ f.time < e.time ∨ (e.time = f.time ∧ f.fifoOrder < e.fifoOrder) := by
  simp [Event.gt]

@[simp] theorem Event.gt_eq_false {e f : Event} :
    e.gt f = false ↔ e.time < f.time ∨ (e.time = f.time ∧ e.fifoOrder ≤ f.fifoOrder) := by
  rw [← Bool.not_eq_true, Event.gt_eq_true]
  omega

theorem Event.gt_strictWeak : StrictWeak Event.gt where
  asymm := by
    intro e f h
    rw [Event.gt_eq_true] at h
    rw [Event.gt_eq_false]
    omega
  negTrans := by
    intro e f g h h'
    rw [Event.gt_eq_false] at *
    omega

/-- An event in a savestate: the type is saved by its name. -/
structure SavedEvent where
  time : Int
  fifoOrder : Nat
  userdata : Nat
  name : String
deriving DecidableEq

/-! ## the state -/

structure State where
  globalTimer : Int
  sliceLength : Int
  /-- `PowerPC::ppcState.downcount` -/
  downcount : Int
  lastOCFactor : OCFactor
  idledCycles : Int
  fakeDecStartValue : Nat
  fakeDecStartTicks : Int
  fakeTBStartValue : Nat
  fakeTBStartTicks : Int
  /-- Are we in a function that has been called from `advance`? -/
  isGlobalTimerSane : Bool
  eventQueue : Array Event
  eventFifoId : Nat
  tsQueue : List Event
  eventTypes : List EventType

/-- The part of a savestate that `DoState` reads and writes. -/
structure SavedState where
  sliceLength : Int
  globalTimer : Int
  idledCycles : Int
  fakeDecStartValue : Nat
  fakeDecStartTicks : Int
  fakeTBStartValue : Nat
  fakeTBStartTicks : Int
  lastOCFactor : OCFactor
  eventFifoId : Nat
  events : Array SavedEvent

def State.downcountToCycles (s : State) (downcount : Int) : Int :=
  s.lastOCFactor.downcountToCycles downcount

def State.cyclesToDowncount (s : State) (cycles : Int) : Int :=
  s.lastOCFactor.cyclesToDowncount cycles

/-- `_lost_event`, the type of events whose own type is not registered on a load. -/
def evLost : EventType := ⟨"_lost_event"⟩

/-- The state after `Init`, with the configured overclock factor. -/
def init (oc : OCFactor) : State where
  globalTimer := 0
  sliceLength := maxSliceLength
  downcount := oc.cyclesToDowncount maxSliceLength
  lastOCFactor := oc
  idledCycles := 0
  fakeDecStartValue := 0
  fakeDecStartTicks := 0
  fakeTBStartValue := 0
  fakeTBStartTicks := 0
  isGlobalTimerSane := true
  eventQueue := #[]
  eventFifoId := 0
  tsQueue := []
  eventTypes := [evLost]

/-- `RegisterEvent`; the source asserts that the name is new. -/
def registerEvent (s : State) (name : String) : State :=
  { s with eventTypes := ⟨name⟩ :: s.eventTypes }

/-! ## ticks and scheduling -/

def getTicks (s : State) : Int :=
  if s.isGlobalTimerSane then s.globalTimer
  else s.globalTimer + (s.sliceLength - s.downcountToCycles s.downcount)

/-- `s_event_fifo_id++` on a `u64`. -/
def nextFifoId (id : Nat) : Nat := (id + 1) % 2 ^ 64

/-- `emplace_back` and `push_heap` of an event numbered with `s_event_fifo_id++`. -/
def pushEvent (s : State) (ev : Event) : State :=
  { s with
    eventFifoId := nextFifoId s.eventFifoId
    eventQueue := pushHeap Event.gt (s.eventQueue.push { ev with fifoOrder := s.eventFifoId }) }

def forceExceptionCheck (s : State) (cycles : Int) : State :=
  if max 0 cycles < s.downcountToCycles s.downcount then
    { s with
      sliceLength := s.sliceLength - (s.downcountToCycles s.downcount - max 0 cycles)
      downcount := s.cyclesToDowncount (max 0 cycles) }
  else s

inductive FromThread
  | cpu
  | nonCPU
  | any
deriving DecidableEq

/-- Whether `ScheduleEvent` takes the CPU-thread branch. -/
def fromCPUThread (frm : FromThread) (isCPUThread : Bool) : Bool :=
  match frm with
  | .any => isCPUThread
  | .cpu => true
  | .nonCPU => false

def scheduleEvent (s : State) (cyclesIntoFuture : Int) (eventType : EventType) (userdata : Nat)
    (frm : FromThread) (isCPUThread : Bool) : State :=
  if fromCPUThread frm isCPUThread then
    let timeout := getTicks s + cyclesIntoFuture
    let s' := if s.isGlobalTimerSane then s else forceExceptionCheck s cyclesIntoFuture
    pushEvent s' ⟨timeout, 0, userdata, eventType⟩
  else
    { s with tsQueue := s.tsQueue ++ [⟨s.globalTimer + cyclesIntoFuture, 0, userdata, eventType⟩] }

def moveEvents (s : State) : State :=
  s.tsQueue.foldl pushEvent { s with tsQueue := [] }

def removeEvent (s : State) (eventType : EventType) : State :=
  let kept := s.eventQueue.filter (·.type ≠ eventType)
  if kept.size ≠ s.eventQueue.size then { s with eventQueue := makeHeap Event.gt kept } else s

def removeAllEvents (s : State) (eventType : EventType) : State :=
  removeEvent (moveEvents s) eventType

/-- `Idle`, without the GPU flush of `bSyncGPUOnSkipIdleHack`. -/
def idle (s : State) : State :=
  { s with
    idledCycles := s.idledCycles + s.downcountToCycles s.downcount
    downcount := 0 }

/-! ## dispatching -/

/-- `!s_event_queue.empty() && s_event_queue.front().time <= g.global_timer` -/
def eventDue (s : State) : Bool :=
  if h : 0 < s.eventQueue.size then decide (s.eventQueue[0].time ≤ s.globalTimer) else false

/-- The body of the dispatch loop up to the callback: the front event, popped. -/
def popEvent (s : State) : Option (Event × State) :=
  if h : 0 < s.eventQueue.size then
    if s.eventQueue[0].time ≤ s.globalTimer then
      some (s.eventQueue[0], { s with eventQueue := (popHeap Event.gt s.eventQueue).pop })
    else none
  else none

/-- The callback's second argument. -/
def cyclesLate (s : State) (evt : Event) : Int := s.globalTimer - evt.time

/-- `Advance` up to its dispatch loop, with the factor `SConfig` holds now. -/
def advanceBegin (s : State) (oc : OCFactor) : State :=
  let s := moveEvents s
  let cyclesExecuted := s.sliceLength - s.downcountToCycles s.downcount
  { s with
    globalTimer := s.globalTimer + cyclesExecuted
    lastOCFactor := oc
    sliceLength := maxSliceLength
    isGlobalTimerSane := true }

/-- `Advance` after its dispatch loop. -/
def advanceEnd (s : State) : State :=
  let sliceLength :=
    if h : 0 < s.eventQueue.size then min (s.eventQueue[0].time - s.globalTimer) maxSliceLength
    else s.sliceLength
  { s with
    isGlobalTimerSane := false
    sliceLength := sliceLength
    downcount := s.cyclesToDowncount sliceLength }

/-- The dispatch loop: callbacks may schedule without end, so the number of rounds
is bounded by fuel. -/
def dispatchLoop (callback : Event → Int → State → State) : Nat → State → Option State
  | 0, _ => none
  | fuel + 1, s =>
    match popEvent s with
    | none => some s
    | some (evt, s') => dispatchLoop callback fuel (callback evt (cyclesLate s' evt) s')

def advance (callback : Event → Int → State → State) (fuel : Nat) (oc : OCFactor) (s : State) :
    Option State :=
  (dispatchLoop callback fuel (advanceBegin s oc)).map advanceEnd

def processFifoWaitEvents (callback : Event → Int → State → State) (fuel : Nat) (s : State) :
    Option State :=
  dispatchLoop callback fuel (moveEvents s)

/-! ## clock changes and savestates -/

/-- The new time of one event: the remaining ticks are scaled with C++ division. -/
def adjustTime (globalTimer : Int) (newPPCClock oldPPCClock : Nat) (ev : Event) : Event :=
  { ev with
    time := globalTimer + ((ev.time - globalTimer) * newPPCClock).tdiv oldPPCClock }

def adjustEventQueueTimes (s : State) (newPPCClock oldPPCClock : Nat) : State :=
  { s with eventQueue := s.eventQueue.map (adjustTime s.globalTimer newPPCClock oldPPCClock) }

def Event.save (ev : Event) : SavedEvent := ⟨ev.time, ev.fifoOrder, ev.userdata, ev.type.name⟩

def SavedEvent.load (eventTypes : List EventType) (ev : SavedEvent) : Event :=
  ⟨ev.time, ev.fifoOrder, ev.userdata,
    if (⟨ev.name⟩ : EventType) ∈ eventTypes then ⟨ev.name⟩ else evLost⟩

/-- `DoState` in `MODE_MEASURE`: nothing is read or written, but events are moved. -/
def doStateMeasure (s : State) : State := moveEvents s

/-- `DoState` in `MODE_WRITE`: the counter is written before the pending off-thread
events are moved into the queue and numbered. -/
def doStateWrite (s : State) : SavedState × State :=
  let s' := moveEvents s
  ({ sliceLength := s.sliceLength
     globalTimer := s.globalTimer
     idledCycles := s.idledCycles
     fakeDecStartValue := s.fakeDecStartValue
     fakeDecStartTicks := s.fakeDecStartTicks
     fakeTBStartValue := s.fakeTBStartValue
     fakeTBStartTicks := s.fakeTBStartTicks
     lastOCFactor := s.lastOCFactor
     eventFifoId := s.eventFifoId
     events := s'.eventQueue.map Event.save }, s')

/-- `DoState` in `MODE_READ`. -/
def doStateRead (s : State) (saved : SavedState) : State :=
  let s := { s with
    sliceLength := saved.sliceLength
    globalTimer := saved.globalTimer
    idledCycles := saved.idledCycles
    fakeDecStartValue := saved.fakeDecStartValue
    fakeDecStartTicks := saved.fakeDecStartTicks
    fakeTBStartValue := saved.fakeTBStartValue
    fakeTBStartTicks := saved.fakeTBStartTicks
    lastOCFactor := saved.lastOCFactor
    eventFifoId := saved.eventFifoId }
  let s := moveEvents s
  { s with eventQueue := makeHeap Event.gt (saved.events.map (SavedEvent.load s.eventTypes)) }

end DolphinCore.CoreTiming
