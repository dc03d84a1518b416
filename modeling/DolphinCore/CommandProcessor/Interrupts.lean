import DolphinCore.CommandProcessor.Basic
import DolphinCore.Lib.Run

/-!
# DolphinCore.CommandProcessor.Interrupts

The CP interrupt in dual core mode. Both threads derive it from the registers, one
statement after another: the CPU thread sets the cause itself, the GPU thread
schedules an event that does.
-/

namespace DolphinCore.CommandProcessor

namespace SCPFifoStruct

/-! ## what the interrupt depends on -/

def breakpointHit (fifo : SCPFifoStruct) : Bool :=
  fifo.bFF_BPEnable && fifo.CPBreakpoint = fifo.CPReadPointer

def overflows (fifo : SCPFifoStruct) : Bool := fifo.CPHiWatermark < fifo.CPReadWriteDistance

def underflows (fifo : SCPFifoStruct) : Bool := fifo.CPReadWriteDistance < fifo.CPLoWatermark

/-- One of the conditions holds and has its interrupt enabled. -/
def interruptCondition (fifo : SCPFifoStruct) (gpReadEnable : Bool) : Bool :=
  (fifo.breakpointHit && fifo.bFF_BPInt || fifo.overflows && fifo.bFF_HiWatermarkInt ||
    fifo.underflows && fifo.bFF_LoWatermarkInt) && gpReadEnable

/-- Other values of what the interrupt depends on; the flags are those of the two threads. -/
def withInputs (fifo inputs : SCPFifoStruct) : SCPFifoStruct :=
  { inputs with bFF_Breakpoint := fifo.bFF_Breakpoint, bFF_HiWatermark := fifo.bFF_HiWatermark,
                bFF_LoWatermark := fifo.bFF_LoWatermark }

end SCPFifoStruct

/-! ## the statements -/

/-- The statement of `SetCPStatusFromGPU` that is next, and the variables that it and those
after it use. -/
inductive GPUStatement where
  | idle
  | breakPoint
  | storeBreakPoint (break_point : Bool)
  | hiWatermark (break_point : Bool)
  | loWatermark (break_point HiWatermark : Bool)
  | storeHiWatermark (break_point HiWatermark LoWatermark : Bool)
  | storeLoWatermark (break_point HiWatermark LoWatermark : Bool)
  | bpInt (break_point HiWatermark LoWatermark : Bool)
  | ovfInt (bpInt HiWatermark LoWatermark : Bool)
  | undfInt (bpInt ovfInt LoWatermark : Bool)
  | interrupt (bpInt ovfInt undfInt : Bool)
  /-- `any` is `bpInt || undfInt || ovfInt`. -/
  | compare (interrupt any : Bool)
  | checkWaiting (interrupt any : Bool)
  | setWaiting (interrupt : Bool)
  | schedule (interrupt : Bool)
deriving DecidableEq

/-- The statement of `SetCPStatusFromCPU` or of `UpdateInterrupts` that is next. -/
inductive CPUStatement where
  | idle
  | storeHiWatermark
  | storeLoWatermark
  | bpInt
  | ovfInt (bpInt : Bool)
  | undfInt (bpInt ovfInt : Bool)
  | interrupt (bpInt ovfInt undfInt : Bool)
  | compare (interrupt any : Bool)
  | checkWaiting (interrupt any : Bool)
  | setFlag (interrupt : Bool)
  | setCause (interrupt : Bool)
  | eventFlag (userdata : Bool)
  | eventCause (userdata : Bool)
  | eventClear
deriving DecidableEq

/-- A call of `SetCPStatusFromCPU` is in progress. -/
def CPUStatement.inStatus : CPUStatement → Bool
  | .idle | .eventFlag _ | .eventCause _ | .eventClear => false
  | _ => true

/-- An event is being executed. -/
def CPUStatement.inEvent : CPUStatement → Bool
  | .eventFlag _ | .eventCause _ | .eventClear => true
  | _ => false

/-! ## which calls there were -/

/-- The calls of the status functions since some point. -/
structure Calls where
  /-- The call in progress on the GPU thread began since. -/
  gpuSince : Bool
  /-- No call on the CPU thread has overlapped it. -/
  gpuAlone : Bool
  cpuSince : Bool
  /-- The call in progress on the CPU thread began when one of the GPU thread that began since had
  returned. -/
  cpuFollows : Bool
  gpuReturned : Bool
  cpuReturned : Bool
  /-- A call on the GPU thread returned that no call on the CPU thread had overlapped, or that
  one has followed. -/
  apart : Bool
deriving DecidableEq

namespace Calls

def none : Calls := ⟨false, false, false, false, false, false, false⟩

def callGPU (c : Calls) (cpu : CPUStatement) : Calls :=
  { c with gpuSince := true, gpuAlone := !cpu.inStatus }

def returnGPU (c : Calls) : Calls :=
  { c with gpuReturned := c.gpuReturned || c.gpuSince,
           apart := c.apart || c.gpuSince && c.gpuAlone }

def callCPU (c : Calls) : Calls :=
  { c with gpuAlone := false, cpuSince := true, cpuFollows := c.gpuReturned }

def returnCPU (c : Calls) : Calls :=
  { c with cpuReturned := c.cpuReturned || c.cpuSince, apart := c.apart || c.cpuFollows }

end Calls

/-! ## the system -/

structure Interrupts where
  fifo : SCPFifoStruct
  /-- `m_CPCtrlReg.GPReadEnable` -/
  gpReadEnable : Bool
  s_interrupt_set : Bool
  s_interrupt_waiting : Bool
  /-- `INT_CAUSE_CP` of the interrupt cause. -/
  cause : Bool
  /-- The user data of the scheduled events. -/
  events : List Bool
  gpu : GPUStatement
  cpu : CPUStatement
  /-- The calls since the last change of what the interrupt depends on. -/
  sinceChange : Calls
  /-- The calls since the last change and the last event. -/
  sinceEvent : Calls
deriving DecidableEq

inductive InterruptAction where
  /-- What the interrupt depends on is changed outside of the status functions, by the GPU thread
  or by the CPU thread. -/
  | change (byGPU : Bool) (inputs : SCPFifoStruct) (gpReadEnable : Bool)
  | callGPU
  | stepGPU
  | callCPU
  | stepCPU
  | event

namespace Interrupts

def init : Interrupts :=
  ⟨.zero, false, false, false, false, [], .idle, .idle, .none, .none⟩

def condition (s : Interrupts) : Bool := s.fifo.interruptCondition s.gpReadEnable

/-- `SetCPStatusFromGPU` returns. -/
def returnGPU (s : Interrupts) : Interrupts :=
  { s with gpu := .idle, sinceChange := s.sinceChange.returnGPU,
           sinceEvent := s.sinceEvent.returnGPU }

/-- `SetCPStatusFromCPU` returns. -/
def returnCPU (s : Interrupts) : Interrupts :=
  { s with cpu := .idle, sinceChange := s.sinceChange.returnCPU,
           sinceEvent := s.sinceEvent.returnCPU }

/-- A statement of `SetCPStatusFromGPU`. -/
def stepGPU (s : Interrupts) : Option Interrupts :=
  match s.gpu with
  | .idle => none
  | .breakPoint => some { s with gpu := .storeBreakPoint s.fifo.breakpointHit }
  -- stored where it is not the old one
  | .storeBreakPoint break_point =>
    some { s with fifo := { s.fifo with bFF_Breakpoint := break_point },
                  gpu := .hiWatermark break_point }
  | .hiWatermark break_point => some { s with gpu := .loWatermark break_point s.fifo.overflows }
  | .loWatermark break_point HiWatermark =>
    some { s with gpu := .storeHiWatermark break_point HiWatermark s.fifo.underflows }
  | .storeHiWatermark break_point HiWatermark LoWatermark =>
    some { s with fifo := { s.fifo with bFF_HiWatermark := HiWatermark },
                  gpu := .storeLoWatermark break_point HiWatermark LoWatermark }
  | .storeLoWatermark break_point HiWatermark LoWatermark =>
    some { s with fifo := { s.fifo with bFF_LoWatermark := LoWatermark },
                  gpu := .bpInt break_point HiWatermark LoWatermark }
  | .bpInt break_point HiWatermark LoWatermark =>
    some { s with gpu := .ovfInt (break_point && s.fifo.bFF_BPInt) HiWatermark LoWatermark }
  | .ovfInt bpInt HiWatermark LoWatermark =>
    some { s with gpu := .undfInt bpInt (HiWatermark && s.fifo.bFF_HiWatermarkInt) LoWatermark }
  | .undfInt bpInt ovfInt LoWatermark =>
    some { s with gpu := .interrupt bpInt ovfInt (LoWatermark && s.fifo.bFF_LoWatermarkInt) }
  | .interrupt bpInt ovfInt undfInt =>
    some { s with gpu := .compare ((bpInt || ovfInt || undfInt) && s.gpReadEnable)
                    (bpInt || undfInt || ovfInt) }
  | .compare interrupt any =>
    if interrupt ≠ s.s_interrupt_set then some { s with gpu := .checkWaiting interrupt any }
    else some s.returnGPU
  | .checkWaiting interrupt any =>
    if !s.s_interrupt_waiting && (!interrupt || any) then
      some { s with gpu := .setWaiting interrupt }
    else some s.returnGPU
  | .setWaiting interrupt =>
    some { s with s_interrupt_waiting := true, gpu := .schedule interrupt }
  -- UpdateInterruptsFromVideoBackend
  | .schedule interrupt => some { s with events := s.events ++ [interrupt] }.returnGPU

/-- A statement of `SetCPStatusFromCPU` or of `UpdateInterrupts`. -/
def stepCPU (s : Interrupts) : Option Interrupts :=
  match s.cpu with
  | .idle => none
  | .storeHiWatermark =>
    some { s with fifo := { s.fifo with bFF_HiWatermark := s.fifo.overflows },
                  cpu := .storeLoWatermark }
  | .storeLoWatermark =>
    some { s with fifo := { s.fifo with bFF_LoWatermark := s.fifo.underflows }, cpu := .bpInt }
  | .bpInt => some { s with cpu := .ovfInt (s.fifo.bFF_Breakpoint && s.fifo.bFF_BPInt) }
  | .ovfInt bpInt =>
    some { s with cpu := .undfInt bpInt (s.fifo.bFF_HiWatermark && s.fifo.bFF_HiWatermarkInt) }
  | .undfInt bpInt ovfInt =>
    let undfInt := s.fifo.bFF_LoWatermark && s.fifo.bFF_LoWatermarkInt
    some { s with cpu := .interrupt bpInt ovfInt undfInt }
  | .interrupt bpInt ovfInt undfInt =>
    some { s with cpu := .compare ((bpInt || ovfInt || undfInt) && s.gpReadEnable)
                    (bpInt || undfInt || ovfInt) }
  | .compare interrupt any =>
    if interrupt ≠ s.s_interrupt_set then some { s with cpu := .checkWaiting interrupt any }
    else some s.returnCPU
  | .checkWaiting interrupt any =>
    if !s.s_interrupt_waiting && (!interrupt || any) then some { s with cpu := .setFlag interrupt }
    else some s.returnCPU
  | .setFlag interrupt => some { s with s_interrupt_set := interrupt, cpu := .setCause interrupt }
  | .setCause interrupt => some { s with cause := interrupt }.returnCPU
  | .eventFlag userdata => some { s with s_interrupt_set := userdata, cpu := .eventCause userdata }
  | .eventCause userdata => some { s with cause := userdata, cpu := .eventClear }
  | .eventClear =>
    some { s with s_interrupt_waiting := false, cpu := .idle, sinceEvent := .none }

def step (s : Interrupts) : InterruptAction → Option Interrupts
  | .change byGPU inputs gpReadEnable =>
    if (if byGPU then s.gpu = .idle else s.cpu = .idle) then
      some { s with fifo := s.fifo.withInputs inputs, gpReadEnable := gpReadEnable,
                    sinceChange := .none, sinceEvent := .none }
    else none
  | .callGPU =>
    if s.gpu = .idle then
      some { s with gpu := .breakPoint, sinceChange := s.sinceChange.callGPU s.cpu,
                    sinceEvent := s.sinceEvent.callGPU s.cpu }
    else none
  | .stepGPU => s.stepGPU
  | .callCPU =>
    if s.cpu = .idle then
      some { s with cpu := .storeHiWatermark, sinceChange := s.sinceChange.callCPU,
                    sinceEvent := s.sinceEvent.callCPU }
    else none
  | .stepCPU => s.stepCPU
  | .event =>
    match s.events with
    | userdata :: events =>
      if s.cpu = .idle then some { s with events := events, cpu := .eventFlag userdata } else none
    | [] => none

/-- No `UpdateInterrupts` event is scheduled, about to be, or being executed. -/
def NonePending (s : Interrupts) : Prop :=
  s.events = [] ∧ (∀ interrupt, s.gpu ≠ .schedule interrupt) ∧ s.cpu.inEvent = false

/-! ## the invariant -/

/-- The variables of a call on the GPU thread that began since. -/
def GPULocals (s : Interrupts) : GPUStatement → Prop
  | .idle => True
  | .breakPoint => True
  | .storeBreakPoint break_point => break_point = s.fifo.breakpointHit
  | .hiWatermark break_point =>
    break_point = s.fifo.breakpointHit ∧ s.fifo.bFF_Breakpoint = s.fifo.breakpointHit
  | .loWatermark break_point HiWatermark =>
    break_point = s.fifo.breakpointHit ∧ s.fifo.bFF_Breakpoint = s.fifo.breakpointHit ∧
      HiWatermark = s.fifo.overflows
  | .storeHiWatermark break_point HiWatermark LoWatermark
  | .storeLoWatermark break_point HiWatermark LoWatermark
  | .bpInt break_point HiWatermark LoWatermark =>
    break_point = s.fifo.breakpointHit ∧ s.fifo.bFF_Breakpoint = s.fifo.breakpointHit ∧
      HiWatermark = s.fifo.overflows ∧ LoWatermark = s.fifo.underflows
  | .ovfInt bpInt HiWatermark LoWatermark =>
    bpInt = (s.fifo.breakpointHit && s.fifo.bFF_BPInt) ∧
      s.fifo.bFF_Breakpoint = s.fifo.breakpointHit ∧
      HiWatermark = s.fifo.overflows ∧ LoWatermark = s.fifo.underflows
  | .undfInt bpInt ovfInt LoWatermark =>
    bpInt = (s.fifo.breakpointHit && s.fifo.bFF_BPInt) ∧
      s.fifo.bFF_Breakpoint = s.fifo.breakpointHit ∧
      ovfInt = (s.fifo.overflows && s.fifo.bFF_HiWatermarkInt) ∧ LoWatermark = s.fifo.underflows
  | .interrupt bpInt ovfInt undfInt =>
    bpInt = (s.fifo.breakpointHit && s.fifo.bFF_BPInt) ∧
      s.fifo.bFF_Breakpoint = s.fifo.breakpointHit ∧
      ovfInt = (s.fifo.overflows && s.fifo.bFF_HiWatermarkInt) ∧
      undfInt = (s.fifo.underflows && s.fifo.bFF_LoWatermarkInt)
  | .compare interrupt any | .checkWaiting interrupt any =>
    interrupt = s.condition ∧ (interrupt = true → any = true) ∧
      s.fifo.bFF_Breakpoint = s.fifo.breakpointHit
  | .setWaiting _ | .schedule _ => s.fifo.bFF_Breakpoint = s.fifo.breakpointHit

/-- The variables and the flags of a call on the CPU thread that follows one of the GPU thread. -/
def CPULocals (s : Interrupts) : CPUStatement → Prop
  | .storeLoWatermark => s.fifo.bFF_HiWatermark = s.fifo.overflows
  | .bpInt => s.fifo.bFF_HiWatermark = s.fifo.overflows ∧ s.fifo.bFF_LoWatermark = s.fifo.underflows
  | .ovfInt bpInt =>
    bpInt = (s.fifo.breakpointHit && s.fifo.bFF_BPInt) ∧
      s.fifo.bFF_HiWatermark = s.fifo.overflows ∧ s.fifo.bFF_LoWatermark = s.fifo.underflows
  | .undfInt bpInt ovfInt =>
    bpInt = (s.fifo.breakpointHit && s.fifo.bFF_BPInt) ∧
      ovfInt = (s.fifo.overflows && s.fifo.bFF_HiWatermarkInt) ∧
      s.fifo.bFF_LoWatermark = s.fifo.underflows
  | .interrupt bpInt ovfInt undfInt =>
    bpInt = (s.fifo.breakpointHit && s.fifo.bFF_BPInt) ∧
      ovfInt = (s.fifo.overflows && s.fifo.bFF_HiWatermarkInt) ∧
      undfInt = (s.fifo.underflows && s.fifo.bFF_LoWatermarkInt)
  | .compare interrupt any | .checkWaiting interrupt any =>
    interrupt = s.condition ∧ (interrupt = true → any = true)
  | .setFlag interrupt => interrupt = s.condition
  | .setCause interrupt => interrupt = s.condition ∧ s.s_interrupt_set = interrupt
  | _ => True

/-- How many events are scheduled, about to be, or being executed. -/
def inFlight (s : Interrupts) : Nat :=
  (match s.gpu with
    | .schedule _ => 1
    | _ => 0) + s.events.length + (if s.cpu.inEvent then 1 else 0)

/-- There is an event when the flag is set, and never a second one. -/
structure OneEvent (s : Interrupts) : Prop where
  inFlight : s.inFlight = if s.s_interrupt_waiting then 1 else 0
  setWaiting : ∀ interrupt, s.gpu = .setWaiting interrupt → s.s_interrupt_waiting = false

/-- The CP bit of the cause is the flag, where the CPU thread is not about to update it. -/
def CauseSet (s : Interrupts) : Prop :=
  match s.cpu with
  | .setCause interrupt | .eventCause interrupt => s.s_interrupt_set = interrupt
  | _ => s.cause = s.s_interrupt_set

/-- A call on the CPU thread that follows one of the GPU thread and is about to set the flag: where
the calls were apart, an event is on its way instead. -/
def Acting (s : Interrupts) : CPUStatement → Prop
  | .checkWaiting _ _ => s.s_interrupt_waiting = true
  | .setFlag _ | .setCause _ => False
  | _ => True

/-- What the calls since the last change and the last event have seen; where they were apart, the
flag is right or an event is on its way. -/
structure Settling (s : Interrupts) : Prop where
  gpu : s.sinceEvent.gpuSince = true → GPULocals s s.gpu
  gpuReturned : s.sinceEvent.gpuReturned = true →
    s.fifo.bFF_Breakpoint = s.fifo.breakpointHit ∧ (s.gpu ≠ .idle → s.sinceEvent.gpuSince = true)
  cpu : s.sinceEvent.cpuFollows = true → s.cpu.inStatus = true →
    CPULocals s s.cpu ∧ s.sinceEvent.gpuReturned = true
  alone : s.sinceEvent.gpuSince = true → s.sinceEvent.gpuAlone = true → s.gpu ≠ .idle →
    s.cpu.inStatus = false
  apart : s.sinceEvent.apart = true →
    s.sinceEvent.gpuReturned = true ∧ (s.cpu.inStatus = true → s.sinceEvent.cpuFollows = true)
  set : s.sinceEvent.apart = true → s.s_interrupt_waiting = true ∨ s.s_interrupt_set = s.condition
  acting : s.sinceEvent.apart = true → Acting s s.cpu

section

variable {s t : Interrupts}

/-! ## events -/

theorem OneEvent.stepGPU (h : OneEvent s) (hs : s.stepGPU = some t) : OneEvent t := by
  obtain ⟨hflight, hset⟩ := h
  unfold Interrupts.inFlight at hflight
  unfold Interrupts.stepGPU at hs
  cases hg : s.gpu <;> simp only [hg] at hs hflight hset <;>
    (constructor <;> grind [Interrupts.inFlight, returnGPU])

theorem OneEvent.stepCPU (h : OneEvent s) (hs : s.stepCPU = some t) : OneEvent t := by
  obtain ⟨hflight, hset⟩ := h
  unfold Interrupts.inFlight at hflight
  unfold Interrupts.stepCPU at hs
  cases hg : s.cpu <;> simp only [hg] at hs hflight hset <;>
    (constructor <;> grind [Interrupts.inFlight, returnCPU, CPUStatement.inEvent])

theorem OneEvent.waiting (h : OneEvent s) (he : s.cpu.inEvent = true) :
    s.s_interrupt_waiting = true := by
  have hflight := h.inFlight
  unfold Interrupts.inFlight at hflight
  grind

theorem OneEvent.nonePending (h : OneEvent s) (hnone : s.NonePending) :
    s.s_interrupt_waiting = false := by
  obtain ⟨hevents, hschedule, hcpu⟩ := hnone
  have hflight := h.inFlight
  unfold Interrupts.inFlight at hflight
  grind

theorem step_event (hs : step s .event = some t) :
    ∃ userdata events, s.events = userdata :: events ∧ s.cpu = .idle ∧
      t = { s with events := events, cpu := .eventFlag userdata } := by
  simp only [step] at hs
  split at hs
  · next userdata events hevents =>
    obtain ⟨hidle, rfl⟩ := Option.ite_none_right_eq_some.mp hs |>.imp_right Option.some.inj
    exact ⟨userdata, events, hevents, hidle, rfl⟩
  · cases hs

variable {a : InterruptAction}

theorem OneEvent.step (h : OneEvent s) (hs : step s a = some t) : OneEvent t := by
  cases a with
  | change byGPU inputs gpReadEnable =>
    obtain ⟨-, rfl⟩ := Option.ite_none_right_eq_some.mp hs |>.imp_right Option.some.inj
    exact ⟨h.inFlight, h.setWaiting⟩
  | callGPU =>
    obtain ⟨hidle, rfl⟩ := Option.ite_none_right_eq_some.mp hs |>.imp_right Option.some.inj
    refine ⟨?_, nofun⟩
    have hflight := h.inFlight
    unfold Interrupts.inFlight at hflight ⊢
    rw [hidle] at hflight
    exact hflight
  | stepGPU => exact h.stepGPU hs
  | callCPU =>
    obtain ⟨hidle, rfl⟩ := Option.ite_none_right_eq_some.mp hs |>.imp_right Option.some.inj
    refine ⟨?_, h.setWaiting⟩
    have hflight := h.inFlight
    unfold Interrupts.inFlight at hflight ⊢
    rw [hidle] at hflight
    exact hflight
  | stepCPU => exact h.stepCPU hs
  | event =>
    obtain ⟨userdata, events, hevents, hidle, rfl⟩ := step_event hs
    refine ⟨?_, h.setWaiting⟩
    have hflight := h.inFlight
    unfold Interrupts.inFlight at hflight ⊢
    rw [hevents, hidle] at hflight
    exact hflight

/-! ## what a statement leaves alone -/

/-- What the interrupt depends on is the same. -/
structure SameInputs (s t : Interrupts) : Prop where
  breakpointHit : t.fifo.breakpointHit = s.fifo.breakpointHit
  overflows : t.fifo.overflows = s.fifo.overflows
  underflows : t.fifo.underflows = s.fifo.underflows
  bpInt : t.fifo.bFF_BPInt = s.fifo.bFF_BPInt
  hiWatermarkInt : t.fifo.bFF_HiWatermarkInt = s.fifo.bFF_HiWatermarkInt
  loWatermarkInt : t.fifo.bFF_LoWatermarkInt = s.fifo.bFF_LoWatermarkInt
  gpReadEnable : t.gpReadEnable = s.gpReadEnable

theorem SameInputs.condition (h : SameInputs s t) : t.condition = s.condition := by
  unfold Interrupts.condition SCPFifoStruct.interruptCondition
  rw [h.breakpointHit, h.overflows, h.underflows, h.bpInt, h.hiWatermarkInt, h.loWatermarkInt,
    h.gpReadEnable]

structure GPUFrame (s t : Interrupts) : Prop where
  inputs : SameInputs s t
  cpu : t.cpu = s.cpu
  set : t.s_interrupt_set = s.s_interrupt_set
  cause : t.cause = s.cause
  waiting : s.s_interrupt_waiting = true → t.s_interrupt_waiting = true
  calls : t.sinceEvent = s.sinceEvent ∨ t.gpu = .idle ∧ t.sinceEvent = s.sinceEvent.returnGPU

theorem gpuFrame_stepGPU (hs : s.stepGPU = some t) : GPUFrame s t := by
  unfold stepGPU at hs
  cases hg : s.gpu <;> simp only [hg] at hs
  all_goals try (split at hs)
  all_goals cases hs
  all_goals exact ⟨⟨rfl, rfl, rfl, rfl, rfl, rfl, rfl⟩, rfl, rfl, rfl, by simp [returnGPU],
    by simp [returnGPU]⟩

structure CPUFrame (s t : Interrupts) : Prop where
  inputs : SameInputs s t
  gpu : t.gpu = s.gpu
  breakpoint : t.fifo.bFF_Breakpoint = s.fifo.bFF_Breakpoint

theorem cpuFrame_stepCPU (hs : s.stepCPU = some t) : CPUFrame s t := by
  unfold stepCPU at hs
  cases hg : s.cpu <;> simp only [hg] at hs
  all_goals try (split at hs)
  all_goals cases hs
  all_goals exact ⟨⟨rfl, rfl, rfl, rfl, rfl, rfl, rfl⟩, rfl, rfl⟩

theorem calls_stepCPU (hs : s.stepCPU = some t) :
    (s.cpu.inStatus = true ∧ t.s_interrupt_waiting = s.s_interrupt_waiting ∧
      (t.cpu.inStatus = true ∧ t.sinceEvent = s.sinceEvent ∨
        t.cpu.inStatus = false ∧ t.sinceEvent = s.sinceEvent.returnCPU)) ∨
    (s.cpu.inEvent = true ∧ s.cpu.inStatus = false ∧ t.cpu.inStatus = false ∧
      (t.sinceEvent = .none ∨
        t.sinceEvent = s.sinceEvent ∧ t.s_interrupt_waiting = s.s_interrupt_waiting)) := by
  unfold Interrupts.stepCPU at hs
  cases hg : s.cpu <;> simp only [hg] at hs <;>
    grind [returnCPU, CPUStatement.inStatus, CPUStatement.inEvent]

/-! ## the variables -/

theorem GPULocals.frame (h : CPUFrame s t) {gpu : GPUStatement} (hl : GPULocals s gpu) :
    GPULocals t gpu := by
  obtain ⟨hi, -, hb⟩ := h
  have hc := hi.condition
  obtain ⟨h1, h2, h3, h4, h5, h6, h7⟩ := hi
  cases gpu <;> grind [GPULocals]

/-- A flag was left alone or has the value that it ought to have. -/
def Kept (flag flag' right : Bool) : Prop := flag' = flag ∨ flag' = right

theorem CPULocals.frame (h : GPUFrame s t)
    (hhi : Kept s.fifo.bFF_HiWatermark t.fifo.bFF_HiWatermark s.fifo.overflows)
    (hlo : Kept s.fifo.bFF_LoWatermark t.fifo.bFF_LoWatermark s.fifo.underflows)
    {cpu : CPUStatement} (hl : CPULocals s cpu) : CPULocals t cpu := by
  have hc := h.inputs.condition
  have hset := h.set
  obtain ⟨h1, h2, h3, h4, h5, h6, h7⟩ := h.inputs
  unfold Kept at hhi hlo
  cases cpu <;> grind [CPULocals]

theorem GPULocals.stepGPU (h : GPULocals s s.gpu) (hs : s.stepGPU = some t) : GPULocals t t.gpu ∧
      Kept s.fifo.bFF_Breakpoint t.fifo.bFF_Breakpoint s.fifo.breakpointHit ∧
      Kept s.fifo.bFF_HiWatermark t.fifo.bFF_HiWatermark s.fifo.overflows ∧
      Kept s.fifo.bFF_LoWatermark t.fifo.bFF_LoWatermark s.fifo.underflows := by
  have hi := (gpuFrame_stepGPU hs).inputs
  have hc := hi.condition
  obtain ⟨h1, h2, h3, h4, h5, h6, h7⟩ := hi
  unfold Interrupts.stepGPU at hs
  cases hg : s.gpu <;> simp only [hg] at hs h <;>
    grind [GPULocals, returnGPU, condition, SCPFifoStruct.interruptCondition, Kept]

theorem GPULocals.returned (h : GPULocals s s.gpu) (hs : s.stepGPU = some t)
    (hidle : t.gpu = .idle) : t.fifo.bFF_Breakpoint = t.fifo.breakpointHit ∧
      (OneEvent s → t.s_interrupt_waiting = true ∨ t.s_interrupt_set = t.condition) := by
  unfold Interrupts.stepGPU at hs
  cases hg : s.gpu <;> simp only [hg] at hs h <;>
    grind [GPULocals, returnGPU, condition, SCPFifoStruct.interruptCondition,
      SCPFifoStruct.breakpointHit, OneEvent, Interrupts.inFlight]

theorem CPULocals.stepCPU (h : CPULocals s s.cpu)
    (hb : s.fifo.bFF_Breakpoint = s.fifo.breakpointHit) (hs : s.stepCPU = some t)
    (hin : s.cpu.inStatus = true) :
    (t.cpu.inStatus = true → CPULocals t t.cpu ∧
      (s.s_interrupt_waiting = true ∨ s.s_interrupt_set = s.condition → Acting s s.cpu →
        Acting t t.cpu)) ∧
      (t.cpu.inStatus = false → t.s_interrupt_waiting = true ∨ t.s_interrupt_set = t.condition) ∧
      Kept s.s_interrupt_set t.s_interrupt_set t.condition := by
  have hi := (cpuFrame_stepCPU hs).inputs
  have hc := hi.condition
  obtain ⟨h1, h2, h3, h4, h5, h6, h7⟩ := hi
  unfold Interrupts.stepCPU at hs
  cases hg : s.cpu <;> simp only [hg] at hs h <;>
    grind [CPULocals, returnCPU, condition, SCPFifoStruct.interruptCondition,
      CPUStatement.inStatus, Kept, Acting]

/-! ## every step -/

theorem Acting.of_not_inStatus (h : s.cpu.inStatus = false) : Acting s s.cpu := by
  cases hc : s.cpu <;> rw [hc] at h <;> trivial

theorem Acting.frame (h : GPUFrame s t) (ha : Acting s s.cpu) : Acting t t.cpu := by
  rw [h.cpu]
  cases hc : s.cpu <;> rw [hc] at ha <;> first | trivial | exact h.waiting ha

theorem Settling.stepGPU (h : Settling s) (hone : OneEvent s) (hs : s.stepGPU = some t) :
    Settling t := by
  obtain ⟨hgpu, hret, hcpu, halone, hapart, hset, hacting⟩ := h
  have hbusy : s.gpu ≠ .idle := by
    intro hidle
    unfold Interrupts.stepGPU at hs
    rw [hidle] at hs
    cases hs
  have hf := gpuFrame_stepGPU hs
  have hstep := fun h => GPULocals.stepGPU h hs
  have hreturned := fun h hidle => GPULocals.returned h hs hidle
  have hframe := fun hhi hlo (h : CPULocals s s.cpu) => CPULocals.frame hf hhi hlo h
  have hactingFrame := Acting.frame hf
  have hout := Acting.of_not_inStatus (s := t)
  obtain ⟨hi, hcpueq, hseteq, -, hwait, hcalls⟩ := hf
  have hcond := hi.condition
  have hhit := hi.breakpointHit
  constructor
  · grind [Calls.returnGPU]
  · grind [Calls.returnGPU, Kept]
  · grind [Calls.returnGPU]
  · grind [Calls.returnGPU]
  · grind [Calls.returnGPU]
  · grind [Calls.returnGPU]
  · grind [Calls.returnGPU]

theorem Settling.stepCPU (h : Settling s) (hone : OneEvent s) (hs : s.stepCPU = some t) :
    Settling t := by
  obtain ⟨hgpu, hret, hcpu, halone, hapart, hset, hacting⟩ := h
  have hf := cpuFrame_stepCPU hs
  have hstep := fun h hb hin => CPULocals.stepCPU h hb hs hin
  have hcalls := calls_stepCPU hs
  have hframe := fun (h : GPULocals s s.gpu) => GPULocals.frame hf h
  have hwait := hone.waiting
  obtain ⟨hi, hgpueq, hb⟩ := hf
  have hcond := hi.condition
  have hhit := hi.breakpointHit
  constructor
  · grind [Calls.returnCPU, Calls.none]
  · grind [Calls.returnCPU, Calls.none]
  · grind [Calls.returnCPU, Calls.none]
  · grind [Calls.returnCPU, Calls.none]
  · grind [Calls.returnCPU, Calls.none]
  · intro happ
    rcases hcalls with ⟨hin, hw, ⟨hin', hc⟩ | ⟨hout, hc⟩⟩ | ⟨hev, hin, -, hc | ⟨hc, hw⟩⟩
    · -- the call goes on: it follows one of the GPU thread, and sets what is right
      rw [hc] at happ
      have hfollows := (hapart happ).2 hin
      obtain ⟨hlocals, hr⟩ := hcpu hfollows hin
      have hkept := (hstep hlocals (hret hr).1 hin).2.2
      unfold Kept at hkept
      grind
    · -- it returns
      have hfollows : s.sinceEvent.cpuFollows = true := by
        simp only [hc, Calls.returnCPU, Bool.or_eq_true] at happ
        exact happ.elim (fun h => (hapart h).2 hin) id
      obtain ⟨hlocals, hr⟩ := hcpu hfollows hin
      exact (hstep hlocals (hret hr).1 hin).2.1 hout
    · -- an event ends: there were no calls since
      rw [hc] at happ
      cases happ
    · exact .inl (hw.trans (hwait hev))
  · intro happ
    rcases hcalls with ⟨hin, hw, ⟨hin', hc⟩ | ⟨hout, hc⟩⟩ | ⟨hev, hin, hout, -⟩
    · rw [hc] at happ
      obtain ⟨hlocals, hr⟩ := hcpu ((hapart happ).2 hin) hin
      exact ((hstep hlocals (hret hr).1 hin).1 hin').2 (hset happ) (hacting happ)
    · exact .of_not_inStatus hout
    · exact .of_not_inStatus hout

theorem Settling.step (h : Settling s) (hone : OneEvent s) (hs : step s a = some t) :
    Settling t := by
  cases a with
  | change byGPU inputs gpReadEnable =>
    obtain ⟨-, rfl⟩ := Option.ite_none_right_eq_some.mp hs |>.imp_right Option.some.inj
    exact ⟨nofun, nofun, nofun, nofun, nofun, nofun, nofun⟩
  | callGPU =>
    obtain ⟨hidle, rfl⟩ := Option.ite_none_right_eq_some.mp hs |>.imp_right Option.some.inj
    obtain ⟨hgpu, hret, hcpu, halone, hapart, hset, hacting⟩ := h
    refine ⟨fun _ => trivial, fun hr => ⟨(hret hr).1, fun _ => rfl⟩, ?_, ?_, hapart, hset, ?_⟩
    · intro hfollows hin
      obtain ⟨hlocals, hr⟩ := hcpu hfollows hin
      exact ⟨by cases hc : s.cpu <;> simp only [hc] at hlocals ⊢ <;> exact hlocals, hr⟩
    · intro _ hal _
      simpa [Calls.callGPU] using hal
    · intro happ
      have ha := hacting happ
      cases hc : s.cpu <;> simp only [hc] at ha ⊢ <;> exact ha
  | stepGPU => exact h.stepGPU hone hs
  | callCPU =>
    obtain ⟨hidle, rfl⟩ := Option.ite_none_right_eq_some.mp hs |>.imp_right Option.some.inj
    obtain ⟨hgpu, hret, hcpu, halone, hapart, hset, -⟩ := h
    refine ⟨fun hsince => ?_, hret, fun hfollows _ => ⟨trivial, hfollows⟩, nofun,
      fun happ => ⟨(hapart happ).1, fun _ => (hapart happ).1⟩, hset, fun _ => trivial⟩
    have hlocals := hgpu hsince
    cases hg : s.gpu <;> simp only [hg] at hlocals ⊢ <;> exact hlocals
  | stepCPU => exact h.stepCPU hone hs
  | event =>
    obtain ⟨userdata, events, hevents, hidle, rfl⟩ := step_event hs
    obtain ⟨hgpu, hret, hcpu, halone, hapart, hset, -⟩ := h
    refine ⟨fun hsince => ?_, hret, nofun, fun _ _ _ => rfl, fun happ => ⟨(hapart happ).1, nofun⟩,
      hset, fun _ => trivial⟩
    have hlocals := hgpu hsince
    cases hg : s.gpu <;> simp only [hg] at hlocals ⊢ <;> exact hlocals

theorem CauseSet.step (h : CauseSet s) (hs : step s a = some t) : CauseSet t := by
  cases a with
  | change byGPU inputs gpReadEnable =>
    obtain ⟨-, rfl⟩ := Option.ite_none_right_eq_some.mp hs |>.imp_right Option.some.inj
    exact h
  | callGPU =>
    obtain ⟨-, rfl⟩ := Option.ite_none_right_eq_some.mp hs |>.imp_right Option.some.inj
    exact h
  | stepGPU =>
    have hf := gpuFrame_stepGPU hs
    unfold CauseSet
    rw [hf.cpu, hf.cause, hf.set]
    exact h
  | callCPU =>
    obtain ⟨hidle, rfl⟩ := Option.ite_none_right_eq_some.mp hs |>.imp_right Option.some.inj
    unfold CauseSet at h
    rw [hidle] at h
    exact h
  | stepCPU =>
    unfold CauseSet at h
    simp only [Interrupts.step, Interrupts.stepCPU] at hs
    cases hg : s.cpu <;> simp only [hg] at hs h <;> grind [CauseSet, returnCPU]
  | event =>
    obtain ⟨userdata, events, hevents, hidle, rfl⟩ := step_event hs
    unfold CauseSet at h
    rw [hidle] at h
    exact h

/-! ## runs -/

/-- The invariant. -/
structure Ok (s : Interrupts) : Prop where
  one : OneEvent s
  cause : CauseSet s
  settling : Settling s

theorem ok_of_run (h : Run step (fun _ _ => True) init s) : Ok s := by
  refine h.invariant ⟨⟨rfl, nofun⟩, rfl, ⟨nofun, nofun, nofun, nofun, nofun, nofun, nofun⟩⟩ ?_
  intro s a t hs _ ht
  exact ⟨hs.one.step ht, hs.cause.step ht, hs.settling.step hs.one ht⟩

end

/-- **No transition is lost**: in every state of every run in which no event is pending, and since
the last change and the last event a call on the GPU thread returned that no call on the CPU
thread overlapped or that one has followed, the CP bit of the cause is what it ought to be. -/
theorem cause_of_run {s : Interrupts} (h : Run step (fun _ _ => True) init s)
    (hnone : s.NonePending) (hapart : s.sinceEvent.apart = true) : s.cause = s.condition := by
  obtain ⟨hone, hcause, hsettling⟩ := ok_of_run h
  have hwaiting := hone.nonePending hnone
  have hset : s.s_interrupt_set = s.condition :=
    (hsettling.set hapart).resolve_left (by rw [hwaiting]; exact nofun)
  have hacting := hsettling.acting hapart
  have hevent := hnone.2.2
  unfold CauseSet at hcause
  rw [← hset]
  cases hc : s.cpu <;> simp only [hc] at hcause hacting hevent <;>
    first | exact hcause | exact hacting.elim | cases hevent

/-- The registers at an overflow, with its interrupt and that of the breakpoint enabled. -/
def overflown : SCPFifoStruct :=
  { SCPFifoStruct.zero with CPReadWriteDistance := 32, CPBreakpoint := 32, bFF_BPEnable := true,
                            bFF_BPInt := true, bFF_HiWatermarkInt := true }

/-- The GPU thread schedules an event for an overflow, the event sets the cause, and the GPU thread
looks again. -/
def overflowSeen : List InterruptAction :=
  [InterruptAction.change false overflown true, InterruptAction.callGPU] ++
    List.replicate 14 InterruptAction.stepGPU ++
    [InterruptAction.event, InterruptAction.stepCPU, InterruptAction.stepCPU,
      InterruptAction.stepCPU, InterruptAction.callGPU] ++
    List.replicate 11 InterruptAction.stepGPU

theorem cause_of_run_overflowSeen :
    ∃ s, Run.exec step init overflowSeen = some s ∧ s.cause = s.condition ∧ s.cause = true := by
  obtain ⟨s, hs, hnone, happ, hcause⟩ : ∃ s, Run.exec step init overflowSeen = some s ∧
      s.NonePending ∧ s.sinceEvent.apart = true ∧ s.cause = true :=
    ⟨_, rfl, ⟨rfl, nofun, rfl⟩, rfl, rfl⟩
  have hrun := Run.of_exec overflowSeen (fun _ _ _ => trivial) hs
  exact ⟨s, hs, cause_of_run hrun hnone happ, hcause⟩

/-! ## calls that are not apart -/

/-- The overflow is over, and the GPU is not at its breakpoint. -/
def drained : SCPFifoStruct := { overflown with CPReadWriteDistance := 0 }

/-- The overflow is over, and the GPU is at its breakpoint. -/
def atBreakpoint : SCPFifoStruct := { drained with CPReadPointer := 32 }

/-- The GPU thread schedules an event; then the condition goes away, both status functions see
so, and the event sets the cause. -/
def staleEvent : List InterruptAction :=
  [InterruptAction.change false overflown true, InterruptAction.callGPU] ++
    List.replicate 14 InterruptAction.stepGPU ++
    [InterruptAction.change false drained true, InterruptAction.callGPU] ++
    List.replicate 11 InterruptAction.stepGPU ++
    InterruptAction.callCPU :: List.replicate 7 InterruptAction.stepCPU ++
    [InterruptAction.event, InterruptAction.stepCPU, InterruptAction.stepCPU,
      InterruptAction.stepCPU]

/-- The GPU reaches its breakpoint as the overflow ends, while the CPU thread is between its look
at the breakpoint and its look at the flag. -/
def overlapping : List InterruptAction :=
  [InterruptAction.change false overflown true, InterruptAction.callCPU] ++
    List.replicate 10 InterruptAction.stepCPU ++
    [InterruptAction.change true atBreakpoint true, InterruptAction.callCPU] ++
    List.replicate 6 InterruptAction.stepCPU ++
    InterruptAction.callGPU :: List.replicate 11 InterruptAction.stepGPU ++
    List.replicate 4 InterruptAction.stepCPU

theorem run_staleEvent : ∃ s, Run.exec step init staleEvent = some s ∧ s.NonePending ∧
    (s.sinceChange.gpuReturned = true ∧ s.sinceChange.cpuReturned = true) ∧
    s.cause = true ∧ s.condition = false :=
  ⟨_, rfl, ⟨rfl, nofun, rfl⟩, ⟨rfl, rfl⟩, rfl, rfl⟩

theorem run_overlapping : ∃ s, Run.exec step init overlapping = some s ∧ s.NonePending ∧
    (s.sinceEvent.gpuReturned = true ∧ s.sinceEvent.cpuReturned = true) ∧
    s.cause = false ∧ s.condition = true :=
  ⟨_, rfl, ⟨rfl, nofun, rfl⟩, ⟨rfl, rfl⟩, rfl, rfl⟩

/-- It is not enough that both status functions have run since the last change, because of a
stale event; nor that both have run since the last change and the last event, because of calls
that overlap. -/
theorem cause_wrong :
    (¬ ∀ s, Run step (fun _ _ => True) init s → s.NonePending → s.sinceChange.gpuReturned = true →
      s.sinceChange.cpuReturned = true → s.cause = s.condition) ∧
    ¬ ∀ s, Run step (fun _ _ => True) init s → s.NonePending → s.sinceEvent.gpuReturned = true →
      s.sinceEvent.cpuReturned = true → s.cause = s.condition := by
  constructor
  · intro hall
    obtain ⟨s, hs, hnone, ⟨hgpu, hcpu⟩, hcause, hcond⟩ := run_staleEvent
    have heq := hall s (Run.of_exec staleEvent (fun _ _ _ => trivial) hs) hnone hgpu hcpu
    rw [hcause, hcond] at heq
    cases heq
  · intro hall
    obtain ⟨s, hs, hnone, ⟨hgpu, hcpu⟩, hcause, hcond⟩ := run_overlapping
    have heq := hall s (Run.of_exec overlapping (fun _ _ _ => trivial) hs) hnone hgpu hcpu
    rw [hcause, hcond] at heq
    cases heq

end Interrupts

end DolphinCore.CommandProcessor
