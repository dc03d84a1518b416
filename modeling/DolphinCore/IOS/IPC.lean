import Mathlib.Algebra.Group.Int.Units
import DolphinCore.Lib.TimedQueue

/-!
# DolphinCore.IOS.IPC

Requests and replies between the PowerPC and IOS: the registers of `WII_IPC.cpp`, and the
queues of the kernel that is tied to emulation.

Events are dispatched by time and in the order they were scheduled when the times agree.
What a command does is an input of the step that executes it; the words that a reply leaves
in the memory of its command are left out.  The trace is read by no function of the source.
-/

namespace DolphinCore.IPC

/-! ## registers -/

structure CtrlRegister where
  X1 : Bool
  X2 : Bool
  Y1 : Bool
  Y2 : Bool
  IX1 : Bool
  IX2 : Bool
  IY1 : Bool
  IY2 : Bool
deriving DecidableEq

/-- `CtrlRegister::ppc` of a written value -/
def CtrlRegister.ppc (ctrl : CtrlRegister) (v : BitVec 32) : CtrlRegister :=
  { ctrl with
    X1 := v.getLsbD 0
    X2 := v.getLsbD 3
    Y1 := if v.getLsbD 2 then false else ctrl.Y1
    Y2 := if v.getLsbD 1 then false else ctrl.Y2
    IY1 := v.getLsbD 4
    IY2 := v.getLsbD 5 }

def intCauseIpcBroadway : BitVec 32 := 0x40000000

def intCauseIpcStarlet : BitVec 32 := 0x80000000

def timerRatio : Int := 12

/-! ## events -/

/-- A reply: the address of its command, the number of the command among those executed,
and whether it is the one that the kernel sends when the command returns. -/
structure Reply where
  address : BitVec 32
  command : Nat
  synchronous : Bool
deriving DecidableEq

/-- The user data of `s_event_enqueue`, and the event `updateInterrupts`. -/
inductive Event
  | acknowledgement (address : BitVec 32)
  | request (address : BitVec 32)
  | reply (reply : Reply)
  | updateInterrupts
deriving DecidableEq

/-- The requests among the events. -/
def Event.request? : Event → Option (BitVec 32)
  | .request address => some address
  | _ => none

/-- The replies among the events. -/
def Event.reply? : Event → Option Reply
  | .reply answer => some answer
  | _ => none

/-- What is seen of the two sides. -/
inductive Output
  /-- PPCCTRL was written with X1 set, at this value of PPCMSG. -/
  | request (address : BitVec 32)
  | acknowledge (address : BitVec 32)
  /-- A command was executed, and sends a reply when it returns. -/
  | execute (number : Nat) (address : BitVec 32) (sendReply : Bool)
  | queue (reply : Reply)
  /-- A reply is shown in ARMMSG: Y1, Y2 and the interrupt flag just before. -/
  | present (reply : Reply) (Y1 Y2 irq : Bool)
deriving DecidableEq

/-- The commands that were requested. -/
def requested (trace : List Output) : List (BitVec 32) :=
  trace.filterMap fun
    | .request address => some address
    | _ => none

/-- The commands that were executed. -/
def executed (trace : List Output) : List (BitVec 32) :=
  trace.filterMap fun
    | .execute _ address _ => some address
    | _ => none

/-- The replies that were queued. -/
def queued (trace : List Output) : List Reply :=
  trace.filterMap fun
    | .queue reply => some reply
    | _ => none

/-- The replies that were presented. -/
def presented (trace : List Output) : List Reply :=
  trace.filterMap fun
    | .present reply _ _ _ => some reply
    | _ => none

/-- The synchronous replies that were promised, in the order of their requests. -/
def answers (trace : List Output) : List Reply :=
  trace.filterMap fun
    | .execute number address true => some ⟨address, number, true⟩
    | _ => none

/-! ## the state -/

structure State where
  ppc_msg : BitVec 32
  arm_msg : BitVec 32
  ctrl : CtrlRegister
  ppc_irq_flags : BitVec 32
  ppc_irq_masks : BitVec 32
  /-- `INT_CAUSE_WII_IPC` at the processor interface -/
  interrupt : Bool
  m_request_queue : List (BitVec 32)
  m_reply_queue : List Reply
  m_ack_queue : List (BitVec 32)
  m_last_reply_time : Int
  /-- `CoreTiming::GetTicks()` -/
  ticks : Int
  pending : List (TimedItem Event)
  trace : List Output

/-- What a command does: `IPCCommandResult`, and the replies to this and earlier commands
that a device enqueues meanwhile, each with its `cycles_in_future`. -/
structure CommandResult where
  send_reply : Bool
  reply_delay_ticks : Nat
  deviceReplies : List (Nat × Int)

namespace State

def scheduleEvent (s : State) (cycles : Int) (event : Event) : State :=
  { s with pending := TimedQueue.put ⟨s.ticks + cycles, event⟩ s.pending }

/-- The interrupt flag of the PowerPC side. -/
def irq (s : State) : Bool := s.ppc_irq_flags &&& intCauseIpcBroadway != 0

def isReady (s : State) : Bool := !s.ctrl.Y1 && !s.ctrl.Y2 && !s.irq

def clearX1 (s : State) : State := { s with ctrl := { s.ctrl with X1 := false } }

def generateAck (s : State) (address : BitVec 32) : State :=
  let s := { s with
    ctrl := { s.ctrl with Y2 := true }
    trace := s.trace ++ [Output.acknowledge address] }
  s.scheduleEvent (100 * timerRatio) .updateInterrupts

def generateReply (s : State) (reply : Reply) : State :=
  let s := { s with
    arm_msg := reply.address
    ctrl := { s.ctrl with Y1 := true }
    trace := s.trace ++ [Output.present reply s.ctrl.Y1 s.ctrl.Y2 s.irq] }
  s.scheduleEvent (100 * timerRatio) .updateInterrupts

def updateInterrupts (s : State) : State :=
  let flags := s.ppc_irq_flags
  let flags := if s.ctrl.Y1 && s.ctrl.IY1 || s.ctrl.Y2 && s.ctrl.IY2 then
    flags ||| intCauseIpcBroadway else flags
  let flags := if s.ctrl.X1 && s.ctrl.IX1 || s.ctrl.X2 && s.ctrl.IX2 then
    flags ||| intCauseIpcStarlet else flags
  { s with ppc_irq_flags := flags, interrupt := flags &&& s.ppc_irq_masks != 0 }

def reset (s : State) : State :=
  { s with
    ctrl := ⟨false, false, false, false, false, false, false, false⟩
    ppc_msg := 0
    arm_msg := 0
    ppc_irq_flags := 0
    ppc_irq_masks := intCauseIpcBroadway }

/-! ## the kernel -/

def enqueueIPCRequest (s : State) (address : BitVec 32) : State :=
  s.scheduleEvent (500 * timerRatio) (.request address)

def enqueueIPCReply (s : State) (reply : Reply) (cyclesInFuture : Int) : State :=
  s.scheduleEvent cyclesInFuture (.reply reply)

/-- A device replies to a command that was executed. -/
def deviceReply (s : State) (command : Nat) (cyclesInFuture : Int) : State :=
  match (executed s.trace)[command]? with
  | some address => s.enqueueIPCReply ⟨address, command, false⟩ cyclesInFuture
  | none => s

/-- `ticks_until_last_reply`, as far as it delays a reply. -/
def ticksUntilLastReply (s : State) : Int := max 0 (s.m_last_reply_time - s.ticks)

/-- `static_cast<int>` of a number of ticks. -/
def toInt (ticks : Int) : Int := ticks.bmod (2 ^ 32)

def executeIPCCommand (s : State) (address : BitVec 32) (result : CommandResult) : State :=
  let number := (executed s.trace).length
  let s := { s with trace := s.trace ++ [Output.execute number address result.send_reply] }
  let s := result.deviceReplies.foldl (fun s reply => s.deviceReply reply.1 reply.2) s
  if result.send_reply then
    let delay := (result.reply_delay_ticks : Int) + s.ticksUntilLastReply
    { s with m_last_reply_time := s.ticks + delay }.enqueueIPCReply ⟨address, number, true⟩
      (toInt delay)
  else s

def updateIPC (s : State) (result : CommandResult) : State :=
  if !s.isReady then s
  else
    match s.m_request_queue, s.m_reply_queue, s.m_ack_queue with
    | command :: rest, _, _ =>
      { s.clearX1.generateAck command with m_request_queue := rest }.executeIPCCommand command
        result
    | [], reply :: rest, _ => { s.generateReply reply with m_reply_queue := rest }
    | [], [], address :: rest => { s.generateAck address with m_ack_queue := rest }
    | [], [], [] => s

/-- The queue that an event goes to. -/
def queueEvent (s : State) : Event → State
  | .acknowledgement address => { s with m_ack_queue := s.m_ack_queue ++ [address] }
  | .request address => { s with m_request_queue := s.m_request_queue ++ [address] }
  | .reply answer => { s with
      m_reply_queue := s.m_reply_queue ++ [answer]
      trace := s.trace ++ [Output.queue answer] }
  | .updateInterrupts => s

def handleIPCEvent (s : State) (event : Event) (result : CommandResult) : State :=
  (s.queueEvent event).updateIPC result

/-- The callback of an event. -/
def dispatch (s : State) (event : Event) (result : CommandResult) : State :=
  match event with
  | .updateInterrupts => s.updateInterrupts
  | event => s.handleIPCEvent event result

/-! ## writes of the PowerPC -/

/-- What all writes end with. -/
def updateAfterWrite (s : State) (result : CommandResult) : State :=
  (s.updateIPC result).scheduleEvent 0 .updateInterrupts

/-- The registers after a write of PPCCTRL: writing Y1 or Y2 causes an interrupt, even when
this results in clearing the bit. -/
def writeCtrl (s : State) (v : BitVec 32) : State :=
  let ctrl := s.ctrl.ppc v
  { s with
    ctrl := ctrl
    ppc_irq_flags := if v.getLsbD 2 && ctrl.IY1 || v.getLsbD 1 && ctrl.IY2 then
      s.ppc_irq_flags ||| intCauseIpcBroadway else s.ppc_irq_flags }

/-- A request is seen and enqueued. -/
def requestCommand (s : State) : State :=
  { s with trace := s.trace ++ [Output.request s.ppc_msg] }.enqueueIPCRequest s.ppc_msg

/-- A write of PPCCTRL -/
def writePPCCTRL (s : State) (v : BitVec 32) (result : CommandResult) : State :=
  let s := s.writeCtrl v
  (if s.ctrl.X1 then s.requestCommand else s).updateAfterWrite result

/-- A write of PPC_IRQFLAG -/
def writeIRQFLAG (s : State) (v : BitVec 32) (result : CommandResult) : State :=
  { s with ppc_irq_flags := s.ppc_irq_flags &&& ~~~v }.updateAfterWrite result

/-- A write of PPC_IRQMASK -/
def writeIRQMASK (s : State) (v : BitVec 32) (result : CommandResult) : State :=
  let s := { s with ppc_irq_masks := v }
  let s := if v &&& intCauseIpcBroadway != 0 then s.reset else s
  s.updateAfterWrite result

end State

/-! ## steps -/

/-- The result is that of the command that the step executes, if it executes one. -/
inductive Action
  | advance (ticks : Nat)
  | writePPCMSG (v : BitVec 32)
  | writePPCCTRL (v : BitVec 32) (result : CommandResult)
  | writeIRQFLAG (v : BitVec 32) (result : CommandResult)
  | writeIRQMASK (v : BitVec 32) (result : CommandResult)
  /-- The first event, which must be due. -/
  | event (result : CommandResult)
  /-- A device replies later; the event may lie in the past if another thread made it. -/
  | deviceReply (command : Nat) (cyclesInFuture : Int)

def step (s : State) : Action → Option State
  | .advance ticks => some { s with ticks := s.ticks + ticks }
  | .writePPCMSG v => some { s with ppc_msg := v }
  | .writePPCCTRL v result => some (s.writePPCCTRL v result)
  | .writeIRQFLAG v result => some (s.writeIRQFLAG v result)
  | .writeIRQMASK v result => some (s.writeIRQMASK v result)
  | .event result =>
    match s.pending with
    | [] => none
    | e :: rest =>
      if e.time ≤ s.ticks then some ({ s with pending := rest }.dispatch e.item result)
      else none
  | .deviceReply command cyclesInFuture => some (s.deviceReply command cyclesInFuture)

/-- A kernel that has just been made, with any contents of the registers: all that is
under way is its dummy acknowledgement. -/
structure IsInitial (s : State) : Prop where
  request : s.m_request_queue = []
  reply : s.m_reply_queue = []
  ack : s.m_ack_queue = []
  sorted : TimedQueue.Sorted s.pending
  pending : ∀ e ∈ s.pending, e.item.request? = none ∧ e.item.reply? = none
  trace : s.trace = []

/-- No write resets the registers. -/
def NoReset : Action → Prop
  | .writeIRQMASK v _ => v &&& intCauseIpcBroadway = 0
  | _ => True

end DolphinCore.IPC
