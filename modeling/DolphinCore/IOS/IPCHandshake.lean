import DolphinCore.IOS.IPCOrder

/-!
# DolphinCore.IOS.IPCHandshake

What both sides rely on in every run, and a run in which so many replies are under way that
the delay of the next one does not fit into an `int`.
-/

namespace DolphinCore.IPC

open TimedQueue

namespace State

variable {s s' : State} {a : Action}

/-! ## nothing waits for nothing -/

theorem irq_or {flags : BitVec 32} (more : BitVec 32)
    (h : (flags ||| more) &&& intCauseIpcBroadway = 0) : flags &&& intCauseIpcBroadway = 0 := by
  rw [BitVec.and_or_distrib_right] at h
  exact (BitVec.or_eq_zero_iff.mp h).1

theorem isReady_of_updateInterrupts (h : s.updateInterrupts.isReady = true) : s.isReady = true := by
  simp only [isReady, irq, updateInterrupts, Bool.and_eq_true, Bool.not_eq_true',
    bne_eq_false_iff_eq] at h ⊢
  refine ⟨h.1, ?_⟩
  have hflags := h.2
  split at hflags <;> split at hflags
  · exact irq_or _ (irq_or _ hflags)
  · exact irq_or _ hflags
  · exact irq_or _ hflags
  · exact hflags

theorem Idle.step (h : s.Idle) (hstep : step s a = some s') : s'.Idle := by
  cases a with
  | advance ticks =>
    cases hstep
    exact h
  | writePPCMSG v =>
    cases hstep
    exact h
  | writePPCCTRL v result =>
    cases hstep
    exact idle_updateIPC _ result
  | writeIRQFLAG v result =>
    cases hstep
    exact idle_updateIPC _ result
  | writeIRQMASK v result =>
    cases hstep
    exact idle_updateIPC _ result
  | event result =>
    rw [IPC.step] at hstep
    split at hstep
    · cases hstep
    · next e rest hp =>
      split at hstep
      · cases hstep
        unfold State.dispatch
        split
        · intro hready
          exact h (isReady_of_updateInterrupts hready)
        · exact idle_updateIPC _ result
      · cases hstep
  | deviceReply command cycles =>
    cases hstep
    unfold State.deviceReply
    split
    · exact h
    · exact h

/-! ## ARMMSG -/

/-- A reply is still shown. -/
def Shows (s : State) (s' : State) : Prop := s'.arm_msg = s.arm_msg ∧ s'.ctrl.Y1 = true

theorem Shows.updateIPC {t : State} (h : s.Shows t) (result : CommandResult) :
    s.Shows (t.updateIPC result) := by
  rw [State.updateIPC, isReady_of_Y1 h.2]
  exact h

theorem Shows.updateAfterWrite {t : State} (h : s.Shows t) (result : CommandResult) :
    s.Shows (t.updateAfterWrite result) := h.updateIPC result

theorem Shows.dispatch (h : s.Shows s') (event : Event) (result : CommandResult) :
    s.Shows (s'.dispatch event result) := by
  cases event with
  | updateInterrupts => exact h
  | _ =>
    refine Shows.updateIPC ?_ result
    exact h

theorem arm_msg_step (h : s.ctrl.Y1 = true) (hreset : NoReset a) (hstep : step s a = some s') :
    s.Shows s' ∨ ∃ v result, a = .writePPCCTRL v result ∧ v.getLsbD 2 = true := by
  cases a with
  | advance ticks =>
    cases hstep
    exact .inl ⟨rfl, h⟩
  | writePPCMSG v =>
    cases hstep
    exact .inl ⟨rfl, h⟩
  | writePPCCTRL v result =>
    cases hclear : v.getLsbD 2
    · cases hstep
      have hY1 : s.Shows (s.writeCtrl v) := by
        refine ⟨rfl, ?_⟩
        rw [writeCtrl, CtrlRegister.ppc, hclear]
        exact h
      refine .inl (Shows.updateAfterWrite ?_ result)
      split
      · exact hY1
      · exact hY1
    · exact .inr ⟨v, result, rfl, hclear⟩
  | writeIRQFLAG v result =>
    cases hstep
    refine .inl (Shows.updateAfterWrite ?_ result)
    exact ⟨rfl, h⟩
  | writeIRQMASK v result =>
    cases hstep
    have hmask : (v &&& intCauseIpcBroadway != 0) = false := by
      rw [bne_eq_false_iff_eq]
      exact hreset
    refine .inl (Shows.updateAfterWrite ?_ result)
    rw [hmask]
    exact ⟨rfl, h⟩
  | event result =>
    refine .inl ?_
    rw [IPC.step] at hstep
    split at hstep
    · cases hstep
    · next e rest hp =>
      split at hstep
      · cases hstep
        refine Shows.dispatch ?_ _ result
        exact ⟨rfl, h⟩
      · cases hstep
  | deviceReply command cycles =>
    cases hstep
    have hsame := SameRegisters.deviceReply s command cycles
    refine .inl ⟨hsame.arm_msg, ?_⟩
    rw [hsame.ctrl]
    exact h

end State

/-! ## the handshake -/

/-- In every run, every request is executed once, in order, and acknowledged first; every
queued reply is presented once, in order, when Y1, Y2 and the interrupt flag are clear, and
stays while Y1 is set; nothing waits that can be handled; and every synchronous reply is
sent once.  These are presented in the order of their requests if their delays fit. -/
theorem handshake {s0 s : State} (h0 : IsInitial s0)
    (hrun : Run step (fun _ a => NoReset a) s0 s) :
    requested s.trace = executed s.trace ++ s.m_request_queue ++ items Event.request? s.pending ∧
    queued s.trace = presented s.trace ++ s.m_reply_queue ∧
    EachAfter Proper s.trace ∧ s.Idle ∧
    (∀ a s', NoReset a → step s a = some s' → s.ctrl.Y1 = true →
      s.Shows s' ∨ ∃ v result, a = .writePPCCTRL v result ∧ v.getLsbD 2 = true) ∧
    s.syncReplies.Perm (answers s.trace) ∧
    (Run step (fun s a => NoReset a ∧ s.FitsInt a) s0 s →
      (presented s.trace).filter (·.synchronous) <+: answers s.trace) := by
  have hc : s.Consistent [] :=
    hrun.invariant h0.consistent fun s a t hs _ hstep => State.Consistent.step hs hstep
  have hidle : s.Idle := by
    refine hrun.invariant (fun _ => ⟨h0.request, h0.reply, h0.ack⟩) ?_
    intro s a t hs _ hstep
    exact State.Idle.step hs hstep
  refine ⟨hc.requests, hc.replies, hc.proper, hidle, ?_, ?_, ?_⟩
  · intro a s' hreset hstep hY1
    exact State.arm_msg_step hY1 hreset hstep
  · have := hc.answered
    rwa [List.append_nil] at this
  · intro hfits
    have hinit : s0.InOrder [] := h0.inOrder
    have horder := hfits.invariant hinit fun s a t hs hok hstep =>
      State.InOrder.step hs hok.2 hstep
    have hanswers := horder.order
    rw [List.append_nil, State.syncReplies, hc.replies, List.filter_append, List.append_assoc]
      at hanswers
    exact ⟨_, hanswers⟩

/-! ## a reply that overtakes all others -/

/-- Registers and queues without anything in them. -/
def boot : State where
  ppc_msg := 0
  arm_msg := 0
  ctrl := ⟨false, false, false, false, false, false, false, false⟩
  ppc_irq_flags := 0
  ppc_irq_masks := intCauseIpcBroadway
  interrupt := false
  m_request_queue := []
  m_reply_queue := []
  m_ack_queue := []
  m_last_reply_time := 0
  ticks := 0
  pending := []
  trace := []

theorem boot_initial : IsInitial boot :=
  ⟨rfl, rfl, rfl, .nil, fun _ he => absurd he List.not_mem_nil, rfl⟩

/-- The reply of the filesystem: `GetTicksPerSecond() / 500` at 729 MHz. -/
def fsResult : CommandResult := ⟨true, 1458000, []⟩

instance : DecidablePred NoReset := fun a => by
  cases a <;> unfold NoReset <;> infer_instance

theorem handshake_once : ∃ s, Run step (fun _ a => NoReset a) boot s ∧
    requested s.trace = executed s.trace ++ s.m_request_queue ++
      items Event.request? s.pending := by
  have hrun : Run step (fun _ a => NoReset a) boot _ := .of_exec_guarded
    [.writePPCCTRL 1 fsResult, .advance 6000, .event fsResult, .event fsResult] rfl
  exact ⟨_, hrun, (handshake boot_initial hrun).1⟩

namespace State

/-- The PowerPC waits for nothing and takes no interrupts. -/
structure Quiet (s : State) : Prop where
  message : s.ppc_msg = 0
  Y1 : s.ctrl.Y1 = false
  Y2 : s.ctrl.Y2 = false
  IX1 : s.ctrl.IX1 = false
  IX2 : s.ctrl.IX2 = false
  IY1 : s.ctrl.IY1 = false
  IY2 : s.ctrl.IY2 = false
  flags : s.ppc_irq_flags = 0
  request : s.m_request_queue = []
  reply : s.m_reply_queue = []
  ack : s.m_ack_queue = []

variable {s : State}

theorem Quiet.isReady (h : s.Quiet) : s.isReady = true := by
  rw [State.isReady, irq, h.Y1, h.Y2, h.flags]
  rfl

theorem Quiet.updateIPC (h : s.Quiet) (result : CommandResult) : s.updateIPC result = s := by
  rw [State.updateIPC, h.isReady, h.request, h.reply, h.ack]
  rfl

theorem Quiet.writeX1 (h : s.Quiet) : ∃ s', step s (.writePPCCTRL 1 fsResult) = some s' ∧
    s'.Quiet ∧ s'.ticks = s.ticks ∧ s'.m_last_reply_time = s.m_last_reply_time ∧
    s'.pending = put ⟨s.ticks, .updateInterrupts⟩ (put ⟨s.ticks + 6000, .request 0⟩ s.pending) ∧
    s'.trace = s.trace ++ [Output.request 0] := by
  have hquiet : (s.writeCtrl 1).requestCommand.Quiet :=
    ⟨h.message, h.Y1, h.Y2, h.IX1, h.IX2, rfl, rfl, h.flags, h.request, h.reply, h.ack⟩
  have hwrite : s.writePPCCTRL 1 fsResult =
      (s.writeCtrl 1).requestCommand.scheduleEvent 0 .updateInterrupts := by
    have hX1 : (s.writeCtrl 1).ctrl.X1 = true := rfl
    rw [writePPCCTRL, if_pos hX1, updateAfterWrite, hquiet.updateIPC]
  refine ⟨_, congrArg some hwrite, ⟨h.message, h.Y1, h.Y2, h.IX1, h.IX2, rfl, rfl, h.flags,
    h.request, h.reply, h.ack⟩, rfl, rfl, ?_, ?_⟩
  · have hmessage := h.message
    simp [scheduleEvent, requestCommand, enqueueIPCRequest, writeCtrl, hmessage, timerRatio]
  · have hmessage := h.message
    simp [scheduleEvent, requestCommand, enqueueIPCRequest, writeCtrl, hmessage]

variable {rest : List (TimedItem Event)}

theorem Quiet.interrupts (h : s.Quiet) {t : Int} (hp : s.pending = ⟨t, .updateInterrupts⟩ :: rest)
    (ht : t ≤ s.ticks) : ∃ s',
    step s (.event fsResult) = some s' ∧ s'.Quiet ∧ s'.ticks = s.ticks ∧
    s'.m_last_reply_time = s.m_last_reply_time ∧ s'.pending = rest ∧ s'.trace = s.trace := by
  refine ⟨({ s with pending := rest } : State).updateInterrupts, ?_, ?_, rfl, rfl, rfl, rfl⟩
  · simp only [step, hp, if_pos ht]
    rfl
  · refine ⟨h.message, h.Y1, h.Y2, h.IX1, h.IX2, h.IY1, h.IY2, ?_, h.request, h.reply, h.ack⟩
    simp [updateInterrupts, h.Y1, h.Y2, h.IX1, h.IX2, h.flags]

theorem Quiet.round (h : s.Quiet) {t : Int} (hp : s.pending = ⟨t, .request 0⟩ :: rest)
    (ht : t ≤ s.ticks) : ∃ s',
    Run.exec step s [.event fsResult, .writePPCCTRL 2 fsResult, .advance 1] = some s' ∧
    s'.Quiet ∧ s'.ticks = s.ticks + 1 ∧
    s'.m_last_reply_time = s.ticks + (1458000 + s.ticksUntilLastReply) ∧
    s'.pending = put ⟨s.ticks, .updateInterrupts⟩
      (put ⟨s.ticks + toInt (1458000 + s.ticksUntilLastReply),
        .reply ⟨0, (executed s.trace).length, true⟩⟩
      (put ⟨s.ticks + 1200, .updateInterrupts⟩ rest)) ∧
    s'.trace = s.trace ++ [Output.acknowledge 0] ++
      [Output.execute (executed s.trace).length 0 true] := by
  have hexecute : step s (.event fsResult) = some { s with
      ctrl := { s.ctrl with X1 := false, Y2 := true }
      m_last_reply_time := s.ticks + (1458000 + s.ticksUntilLastReply)
      pending := put ⟨s.ticks + toInt (1458000 + s.ticksUntilLastReply),
        .reply ⟨0, (executed s.trace).length, true⟩⟩
        (put ⟨s.ticks + 1200, .updateInterrupts⟩ rest)
      trace := s.trace ++ [Output.acknowledge 0] ++
        [Output.execute (executed s.trace).length 0 true] } := by
    have hready : ({ s with pending := rest, m_request_queue := [0] } : State).isReady = true :=
      h.isReady
    have hnumber : executed (s.trace ++ [Output.acknowledge 0]) = executed s.trace := by
      rw [executed_concat]
      exact List.append_nil _
    have hrequest := h.request
    simp only [step, hp, if_pos ht, dispatch, handleIPCEvent, queueEvent, hrequest, List.nil_append]
    rw [State.updateIPC, hready]
    simp only [Bool.not_true, Bool.false_eq_true, if_false, generateAck, clearX1, scheduleEvent,
      State.executeIPCCommand, hnumber, fsResult, List.foldl_nil, if_true, enqueueIPCReply]
    rfl
  rw [Run.exec, hexecute, Option.bind_some]
  generalize hs : ({ s with
      ctrl := { s.ctrl with X1 := false, Y2 := true }
      m_last_reply_time := s.ticks + (1458000 + s.ticksUntilLastReply)
      pending := put ⟨s.ticks + toInt (1458000 + s.ticksUntilLastReply),
        .reply ⟨0, (executed s.trace).length, true⟩⟩
        (put ⟨s.ticks + 1200, .updateInterrupts⟩ rest)
      trace := s.trace ++ [Output.acknowledge 0] ++
        [Output.execute (executed s.trace).length 0 true] } : State) = t
  have hquiet : (t.writeCtrl 2).Quiet := by
    rw [← hs]
    exact ⟨h.message, h.Y1, rfl, h.IX1, h.IX2, rfl, rfl, h.flags, h.request, h.reply, h.ack⟩
  have hwrite : t.writePPCCTRL 2 fsResult = (t.writeCtrl 2).scheduleEvent 0 .updateInterrupts := by
    have hX1 : ¬ (t.writeCtrl 2).ctrl.X1 = true := Bool.false_ne_true
    rw [writePPCCTRL, if_neg hX1, updateAfterWrite, hquiet.updateIPC]
  refine ⟨{ t.writePPCCTRL 2 fsResult with ticks := (t.writePPCCTRL 2 fsResult).ticks + 1 }, rfl,
    ?_, ?_, ?_, ?_, ?_⟩
  · rw [hwrite]
    exact ⟨hquiet.message, hquiet.Y1, hquiet.Y2, hquiet.IX1, hquiet.IX2, hquiet.IY1, hquiet.IY2,
      hquiet.flags, hquiet.request, hquiet.reply, hquiet.ack⟩
  · rw [hwrite, ← hs]
    rfl
  · rw [hwrite, ← hs]
    rfl
  · rw [hwrite, ← hs]
    simp [scheduleEvent, writeCtrl]
  · rw [hwrite, ← hs]
    rfl

theorem Quiet.present (h : s.Quiet) {t : Int} {answer : Reply}
    (hp : s.pending = ⟨t, .reply answer⟩ :: rest) (ht : t ≤ s.ticks) : ∃ s',
    step s (.event fsResult) = some s' ∧
    s'.trace = s.trace ++ [Output.queue answer] ++ [Output.present answer false false false] := by
  have hready : ({ s with
      pending := rest
      m_reply_queue := [answer]
      trace := s.trace ++ [Output.queue answer] } : State).isReady = true := h.isReady
  have hbits : s.irq = false := by
    rw [irq, h.flags]
    rfl
  have hreply := h.reply
  have hrequest := h.request
  simp only [step, hp, if_pos ht, dispatch, handleIPCEvent, queueEvent, hreply, List.nil_append]
  rw [State.updateIPC, hready]
  refine ⟨_, rfl, ?_⟩
  simp only [hrequest, Bool.not_true, Bool.false_eq_true, if_false, generateReply, scheduleEvent,
    h.Y1, h.Y2]
  rw [← hbits]
  rfl

/-! The PowerPC writes requests, one each tick, before the first of them is due. -/

structure Requesting (s : State) (n : Nat) : Prop where
  run : Run step (fun _ a => NoReset a) boot s
  quiet : s.Quiet
  ticks : s.ticks = n
  last : s.m_last_reply_time = 0
  length : s.pending.length = n
  pending : ∀ e ∈ s.pending, e.item = .request 0 ∧ 6000 ≤ e.time ∧ e.time ≤ 6000 + n
  trace : executed s.trace = [] ∧ presented s.trace = [] ∧ answers s.trace = []

theorem requesting : (n : Nat) → n ≤ 2000 → ∃ s, Requesting s n
  | 0, _ => by
    refine ⟨boot, .refl, ⟨rfl, rfl, rfl, rfl, rfl, rfl, rfl, rfl, rfl, rfl, rfl⟩, rfl, rfl, rfl,
      fun _ he => ?_, rfl, rfl, rfl⟩
    cases he
  | n + 1, hn => by
    obtain ⟨s, hs⟩ := requesting n (by omega)
    obtain ⟨s1, hstep1, hquiet1, hticks1, hlast1, hpending1, htrace1⟩ := hs.quiet.writeX1
    have hlater : ∀ e ∈ put ⟨s.ticks + 6000, .request 0⟩ s.pending, s.ticks < e.time := by
      intro e he
      have hticks := hs.ticks
      obtain rfl | he := mem_put.mp he
      · simp only
        omega
      · have := hs.pending e he
        omega
    rw [put_eq_cons hlater] at hpending1
    obtain ⟨s2, hstep2, hquiet2, hticks2, hlast2, hpending2, htrace2⟩ :=
      hquiet1.interrupts hpending1 (Int.le_of_eq hticks1.symm)
    have hticks : s2.ticks = n := by rw [hticks2, hticks1, hs.ticks]
    have hrun : Run step (fun _ a => NoReset a) boot s2 :=
      .tail (.event fsResult) (.tail (.writePPCCTRL 1 fsResult) hs.run trivial hstep1) trivial
        hstep2
    refine ⟨{ s2 with ticks := s2.ticks + 1 }, .tail (.advance 1) hrun trivial rfl,
      ⟨hquiet2.message, hquiet2.Y1, hquiet2.Y2, hquiet2.IX1, hquiet2.IX2, hquiet2.IY1, hquiet2.IY2,
        hquiet2.flags, hquiet2.request, hquiet2.reply, hquiet2.ack⟩, ?_, ?_, ?_, ?_, ?_⟩
    · simp only [hticks]
      rfl
    · simp only [hlast2, hlast1, hs.last]
    · simp only [hpending2, length_put, hs.length]
    · intro e he
      simp only [hpending2] at he
      obtain rfl | he := mem_put.mp he
      · refine ⟨rfl, ?_, ?_⟩
        · simp only
          omega
        · simp only
          omega
      · obtain ⟨hitem, hlow, hhigh⟩ := hs.pending e he
        exact ⟨hitem, hlow, by omega⟩
    · simp only [htrace2, htrace1, executed_concat, presented_concat, answers_concat, hs.trace]
      exact ⟨rfl, rfl, rfl⟩

/-! Then they are executed, one each tick, before the first reply is due. -/

structure Executing (s : State) (n : Nat) : Prop where
  run : Run step (fun _ a => NoReset a) boot s
  quiet : s.Quiet
  ticks : s.ticks = 7473 + n
  last : s.ticksUntilLastReply = 1457999 * n
  pending : ∃ requests rest, s.pending = requests ++ rest ∧ requests.length = 1473 - n ∧
    (∀ e ∈ requests, e.item = .request 0 ∧ e.time ≤ 7473) ∧ ∀ e ∈ rest, 0 ≤ e.time
  executed : (executed s.trace).length = n
  presented : presented s.trace = []
  answers : answers s.trace = (List.range n).map fun k => ⟨0, k, true⟩

theorem executing_zero : ∃ s, Executing s 0 := by
  obtain ⟨s, hs⟩ := requesting 1473 (by omega)
  refine ⟨{ s with ticks := s.ticks + 6000 }, .tail (.advance 6000) hs.run trivial rfl,
    ⟨hs.quiet.message, hs.quiet.Y1, hs.quiet.Y2, hs.quiet.IX1, hs.quiet.IX2, hs.quiet.IY1,
      hs.quiet.IY2, hs.quiet.flags, hs.quiet.request, hs.quiet.reply, hs.quiet.ack⟩,
    ?_, ?_, ⟨s.pending, [], (List.append_nil _).symm, hs.length, ?_, ?_⟩, ?_, hs.trace.2.1, ?_⟩
  · simp only [hs.ticks]
    rfl
  · simp only [ticksUntilLastReply, hs.ticks, hs.last]
    rfl
  · intro e he
    obtain ⟨hitem, -, hhigh⟩ := hs.pending e he
    exact ⟨hitem, by omega⟩
  · exact fun _ he => absurd he List.not_mem_nil
  · simp only [hs.trace.1]
    rfl
  · simp only [hs.trace.2.2]
    rfl

theorem Executing.round {n : Nat} (hs : s.Executing n) (hn : n < 1473) : ∃ s' requests rest,
    Run step (fun _ a => NoReset a) boot s' ∧ s'.Quiet ∧ s'.ticks = 7473 + (n + 1 : Nat) ∧
    s'.ticksUntilLastReply = 1457999 * (n + 1 : Nat) ∧
    s'.pending = requests ++ put ⟨7473 + n, .updateInterrupts⟩
      (put ⟨7473 + n + toInt (1458000 + 1457999 * n), .reply ⟨0, n, true⟩⟩ rest) ∧
    requests.length = 1473 - (n + 1) ∧
    (∀ e ∈ requests, e.item = .request 0 ∧ e.time ≤ 7473) ∧ (∀ e ∈ rest, 0 ≤ e.time) ∧
    (IPC.executed s'.trace).length = n + 1 ∧ IPC.presented s'.trace = [] ∧
    IPC.answers s'.trace = (List.range (n + 1)).map fun k => ⟨0, k, true⟩ := by
  obtain ⟨requests, rest, hpending, hlength, hrequests, hrest⟩ := hs.pending
  cases requests with
  | nil =>
    rw [List.length_nil] at hlength
    omega
  | cons e requests =>
    rw [List.length_cons] at hlength
    obtain ⟨hitem, hdue⟩ := hrequests e (List.mem_cons_self ..)
    have hlater : ∀ f ∈ requests, f.item = .request 0 ∧ f.time ≤ 7473 :=
      fun f hf => hrequests f (List.mem_cons_of_mem e hf)
    have hticks := hs.ticks
    have hhead : s.pending = ⟨e.time, .request 0⟩ :: (requests ++ rest) := by
      rw [hpending, List.cons_append, ← hitem]
    obtain ⟨s', hexec, hquiet, hticks', hlast', hpending', htrace'⟩ :=
      hs.quiet.round hhead (by omega)
    -- the reply is due behind the other requests, if there are any
    have hreply : ∀ f ∈ requests, f.time ≤ s.ticks + toInt (1458000 + s.ticksUntilLastReply) := by
      intro f hf
      have := (hlater f hf).2
      have hpos := List.length_pos_of_mem hf
      rw [hs.last, toInt_of_lt (by omega) (by omega)]
      omega
    rw [put_append fun f hf => by have := (hlater f hf).2; simp only; omega, put_append hreply,
      put_append fun f hf => by have := (hlater f hf).2; simp only; omega] at hpending'
    refine ⟨s', requests, put ⟨s.ticks + 1200, .updateInterrupts⟩ rest,
      hs.run.trans (.of_exec _ ?_ hexec), hquiet, ?_, ?_, ?_, ?_, hlater, ?_, ?_, ?_, ?_⟩
    · intro t a ha
      simp only [List.mem_cons, List.not_mem_nil, or_false] at ha
      obtain rfl | rfl | rfl := ha
      · trivial
      · trivial
      · trivial
    · omega
    · rw [ticksUntilLastReply, hlast', hticks', hs.last]
      omega
    · rw [hpending', hs.last, hs.executed, hticks]
    · omega
    · intro f hf
      obtain rfl | hf := mem_put.mp hf
      · simp only
        omega
      · exact hrest f hf
    · rw [htrace', executed_concat, executed_concat, List.length_append, List.length_append,
        hs.executed]
      rfl
    · rw [htrace', presented_concat, presented_concat, hs.presented]
      rfl
    · rw [htrace', answers_concat, answers_concat, hs.answers, hs.executed, List.range_succ,
        List.map_append, List.append_assoc]
      rfl

theorem executing : (n : Nat) → n ≤ 1472 → ∃ s, Executing s n
  | 0, _ => executing_zero
  | n + 1, hn => by
    obtain ⟨s, hs⟩ := executing n (by omega)
    obtain ⟨s', requests, rest, hrun, hquiet, hticks, hlast, hpending, hlength, hrequests, hrest,
      hexecuted, hpresented, hanswers⟩ := hs.round (by omega)
    refine ⟨s', hrun, hquiet, hticks, hlast, ⟨requests, _, hpending, hlength, hrequests, ?_⟩,
      hexecuted, hpresented, hanswers⟩
    intro e he
    have hfits : toInt (1458000 + 1457999 * n) = 1458000 + 1457999 * n :=
      toInt_of_lt (by omega) (by omega)
    obtain rfl | he := mem_put.mp he
    · simp only
      omega
    · obtain rfl | he := mem_put.mp he
      · simp only [hfits]
        omega
      · exact hrest e he

end State

/-- The filesystem gets 1473 requests within two milliseconds: the reply to the last of them
is the first to be presented. -/
theorem last_reply_first : ∃ s, Run step (fun _ a => NoReset a) boot s ∧
    presented s.trace = [⟨0, 1472, true⟩] ∧
    answers s.trace = (List.range 1473).map fun k => ⟨0, k, true⟩ := by
  obtain ⟨s, hs⟩ := State.executing 1472 (Nat.le_refl _)
  obtain ⟨s', requests, rest, hrun, hquiet, hticks, -, hpending, hlength, -, hrest, -, hpresented,
    hanswers⟩ := hs.round (by omega)
  have hnil : requests = [] := List.length_eq_zero_iff.mp hlength
  have hdelay : State.toInt (1458000 + 1457999 * (1472 : Nat)) = -2147334768 := by decide
  have hfront : put ⟨7473 + (1472 : Nat) + -2147334768, .reply ⟨0, 1472, true⟩⟩ rest =
      ⟨7473 + (1472 : Nat) + -2147334768, .reply ⟨0, 1472, true⟩⟩ :: rest := by
    refine put_eq_cons fun e he => ?_
    have := hrest e he
    simp only
    omega
  rw [hnil, List.nil_append, hdelay, hfront, put, if_neg (by simp)] at hpending
  obtain ⟨t, hstep, htrace⟩ := hquiet.present hpending (by rw [hticks]; decide)
  refine ⟨t, .tail (.event fsResult) hrun trivial hstep, ?_, ?_⟩
  · rw [htrace, presented_concat, presented_concat, hpresented]
    rfl
  · rw [htrace, answers_concat, answers_concat, hanswers, List.append_assoc]
    exact List.append_nil _

end DolphinCore.IPC
