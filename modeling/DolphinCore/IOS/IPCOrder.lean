import Mathlib.Data.List.Induction
import DolphinCore.IOS.IPC
import DolphinCore.Lib.Run

/-!
# DolphinCore.IOS.IPCOrder

Runs of the handshake.  No request and no reply gets lost, is seen twice or overtakes
another one, whatever the interleaving; synchronous replies keep the order of their requests
as long as the delay that adds up fits into an `int`.
-/

namespace DolphinCore.IPC

open TimedQueue

/-! ## traces -/

/-- The synchronous replies among the events. -/
def Event.syncReply? : Event → Option Reply
  | .reply answer => if answer.synchronous then some answer else none
  | _ => none

/-- What has to come before: the acknowledgement before the command, the command before its
reply; and a reply is presented when it can be. -/
def Proper (before : List Output) : Output → Prop
  | .execute number address _ =>
    number = (executed before).length ∧ before.getLast? = some (.acknowledge address)
  | .present reply Y1 Y2 irq => Y1 = false ∧ Y2 = false ∧ irq = false ∧
    ∃ sendReply, Output.execute reply.command reply.address sendReply ∈ before
  | _ => True

section

variable (t : List Output) (x : Output)

theorem requested_concat : requested (t ++ [x]) = requested t ++ requested [x] :=
  List.filterMap_append ..

theorem executed_concat : executed (t ++ [x]) = executed t ++ executed [x] :=
  List.filterMap_append ..

theorem queued_concat : queued (t ++ [x]) = queued t ++ queued [x] := List.filterMap_append ..

theorem presented_concat : presented (t ++ [x]) = presented t ++ presented [x] :=
  List.filterMap_append ..

theorem answers_concat : answers (t ++ [x]) = answers t ++ answers [x] := List.filterMap_append ..

end

theorem queued_filter (reply : Reply) : (queued [Output.queue reply]).filter (·.synchronous) =
    (Event.syncReply? (.reply reply)).toList := by
  rw [Event.syncReply?]
  cases hsync : reply.synchronous
  · simp [queued, hsync]
  · simp [queued, hsync]

theorem execute_mem_of_getElem? {t : List Output} (h : EachAfter Proper t) {k : Nat}
    {address : BitVec 32} (hk : (executed t)[k]? = some address) :
    ∃ sendReply, Output.execute k address sendReply ∈ t := by
  induction t using List.reverseRecOn generalizing k with
  | nil => cases hk
  | append_singleton t x ih =>
    obtain ⟨ht, hx⟩ := h.of_concat
    rw [executed_concat] at hk
    by_cases hlt : k < (executed t).length
    · rw [List.getElem?_append_left hlt] at hk
      obtain ⟨sendReply, hmem⟩ := ih ht hk
      exact ⟨sendReply, List.mem_append_left _ hmem⟩
    · rw [List.getElem?_append_right (by omega)] at hk
      cases x with
      | execute number a sendReply =>
        have hnumber := hx.1
        obtain ⟨hzero, rfl⟩ : k - (executed t).length = 0 ∧ a = address := by
          cases hsub : k - (executed t).length with
          | zero =>
            rw [hsub] at hk
            exact ⟨rfl, Option.some.inj hk⟩
          | succ n =>
            rw [hsub] at hk
            cases hk
        have hknumber : k = number := by omega
        rw [hknumber]
        exact ⟨sendReply, List.mem_append_right _ (List.mem_singleton_self _)⟩
      | _ => cases hk

/-! ## nothing lost, nothing twice -/

namespace State

/-- The synchronous replies that were queued or are under way, in order. -/
def syncReplies (s : State) : List Reply :=
  (queued s.trace).filter (·.synchronous) ++ items Event.syncReply? s.pending

/-- Requests and replies are where they should be, but for the reply that a command still
owes. -/
structure Consistent (owed : List Reply) (s : State) : Prop where
  sorted : Sorted s.pending
  due : ∀ e ∈ s.pending, (e.item.request?).isSome → e.time ≤ s.ticks + 500 * timerRatio
  requests : requested s.trace =
    executed s.trace ++ s.m_request_queue ++ items Event.request? s.pending
  replies : queued s.trace = presented s.trace ++ s.m_reply_queue
  proper : EachAfter Proper s.trace
  known : ∀ reply ∈ s.m_reply_queue ++ items Event.reply? s.pending ++ owed,
    ∃ sendReply, Output.execute reply.command reply.address sendReply ∈ s.trace
  answered : (s.syncReplies ++ owed).Perm (answers s.trace)

variable {s : State} {owed : List Reply}

theorem Consistent.congr {t : State} (h : s.Consistent owed) (hpending : t.pending = s.pending)
    (hticks : t.ticks = s.ticks) (hrequest : t.m_request_queue = s.m_request_queue)
    (hreply : t.m_reply_queue = s.m_reply_queue) (htrace : t.trace = s.trace) :
    t.Consistent owed where
  sorted := by
    rw [hpending]
    exact h.sorted
  due := by
    rw [hpending, hticks]
    exact h.due
  requests := by
    rw [htrace, hrequest, hpending]
    exact h.requests
  replies := by
    rw [htrace, hreply]
    exact h.replies
  proper := by
    rw [htrace]
    exact h.proper
  known := by
    rw [htrace, hreply, hpending]
    exact h.known
  answered := by
    rw [syncReplies, htrace, hpending]
    exact h.answered

theorem Consistent.scheduleInterrupts (h : s.Consistent owed) (cycles : Int) :
    (s.scheduleEvent cycles .updateInterrupts).Consistent owed where
  sorted := h.sorted.put _
  due e he := by
    obtain rfl | he := mem_put.mp he
    · exact nofun
    · exact h.due e he
  requests := by
    rw [scheduleEvent, items_put_of_none rfl]
    exact h.requests
  replies := h.replies
  proper := h.proper
  known := by
    rw [scheduleEvent, items_put_of_none rfl]
    exact h.known
  answered := by
    rw [syncReplies, scheduleEvent, items_put_of_none rfl]
    exact h.answered

theorem Consistent.acknowledge (h : s.Consistent owed) (address : BitVec 32) :
    ({ s with trace := s.trace ++ [Output.acknowledge address] } : State).Consistent owed where
  sorted := h.sorted
  due := h.due
  requests := by
    simpa [requested, executed] using h.requests
  replies := by
    simpa [queued, presented] using h.replies
  proper := h.proper.concat trivial
  known reply hr := by
    obtain ⟨sendReply, hmem⟩ := h.known reply hr
    exact ⟨sendReply, List.mem_append_left _ hmem⟩
  answered := by
    simpa [queued, answers, syncReplies] using h.answered

theorem Consistent.generateAck (h : s.Consistent owed) (address : BitVec 32) :
    (s.generateAck address).Consistent owed := by
  refine Consistent.scheduleInterrupts ?_ _
  exact (h.acknowledge address).congr rfl rfl rfl rfl rfl

theorem Consistent.execute (h : s.Consistent []) {address : BitVec 32} {rest : List (BitVec 32)}
    (hq : s.m_request_queue = address :: rest)
    (hlast : s.trace.getLast? = some (.acknowledge address)) (sendReply : Bool) :
    ({ s with
      m_request_queue := rest
      trace := s.trace ++ [Output.execute (executed s.trace).length address sendReply] } :
      State).Consistent
      (if sendReply then [⟨address, (executed s.trace).length, true⟩] else []) where
  sorted := h.sorted
  due := h.due
  requests := by
    have := h.requests
    rw [hq] at this
    simpa [requested, executed] using this
  replies := by
    simpa [queued, presented] using h.replies
  proper := h.proper.concat ⟨rfl, hlast⟩
  known reply hr := by
    obtain hr | hr := List.mem_append.mp hr
    · obtain ⟨sendReply, hmem⟩ := h.known reply (by rwa [List.append_nil])
      exact ⟨sendReply, List.mem_append_left _ hmem⟩
    · cases sendReply
      · cases hr
      · obtain rfl := List.mem_singleton.mp hr
        exact ⟨true, List.mem_append_right _ (List.mem_singleton_self _)⟩
  answered := by
    have hanswered := h.answered
    cases sendReply
    · simpa [queued, answers, syncReplies] using hanswered
    · have := hanswered.append_right [⟨address, (executed s.trace).length, true⟩]
      simpa [queued, answers, syncReplies] using this

theorem Consistent.deviceReply (h : s.Consistent owed) (command : Nat) (cycles : Int) :
    (s.deviceReply command cycles).Consistent owed := by
  unfold State.deviceReply
  split
  · next address haddress =>
    exact {
      sorted := h.sorted.put _
      due := by
        intro e he
        obtain rfl | he := mem_put.mp he
        · exact nofun
        · exact h.due e he
      requests := by
        rw [enqueueIPCReply, scheduleEvent, items_put_of_none rfl]
        exact h.requests
      replies := h.replies
      proper := h.proper
      known := by
        intro reply hr
        rw [List.append_assoc, List.mem_append, List.mem_append, enqueueIPCReply, scheduleEvent,
          (items_put_perm ..).mem_iff, List.mem_append] at hr
        obtain hr | (hr | hr) | hr := hr
        · exact h.known reply (by simp [hr])
        · exact h.known reply (by simp [hr])
        · obtain rfl : reply = ⟨address, command, false⟩ := by simpa [Event.reply?] using hr
          exact execute_mem_of_getElem? h.proper haddress
        · exact h.known reply (by simp [hr])
      answered := by
        rw [syncReplies, enqueueIPCReply, scheduleEvent, items_put_of_none rfl]
        exact h.answered }
  · exact h

theorem Consistent.enqueueIPCReply {reply : Reply} (h : s.Consistent [reply])
    (hsync : reply.synchronous = true) (cycles : Int) :
    (s.enqueueIPCReply reply cycles).Consistent [] where
  sorted := h.sorted.put _
  due e he := by
    obtain rfl | he := mem_put.mp he
    · exact nofun
    · exact h.due e he
  requests := by
    rw [State.enqueueIPCReply, scheduleEvent, items_put_of_none rfl]
    exact h.requests
  replies := h.replies
  proper := h.proper
  known r hr := by
    rw [List.append_nil, List.mem_append, State.enqueueIPCReply, scheduleEvent,
      (items_put_perm ..).mem_iff, List.mem_append] at hr
    obtain hr | hr | hr := hr
    · exact h.known r (by simp [hr])
    · exact h.known r (by simp [hr])
    · exact h.known r (by simpa [Event.reply?] using Or.inr (Or.inr hr))
  answered := by
    have hperm := items_put_perm Event.syncReply? ⟨s.ticks + cycles, .reply reply⟩ s.pending
    have hitem : (Event.syncReply? (.reply reply)).toList = [reply] := by
      rw [Event.syncReply?, if_pos hsync, Option.toList_some]
    rw [hitem] at hperm
    rw [List.append_nil, syncReplies, State.enqueueIPCReply, scheduleEvent]
    refine (hperm.append_left _).trans ?_
    rw [← List.append_assoc]
    exact h.answered
theorem Consistent.foldl_deviceReply (replies : List (Nat × Int)) (h : s.Consistent owed) :
    (replies.foldl (fun s reply => s.deviceReply reply.1 reply.2) s).Consistent owed := by
  induction replies generalizing s with
  | nil => exact h
  | cons reply replies ih => exact ih (h.deviceReply reply.1 reply.2)

theorem Consistent.executeIPCCommand (h : s.Consistent []) {address : BitVec 32}
    {rest : List (BitVec 32)} (hq : s.m_request_queue = address :: rest)
    (hlast : s.trace.getLast? = some (.acknowledge address)) (result : CommandResult) :
    ({ s with m_request_queue := rest }.executeIPCCommand address result).Consistent [] := by
  have hexec := (h.execute hq hlast result.send_reply).foldl_deviceReply result.deviceReplies
  unfold State.executeIPCCommand
  simp only
  split
  · next hsend =>
    rw [if_pos hsend] at hexec
    refine Consistent.enqueueIPCReply ?_ rfl _
    exact hexec.congr rfl rfl rfl rfl rfl
  · next hsend =>
    rw [if_neg hsend] at hexec
    exact hexec

theorem Consistent.generateReply (h : s.Consistent []) {reply : Reply} {rest : List Reply}
    (hq : s.m_reply_queue = reply :: rest) (hready : s.isReady = true) :
    ({ s.generateReply reply with m_reply_queue := rest }).Consistent [] := by
  have hbits : s.ctrl.Y1 = false ∧ s.ctrl.Y2 = false ∧ s.irq = false := by
    simpa [isReady, and_assoc] using hready
  have hlog : ({ s with
      m_reply_queue := rest
      trace := s.trace ++ [Output.present reply s.ctrl.Y1 s.ctrl.Y2 s.irq] } :
      State).Consistent [] := {
    sorted := h.sorted
    due := h.due
    requests := by
      simpa [requested, executed] using h.requests
    replies := by
      have := h.replies
      rw [hq] at this
      simpa [queued, presented] using this
    proper := h.proper.concat ⟨hbits.1, hbits.2.1, hbits.2.2, h.known reply (by simp [hq])⟩
    known := by
      intro r hr
      obtain ⟨sendReply, hmem⟩ := h.known r (by
        rw [hq, List.cons_append, List.cons_append]
        exact List.mem_cons_of_mem _ hr)
      exact ⟨sendReply, List.mem_append_left _ hmem⟩
    answered := by
      simpa [queued, answers, syncReplies] using h.answered }
  exact (hlog.scheduleInterrupts (100 * timerRatio)).congr rfl rfl rfl rfl rfl

theorem Consistent.updateIPC (h : s.Consistent []) (result : CommandResult) :
    (s.updateIPC result).Consistent [] := by
  unfold State.updateIPC
  split
  · exact h
  · next hready =>
    rw [Bool.not_eq_true', Bool.not_eq_false] at hready
    split
    · next command rest hq =>
      have hclear : s.clearX1.Consistent [] := h.congr rfl rfl rfl rfl rfl
      exact (hclear.generateAck command).executeIPCCommand hq (List.getLast?_concat ..) result
    · next reply rest _ hq => exact h.generateReply hq hready
    · exact (h.generateAck _).congr rfl rfl rfl rfl rfl
    · exact h

theorem Consistent.queueEvent (h : s.Consistent []) {e : TimedItem Event}
    {rest : List (TimedItem Event)} (hp : s.pending = e :: rest) :
    ({ s with pending := rest }.queueEvent e.item).Consistent [] := by
  have hsorted := h.sorted
  have hdue := h.due
  have hrequests := h.requests
  have hknown := h.known
  have hanswered := h.answered
  rw [syncReplies] at hanswered
  rw [hp] at hsorted hdue hrequests hknown hanswered
  simp only [items_cons] at hrequests hknown hanswered
  replace hdue : ∀ e ∈ rest, (e.item.request?).isSome → e.time ≤ s.ticks + 500 * timerRatio :=
    fun f hf => hdue f (List.mem_cons_of_mem _ hf)
  cases hitem : e.item with
  | acknowledgement address =>
    rw [hitem] at hrequests hknown hanswered
    exact ⟨hsorted.tail, hdue, hrequests, h.replies, h.proper, hknown, hanswered⟩
  | request address =>
    rw [hitem] at hrequests hknown hanswered
    simp only [State.queueEvent]
    refine ⟨hsorted.tail, hdue, ?_, h.replies, h.proper, hknown, hanswered⟩
    simpa [Event.request?] using hrequests
  | reply reply =>
    rw [hitem] at hrequests hknown hanswered
    simp only [State.queueEvent]
    refine ⟨hsorted.tail, hdue, ?_, ?_, h.proper.concat trivial, fun r hr => ?_, ?_⟩
    · simpa [requested, executed, Event.request?] using hrequests
    · rw [queued_concat, presented_concat, h.replies]
      simp [queued, presented]
    · obtain ⟨sendReply, hmem⟩ := hknown r (by simpa [Event.reply?] using hr)
      exact ⟨sendReply, List.mem_append_left _ hmem⟩
    · rw [syncReplies, queued_concat, answers_concat, List.filter_append, queued_filter]
      simpa [answers] using hanswered
  | updateInterrupts =>
    rw [hitem] at hrequests hknown hanswered
    exact ⟨hsorted.tail, hdue, hrequests, h.replies, h.proper, hknown, hanswered⟩

theorem Consistent.dispatch (h : s.Consistent []) {e : TimedItem Event}
    {rest : List (TimedItem Event)} (hp : s.pending = e :: rest) (result : CommandResult) :
    ({ s with pending := rest }.dispatch e.item result).Consistent [] := by
  have hqueue := h.queueEvent hp
  unfold State.dispatch
  split
  · next hitem =>
    rw [hitem] at hqueue
    exact hqueue.congr rfl rfl rfl rfl rfl
  · exact hqueue.updateIPC result

theorem Consistent.requestCommand (h : s.Consistent []) : s.requestCommand.Consistent [] where
  sorted := h.sorted.put _
  due e he hrequest := by
    obtain rfl | he := mem_put.mp he
    · exact Int.le_refl _
    · exact h.due e he hrequest
  requests := by
    rw [State.requestCommand, State.enqueueIPCRequest, scheduleEvent,
      items_put_last h.sorted h.due, requested_concat, executed_concat]
    have := h.requests
    simp [requested, executed, Event.request?] at this ⊢
    rw [this]
    simp
  replies := by
    rw [State.requestCommand, State.enqueueIPCRequest, scheduleEvent, queued_concat,
      presented_concat]
    simpa [queued, presented] using h.replies
  proper := h.proper.concat trivial
  known reply hr := by
    rw [State.requestCommand, State.enqueueIPCRequest, scheduleEvent, items_put_of_none rfl] at hr
    obtain ⟨sendReply, hmem⟩ := h.known reply hr
    exact ⟨sendReply, List.mem_append_left _ hmem⟩
  answered := by
    rw [State.requestCommand, State.enqueueIPCRequest, scheduleEvent, syncReplies, queued_concat,
      answers_concat, items_put_of_none rfl]
    simpa [queued, answers, syncReplies] using h.answered

theorem Consistent.updateAfterWrite (h : s.Consistent []) (result : CommandResult) :
    (s.updateAfterWrite result).Consistent [] := (h.updateIPC result).scheduleInterrupts 0

theorem Consistent.writePPCCTRL (h : s.Consistent []) (v : BitVec 32) (result : CommandResult) :
    (s.writePPCCTRL v result).Consistent [] := by
  refine Consistent.updateAfterWrite ?_ result
  have hctrl : (s.writeCtrl v).Consistent [] := h.congr rfl rfl rfl rfl rfl
  split
  · exact hctrl.requestCommand
  · exact hctrl

theorem Consistent.step {s' : State} {a : Action} (h : s.Consistent [])
    (hstep : step s a = some s') : s'.Consistent [] := by
  cases a with
  | advance ticks =>
    cases hstep
    refine ⟨h.sorted, fun e he hrequest => ?_, h.requests, h.replies, h.proper, h.known, h.answered⟩
    have := h.due e he hrequest
    simp only
    omega
  | writePPCMSG v =>
    cases hstep
    exact h.congr rfl rfl rfl rfl rfl
  | writePPCCTRL v result =>
    cases hstep
    exact h.writePPCCTRL v result
  | writeIRQFLAG v result =>
    cases hstep
    refine Consistent.updateAfterWrite ?_ result
    exact h.congr rfl rfl rfl rfl rfl
  | writeIRQMASK v result =>
    cases hstep
    refine Consistent.updateAfterWrite ?_ result
    split
    · exact h.congr rfl rfl rfl rfl rfl
    · exact h.congr rfl rfl rfl rfl rfl
  | event result =>
    rw [IPC.step] at hstep
    split at hstep
    · cases hstep
    · next e rest hp =>
      split at hstep
      · cases hstep
        exact h.dispatch hp result
      · cases hstep
  | deviceReply command cycles =>
    cases hstep
    exact h.deviceReply command cycles

end State

theorem IsInitial.syncReply? {s : State} (h : IsInitial s) {e : TimedItem Event}
    (he : e ∈ s.pending) : e.item.syncReply? = none := by
  have hreply := (h.pending e he).2
  cases hitem : e.item with
  | reply reply =>
    rw [hitem] at hreply
    cases hreply
  | _ => rfl

theorem IsInitial.consistent {s : State} (h : IsInitial s) : s.Consistent [] := by
  have hnone : ∀ {β : Type} (kind : Event → Option β), (∀ e ∈ s.pending, kind e.item = none) →
      items kind s.pending = [] := fun kind hkind => List.filterMap_eq_nil_iff.mpr hkind
  have hrequest := hnone Event.request? fun e he => (h.pending e he).1
  have hreply := hnone Event.reply? fun e he => (h.pending e he).2
  have hsync := hnone Event.syncReply? fun e he => h.syncReply? he
  refine ⟨h.sorted, fun e he hsome => ?_, ?_, ?_, ?_, fun r hr => ?_, ?_⟩
  · rw [(h.pending e he).1] at hsome
    cases hsome
  · rw [h.trace, h.request, hrequest]
    rfl
  · rw [h.trace, h.reply]
    rfl
  · rw [h.trace]
    exact .nil _
  · rw [h.reply, hreply] at hr
    cases hr
  · rw [State.syncReplies, h.trace, hsync]
    exact .refl _

/-! ## synchronous replies in order -/

namespace State

/-- And the replies of commands are under way in the order of the commands. -/
structure InOrder (owed : List Reply) (s : State) : Prop extends Consistent owed s where
  bounded : ∀ e ∈ s.pending, (e.item.syncReply?).isSome → e.time ≤ s.m_last_reply_time
  order : s.syncReplies ++ owed = answers s.trace

variable {s : State} {owed : List Reply}

theorem InOrder.congr {t : State} (h : s.InOrder owed) (hpending : t.pending = s.pending)
    (hticks : t.ticks = s.ticks) (hrequest : t.m_request_queue = s.m_request_queue)
    (hreply : t.m_reply_queue = s.m_reply_queue) (htrace : t.trace = s.trace)
    (hlast : t.m_last_reply_time = s.m_last_reply_time) : t.InOrder owed where
  toConsistent := h.toConsistent.congr hpending hticks hrequest hreply htrace
  bounded := by
    rw [hpending, hlast]
    exact h.bounded
  order := by
    rw [syncReplies, htrace, hpending]
    exact h.order

theorem InOrder.schedule (h : s.InOrder owed) {cycles : Int} {event : Event}
    (hc : (s.scheduleEvent cycles event).Consistent owed) (hevent : event.syncReply? = none) :
    (s.scheduleEvent cycles event).InOrder owed where
  toConsistent := hc
  bounded e he hsome := by
    obtain rfl | he := mem_put.mp he
    · rw [hevent] at hsome
      cases hsome
    · exact h.bounded e he hsome
  order := by
    rw [syncReplies, scheduleEvent, items_put_of_none hevent]
    exact h.order

theorem InOrder.log (h : s.InOrder owed) {x : Output}
    (hc : ({ s with trace := s.trace ++ [x] } : State).Consistent owed)
    (hqueued : queued [x] = []) (hanswers : answers [x] = []) :
    ({ s with trace := s.trace ++ [x] } : State).InOrder owed where
  toConsistent := hc
  bounded := h.bounded
  order := by
    rw [syncReplies, queued_concat, answers_concat, hqueued, hanswers, List.append_nil,
      List.append_nil]
    exact h.order

theorem InOrder.scheduleInterrupts (h : s.InOrder owed) (cycles : Int) :
    (s.scheduleEvent cycles .updateInterrupts).InOrder owed :=
  h.schedule (h.toConsistent.scheduleInterrupts cycles) rfl

theorem InOrder.generateAck (h : s.InOrder owed) (address : BitVec 32) :
    (s.generateAck address).InOrder owed := by
  refine InOrder.scheduleInterrupts ?_ _
  exact (h.log (h.toConsistent.acknowledge address) rfl rfl).congr rfl rfl rfl rfl rfl rfl

theorem InOrder.execute (h : s.InOrder []) {address : BitVec 32} {rest : List (BitVec 32)}
    (hq : s.m_request_queue = address :: rest)
    (hlast : s.trace.getLast? = some (.acknowledge address)) (sendReply : Bool) :
    ({ s with
      m_request_queue := rest
      trace := s.trace ++ [Output.execute (executed s.trace).length address sendReply] } :
      State).InOrder
      (if sendReply then [⟨address, (executed s.trace).length, true⟩] else []) where
  toConsistent := h.toConsistent.execute hq hlast sendReply
  bounded := h.bounded
  order := by
    have horder := h.order
    rw [syncReplies, queued_concat, answers_concat, ← horder]
    cases sendReply
    · simp [queued, answers, syncReplies]
    · simp [queued, answers, syncReplies]

theorem InOrder.deviceReply (h : s.InOrder owed) (command : Nat) (cycles : Int) :
    (s.deviceReply command cycles).InOrder owed := by
  have hc := h.toConsistent.deviceReply command cycles
  unfold State.deviceReply at hc ⊢
  split at hc
  · exact h.schedule hc rfl
  · exact h

theorem InOrder.foldl_deviceReply (replies : List (Nat × Int)) (h : s.InOrder owed) :
    (replies.foldl (fun s reply => s.deviceReply reply.1 reply.2) s).InOrder owed := by
  induction replies generalizing s with
  | nil => exact h
  | cons reply replies ih => exact ih (h.deviceReply reply.1 reply.2)

theorem InOrder.sendReply {reply : Reply} (h : s.InOrder [reply])
    (hsync : reply.synchronous = true) {delay : Int} (hdelay : s.ticksUntilLastReply ≤ delay)
    (hfits : toInt delay = delay) :
    ({ s with m_last_reply_time := s.ticks + delay }.enqueueIPCReply reply
      (toInt delay)).InOrder [] where
  toConsistent := by
    refine Consistent.enqueueIPCReply ?_ hsync _
    exact h.toConsistent.congr rfl rfl rfl rfl rfl
  bounded e he hsome := by
    unfold ticksUntilLastReply at hdelay
    obtain rfl | he := mem_put.mp he
    · rw [hfits]
      exact Int.le_refl _
    · have := h.bounded e he hsome
      change e.time ≤ s.ticks + delay
      omega
  order := by
    have hlast : ∀ f ∈ s.pending, (f.item.syncReply?).isSome → f.time ≤ s.ticks + toInt delay := by
      intro f hf hsome
      have := h.bounded f hf hsome
      unfold ticksUntilLastReply at hdelay
      omega
    have hitem : (Event.syncReply? (.reply reply)).toList = [reply] := by
      rw [Event.syncReply?, if_pos hsync, Option.toList_some]
    rw [List.append_nil, syncReplies, enqueueIPCReply, scheduleEvent, items_put_last h.sorted hlast,
      hitem, ← List.append_assoc]
    exact h.order

theorem ticksUntilLastReply_congr {t : State} (hticks : t.ticks = s.ticks)
    (hlast : t.m_last_reply_time = s.m_last_reply_time) :
    t.ticksUntilLastReply = s.ticksUntilLastReply := by
  rw [ticksUntilLastReply, hticks, hlast, ticksUntilLastReply]

/-- The registers and the times that a command leaves alone. -/
structure SameRegisters (s t : State) : Prop where
  arm_msg : t.arm_msg = s.arm_msg
  ctrl : t.ctrl = s.ctrl
  flags : t.ppc_irq_flags = s.ppc_irq_flags
  ticks : t.ticks = s.ticks
  last : t.m_last_reply_time = s.m_last_reply_time

theorem SameRegisters.deviceReply (s : State) (command : Nat) (cycles : Int) :
    SameRegisters s (s.deviceReply command cycles) := by
  unfold State.deviceReply
  split
  · exact ⟨rfl, rfl, rfl, rfl, rfl⟩
  · exact ⟨rfl, rfl, rfl, rfl, rfl⟩

theorem SameRegisters.foldl_deviceReply (replies : List (Nat × Int)) (s : State) :
    SameRegisters s (replies.foldl (fun s reply => s.deviceReply reply.1 reply.2) s) := by
  induction replies generalizing s with
  | nil => exact ⟨rfl, rfl, rfl, rfl, rfl⟩
  | cons reply replies ih =>
    have hfirst := deviceReply s reply.1 reply.2
    have hrest := ih (s.deviceReply reply.1 reply.2)
    exact ⟨hrest.arm_msg.trans hfirst.arm_msg, hrest.ctrl.trans hfirst.ctrl,
      hrest.flags.trans hfirst.flags, hrest.ticks.trans hfirst.ticks,
      hrest.last.trans hfirst.last⟩

/-- The delay that adds up fits into an `int`. -/
def DelayFits (s : State) (result : CommandResult) : Prop :=
  result.send_reply = true → result.reply_delay_ticks + s.ticksUntilLastReply < 2 ^ 31

theorem toInt_of_lt {ticks : Int} (h0 : 0 ≤ ticks) (h : ticks < 2 ^ 31) : toInt ticks = ticks :=
  Int.bmod_eq_of_le (by omega) (by omega)

variable {result : CommandResult}

theorem InOrder.executeIPCCommand (h : s.InOrder []) {address : BitVec 32} {rest : List (BitVec 32)}
    (hq : s.m_request_queue = address :: rest)
    (hlast : s.trace.getLast? = some (.acknowledge address)) (hfits : s.DelayFits result) :
    ({ s with m_request_queue := rest }.executeIPCCommand address result).InOrder [] := by
  have hexec := (h.execute hq hlast result.send_reply).foldl_deviceReply result.deviceReplies
  have hsame := SameRegisters.foldl_deviceReply result.deviceReplies
    { s with
      m_request_queue := rest
      trace := s.trace ++ [Output.execute (executed s.trace).length address result.send_reply] }
  have huntil := ticksUntilLastReply_congr hsame.ticks hsame.last
  unfold State.executeIPCCommand
  simp only
  split
  · next hsend =>
    rw [if_pos hsend] at hexec
    have hlt := hfits hsend
    have hpos : 0 ≤ s.ticksUntilLastReply := Int.le_max_left ..
    refine hexec.sendReply rfl (by omega) (toInt_of_lt ?_ ?_)
    · rw [huntil]
      exact Int.add_nonneg (Int.natCast_nonneg _) hpos
    · rw [huntil]
      exact hlt
  · next hsend =>
    rw [if_neg hsend] at hexec
    exact hexec

theorem InOrder.generateReply (h : s.InOrder []) {reply : Reply} {rest : List Reply}
    (hq : s.m_reply_queue = reply :: rest) (hready : s.isReady = true) :
    ({ s.generateReply reply with m_reply_queue := rest }).InOrder [] where
  toConsistent := h.toConsistent.generateReply hq hready
  bounded e he hsome := by
    obtain rfl | he := mem_put.mp he
    · cases hsome
    · exact h.bounded e he hsome
  order := by
    have horder := h.order
    simp only [List.append_nil, syncReplies, State.generateReply, scheduleEvent, queued_concat,
      answers_concat, ← horder]
    rw [items_put_of_none rfl]
    simp [queued, answers]

theorem InOrder.updateIPC (h : s.InOrder []) (hfits : s.DelayFits result) :
    (s.updateIPC result).InOrder [] := by
  unfold State.updateIPC
  split
  · exact h
  · next hready =>
    rw [Bool.not_eq_true', Bool.not_eq_false] at hready
    split
    · next command rest hq =>
      have hclear : s.clearX1.InOrder [] := h.congr rfl rfl rfl rfl rfl rfl
      exact (hclear.generateAck command).executeIPCCommand hq (List.getLast?_concat ..) hfits
    · next reply rest _ hq => exact h.generateReply hq hready
    · exact (h.generateAck _).congr rfl rfl rfl rfl rfl rfl
    · exact h

theorem InOrder.queueEvent (h : s.InOrder []) {e : TimedItem Event} {rest : List (TimedItem Event)}
    (hp : s.pending = e :: rest) : ({ s with pending := rest }.queueEvent e.item).InOrder [] := by
  have hc := h.toConsistent.queueEvent hp
  have hbounded := h.bounded
  have horder := h.order
  rw [List.append_nil, syncReplies] at horder
  rw [hp] at hbounded horder
  rw [items_cons] at horder
  replace hbounded : ∀ e ∈ rest, (e.item.syncReply?).isSome → e.time ≤ s.m_last_reply_time :=
    fun f hf => hbounded f (List.mem_cons_of_mem _ hf)
  cases hitem : e.item with
  | reply answer =>
    rw [hitem] at hc horder
    refine ⟨hc, hbounded, ?_⟩
    rw [List.append_nil, State.queueEvent, syncReplies, queued_concat, answers_concat,
      List.filter_append, queued_filter, List.append_assoc, horder]
    exact (List.append_nil _).symm
  | _ =>
    rw [hitem] at hc horder
    refine ⟨hc, hbounded, ?_⟩
    rw [List.append_nil]
    exact horder

theorem InOrder.dispatch (h : s.InOrder []) {e : TimedItem Event} {rest : List (TimedItem Event)}
    (hp : s.pending = e :: rest) (hfits : s.DelayFits result) :
    ({ s with pending := rest }.dispatch e.item result).InOrder [] := by
  have hqueue := h.queueEvent hp
  have hlast : ∀ event : Event, ({ s with pending := rest }.queueEvent event).DelayFits result := by
    intro event
    cases event with
    | _ => exact hfits
  unfold State.dispatch
  split
  · next hitem =>
    rw [hitem] at hqueue
    exact hqueue.congr rfl rfl rfl rfl rfl rfl
  · exact hqueue.updateIPC (hlast _)

theorem InOrder.requestCommand (h : s.InOrder []) : s.requestCommand.InOrder [] where
  toConsistent := h.toConsistent.requestCommand
  bounded e he hsome := by
    obtain rfl | he := mem_put.mp he
    · cases hsome
    · exact h.bounded e he hsome
  order := by
    rw [List.append_nil, State.requestCommand, State.enqueueIPCRequest, scheduleEvent, syncReplies,
      queued_concat, answers_concat, items_put_of_none rfl, ← h.order]
    simp [queued, answers, syncReplies]

theorem InOrder.updateAfterWrite (h : s.InOrder []) (hfits : s.DelayFits result) :
    (s.updateAfterWrite result).InOrder [] :=
  (h.updateIPC hfits).scheduleInterrupts 0

/-- The command that a step may execute gets its reply in time. -/
def FitsInt (s : State) : Action → Prop
  | .writePPCCTRL _ result => s.DelayFits result
  | .writeIRQFLAG _ result => s.DelayFits result
  | .writeIRQMASK _ result => s.DelayFits result
  | .event result => s.DelayFits result
  | _ => True

theorem InOrder.step {s' : State} {a : Action} (h : s.InOrder []) (hfits : s.FitsInt a)
    (hstep : step s a = some s') : s'.InOrder [] := by
  cases a with
  | advance ticks =>
    have hc := h.toConsistent.step hstep
    cases hstep
    exact ⟨hc, h.bounded, h.order⟩
  | writePPCMSG v =>
    cases hstep
    exact h.congr rfl rfl rfl rfl rfl rfl
  | writePPCCTRL v result =>
    cases hstep
    have hctrl : (s.writeCtrl v).InOrder [] := h.congr rfl rfl rfl rfl rfl rfl
    unfold State.writePPCCTRL
    simp only
    split
    · exact hctrl.requestCommand.updateAfterWrite hfits
    · exact hctrl.updateAfterWrite hfits
  | writeIRQFLAG v result =>
    cases hstep
    refine InOrder.updateAfterWrite ?_ hfits
    exact h.congr rfl rfl rfl rfl rfl rfl
  | writeIRQMASK v result =>
    cases hstep
    refine InOrder.updateAfterWrite ?_ ?_
    · split
      · exact h.congr rfl rfl rfl rfl rfl rfl
      · exact h.congr rfl rfl rfl rfl rfl rfl
    · split
      · exact hfits
      · exact hfits
  | event result =>
    rw [IPC.step] at hstep
    split at hstep
    · cases hstep
    · next e rest hp =>
      split at hstep
      · cases hstep
        exact h.dispatch hp hfits
      · cases hstep
  | deviceReply command cycles =>
    cases hstep
    exact h.deviceReply command cycles

end State

theorem IsInitial.inOrder {s : State} (h : IsInitial s) : s.InOrder [] where
  toConsistent := h.consistent
  bounded e he hsome := by
    rw [h.syncReply? he] at hsome
    cases hsome
  order := by
    have hsync : items Event.syncReply? s.pending = [] :=
      List.filterMap_eq_nil_iff.mpr fun e he => h.syncReply? he
    rw [State.syncReplies, h.trace, hsync]
    rfl

namespace State

variable {s : State}

/-! ## nothing waits for nothing -/

/-- When a request or a reply can be handled, none is waiting. -/
def Idle (s : State) : Prop :=
  s.isReady = true → s.m_request_queue = [] ∧ s.m_reply_queue = [] ∧ s.m_ack_queue = []

theorem isReady_of_Y1 (h : s.ctrl.Y1 = true) : s.isReady = false := by
  rw [isReady, h]
  rfl

theorem isReady_of_Y2 (h : s.ctrl.Y2 = true) : s.isReady = false := by
  rw [isReady, h, Bool.not_true, Bool.and_false, Bool.false_and]

theorem SameRegisters.executeIPCCommand (s : State) (address : BitVec 32)
    (result : CommandResult) :
    (s.executeIPCCommand address result).ctrl = s.ctrl ∧
      (s.executeIPCCommand address result).arm_msg = s.arm_msg := by
  have hsame := SameRegisters.foldl_deviceReply result.deviceReplies
    { s with trace := s.trace ++
        [Output.execute (executed s.trace).length address result.send_reply] }
  unfold State.executeIPCCommand
  simp only
  split
  · exact ⟨hsame.ctrl, hsame.arm_msg⟩
  · exact ⟨hsame.ctrl, hsame.arm_msg⟩

theorem idle_updateIPC (s : State) (result : CommandResult) : (s.updateIPC result).Idle := by
  unfold State.updateIPC
  split
  · next hbusy =>
    intro hready
    rw [hready] at hbusy
    cases hbusy
  · split
    · next command rest _ =>
      intro hready
      rw [isReady_of_Y2] at hready
      · cases hready
      · rw [(SameRegisters.executeIPCCommand ..).1]
        rfl
    · intro hready
      cases hready
    · intro hready
      rw [isReady_of_Y2 rfl] at hready
      cases hready
    · next hrequest hreply hack => exact fun _ => ⟨hrequest, hreply, hack⟩

end State

end DolphinCore.IPC
