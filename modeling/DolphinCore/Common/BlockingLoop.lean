import DolphinCore.Lib.Run
import Mathlib.Logic.Function.Basic

/-!
# DolphinCore.Common.BlockingLoop

`BlockingLoop` between `Prepare` and `Stop`: any number of threads that call
`Wakeup` and `Wait`, and the one in `Run`. Every access to `m_running_state`, to a
flag, an event or a lock is a step. `m_stopped` and `m_shutdown` are clear all the
time.

Beside the state there is how many payload calls have begun and how many are
completed. A call of `Wakeup` takes effect at its last access to
`m_running_state`; it is followed by the payload call that begins next.
-/

namespace DolphinCore.Common

/-! ## state -/

def STATE_SLEEPING : Int := 0
def STATE_DONE : Int := 1
def STATE_LAST_EXECUTION : Int := 2
def STATE_NEED_EXECUTION : Int := 3

/-- Where the thread in `Run` is. -/
inductive LoopStep where
  | top
  | payload
  | load
  | decrementNeed
  | decrementLast
  | setDone
  | testMaySleep
  | decrementDone
  | sleep
deriving DecidableEq

/-- Where a caller is. A call of `Wakeup` has the number of the payload call that has to follow
it; a call of `Wait` has the largest such number of the calls of `Wakeup` that had returned when
it was called, and the largest number of a payload call that began after one of them had. -/
inductive CallerStep where
  | idle
  | wakeupLoad
  | wakeupExchange
  | wakeupSet (needed : Nat)
  | wait (since sinceReturn : Nat)
  | waitLock (since sinceReturn : Nat)
  | waitTest (since sinceReturn : Nat)
  | waitEvent (since sinceReturn : Nat)
  | waitMaySleep (since sinceReturn : Nat)
  | waitUnlock (since sinceReturn : Nat)
  | waited (since sinceReturn : Nat)
deriving DecidableEq

structure BlockingLoop (ι : Type) where
  m_running_state : Int
  m_may_sleep : Bool
  m_new_work_event : Bool
  m_done_event : Bool
  m_wait_lock : Option ι
  loop : LoopStep
  caller : ι → CallerStep
  /-- How many payload calls have begun, and how many of them are completed. -/
  begun : Nat
  completed : Nat
  /-- The payload call that follows every call of `Wakeup` so far. -/
  needed : Nat
  /-- The one that follows every call of `Wakeup` that has returned, and the one that begins
  after the last of them has. -/
  returned : Nat
  begunAtReturn : Nat

inductive LoopAction (ι : Type) where
  | callWakeup (i : ι)
  | callWait (i : ι)
  | stepCaller (i : ι)
  | stepLoop
  /-- The sleeping loop wakes up after its timeout. -/
  | timeout
  | allowSleep

namespace BlockingLoop

variable {ι : Type}

/-- `Prepare`; the events may still be set from an earlier run. -/
def prepared (m_new_work_event m_done_event : Bool) : BlockingLoop ι :=
  ⟨STATE_LAST_EXECUTION, true, m_new_work_event, m_done_event, none, .top, fun _ => .idle,
    0, 0, 0, 0, 0⟩

def isDone (s : BlockingLoop ι) : Bool := s.m_running_state ≤ STATE_DONE

def setCaller [DecidableEq ι] (s : BlockingLoop ι) (i : ι) (c : CallerStep) : BlockingLoop ι :=
  { s with caller := Function.update s.caller i c }

/-- `Wakeup` takes effect: the next payload call is the one that it needs. -/
def mark (s : BlockingLoop ι) : BlockingLoop ι := { s with needed := s.begun + 1 }

/-- `Wakeup` returns. -/
def returnWakeup [DecidableEq ι] (s : BlockingLoop ι) (i : ι) (needed : Nat) : BlockingLoop ι :=
  { s.setCaller i .idle with returned := max s.returned needed, begunAtReturn := s.begun + 1 }

/-- An access of a call of `Wakeup` or `Wait`. -/
def stepCaller [DecidableEq ι] (s : BlockingLoop ι) (i : ι) : Option (BlockingLoop ι) :=
  match s.caller i with
  | .idle => none
  | .wakeupLoad =>
    if s.m_running_state ≥ STATE_NEED_EXECUTION then some (s.mark.returnWakeup i (s.begun + 1))
    else some (s.setCaller i .wakeupExchange)
  | .wakeupExchange =>
    let exchanged := { s.mark with m_running_state := STATE_NEED_EXECUTION }
    if s.m_running_state ≠ STATE_SLEEPING then some (exchanged.returnWakeup i (s.begun + 1))
    else some (exchanged.setCaller i (.wakeupSet (s.begun + 1)))
  | .wakeupSet needed => some ({ s with m_new_work_event := true }.returnWakeup i needed)
  | .wait since sinceReturn =>
    if s.isDone then some (s.setCaller i (.waited since sinceReturn))
    else some (s.setCaller i (.waitLock since sinceReturn))
  | .waitLock since sinceReturn =>
    if s.m_wait_lock = none then
      some ({ s with m_wait_lock := some i }.setCaller i (.waitTest since sinceReturn))
    else none
  | .waitTest since sinceReturn =>
    if s.isDone then some (s.setCaller i (.waitMaySleep since sinceReturn))
    else some (s.setCaller i (.waitEvent since sinceReturn))
  | .waitEvent since sinceReturn =>
    if s.m_done_event then
      some ({ s with m_done_event := false }.setCaller i (.waitTest since sinceReturn))
    else none
  | .waitMaySleep since sinceReturn =>
    some ({ s with m_may_sleep := true }.setCaller i (.waitUnlock since sinceReturn))
  | .waitUnlock since sinceReturn =>
    some ({ s with m_wait_lock := none }.setCaller i (.waited since sinceReturn))
  | .waited _ _ => some (s.setCaller i .idle)

/-- Where the switch goes. -/
def switch (m_running_state : Int) : LoopStep :=
  if m_running_state = STATE_NEED_EXECUTION then .decrementNeed
  else if m_running_state = STATE_LAST_EXECUTION then .decrementLast
  else if m_running_state = STATE_DONE then .testMaySleep
  else if m_running_state = STATE_SLEEPING then .sleep
  else .top

/-- `m_running_state--`, and where the loop goes after it. -/
def decrement (s : BlockingLoop ι) (loop : LoopStep) : BlockingLoop ι :=
  { s with m_running_state := s.m_running_state - 1, loop := loop }

/-- An access of the thread in `Run`. -/
def stepLoop (s : BlockingLoop ι) : Option (BlockingLoop ι) :=
  match s.loop with
  | .top => some { s with loop := .payload, begun := s.begun + 1 }
  | .payload => some { s with loop := .load, completed := s.completed + 1 }
  | .load => some { s with loop := switch s.m_running_state }
  | .decrementNeed => some (s.decrement .top)
  | .decrementLast =>
    some (s.decrement (if s.m_running_state ≠ STATE_LAST_EXECUTION then .top else .setDone))
  | .setDone => some { s with m_done_event := true, loop := .testMaySleep }
  | .testMaySleep =>
    if s.m_may_sleep then some { s with m_may_sleep := false, loop := .decrementDone }
    else some { s with loop := .top }
  | .decrementDone =>
    some (s.decrement (if s.m_running_state ≠ STATE_DONE then .top else .sleep))
  | .sleep =>
    if s.m_new_work_event then some { s with m_new_work_event := false, loop := .top } else none

/-- A step of a caller or of the loop; `timeout` is that of `Run`. -/
def step [DecidableEq ι] (timeout : Int) (s : BlockingLoop ι) :
    LoopAction ι → Option (BlockingLoop ι)
  | .callWakeup i => if s.caller i = .idle then some (s.setCaller i .wakeupLoad) else none
  | .callWait i =>
    if s.caller i = .idle then some (s.setCaller i (.wait s.returned s.begunAtReturn)) else none
  | .stepCaller i => s.stepCaller i
  | .stepLoop => s.stepLoop
  | .timeout => if s.loop = .sleep ∧ 0 < timeout then some { s with loop := .top } else none
  | .allowSleep => some { s with m_may_sleep := true }

/-- The loop sleeps, and nothing but a timeout wakes it up. -/
def Sleeping (s : BlockingLoop ι) : Prop := s.loop = .sleep ∧ s.m_new_work_event = false

/-! ## the invariant -/

/-- The states that `m_running_state` may have. -/
def InRange (s : BlockingLoop ι) : Prop :=
  match s.loop with
  | .decrementNeed => s.m_running_state = 3
  | .decrementLast => s.m_running_state = 2 ∨ s.m_running_state = 3
  | .setDone | .testMaySleep | .decrementDone => s.m_running_state = 1 ∨ s.m_running_state = 3
  | .sleep => s.m_running_state = 0 ∨ s.m_running_state = 3
  | _ => 0 ≤ s.m_running_state ∧ s.m_running_state ≤ 3

/-- What the state tells about the payload calls: from the last execution on, the one that every
call of `Wakeup` needs is under way, and then it is completed. -/
def Followed (s : BlockingLoop ι) : Prop :=
  (s.m_running_state ≤ 1 → s.needed ≤ s.completed) ∧
  (s.m_running_state = 2 →
    match s.loop with
    | .top => s.needed ≤ s.completed + 1
    | .payload => s.needed ≤ s.begun
    | _ => s.needed ≤ s.completed)

/-- A payload call is in progress or not. -/
def Counts (s : BlockingLoop ι) : Prop :=
  s.begun = s.completed + (if s.loop = .payload then 1 else 0)

/-- A call of `Wakeup` is about to set the event. -/
def Waking (s : BlockingLoop ι) : Prop := ∃ i needed, s.caller i = .wakeupSet needed

/-- What a caller has taken note of. -/
def CallerOk (s : BlockingLoop ι) : CallerStep → Prop
  | .wakeupSet needed => needed ≤ s.needed
  | .wait since _ | .waitLock since _ | .waitTest since _ | .waitEvent since _ => since ≤ s.needed
  | .waitMaySleep since _ | .waitUnlock since _ | .waited since _ => since ≤ s.completed
  | _ => True

structure Ok (s : BlockingLoop ι) : Prop where
  range : s.InRange
  followed : s.Followed
  counts : s.Counts
  needed_le : s.needed ≤ s.begun + 1
  returned_le : s.returned ≤ s.needed
  callers : ∀ i, s.CallerOk (s.caller i)
  awake : s.loop = .sleep → s.m_running_state = 3 → s.m_new_work_event = true ∨ s.Waking

section

variable {s t : BlockingLoop ι}

theorem CallerOk.mono {c : CallerStep} (h : s.CallerOk c) (hn : s.needed ≤ t.needed)
    (hc : s.completed ≤ t.completed) : t.CallerOk c := by
  cases c <;> grind [CallerOk]

theorem Ok.prepared (m_new_work_event m_done_event : Bool) :
    Ok (prepared m_new_work_event m_done_event : BlockingLoop ι) where
  range := ⟨show (0 : Int) ≤ 2 by decide, show (2 : Int) ≤ 3 by decide⟩
  followed := ⟨fun _ => Nat.le_refl _, fun _ => Nat.zero_le _⟩
  counts := rfl
  needed_le := Nat.zero_le _
  returned_le := Nat.le_refl _
  callers _ := trivial
  awake := nofun

theorem InRange.bounds (h : s.InRange) : 0 ≤ s.m_running_state ∧ s.m_running_state ≤ 3 := by
  unfold InRange at h
  cases hl : s.loop <;> simp only [hl] at h <;> omega

/-! ## the loop -/

/-- What an access of the loop leaves alone. -/
structure LoopFrame (s t : BlockingLoop ι) : Prop where
  caller : t.caller = s.caller
  needed : t.needed = s.needed
  returned : t.returned = s.returned
  begun : s.begun ≤ t.begun
  completed : s.completed ≤ t.completed

theorem loopFrame_stepLoop (hs : s.stepLoop = some t) : LoopFrame s t := by
  unfold stepLoop at hs
  cases hl : s.loop <;> simp only [hl] at hs
  all_goals try (split at hs)
  all_goals cases hs
  all_goals exact ⟨rfl, rfl, rfl, by simp [decrement], by simp [decrement]⟩

theorem InRange.stepLoop (h : s.InRange) (hs : s.stepLoop = some t) : t.InRange := by
  have hbounds := h.bounds
  unfold InRange at h
  unfold BlockingLoop.stepLoop at hs
  cases hl : s.loop <;> simp only [hl] at hs h <;>
    grind [InRange, decrement, switch, STATE_SLEEPING, STATE_DONE, STATE_LAST_EXECUTION,
      STATE_NEED_EXECUTION]

theorem Counts.stepLoop (h : s.Counts) (hs : s.stepLoop = some t) : t.Counts := by
  unfold Counts at h
  unfold BlockingLoop.stepLoop at hs
  cases hl : s.loop <;> simp only [hl] at hs h <;> grind [Counts, decrement, switch]

theorem Ok.followed_stepLoop (h : Ok s) (hs : s.stepLoop = some t) : t.Followed := by
  obtain ⟨hrange, hfollowed, hcounts, hneeded, -, -, -⟩ := h
  unfold InRange at hrange
  unfold Followed at hfollowed
  unfold Counts at hcounts
  unfold BlockingLoop.stepLoop at hs
  cases hl : s.loop <;> simp only [hl] at hs hrange hfollowed hcounts <;>
    grind [Followed, decrement, switch, STATE_SLEEPING, STATE_DONE, STATE_LAST_EXECUTION,
      STATE_NEED_EXECUTION]

theorem awake_stepLoop (h : Ok s) (hs : s.stepLoop = some t) (hsleep : t.loop = .sleep)
    (hneed : t.m_running_state = 3) : t.m_new_work_event = true ∨ t.Waking := by
  have hrange := h.range
  unfold InRange at hrange
  unfold stepLoop at hs
  cases hl : s.loop <;> simp only [hl] at hs hrange <;>
    grind [decrement, switch, STATE_SLEEPING, STATE_DONE, STATE_LAST_EXECUTION,
      STATE_NEED_EXECUTION]

theorem Ok.stepLoop (h : Ok s) (hs : s.stepLoop = some t) : Ok t := by
  have hf := loopFrame_stepLoop hs
  refine ⟨h.range.stepLoop hs, h.followed_stepLoop hs, h.counts.stepLoop hs, ?_, ?_, ?_,
    awake_stepLoop h hs⟩
  · rw [hf.needed]
    exact Nat.le_trans h.needed_le (Nat.succ_le_succ hf.begun)
  · rw [hf.returned, hf.needed]
    exact h.returned_le
  · intro i
    rw [hf.caller]
    exact (h.callers i).mono (Nat.le_of_eq hf.needed.symm) hf.completed

end

/-! ## the callers -/

section

variable [DecidableEq ι] {s t : BlockingLoop ι} {i : ι}

/-- What a caller may do: it marks that a payload call is needed or leaves that alone. -/
structure CallerFrame (s t : BlockingLoop ι) (i : ι) : Prop where
  loop : t.loop = s.loop
  begun : t.begun = s.begun
  completed : t.completed = s.completed
  others : ∀ j, j ≠ i → t.caller j = s.caller j
  own : t.CallerOk (t.caller i)
  marked : (t.m_running_state = s.m_running_state ∧ t.needed = s.needed) ∨
    (t.m_running_state = 3 ∧ t.needed = s.begun + 1)
  returned : t.returned ≤ t.needed
  event : s.m_new_work_event = true → t.m_new_work_event = true
  /-- The one that takes the loop out of its sleep goes on to set the event. -/
  sleeping : s.m_running_state = 0 → t.m_running_state = 3 →
    ∃ needed, t.caller i = .wakeupSet needed
  waking : ∀ needed, s.caller i = .wakeupSet needed → t.m_new_work_event = true

theorem callerFrame_stepCaller (h : Ok s) (hs : s.stepCaller i = some t) : CallerFrame s t i := by
  have hown := h.callers i
  have hbounds := h.range.bounds
  have hfollowed := h.followed.1
  have hneeded := h.needed_le
  have hreturned := h.returned_le
  unfold stepCaller at hs
  cases hc : s.caller i <;> simp only [hc] at hs hown
  all_goals try (split at hs)
  all_goals cases hs
  all_goals refine ⟨rfl, rfl, rfl, fun j hj => Function.update_of_ne hj _ _, ?_, ?_, ?_, ?_, ?_, ?_⟩
  all_goals simp only [setCaller, mark, returnWakeup, Function.update_self]
  all_goals grind [isDone, CallerOk, STATE_SLEEPING, STATE_DONE, STATE_NEED_EXECUTION]

theorem callerFrame_call {c : CallerStep} (h : Ok s) (hidle : s.caller i = .idle)
    (hc : s.CallerOk c) : CallerFrame s (s.setCaller i c) i where
  loop := rfl
  begun := rfl
  completed := rfl
  others j hj := Function.update_of_ne hj _ _
  own := by
    simp only [setCaller, Function.update_self]
    exact hc.mono (Nat.le_refl _) (Nat.le_refl _)
  marked := .inl ⟨rfl, rfl⟩
  returned := h.returned_le
  event := id
  sleeping h0 h3 := by
    have h0 : s.m_running_state = 0 := h0
    have h3 : s.m_running_state = 3 := h3
    omega
  waking needed hw := by
    rw [hidle] at hw
    cases hw

theorem Ok.of_callerFrame (h : Ok s) (hf : CallerFrame s t i) : Ok t := by
  obtain ⟨hrange, hfollowed, hcounts, hneeded, hreturned, hcallers, hawake⟩ := h
  have hmono : s.needed ≤ t.needed := by
    rcases hf.marked with ⟨-, hn⟩ | ⟨-, hn⟩ <;> omega
  refine ⟨?_, ?_, ?_, ?_, hf.returned, ?_, ?_⟩
  · unfold InRange at hrange ⊢
    rw [hf.loop]
    rcases hf.marked with ⟨hm, -⟩ | ⟨hm, -⟩
    · rw [hm]
      exact hrange
    · rw [hm]
      cases s.loop <;> simp
  · rcases hf.marked with ⟨hm, hn⟩ | ⟨hm, -⟩
    · unfold Followed at hfollowed ⊢
      rw [hm, hn, hf.loop, hf.completed, hf.begun]
      exact hfollowed
    · constructor <;> intro hle <;> omega
  · unfold Counts at hcounts ⊢
    rw [hf.begun, hf.completed, hf.loop]
    exact hcounts
  · rw [hf.begun]
    rcases hf.marked with ⟨-, hn⟩ | ⟨-, hn⟩ <;> omega
  · intro j
    by_cases hj : j = i
    · rw [hj]
      exact hf.own
    · rw [hf.others j hj]
      exact (hcallers j).mono hmono (Nat.le_of_eq hf.completed.symm)
  · intro hsleep hneed
    rw [hf.loop] at hsleep
    have hstates : s.m_running_state = 0 ∨ s.m_running_state = 3 := by
      unfold InRange at hrange
      rwa [hsleep] at hrange
    rcases hstates with h0 | h3
    · obtain ⟨needed, hw⟩ := hf.sleeping h0 hneed
      exact .inr ⟨i, needed, hw⟩
    · rcases hawake hsleep h3 with he | ⟨j, needed, hj⟩
      · exact .inl (hf.event he)
      · by_cases hji : j = i
        · exact .inl (hf.waking needed (hji ▸ hj))
        · exact .inr ⟨j, needed, (hf.others j hji).trans hj⟩

/-! ## runs -/

theorem Ok.step {timeout : Int} (h : Ok s) {a : LoopAction ι} (hs : step timeout s a = some t) :
    Ok t := by
  cases a with
  | callWakeup i =>
    obtain ⟨hidle, rfl⟩ := Option.ite_none_right_eq_some.mp hs |>.imp_right Option.some.inj
    exact h.of_callerFrame (callerFrame_call h hidle trivial)
  | callWait i =>
    obtain ⟨hidle, rfl⟩ := Option.ite_none_right_eq_some.mp hs |>.imp_right Option.some.inj
    exact h.of_callerFrame (callerFrame_call h hidle h.returned_le)
  | stepCaller i => exact h.of_callerFrame (callerFrame_stepCaller h hs)
  | stepLoop => exact h.stepLoop hs
  | timeout =>
    obtain ⟨⟨hsleep, -⟩, rfl⟩ := Option.ite_none_right_eq_some.mp hs |>.imp_right Option.some.inj
    obtain ⟨hrange, hfollowed, hcounts, hneeded, hreturned, hcallers, hawake⟩ := h
    have hbounds := hrange.bounds
    unfold InRange at hrange
    rw [hsleep] at hrange
    refine ⟨hbounds, ⟨hfollowed.1, fun h2 => ?_⟩, ?_, hneeded, hreturned,
      fun i => (hcallers i).mono (Nat.le_refl _) (Nat.le_refl _), nofun⟩
    · have h2 : s.m_running_state = 2 := h2
      omega
    · unfold Counts at hcounts
      rw [hsleep] at hcounts
      exact hcounts
  | allowSleep =>
    cases hs
    exact ⟨h.range, h.followed, h.counts, h.needed_le, h.returned_le,
      fun i => (h.callers i).mono (Nat.le_refl _) (Nat.le_refl _), h.awake⟩

theorem ok_of_run {timeout : Int} {newWork done : Bool}
    (h : Run (step timeout) (fun _ _ => True) (prepared newWork done) s) : Ok s :=
  h.invariant (.prepared newWork done) fun _ _ _ hs _ ht => hs.step ht

end

/-- **The loop follows every call of `Wakeup`**, in every state of every run, with or without a
timeout. A call of `Wait` that has returned came after the payload call that every `Wakeup`
needed that had returned before it; where the loop sleeps and its event is not set, all payload
calls that are needed are completed, or a call of `Wakeup` is about to set the event; and
`m_running_state` is one of its four states. -/
theorem followed_of_run [DecidableEq ι] {timeout : Int} {newWork done : Bool} {s : BlockingLoop ι}
    (h : Run (step timeout) (fun _ _ => True) (prepared newWork done) s) :
    (∀ i since sinceReturn, s.caller i = .waited since sinceReturn → since ≤ s.completed) ∧
    (s.Sleeping → s.needed ≤ s.completed ∨ s.Waking) ∧
    STATE_SLEEPING ≤ s.m_running_state ∧ s.m_running_state ≤ STATE_NEED_EXECUTION := by
  have hs := ok_of_run h
  refine ⟨fun i since sinceReturn hi => ?_, fun ⟨hsleep, hevent⟩ => ?_, hs.range.bounds⟩
  · have hcaller := hs.callers i
    rw [hi] at hcaller
    exact hcaller
  · have hrange := hs.range
    unfold InRange at hrange
    rw [hsleep] at hrange
    rcases hrange with h0 | h3
    · exact .inl (hs.followed.1 (by omega))
    · refine .inr ((hs.awake hsleep h3).resolve_left ?_)
      rw [hevent]
      exact nofun

/-- The loop goes to sleep after its first payload call. -/
def toSleep : List (LoopAction Bool) := List.replicate 7 .stepLoop

/-- A caller wakes the loop up and waits for it. -/
theorem followed_of_run_wait : ∃ s, Run.exec (step 0) (prepared false false)
        (toSleep ++ .callWakeup false :: List.replicate 3 (.stepCaller false) ++
          List.replicate 9 .stepLoop ++ [.callWait false, .stepCaller false]) = some s ∧
      s.caller false = .waited 2 2 ∧ 2 ≤ s.completed := by
  obtain ⟨s, hs, hcaller⟩ : ∃ s, Run.exec (step 0) (prepared false false)
      (toSleep ++ .callWakeup false :: List.replicate 3 (.stepCaller false) ++
        List.replicate 9 .stepLoop ++ [.callWait false, .stepCaller false]) = some s ∧
      s.caller false = .waited 2 2 := ⟨_, rfl, rfl⟩
  have hrun := Run.of_exec _ (fun _ _ _ => trivial) hs
  exact ⟨s, hs, hcaller, (followed_of_run hrun).1 false 2 2 hcaller⟩

/-! ## calls of Wakeup that take long -/

/-- While the loop sleeps one caller marks that a payload call is needed, and before it sets the
event a second call of `Wakeup` returns. -/
def twoWakeups : List (LoopAction Bool) :=
  toSleep ++ [.callWakeup false, .stepCaller false, .stepCaller false, .callWakeup true,
    .stepCaller true]

/-- The timeout wakes the loop up before the event is set; when `Wakeup` returns all is done. -/
def timedOut : List (LoopAction Bool) :=
  toSleep ++ [.callWakeup false, .stepCaller false, .stepCaller false, .timeout] ++
    List.replicate 8 .stepLoop ++ [.stepCaller false, .callWait true, .stepCaller true]

/-- The loop can sleep for a moment although a call of `Wakeup` has returned; and a call of `Wait`
can return without a payload call that began after an earlier `Wakeup` returned. -/
theorem followed_late :
    (¬ ∀ s, Run (step 0) (fun _ _ => True) (prepared false false : BlockingLoop Bool) s →
      s.Sleeping → s.returned ≤ s.completed) ∧
    ¬ ∀ s, Run (step 100) (fun _ _ => True) (prepared false false : BlockingLoop Bool) s →
      ∀ i since sinceReturn, s.caller i = .waited since sinceReturn →
        sinceReturn ≤ s.completed := by
  constructor
  · intro hall
    obtain ⟨s, hs, hsleeping, hlt⟩ : ∃ s, Run.exec (step 0) (prepared false false) twoWakeups =
        some s ∧ s.Sleeping ∧ s.completed < s.returned := ⟨_, rfl, ⟨rfl, rfl⟩, by decide⟩
    exact absurd (hall s (Run.of_exec _ (fun _ _ _ => trivial) hs) hsleeping) (Nat.not_le.mpr hlt)
  · intro hall
    obtain ⟨s, hs, hcaller, hlt⟩ : ∃ s, Run.exec (step 100) (prepared false false) timedOut =
        some s ∧ s.caller true = .waited 2 4 ∧ s.completed < 4 := ⟨_, rfl, rfl, by decide⟩
    exact absurd (hall s (Run.of_exec _ (fun _ _ _ => trivial) hs) true 2 4 hcaller)
      (Nat.not_le.mpr hlt)

end BlockingLoop

end DolphinCore.Common
