import DolphinCore.SystemTimers.Decrementer

/-!
# DolphinCore.SystemTimers.TimeBase

The time base of `Core/HW/SystemTimers.cpp` as `mftb` and `mtspr` see it.  It is a value and the
ticks at which it was set; the registers of its two halves are brought up to date by a read only,
and a write of one half takes the other one from its register.
-/

namespace DolphinCore.SystemTimers

/-! ## the code -/

/-- The registers of the two halves. -/
inductive Half
  | TL
  | TU
  deriving DecidableEq, Repr

/-- This half of a time base. -/
def Half.of : Half → BitVec 64 → BitVec 32
  | .TL, time_base => time_base.setWidth 32
  | .TU, time_base => (time_base >>> 32).setWidth 32

def Half.other : Half → Half
  | .TL => .TU
  | .TU => .TL

/-- A time base of two halves. -/
def join (tu tl : BitVec 32) : BitVec 64 := tu ++ tl

structure TimeBase where
  /-- `spr[SPR_TL]` -/
  TL : BitVec 32
  /-- `spr[SPR_TU]` -/
  TU : BitVec 32
  fakeTBStartValue : BitVec 64
  fakeTBStartTicks : BitVec 64
  /-- `GetTicks` -/
  ticks : BitVec 64
  started : fakeTBStartTicks.toNat ≤ ticks.toNat

namespace TimeBase

/-- `rSPR` -/
def spr (s : TimeBase) : Half → BitVec 32
  | .TL => s.TL
  | .TU => s.TU

def getFakeTimeBase (s : TimeBase) : BitVec 64 :=
  s.fakeTBStartValue + (s.ticks - s.fakeTBStartTicks) / BitVec.ofNat 64 timerRatio

def timeBaseSet (s : TimeBase) : TimeBase :=
  { s with
    fakeTBStartTicks := s.ticks
    fakeTBStartValue := join s.TU s.TL
    started := Nat.le_refl _ }

/-- `mfspr` of a half, which `mftb` is. -/
def mftb (s : TimeBase) (half : Half) : BitVec 32 × TimeBase :=
  let time_base := s.getFakeTimeBase
  let s := { s with TL := Half.TL.of time_base, TU := Half.TU.of time_base }
  (s.spr half, s)

/-- `mtspr` to `SPR_TL_W` and `SPR_TU_W` -/
def mttb (s : TimeBase) (value : BitVec 32) : Half → TimeBase
  | .TL => timeBaseSet { s with TL := value }
  | .TU => timeBaseSet { s with TU := value }

end TimeBase

inductive TimeBaseAction
  | elapse (cycles : Nat)
  | mftb (half : Half)
  | mttb (half : Half) (value : BitVec 32)

/-- A step and what it reads; the ticks are a signed number of 64 bits. -/
def TimeBase.step (s : TimeBase) : TimeBaseAction → Option (Option (BitVec 32) × TimeBase)
  | .elapse cycles =>
    if h : s.ticks.toNat + cycles < 2 ^ 63 then
      some (none, { s with
        ticks := BitVec.ofNat 64 (s.ticks.toNat + cycles)
        started := by
          rw [BitVec.toNat_ofNat, Nat.mod_eq_of_lt (by omega)]
          exact Nat.le_add_right_of_le s.started })
    else none
  | .mftb half => some (some (s.mftb half).1, (s.mftb half).2)
  | .mttb half value => some (none, s.mttb value half)

/-! ## the counter -/

/-- A counter that was set some cycles ago. -/
structure Counter where
  start : BitVec 64
  cycles : Nat

namespace Counter

/-- It advances by one in `TIMER_RATIO` cycles. -/
def value (c : Counter) : BitVec 64 := c.start + BitVec.ofNat 64 (c.cycles / timerRatio)

/-- A write replaces one half of the value. -/
def step (c : Counter) : TimeBaseAction → Counter
  | .elapse cycles => { c with cycles := c.cycles + cycles }
  | .mftb _ => c
  | .mttb .TL value => ⟨join (Half.TU.of c.value) value, 0⟩
  | .mttb .TU value => ⟨join value (Half.TL.of c.value), 0⟩

/-- What a read gives. -/
def reads (c : Counter) : TimeBaseAction → Option (BitVec 32)
  | .mftb half => some (half.of c.value)
  | _ => none

end Counter

/-- All along a run the time base is that of the counter, and so is what is read. -/
def Behaves : TimeBase → Counter → List TimeBaseAction → Prop
  | s, c, [] => s.getFakeTimeBase = c.value
  | s, c, a :: actions => s.getFakeTimeBase = c.value ∧
    ∀ r s', s.step a = some (r, s') → r = c.reads a ∧ Behaves s' (c.step a) actions

/-- A write that finds the other half in its register. -/
def Fresh (s : TimeBase) : TimeBaseAction → Prop
  | .mttb half _ => s.spr half.other = half.other.of s.getFakeTimeBase
  | _ => True

/-- All writes of a run do. -/
def WritesFresh : TimeBase → List TimeBaseAction → Prop
  | _, [] => True
  | s, a :: actions => Fresh s a ∧ ∀ r s', s.step a = some (r, s') → WritesFresh s' actions

/-- The counter that a time base stands for. -/
def TimeBase.counter (s : TimeBase) : Counter :=
  ⟨s.fakeTBStartValue, (s.ticks - s.fakeTBStartTicks).toNat⟩

/-! ## halves -/

theorem of_TL_join (tu tl : BitVec 32) : Half.TL.of (join tu tl) = tl := by
  unfold Half.of join
  exact BitVec.setWidth_append_eq_right

theorem of_TU_join (tu tl : BitVec 32) : Half.TU.of (join tu tl) = tu := by
  unfold Half.of join
  ext i hi
  have hbit : (tu ++ tl).getLsbD (32 + i) = tu[i] := by
    rw [BitVec.getLsbD_append, if_neg (by omega), Nat.add_sub_cancel_left,
      BitVec.getLsbD_eq_getElem hi]
  simpa using hbit

theorem join_inj {tu tl tu' tl' : BitVec 32} : join tu tl = join tu' tl' ↔ tu = tu' ∧ tl = tl' := by
  constructor
  · intro h
    exact ⟨by rw [← of_TU_join tu tl, h, of_TU_join], by rw [← of_TL_join tu tl, h, of_TL_join]⟩
  · rintro ⟨rfl, rfl⟩
    rfl

/-! ## the time base -/

theorem getFakeTimeBase_eq (s : TimeBase) : s.getFakeTimeBase = s.counter.value := by
  have hdiv : (s.ticks - s.fakeTBStartTicks) / BitVec.ofNat 64 timerRatio =
      BitVec.ofNat 64 ((s.ticks - s.fakeTBStartTicks).toNat / timerRatio) := by
    have hlt := Nat.lt_of_le_of_lt (Nat.div_le_self _ timerRatio)
      (s.ticks - s.fakeTBStartTicks).isLt
    exact BitVec.eq_of_toNat_eq ((BitVec.toNat_udiv ..).trans (Nat.mod_eq_of_lt hlt).symm)
  exact congrArg (s.fakeTBStartValue + ·) hdiv

theorem counter_timeBaseSet (s : TimeBase) : s.timeBaseSet.counter = ⟨join s.TU s.TL, 0⟩ := by
  simp [TimeBase.timeBaseSet, TimeBase.counter]

theorem value_start (start : BitVec 64) : Counter.value ⟨start, 0⟩ = start := by
  simp [Counter.value]

theorem counter_mftb (s : TimeBase) (half : Half) : (s.mftb half).2.counter = s.counter := rfl

theorem mftb_eq (s : TimeBase) (half : Half) : (s.mftb half).1 = half.of s.getFakeTimeBase := by
  cases half <;> rfl

theorem counter_elapse {s s' : TimeBase} {cycles : Nat} {r : Option (BitVec 32)}
    (h : s.step (.elapse cycles) = some (r, s')) :
    s'.counter = s.counter.step (.elapse cycles) ∧ r = none := by
  unfold TimeBase.step at h
  dsimp only at h
  split at h
  · next hlt =>
    obtain ⟨rfl, rfl⟩ := Prod.mk.inj (Option.some.inj h)
    have hle := s.started
    have hnow : (BitVec.ofNat 64 (s.ticks.toNat + cycles)).toNat = s.ticks.toNat + cycles := by
      rw [BitVec.toNat_ofNat, Nat.mod_eq_of_lt (by omega)]
    have hsub : (BitVec.ofNat 64 (s.ticks.toNat + cycles) - s.fakeTBStartTicks).toNat =
        (s.ticks - s.fakeTBStartTicks).toNat + cycles := by
      rw [BitVec.toNat_sub_of_le (BitVec.le_def.mpr hle),
        BitVec.toNat_sub_of_le (BitVec.le_def.mpr (by omega)), hnow]
      omega
    exact ⟨congrArg (Counter.mk s.fakeTBStartValue) hsub, rfl⟩
  · cases h

theorem counter_mttb_iff (s : TimeBase) (half : Half) (value : BitVec 32) :
    (s.mttb value half).counter.value = (s.counter.step (.mttb half value)).value ↔
      Fresh s (.mttb half value) := by
  cases half with
  | TL =>
    rw [TimeBase.mttb, counter_timeBaseSet, Counter.step, value_start, value_start, join_inj,
      and_iff_left rfl, ← getFakeTimeBase_eq]
    rfl
  | TU =>
    rw [TimeBase.mttb, counter_timeBaseSet, Counter.step, value_start, value_start, join_inj,
      and_iff_right rfl, ← getFakeTimeBase_eq]
    rfl

theorem counter_mttb {s : TimeBase} {half : Half} {value : BitVec 32}
    (h : Fresh s (.mttb half value)) :
    (s.mttb value half).counter = s.counter.step (.mttb half value) := by
  have hvalue := (counter_mttb_iff s half value).mpr h
  cases half with
  | TL =>
    rw [TimeBase.mttb, counter_timeBaseSet] at hvalue ⊢
    rw [Counter.step, value_start, value_start] at hvalue
    exact congrArg (Counter.mk · 0) hvalue
  | TU =>
    rw [TimeBase.mttb, counter_timeBaseSet] at hvalue ⊢
    rw [Counter.step, value_start, value_start] at hvalue
    exact congrArg (Counter.mk · 0) hvalue

theorem counter_step {s s' : TimeBase} {a : TimeBaseAction} {r : Option (BitVec 32)}
    (hfresh : Fresh s a) (h : s.step a = some (r, s')) :
    s'.counter = s.counter.step a ∧ r = s.counter.reads a := by
  cases a with
  | elapse cycles => exact counter_elapse h
  | mftb half =>
    obtain ⟨rfl, rfl⟩ := Prod.mk.inj (Option.some.inj h)
    refine ⟨counter_mftb s half, ?_⟩
    rw [mftb_eq, getFakeTimeBase_eq]
    rfl
  | mttb half value =>
    obtain ⟨rfl, rfl⟩ := Prod.mk.inj (Option.some.inj h)
    exact ⟨counter_mttb hfresh, rfl⟩

theorem Behaves.value {s : TimeBase} {c : Counter} {actions : List TimeBaseAction}
    (h : Behaves s c actions) : s.getFakeTimeBase = c.value := by
  cases actions with
  | nil => exact h
  | cons => exact h.1

/-- **A run is one of the counter** exactly if every write of one half finds the other one in its
register as it is. -/
theorem behaves_iff (s : TimeBase) (actions : List TimeBaseAction) :
    Behaves s s.counter actions ↔ WritesFresh s actions := by
  induction actions generalizing s with
  | nil => exact iff_of_true (getFakeTimeBase_eq s) trivial
  | cons a actions ih =>
    constructor
    · intro ⟨_, hnext⟩
      have hfresh : Fresh s a := by
        cases a with
        | elapse | mftb => trivial
        | mttb half value =>
          have := (hnext _ _ rfl).2.value
          rw [getFakeTimeBase_eq] at this
          exact (counter_mttb_iff s half value).mp this
      refine ⟨hfresh, fun r s' hstep => (ih s').mp ?_⟩
      rw [(counter_step hfresh hstep).1]
      exact (hnext r s' hstep).2
    · intro ⟨hfresh, hnext⟩
      refine ⟨getFakeTimeBase_eq s, fun r s' hstep => ?_⟩
      obtain ⟨hcounter, hreads⟩ := counter_step hfresh hstep
      refine ⟨hreads, ?_⟩
      rw [← hcounter]
      exact (ih s').mpr (hnext r s' hstep)

/-- The time base when nothing has happened. -/
def TimeBase.zero : TimeBase := ⟨0, 0, 0, 0, 0, Nat.le_refl _⟩

/-- A write of the high word sets the low word back by the cycles since it was read. -/
theorem not_behaves_mttbu : ¬ Behaves .zero TimeBase.zero.counter
    [.elapse timerRatio, .mttb .TU 1, .mftb .TL] := by
  rw [behaves_iff]
  intro ⟨_, hnext⟩
  have hfresh : TimeBase.zero.TL = Half.TL.of (BitVec.ofNat 64 12 / BitVec.ofNat 64 timerRatio) :=
    (hnext _ _ rfl).1
  exact absurd hfresh (by decide)

end DolphinCore.SystemTimers
