import DolphinCore.DSP.LoopStacks

/-!
# DolphinCore.DSP.LoopExecution

Loops and calls as a stack of frames. A frame of a loop counts the iterations
of its body that were completed; when control reaches the address after the
last instruction of the innermost loop, the body starts again until it was
executed as often as the counter said, and then the frame is left.

The hardware stacks and `HandleLoop` do the same as long as a run is
structured: it returns from calls only, it does not move to or from the stack
registers, and only the innermost frame reaches the end of its body.
-/

namespace DolphinCore.DSP

variable {σ : Type} (io : Ifx σ)

/-! ## frames -/

/-- A call with its return address, or a loop with its body, the counter it
started with and the iterations completed. -/
inductive Frame where
  | call (ret : BitVec 16)
  | loop (start last : BitVec 16) (total done : Nat)

namespace Frame

/-- Where execution goes on after the frame, or at the next iteration. -/
def resume : Frame → BitVec 16
  | call ret => ret
  | loop start _ _ _ => start

/-- The end of the body of a loop. -/
def last? : Frame → Option (BitVec 16)
  | call _ => none
  | loop _ last _ _ => some last

/-- The iterations a loop has to go. -/
def left? : Frame → Option (BitVec 16)
  | call _ => none
  | loop _ _ total done => some (BitVec.ofNat 16 (total - done))

end Frame

/-- Program counter, frames, and for each loop that was left its counter and the
iterations of its body. -/
structure Control where
  pc : BitVec 16
  frames : List Frame
  exits : List (Nat × Nat)

namespace Control

/-- An exception is a call. -/
def interrupt (c : Control) (vector : BitVec 16) : Control :=
  { c with pc := vector, frames := .call c.pc :: c.frames }

/-- The effect of an instruction; where it does not determine the program counter, that is
the one given. -/
def enter (imem : BitVec 16 → BitVec 16) (c : Control) (e : ControlEffect) (pc : BitVec 16) :
    Control :=
  match e, c.frames with
  | .none, _ => { c with pc := pc }
  | .call ret, fs => { c with pc := pc, frames := .call ret :: fs }
  | .ret, .call ret :: fs => { c with pc := ret, frames := fs }
  | .ret, _ => { c with pc := pc }
  | .loop start last cnt, fs => { c with pc := start, frames := .loop start last cnt.toNat 0 :: fs }
  -- a loop with counter zero is passed over
  | .skip last, _ =>
    { c with pc := last + BitVec.ofNat 16 (getOpTemplate (imem last)).size }

/-- At the end of the body of the innermost frame: the next iteration, or the exit. -/
def endBody (c : Control) : Control :=
  match c.frames with
  | .loop start last total done :: fs =>
    if c.pc = last + 1 then
      if done + 1 < total then { c with pc := start, frames := .loop start last total (done + 1) :: fs }
      else { c with frames := fs, exits := c.exits ++ [(total, done + 1)] }
    else c
  | _ => c

end Control

/-! ## the hardware stacks mirror the frames -/

/-- The stacks hold the frames. -/
structure Mirrors (s : SDSP σ) (fs : List Frame) : Prop where
  call : (s.stack Call).Holds 0 (fs.map Frame.resume)
  last : (s.stack LoopAddress).Holds 0 (fs.filterMap Frame.last?)
  left : (s.stack LoopCounter).Holds 0 (fs.filterMap Frame.left?)

/-- A loop that is under way and whose end the hardware sees. -/
structure LoopOk (imem : BitVec 16 → BitVec 16) (last : BitVec 16) (total done : Nat) : Prop where
  more : done < total
  bound : total < 2 ^ 16
  ne_zero : last ≠ 0
  ne_max : last ≠ 0xffff
  marked : (analyze imem last).loopEnd = true

def Frame.Ok (imem : BitVec 16 → BitVec 16) : Frame → Prop
  | .call _ => True
  | .loop _ last total done => LoopOk imem last total done

namespace Mirrors

variable {s t : SDSP σ} {fs : List Frame}

theorem congr (h : Mirrors s fs) (hst : SameControl s t) : Mirrors t fs where
  call := by
    rw [hst Call (by decide)]
    exact h.call
  last := by
    rw [hst LoopAddress (by decide)]
    exact h.last
  left := by
    rw [hst LoopCounter (by decide)]
    exact h.left

theorem length_last_le (fs : List Frame) : (fs.filterMap Frame.last?).length ≤ fs.length :=
  List.length_filterMap_le _ _

theorem length_left_le (fs : List Frame) : (fs.filterMap Frame.left?).length ≤ fs.length :=
  List.length_filterMap_le _ _

theorem pushCall (h : Mirrors s fs) (hroom : fs.length < 32) (ret : BitVec 16) :
    Mirrors (s.regStoreStack Call ret) (.call ret :: fs) where
  call := by
    exact h.call.push (by rw [List.length_map]; exact hroom) ret
  last := by
    exact h.last
  left := by
    exact h.left

theorem popCall {ret : BitVec 16} (h : Mirrors s (.call ret :: fs)) :
    Mirrors (s.regStackPop Call) fs where
  call := by
    exact h.call.pop
  last := by
    exact h.last
  left := by
    exact h.left

theorem pushLoop (h : Mirrors s fs) (hroom : fs.length < 32) (start last cnt : BitVec 16) :
    Mirrors ((ControlEffect.loop start last cnt).onStacks s)
      (.loop start last cnt.toNat 0 :: fs) where
  call := by
    show SDSP.stack (SDSP.regStoreStack _ LoopCounter cnt) Call |>.Holds 0 _
    rw [SDSP.stack_regStoreStack_of_ne _ (by decide), SDSP.stack_regStoreStack_of_ne _ (by decide),
      SDSP.stack_regStoreStack]
    exact h.call.push (by rw [List.length_map]; exact hroom) start
  last := by
    show SDSP.stack (SDSP.regStoreStack _ LoopCounter cnt) LoopAddress |>.Holds 0 _
    rw [SDSP.stack_regStoreStack_of_ne _ (by decide), SDSP.stack_regStoreStack,
      SDSP.stack_regStoreStack_of_ne _ (by decide)]
    exact h.last.push (Nat.lt_of_le_of_lt (length_last_le fs) hroom) last
  left := by
    show SDSP.stack (SDSP.regStoreStack _ LoopCounter cnt) LoopCounter |>.Holds 0 _
    rw [SDSP.stack_regStoreStack, SDSP.stack_regStoreStack_of_ne _ (by decide),
      SDSP.stack_regStoreStack_of_ne _ (by decide)]
    have hcnt : Frame.left? (.loop start last cnt.toNat 0) = some cnt := by
      simp [Frame.left?]
    rw [List.filterMap_cons_some hcnt]
    exact h.left.push (Nat.lt_of_le_of_lt (length_left_le fs) hroom) cnt

theorem popLoop {start last : BitVec 16} {total done : Nat}
    (h : Mirrors s (.loop start last total done :: fs)) :
    Mirrors (((s.regStackPop Call).regStackPop LoopAddress).regStackPop LoopCounter) fs where
  call := by
    rw [SDSP.stack_regStackPop_of_ne _ (by decide), SDSP.stack_regStackPop_of_ne _ (by decide),
      SDSP.stack_regStackPop]
    exact h.call.pop
  last := by
    rw [SDSP.stack_regStackPop_of_ne _ (by decide), SDSP.stack_regStackPop,
      SDSP.stack_regStackPop_of_ne _ (by decide)]
    exact h.last.pop
  left := by
    rw [SDSP.stack_regStackPop, SDSP.stack_regStackPop_of_ne _ (by decide),
      SDSP.stack_regStackPop_of_ne _ (by decide)]
    exact h.left.pop

end Mirrors

/-! ## the end of a body -/

/-- The core with another counter on top. -/
def SDSP.setCounter (s : SDSP σ) (val : BitVec 16) : SDSP σ :=
  { s with r := { s.r with st := Function.update s.r.st LoopCounter val } }

theorem stack_setCounter (s : SDSP σ) (val : BitVec 16) :
    (s.setCounter val).stack LoopCounter = (s.stack LoopCounter).setTop val := by
  unfold SDSP.stack SDSP.setCounter CircularStack.setTop
  simp only [Function.update_self]

theorem stack_setCounter_of_ne (s : SDSP σ) {i : Fin 4} (h : i ≠ LoopCounter) (val : BitVec 16) :
    (s.setCounter val).stack i = s.stack i := by
  unfold SDSP.stack SDSP.setCounter
  simp only [Function.update_of_ne h]

variable {s : SDSP σ}

theorem Mirrors.setCounter {start last : BitVec 16} {total done : Nat} {fs : List Frame}
    (h : Mirrors s (.loop start last total done :: fs)) (done' : Nat) :
    Mirrors (s.setCounter (BitVec.ofNat 16 (total - done')))
      (.loop start last total done' :: fs) where
  call := by
    exact h.call
  last := by
    exact h.last
  left := by
    exact h.left.setTop _

theorem handleLoop_eq (s : SDSP σ) : Interpreter.handleLoop s =
    if s.r.st LoopAddress > 0 ∧ s.r.st LoopCounter > 0 then
      if s.pc ≠ 0 ∧ s.pc - 1 = s.r.st LoopAddress then
        if (s.setCounter (s.r.st LoopCounter - 1)).r.st LoopCounter > 0 then
          { s.setCounter (s.r.st LoopCounter - 1) with pc := s.r.st Call }
        else (((s.setCounter (s.r.st LoopCounter - 1)).regStackPop Call).regStackPop
          LoopAddress).regStackPop LoopCounter
      else s
    else s := rfl

section

variable {imem : BitVec 16 → BitVec 16} {start last : BitVec 16} {total done : Nat}
  {fs : List Frame}

theorem Mirrors.loopRegs (h : Mirrors s (.loop start last total done :: fs)) :
    s.r.st Call = start ∧ s.r.st LoopAddress = last ∧
      s.r.st LoopCounter = BitVec.ofNat 16 (total - done) :=
  ⟨h.call.top, h.last.top, h.left.top⟩

theorem ofNat_pos {n : Nat} (h0 : 0 < n) (h : n < 2 ^ 16) : (0 : BitVec 16) < BitVec.ofNat 16 n := by
  rw [BitVec.lt_def, BitVec.toNat_ofNat, Nat.mod_eq_of_lt h]
  exact h0

theorem handleLoop_atEnd (h : Mirrors s (.loop start last total done :: fs))
    (hok : LoopOk imem last total done) (hpc : s.pc = last + 1) :
    Interpreter.handleLoop s =
      if done + 1 < total then
        { s.setCounter (BitVec.ofNat 16 (total - (done + 1))) with pc := start }
      else (((s.setCounter (BitVec.ofNat 16 (total - (done + 1)))).regStackPop Call).regStackPop
        LoopAddress).regStackPop LoopCounter := by
  obtain ⟨hcall, hlast, hleft⟩ := h.loopRegs
  have hmore := hok.more
  have hbound := hok.bound
  have hpos : s.r.st LoopAddress > 0 ∧ s.r.st LoopCounter > 0 := by
    rw [hlast, hleft]
    refine ⟨BitVec.lt_def.mpr (Nat.pos_of_ne_zero fun h0 => hok.ne_zero ?_),
      ofNat_pos (by omega) (by omega)⟩
    exact BitVec.eq_of_toNat_eq h0
  have hend : s.pc ≠ 0 ∧ s.pc - 1 = s.r.st LoopAddress := by
    rw [hlast, hpc]
    refine ⟨fun h0 => hok.ne_max ?_, BitVec.add_sub_cancel _ _⟩
    have h1 := congrArg (· - 1) h0
    simpa using h1
  have hsub : BitVec.ofNat 16 (total - done) - 1 = BitVec.ofNat 16 (total - (done + 1)) := by
    apply BitVec.eq_of_toNat_eq
    rw [BitVec.toNat_sub, show (1 : BitVec 16).toNat = 1 from rfl]
    simp only [BitVec.toNat_ofNat]
    omega
  have heq := handleLoop_eq s
  rw [if_pos hpos, if_pos hend, hleft, hsub, hcall] at heq
  have htop : (s.setCounter (BitVec.ofNat 16 (total - (done + 1)))).r.st LoopCounter =
      BitVec.ofNat 16 (total - (done + 1)) :=
    congrArg CircularStack.top (stack_setCounter s _)
  rw [heq, htop]
  by_cases hlt : done + 1 < total
  · rw [if_pos hlt, if_pos (ofNat_pos (by omega) (by omega))]
  · have hzero : total - (done + 1) = 0 := by omega
    rw [if_neg hlt, hzero, if_neg (by decide)]

theorem handleLoop_elsewhere (hlast : s.r.st LoopAddress = last) (hpc : s.pc ≠ last + 1) :
    Interpreter.handleLoop s = s := by
  have hend : ¬ (s.pc ≠ 0 ∧ s.pc - 1 = s.r.st LoopAddress) := by
    rintro ⟨-, h⟩
    refine hpc ?_
    rw [← hlast, ← h, BitVec.sub_add_cancel]
  unfold Interpreter.handleLoop
  simp only [if_neg hend, ite_self]

end

/-- **The loop hardware**: with the stacks mirroring the frames, `HandleLoop` at the marked
addresses ends the body of the innermost frame. -/
theorem handleLoopAtEnd_endBody {imem : BitVec 16 → BitVec 16} {c : Control}
    (h : Mirrors s c.frames) (hpc : s.pc = c.pc) (himem : s.mem.imemRead = imem)
    (hok : ∀ f ∈ c.frames, f.Ok imem)
    (hends : ∀ last rest, c.frames.filterMap Frame.last? = last :: rest → c.pc = last + 1 →
      ∃ start total done fs, c.frames = .loop start last total done :: fs) :
    s.handleLoopAtEnd.pc = c.endBody.pc ∧ Mirrors s.handleLoopAtEnd c.endBody.frames := by
  have hlast := h.last
  cases hl : c.frames.filterMap Frame.last? with
  | nil =>
    -- no loop is under way
    rw [hl] at hlast
    rw [SDSP.handleLoopAtEnd_eq_self hlast]
    have hc : c.endBody = c := by
      unfold Control.endBody
      split
      · next hf =>
        rw [hf] at hl
        cases hl
      · rfl
    rw [hc]
    exact ⟨hpc, h⟩
  | cons last rest =>
    rw [hl] at hlast
    by_cases hend : c.pc = last + 1
    · obtain ⟨start, total, done, fs, hf⟩ := hends last rest hl hend
      have hloop : LoopOk imem last total done := by
        refine hok (.loop start last total done) ?_
        rw [hf]
        exact List.mem_cons_self
      rw [hf] at h
      have hflag : (s.codeFlags (s.pc - 1)).loopEnd = true := by
        unfold SDSP.codeFlags
        rw [himem, hpc, hend, BitVec.add_sub_cancel]
        exact hloop.marked
      unfold SDSP.handleLoopAtEnd Control.endBody
      rw [if_pos hflag, hf, handleLoop_atEnd h hloop (hpc.trans hend)]
      simp only [if_pos hend]
      split
      · exact ⟨rfl, (h.setCounter (done + 1)).congr (.of_regs rfl rfl rfl)⟩
      · exact ⟨hpc, (h.setCounter (done + 1)).popLoop⟩
    · have hself : s.handleLoopAtEnd = s := by
        unfold SDSP.handleLoopAtEnd
        rw [handleLoop_elsewhere hlast.top (by rw [hpc]; exact hend), ite_self]
      have hc : c.endBody = c := by
        unfold Control.endBody
        split
        · next hf =>
          rw [hf] at hl
          cases hl
          exact if_neg hend
        · rfl
      rw [hself, hc]
      exact ⟨hpc, h⟩

/-! ## instructions -/

/-- Effects that put a frame on the stack. -/
def ControlEffect.pushes : ControlEffect → Bool
  | .call _ => true
  | .loop .. => true
  | _ => false

theorem loopEffect_cnt {a l c start last cnt : BitVec 16}
    (h : loopEffect a l c = .loop start last cnt) : cnt ≠ 0 := by
  unfold loopEffect at h
  split at h
  · cases h
  · next hc =>
    cases h
    exact hc

theorem effect_cnt {inst start last cnt : BitVec 16} (h : s.effect inst = .loop start last cnt) :
    cnt ≠ 0 := by
  unfold SDSP.effect at h
  generalize (getOpTemplate inst).intFunc = f at h
  cases f with
  | branch f =>
    cases f with
    | loop | loopi | bloop | bloopi => exact loopEffect_cnt h
    | call | callr | ret =>
      simp only [IntFunc.effect, BranchFunc.effect] at h
      split at h <;> cases h
    | ifcc | jcc | jmprcc | rti | halt => cases h
  | _ => cases h

section

variable {imem : BitVec 16 → BitVec 16} {c : Control} {e : ControlEffect} {pc : BitVec 16}

theorem Mirrors.enter (h : Mirrors s c.frames) (hroom : e.pushes → c.frames.length < 32)
    (hret : e = .ret → ∃ ret fs, c.frames = .call ret :: fs) :
    Mirrors (e.onStacks s) (c.enter imem e pc).frames := by
  cases e with
  | none | skip last => exact h
  | call ret => exact h.pushCall (hroom rfl) ret
  | ret =>
    obtain ⟨ret, fs, hf⟩ := hret rfl
    rw [hf] at h
    unfold Control.enter
    rw [hf]
    exact h.popCall
  | loop start last cnt => exact h.pushLoop (hroom rfl) start last cnt

theorem enter_pc (h : Mirrors s c.frames) (himem : s.mem.imemRead = imem)
    (hret : e = .ret → ∃ ret fs, c.frames = .call ret :: fs)
    (hpc : ∀ t, e.target s = some t → pc = t) : (c.enter imem e pc).pc = pc := by
  cases e with
  | none | call ret => rfl
  | skip last =>
    rw [hpc _ rfl, himem]
    rfl
  | ret =>
    obtain ⟨ret, fs, hf⟩ := hret rfl
    rw [hf] at h
    have htop : s.r.st Call = ret := h.call.top
    unfold Control.enter
    rw [hf]
    exact ((hpc _ rfl).trans htop).symm
  | loop start last cnt => exact (hpc _ rfl).symm

theorem enter_ok (hok : ∀ f ∈ c.frames, f.Ok imem)
    (hloop : ∀ start last cnt, e = .loop start last cnt → LoopOk imem last cnt.toNat 0) :
    ∀ f ∈ (c.enter imem e pc).frames, f.Ok imem := by
  intro f hf
  cases e with
  | none | skip last => exact hok f hf
  | call ret =>
    rcases List.mem_cons.mp hf with rfl | hf
    · trivial
    · exact hok f hf
  | ret =>
    obtain ⟨cpc, frames, exits⟩ := c
    cases frames with
    | nil => exact hok f hf
    | cons g gs =>
      cases g with
      | call ret => exact hok f (List.mem_cons_of_mem _ hf)
      | loop => exact hok f hf
  | loop start last cnt =>
    rcases List.mem_cons.mp hf with rfl | hf
    · exact hloop start last cnt rfl
    · exact hok f hf

theorem endBody_ok (hok : ∀ f ∈ c.frames, f.Ok imem) : ∀ f ∈ c.endBody.frames, f.Ok imem := by
  obtain ⟨cpc, frames, exits⟩ := c
  intro f hf
  cases frames with
  | nil => exact hok f hf
  | cons g gs =>
    cases g with
    | call ret => exact hok f hf
    | loop start last total done =>
      have hg : LoopOk imem last total done := hok _ List.mem_cons_self
      unfold Control.endBody at hf
      simp only at hf
      split at hf
      · split at hf
        · next hmore =>
          rcases List.mem_cons.mp hf with rfl | hf
          · exact { hg with more := hmore }
          · exact hok f (List.mem_cons_of_mem _ hf)
        · exact hok f (List.mem_cons_of_mem _ hf)
      · exact hok f hf

theorem endBody_exits (hok : ∀ f ∈ c.frames, f.Ok imem) (hexits : ∀ x ∈ c.exits, x.2 = x.1) :
    ∀ x ∈ c.endBody.exits, x.2 = x.1 := by
  obtain ⟨cpc, frames, exits⟩ := c
  intro x hx
  cases frames with
  | nil => exact hexits x hx
  | cons g gs =>
    cases g with
    | call ret => exact hexits x hx
    | loop start last total done =>
      have hg : LoopOk imem last total done := hok _ List.mem_cons_self
      unfold Control.endBody at hx
      simp only at hx
      split at hx
      · split at hx
        · exact hexits x hx
        · next hmore =>
          rcases List.mem_append.mp hx with hx | hx
          · exact hexits x hx
          · rw [List.mem_singleton.mp hx]
            have := hg.more
            omega
      · exact hexits x hx

theorem enter_exits (imem : BitVec 16 → BitVec 16) (c : Control) (e : ControlEffect)
    (pc : BitVec 16) : (c.enter imem e pc).exits = c.exits := by
  obtain ⟨cpc, frames, exits⟩ := c
  cases e with
  | ret =>
    cases frames with
    | nil => rfl
    | cons g gs => cases g <;> rfl
  | _ => rfl

end

/-! ## runs -/

/-- The core, and the control it is to have. -/
structure Controlled (σ : Type) where
  core : SDSP σ
  control : Control

namespace Controlled

def init (mem : Mem σ) : Controlled σ := ⟨SDSP.init mem, ⟨0x8000, [], []⟩⟩

variable (b : Controlled σ)

/-- The control after an exception that is taken first. -/
def interrupted : Control :=
  if b.core.pendingException.isSome then b.control.interrupt b.core.checkExceptions.pc
  else b.control

/-- The core at the instruction, past its opcode. -/
def atInst : SDSP σ := b.core.checkExceptions.fetchCode.2

def inst : BitVec 16 := b.core.checkExceptions.peekCode

/-- The control after the instruction, before the end of a body is looked at. -/
def entered : Control :=
  b.interrupted.enter b.core.mem.imemRead (b.atInst.effect b.inst)
    (executeInstruction io true b.inst b.atInst).pc

def step : Controlled σ := ⟨b.core.step io, (b.entered io).endBody⟩

def event : CoreEvent σ → Option (Controlled σ)
  | .step => some (b.step io)
  | .reset => some ⟨b.core.reset, { b.control with pc := 0x8000 }⟩
  | a => (b.core.event io a).map fun core => { b with core := core }

/-- A structured step of a program. -/
structure StepOk (imem : BitVec 16 → BitVec 16) : Prop where
  /-- The instruction starts at an address the analysis marked. -/
  marked : (analyze imem b.core.checkExceptions.pc).startOfInst = true
  /-- The program stays in place. -/
  image : (executeInstruction io true b.inst b.atInst).mem.imemRead = imem
  /-- No move from or to the stack registers of calls and loops. -/
  spares : (getOpTemplate b.inst).intFunc.SparesStacks b.inst
  /-- Frames nest up to the depth of the stacks. -/
  interruptRoom : b.core.pendingException.isSome → b.control.frames.length < 32
  room : (b.atInst.effect b.inst).pushes → b.interrupted.frames.length < 32
  /-- A return is from a call. -/
  returns : b.atInst.effect b.inst = .ret → ∃ ret fs, b.interrupted.frames = .call ret :: fs
  /-- The body of a loop ends neither at address 0 nor at the last one. -/
  body : ∀ start last cnt, b.atInst.effect b.inst = .loop start last cnt → last ≠ 0 ∧ last ≠ 0xffff
  /-- Only the innermost frame reaches the end of the innermost loop. -/
  ends : ∀ last rest, (b.entered io).frames.filterMap Frame.last? = last :: rest →
    (b.entered io).pc = last + 1 →
      ∃ start total done fs, (b.entered io).frames = .loop start last total done :: fs

def EventOk (imem : BitVec 16 → BitVec 16) (b : Controlled σ) : CoreEvent σ → Prop
  | .step => b.StepOk io imem
  | .device mem => mem.imemRead = imem
  | _ => True

/-- The hardware does what the frames say. -/
structure Tracks (imem : BitVec 16 → BitVec 16) : Prop where
  pc : b.core.pc = b.control.pc
  mirrors : Mirrors b.core b.control.frames
  ok : ∀ f ∈ b.control.frames, f.Ok imem
  exits : ∀ x ∈ b.control.exits, x.2 = x.1
  image : b.core.mem.imemRead = imem
  log : b.core.LogEmpty

variable {b} {io} {imem : BitVec 16 → BitVec 16}

theorem checkExceptions_mem (s : SDSP σ) : s.checkExceptions.mem.imemRead = s.mem.imemRead := by
  unfold SDSP.checkExceptions
  split <;> rfl

theorem Tracks.interrupted (h : b.Tracks imem)
    (hroom : b.core.pendingException.isSome → b.control.frames.length < 32) :
    b.core.checkExceptions.pc = b.interrupted.pc ∧
      Mirrors b.core.checkExceptions b.interrupted.frames ∧
      (∀ f ∈ b.interrupted.frames, f.Ok imem) ∧ b.interrupted.exits = b.control.exits := by
  unfold Controlled.interrupted
  cases hp : b.core.pendingException with
  | none =>
    have hs : b.core.checkExceptions = b.core := by
      unfold SDSP.checkExceptions
      rw [hp]
    rw [hs]
    exact ⟨h.pc, h.mirrors, h.ok, rfl⟩
  | some i =>
    rw [hp] at hroom
    refine ⟨rfl, ?_, ?_, rfl⟩
    · have hpush := h.mirrors.pushCall (hroom rfl) b.core.pc
      show Mirrors _ (.call b.control.pc :: b.control.frames)
      rw [← h.pc]
      refine hpush.congr ?_
      have hdata : SameControl (b.core.regStoreStack Call b.core.pc)
          ((b.core.regStoreStack Call b.core.pc).regStoreStack Data b.core.r.sr) :=
        fun i hi => SDSP.stack_regStoreStack_of_ne _ hi _
      refine hdata.trans ?_
      unfold SDSP.checkExceptions
      rw [hp]
      exact .of_regs rfl rfl rfl
    · intro f hf
      rcases List.mem_cons.mp hf with rfl | hf
      · trivial
      · exact h.ok f hf

theorem Tracks.step (h : b.Tracks imem) (hok : b.StepOk io imem) : (b.step io).Tracks imem := by
  obtain ⟨hpc, hmirrors, hframes, hexits⟩ := h.interrupted hok.interruptRoom
  have hlog : b.atInst.LogEmpty := fun i =>
    (congrFun b.core.checkExceptions_idx i).trans (h.log i)
  have himem : b.atInst.mem.imemRead = imem := (checkExceptions_mem b.core).trans h.image
  have hat : Mirrors b.atInst b.interrupted.frames := hmirrors.congr (.of_regs rfl rfl rfl)
  have hexec : Mirrors (executeInstruction io true b.inst b.atInst) (b.entered io).frames :=
    (hat.enter hok.room hok.returns).congr (executeInstruction_control io hlog hok.spares)
  have hpc' : (executeInstruction io true b.inst b.atInst).pc = (b.entered io).pc := by
    unfold entered
    rw [h.image]
    exact (enter_pc hat himem hok.returns fun t ht => executeInstruction_pc io ht).symm
  have hframes' : ∀ f ∈ (b.entered io).frames, f.Ok imem := by
    unfold entered
    rw [h.image]
    refine enter_ok hframes fun start last cnt he => ?_
    obtain ⟨h0, hmax⟩ := hok.body start last cnt he
    refine ⟨?_, cnt.isLt, h0, hmax, ?_⟩
    · exact Nat.pos_of_ne_zero fun hz => effect_cnt he (BitVec.eq_of_toNat_eq hz)
    · have hloop : loopEndOf b.atInst.mem.imemRead b.core.checkExceptions.pc = some last :=
        loopEndOf_of_effect rfl he
      rw [himem] at hloop
      exact analyze_loopEnd hok.marked hloop
  obtain ⟨hendpc, hend⟩ := handleLoopAtEnd_endBody hexec hpc' hok.image hframes' hok.ends
  refine ⟨hendpc, hend, endBody_ok hframes', ?_, ?_, ?_⟩
  · refine endBody_exits hframes' ?_
    rw [entered, enter_exits, hexits]
    exact h.exits
  · have hmem : (b.core.step io).mem = (executeInstruction io true b.inst b.atInst).mem := by
      show (SDSP.handleLoopAtEnd _).mem = _
      simp only [SDSP.handleLoopAtEnd, Interpreter.handleLoop, apply_ite SDSP.mem, SDSP.regStackPop,
        ite_self]
      rfl
    show (b.core.step io).mem.imemRead = imem
    rw [hmem]
    exact hok.image
  · intro i
    show (SDSP.handleLoopAtEnd _).writeBackLogIdx i = none
    rw [SDSP.handleLoopAtEnd_idx]
    exact executeInstruction_logEmpty io hlog i

theorem Tracks.init {mem : Mem σ} (h : mem.imemRead = imem) : (init mem).Tracks imem where
  pc := rfl
  mirrors := ⟨rfl, rfl, rfl⟩
  ok := nofun
  exits := nofun
  image := h
  log := fun _ => rfl

/-- **Loops**: in every structured run from reset the hardware does what the frames say: it
repeats the body of the innermost loop as often as its counter says, leaves the loop and pops
its stacks once, passes over a loop with counter zero, and returns to the callers. -/
theorem tracks_of_run {mem : Mem σ}
    (h : Run (event io) (EventOk io mem.imemRead) (Controlled.init mem) b) :
    b.Tracks mem.imemRead := by
  refine h.invariant (I := fun b => b.Tracks mem.imemRead) (Tracks.init rfl) ?_
  intro b a c hb hok hc
  cases a with
  | step =>
    cases hc
    exact hb.step hok
  | reset =>
    cases hc
    exact ⟨rfl, hb.mirrors.congr (.of_regs rfl rfl rfl), hb.ok, hb.exits, hb.image, hb.log⟩
  | device mem =>
    cases hc
    exact ⟨hb.pc, hb.mirrors.congr (.of_regs rfl rfl rfl), hb.ok, hb.exits, hok, hb.log⟩
  | control cr =>
    cases hc
    exact ⟨hb.pc, hb.mirrors.congr (.of_regs rfl rfl rfl), hb.ok, hb.exits, hb.image, hb.log⟩
  | externalInterrupt =>
    cases hc
    have hint : b.core.checkExternalInterrupt.pc = b.core.pc ∧
        SameControl b.core b.core.checkExternalInterrupt ∧
        b.core.checkExternalInterrupt.mem.imemRead = b.core.mem.imemRead ∧
        b.core.checkExternalInterrupt.writeBackLogIdx = b.core.writeBackLogIdx := by
      unfold SDSP.checkExternalInterrupt
      split
      · exact ⟨rfl, .of_regs rfl rfl rfl, rfl, rfl⟩
      · exact ⟨rfl, .refl _, rfl, rfl⟩
    obtain ⟨hpc, hctl, himem, hidx⟩ := hint
    exact ⟨hpc.trans hb.pc, hb.mirrors.congr hctl, hb.ok, hb.exits, himem.trans hb.image,
      fun i => (congrFun hidx i).trans (hb.log i)⟩

end Controlled

/-- `BLOOPI #2` from reset is a structured step: a loop of two iterations is under way. -/
theorem tracks_of_run_bloopi : ((Controlled.init (romWith [0x1102, 0x8004])).step noDevice).Tracks
      (romWith [0x1102, 0x8004]).imemRead := by
  have hinst : (Controlled.init (romWith [0x1102, 0x8004])).inst = 0x1102 := by decide
  have hext : (getOpTemplate 0x1102).extended = false := by decide
  have hf : (getOpTemplate 0x1102).intFunc = .branch .bloopi := by decide
  have heff (s : SDSP Unit) : s.effect 0x1102 = loopEffect (s.pc + 1) s.peekCode 2 := by
    unfold SDSP.effect
    rw [hf]
    rfl
  have hloop : loopEffect ((Controlled.init (romWith [0x1102, 0x8004])).atInst.pc + 1)
      (Controlled.init (romWith [0x1102, 0x8004])).atInst.peekCode 2 =
      .loop 0x8002 0x8004 2 := by decide
  refine Controlled.tracks_of_run (Run.single .step ?_ rfl)
  refine ⟨analyze_startOfInst_irom _, ?_, ?_, by decide, fun _ => by decide, ?_, ?_, ?_⟩
  · rw [hinst, executeInstruction_eq hext hf]
    rfl
  · rw [hinst, hf]
    exact nofun
  · rw [hinst, heff, hloop]
    exact nofun
  · rw [hinst, heff, hloop]
    intro start last cnt h
    cases h
    decide
  · unfold Controlled.entered
    rw [hinst, heff, hloop]
    intro last rest hl _
    have hlast : [(0x8004 : BitVec 16)] = last :: rest := hl
    cases hlast
    exact ⟨0x8002, 2, 0, [], rfl⟩

/-! ## loops that end at one address -/

theorem SDSP.step_eq_handleLoop {inst : BitVec 16} {f : IntFunc} (hexc : s.pendingException = none)
    (hinst : s.peekCode = inst) (hext : (getOpTemplate inst).extended = false)
    (hf : (getOpTemplate inst).intFunc = f) :
    s.step io = (f.exec io true inst s.fetchCode.2).handleLoopAtEnd := by
  have hs : s.checkExceptions = s := by
    unfold checkExceptions
    rw [hexc]
  unfold step stepWith
  rw [hs]
  show (executeInstruction io true s.peekCode s.fetchCode.2).handleLoopAtEnd = _
  rw [hinst, executeInstruction_eq hext hf]

theorem SDSP.handleLoopAtEnd_of_ne (h : s.pc ≠ s.r.st LoopAddress + 1) : s.handleLoopAtEnd = s := by
  unfold handleLoopAtEnd
  rw [handleLoop_elsewhere rfl h, ite_self]

/-- Two loops of two iterations with one end: `BLOOPI #2, 0x8004` twice and `NOP`. -/
def sharedEnds : Mem Unit := romWith [0x1102, 0x8004, 0x1102, 0x8004, 0x0000]

theorem sharedEnds_loopEnd : (analyze sharedEnds.imemRead 0x8004).loopEnd = true :=
  analyze_loopEnd (analyze_startOfInst_irom _) (by decide)

theorem sharedEnds_nop {s : SDSP Unit} (himem : s.mem.imemRead = sharedEnds.imemRead)
    (hpc : s.pc = 0x8004) (hexc : s.pendingException = none) :
    s.step noDevice = Interpreter.handleLoop s.fetchCode.2 := by
  have hnext : (getOpTemplate 0x0000).extended = false := by decide
  have hnf : (getOpTemplate 0x0000).intFunc = .nop := by decide
  have hinst : s.peekCode = 0x0000 := by
    unfold SDSP.peekCode
    rw [himem, hpc]
    decide
  have hflag : (s.fetchCode.2.codeFlags (s.fetchCode.2.pc - 1)).loopEnd = true := by
    have hend : s.fetchCode.2.pc - 1 = 0x8004 := by
      show s.pc + 1 - 1 = _
      rw [hpc]
      rfl
    rw [hend]
    exact (congrArg (fun m => (analyze m 0x8004).loopEnd) himem).trans sharedEnds_loopEnd
  rw [SDSP.step_eq_handleLoop noDevice hexc hinst hnext hnf]
  exact if_pos hflag

/-- After the inner loop the core is past the end of the outer loop, whose body was executed
once, and whose counter still asks for two iterations. -/
theorem shared_end_missed :
    ∃ s, Run (SDSP.event noDevice) (fun _ _ => True) (SDSP.init sharedEnds) s ∧ s.pc = 0x8005 ∧
      s.r.st LoopAddress = 0x8004 ∧ s.r.st LoopCounter = 2 := by
  have hext : (getOpTemplate 0x1102).extended = false := by decide
  have hf : (getOpTemplate 0x1102).intFunc = .branch .bloopi := by decide
  have hexec (s : SDSP Unit) :
      (IntFunc.branch .bloopi).exec noDevice true 0x1102 s = Interpreter.bloopi 0x1102 s := rfl
  have h1 : (SDSP.init sharedEnds).step noDevice =
      Interpreter.bloopi 0x1102 (SDSP.init sharedEnds).fetchCode.2 := by
    rw [SDSP.step_eq_handleLoop noDevice rfl (by decide) hext hf, hexec,
      SDSP.handleLoopAtEnd_of_ne (by decide)]
  generalize hs1 : Interpreter.bloopi 0x1102 (SDSP.init sharedEnds).fetchCode.2 = s1 at h1
  have h2 : s1.step noDevice = Interpreter.bloopi 0x1102 s1.fetchCode.2 := by
    subst hs1
    rw [SDSP.step_eq_handleLoop noDevice rfl (by decide) hext hf, hexec,
      SDSP.handleLoopAtEnd_of_ne (by decide)]
  generalize hs2 : Interpreter.bloopi 0x1102 s1.fetchCode.2 = s2 at h2
  -- the inner loop: one more iteration, then the exit
  have h3 : s2.step noDevice = Interpreter.handleLoop s2.fetchCode.2 := by
    subst hs2 hs1
    exact sharedEnds_nop rfl (by decide) rfl
  generalize hs3 : Interpreter.handleLoop s2.fetchCode.2 = s3 at h3
  have h4 : s3.step noDevice = Interpreter.handleLoop s3.fetchCode.2 := by
    subst hs3 hs2 hs1
    exact sharedEnds_nop rfl (by decide) rfl
  have hrun : Run (SDSP.event noDevice) (fun _ _ => True) (SDSP.init sharedEnds)
      ((((SDSP.init sharedEnds).step noDevice).step noDevice).step noDevice |>.step noDevice) :=
    (((Run.single .step trivial rfl).tail .step trivial rfl).tail .step trivial rfl).tail .step
      trivial rfl
  rw [h1, h2, h3, h4] at hrun
  refine ⟨_, hrun, ?_⟩
  subst hs3 hs2 hs1
  decide

end DolphinCore.DSP
