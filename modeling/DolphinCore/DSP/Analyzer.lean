import DolphinCore.DSP.Tables

/-!
# DolphinCore.DSP.Analyzer

The static analysis of the code (`DSPAnalyzer.cpp`): a linear sweep over IRAM
and IROM that marks where instructions start, where loops end and at which
instructions the recompiler has to keep the status register up to date. The
search for idle loops, which only marks more, is left out.

What the sweep over the code leaves in the flags: it only sets them, it marks
the end of every loop it comes across, and it asks for the status register only
before conditional branches.
-/

namespace DolphinCore.DSP

/-! ## flags -/

/-- The flags of an address. -/
structure CodeFlags where
  startOfInst : Bool := false
  loopStart : Bool := false
  loopEnd : Bool := false
  updateSr : Bool := false
  checkInt : Bool := false
  deriving DecidableEq

/-- `code_flags`. -/
abbrev CodeMap := BitVec 16 → CodeFlags

/-- `code_flags[addr] |= ..`. -/
def CodeMap.mark (flags : CodeMap) (addr : BitVec 16) (f : CodeFlags → CodeFlags) : CodeMap :=
  Function.update flags addr (f (flags addr))

/-! ## the sweep -/

def isBlockLoop (inst : BitVec 16) : Bool :=
  inst &&& 0xffe0 = 0x0060 || inst &&& 0xff00 = 0x1100

def isLoop (inst : BitVec 16) : Bool := inst &&& 0xffe0 = 0x0040 || inst &&& 0xff00 = 0x1000

/-- Whether the instruction may raise an exception. -/
def raisesException (t : OpTemplate) : Bool :=
  t.opcode = 0x00c0 || t.opcode = 0x1800 || t.opcode = 0x1880 || t.opcode = 0x1900 ||
    t.opcode = 0x1980 || t.opcode = 0x2000 || t.extended

/-- One instruction of the sweep: the last address that updates the status
register, and the flags. -/
def analyzeInst (imem : BitVec 16 → BitVec 16) (addr lastArithmetic : BitVec 16)
    (flags : CodeMap) : BitVec 16 × CodeMap :=
  let inst := imem addr
  let opcode := getOpTemplate inst
  let flags := flags.mark addr fun c => { c with startOfInst := true }
  -- Look for loops.
  let flags :=
    if isBlockLoop inst then
      (flags.mark addr fun c => { c with loopStart := true }).mark (imem (addr + 1)) fun c =>
        { c with loopEnd := true }
    else if isLoop inst then
      (flags.mark addr fun c => { c with loopStart := true }).mark (addr + 1) fun c =>
        { c with loopEnd := true }
    else flags
  let lastArithmetic := if opcode.updatesSr then addr else lastArithmetic
  let flags :=
    if opcode.branch && !opcode.uncondBranch then
      flags.mark lastArithmetic fun c => { c with updateSr := true }
    else flags
  let flags :=
    if raisesException opcode then
      flags.mark (addr + BitVec.ofNat 16 opcode.size) fun c => { c with checkInt := true }
    else flags
  (lastArithmetic, flags)

/-- The loop of `AnalyzeRange`; every round moves on by a word at least. -/
def analyzeFrom (imem : BitVec 16 → BitVec 16) (endAddr : Nat) :
    Nat → Nat → BitVec 16 → CodeMap → CodeMap
  | 0, _, _, flags => flags
  | fuel + 1, addr, lastArithmetic, flags =>
    if addr < endAddr then
      let (lastArithmetic, flags) :=
        analyzeInst imem (BitVec.ofNat 16 addr) lastArithmetic flags
      analyzeFrom imem endAddr fuel
        (addr + (getOpTemplate (imem (BitVec.ofNat 16 addr))).size) lastArithmetic flags
    else flags

def analyzeRange (imem : BitVec 16 → BitVec 16) (startAddr endAddr : Nat) (flags : CodeMap) :
    CodeMap :=
  analyzeFrom imem endAddr (endAddr - startAddr) startAddr 0 flags

def analyze (imem : BitVec 16 → BitVec 16) : CodeMap :=
  let flags : CodeMap := fun _ => {}
  let flags := analyzeRange imem 0x0000 0x1000 flags  -- IRAM
  analyzeRange imem 0x8000 0x9000 flags  -- IROM

end DolphinCore.DSP

namespace DolphinCore.DSP

/-! ## rule for a sweep -/

theorem analyzeFrom_keeps {imem : BitVec 16 → BitVec 16} {I : BitVec 16 → CodeMap → Prop}
    (hstep : ∀ addr last flags, I last flags → I (analyzeInst imem addr last flags).1
      (analyzeInst imem addr last flags).2)
    (endAddr fuel : Nat) : ∀ (addr : Nat) (last : BitVec 16) (flags : CodeMap), I last flags →
      ∃ last', I last' (analyzeFrom imem endAddr fuel addr last flags) := by
  induction fuel with
  | zero => exact fun _ last _ h => ⟨last, h⟩
  | succ fuel ih =>
    intro addr last flags h
    unfold analyzeFrom
    split
    · exact ih _ _ _ (hstep _ _ _ h)
    · exact ⟨last, h⟩

theorem analyze_keeps {imem : BitVec 16 → BitVec 16} {I : CodeMap → Prop}
    (h0 : I fun _ => {}) (hstep : ∀ addr last flags, I flags →
      I (analyzeInst imem addr last flags).2) : I (analyze imem) := by
  obtain ⟨_, hiram⟩ := analyzeFrom_keeps (I := fun _ flags => I flags)
    (fun addr last flags h => hstep addr last flags h) 0x1000 (0x1000 - 0x0000) 0x0000 0 _ h0
  obtain ⟨_, hirom⟩ := analyzeFrom_keeps (I := fun _ flags => I flags)
    (fun addr last flags h => hstep addr last flags h) 0x9000 (0x9000 - 0x8000) 0x8000 0 _ hiram
  exact hirom

/-! ## marks -/

namespace CodeMap

@[simp] theorem mark_self (flags : CodeMap) (addr : BitVec 16) (f : CodeFlags → CodeFlags) :
    flags.mark addr f addr = f (flags addr) := Function.update_self ..

theorem mark_of_ne (flags : CodeMap) {addr a : BitVec 16} (f : CodeFlags → CodeFlags)
    (h : a ≠ addr) : flags.mark addr f a = flags a := Function.update_of_ne h _ _

theorem mark_field {β : Type} (flags : CodeMap) (addr a : BitVec 16) {f : CodeFlags → CodeFlags}
    {p : CodeFlags → β} (hf : ∀ c, p (f c) = p c) : p (flags.mark addr f a) = p (flags a) := by
  by_cases h : a = addr
  · rw [h, mark_self]
    exact hf _
  · rw [mark_of_ne _ _ h]

theorem mark_flag (flags : CodeMap) (addr a : BitVec 16) {f : CodeFlags → CodeFlags}
    {p : CodeFlags → Bool} (hf : ∀ c, p (f c) = true) :
    p (flags.mark addr f a) = (p (flags a) || a == addr) := by
  by_cases h : a = addr
  · rw [h, mark_self, hf]
    simp
  · rw [mark_of_ne _ _ h]
    simp [h]

end CodeMap

/-! ## one instruction -/

variable (imem : BitVec 16 → BitVec 16) (addr last : BitVec 16) (flags : CodeMap)

/-- The marks of a loop and of its end. -/
def markLoop : CodeMap :=
  if isBlockLoop (imem addr) then
    (flags.mark addr fun c => { c with loopStart := true }).mark (imem (addr + 1)) fun c =>
      { c with loopEnd := true }
  else if isLoop (imem addr) then
    (flags.mark addr fun c => { c with loopStart := true }).mark (addr + 1) fun c =>
      { c with loopEnd := true }
  else flags

/-- The mark of the last instruction with flags before a conditional branch. -/
def markUpdate (t : OpTemplate) : CodeMap :=
  if t.branch && !t.uncondBranch then flags.mark last fun c => { c with updateSr := true }
  else flags

/-- The mark after an instruction that may raise an exception. -/
def markCheckInt (t : OpTemplate) : CodeMap :=
  if raisesException t then
    flags.mark (addr + BitVec.ofNat 16 t.size) fun c => { c with checkInt := true }
  else flags

/-- The last address with flags, as the sweep remembers it. -/
def lastUpdate (t : OpTemplate) : BitVec 16 := if t.updatesSr then addr else last

theorem analyzeInst_eq : analyzeInst imem addr last flags =
    (lastUpdate addr last (getOpTemplate (imem addr)),
      markCheckInt addr (markUpdate (lastUpdate addr last (getOpTemplate (imem addr)))
        (markLoop imem addr (flags.mark addr fun c => { c with startOfInst := true }))
        (getOpTemplate (imem addr))) (getOpTemplate (imem addr))) := rfl

variable (a : BitVec 16) (t : OpTemplate)

theorem markLoop_field {β : Type} {p : CodeFlags → β}
    (hs : ∀ c : CodeFlags, p { c with loopStart := true } = p c)
    (he : ∀ c : CodeFlags, p { c with loopEnd := true } = p c) :
    p (markLoop imem addr flags a) = p (flags a) := by
  unfold markLoop
  split
  · rw [CodeMap.mark_field _ _ _ he, CodeMap.mark_field _ _ _ hs]
  · split
    · rw [CodeMap.mark_field _ _ _ he, CodeMap.mark_field _ _ _ hs]
    · rfl

theorem markUpdate_field {β : Type} {p : CodeFlags → β}
    (hp : ∀ c : CodeFlags, p { c with updateSr := true } = p c) :
    p (markUpdate last flags t a) = p (flags a) := by
  unfold markUpdate
  split
  · exact CodeMap.mark_field _ _ _ hp
  · rfl

theorem markCheckInt_field {β : Type} {p : CodeFlags → β}
    (hp : ∀ c : CodeFlags, p { c with checkInt := true } = p c) :
    p (markCheckInt addr flags t a) = p (flags a) := by
  unfold markCheckInt
  split
  · exact CodeMap.mark_field _ _ _ hp
  · rfl

theorem analyzeInst_startOfInst : ((analyzeInst imem addr last flags).2 a).startOfInst =
      ((flags a).startOfInst || a == addr) := by
  rw [analyzeInst_eq, markCheckInt_field (p := CodeFlags.startOfInst) _ _ _ _ fun _ => rfl,
    markUpdate_field (p := CodeFlags.startOfInst) _ _ _ _ fun _ => rfl,
    markLoop_field (p := CodeFlags.startOfInst) _ _ _ _ (fun _ => rfl) fun _ => rfl]
  exact CodeMap.mark_flag _ _ _ (p := CodeFlags.startOfInst) fun _ => rfl

theorem analyzeInst_updateSr
    (h : ((getOpTemplate (imem addr)).branch && !(getOpTemplate (imem addr)).uncondBranch) = false) :
    ((analyzeInst imem addr last flags).2 a).updateSr = (flags a).updateSr := by
  rw [analyzeInst_eq, markCheckInt_field (p := CodeFlags.updateSr) _ _ _ _ fun _ => rfl, markUpdate,
    h, if_neg Bool.false_ne_true,
    markLoop_field (p := CodeFlags.updateSr) _ _ _ _ (fun _ => rfl) fun _ => rfl]
  exact CodeMap.mark_field _ _ _ (p := CodeFlags.updateSr) fun _ => rfl

/-- The address of the last instruction of the loop that starts at an address, if any. -/
def loopEndOf : Option (BitVec 16) :=
  if isBlockLoop (imem addr) then some (imem (addr + 1))
  else if isLoop (imem addr) then some (addr + 1)
  else none

theorem analyzeInst_loopEnd : ((analyzeInst imem addr last flags).2 a).loopEnd =
      ((flags a).loopEnd || loopEndOf imem addr == some a) := by
  rw [analyzeInst_eq, markCheckInt_field (p := CodeFlags.loopEnd) _ _ _ _ fun _ => rfl,
    markUpdate_field (p := CodeFlags.loopEnd) _ _ _ _ fun _ => rfl]
  have hstart : ((flags.mark addr fun c => { c with startOfInst := true }) a).loopEnd =
      (flags a).loopEnd := CodeMap.mark_field _ _ _ (p := CodeFlags.loopEnd) fun _ => rfl
  have hend (e : BitVec 16) : ((((flags.mark addr fun c => { c with startOfInst := true }).mark addr
      fun c => { c with loopStart := true }).mark e fun c => { c with loopEnd := true }) a).loopEnd =
      ((flags a).loopEnd || some e == some a) := by
    have hloop : (((flags.mark addr fun c => { c with startOfInst := true }).mark addr
        fun c => { c with loopStart := true }) a).loopEnd = (flags a).loopEnd := by
      rw [← hstart]
      exact CodeMap.mark_field _ _ _ (p := CodeFlags.loopEnd) fun _ => rfl
    rw [CodeMap.mark_flag _ _ _ (p := CodeFlags.loopEnd) fun _ => rfl, hloop,
      Option.some_beq_some, BEq.comm]
  unfold markLoop loopEndOf
  split
  · exact hend _
  · split
    · exact hend _
    · rw [hstart]
      exact (Bool.or_false _).symm

/-! ## the whole sweep -/

theorem analyze_loopEnd {imem : BitVec 16 → BitVec 16} {a e : BitVec 16}
    (ha : (analyze imem a).startOfInst = true) (he : loopEndOf imem a = some e) :
    (analyze imem e).loopEnd = true := by
  revert ha
  refine analyze_keeps (I := fun flags => (flags a).startOfInst = true →
    (flags e).loopEnd = true) nofun ?_
  intro addr last flags hflags hstart
  rw [analyzeInst_startOfInst, Bool.or_eq_true] at hstart
  rw [analyzeInst_loopEnd, Bool.or_eq_true]
  refine hstart.imp hflags fun haddr => ?_
  rw [← eq_of_beq haddr, he]
  exact beq_self_eq_true _

theorem analyze_updateSr_of_unconditional {imem : BitVec 16 → BitVec 16}
    (h : ∀ addr, ((getOpTemplate (imem addr)).branch &&
      !(getOpTemplate (imem addr)).uncondBranch) = false) (a : BitVec 16) :
    (analyze imem a).updateSr = false :=
  analyze_keeps (I := fun flags => (flags a).updateSr = false) rfl
    fun addr last flags hflags => by rw [analyzeInst_updateSr _ _ _ _ _ (h addr), hflags]

theorem analyze_startOfInst_irom (imem : BitVec 16 → BitVec 16) :
    (analyze imem 0x8000).startOfInst = true := by
  obtain ⟨last, hkeep⟩ := analyzeFrom_keeps
    (I := fun _ flags => (flags 0x8000).startOfInst = true)
    (fun addr last flags h => by rw [analyzeInst_startOfInst, h, Bool.true_or])
    0x9000 (0x9000 - 0x8000 - 1) (0x8000 + (getOpTemplate (imem 0x8000)).size)
    (analyzeInst imem 0x8000 0 (analyzeFrom imem 0x1000 (0x1000 - 0x0000) 0x0000 0 fun _ => {})).1
    (analyzeInst imem 0x8000 0 (analyzeFrom imem 0x1000 (0x1000 - 0x0000) 0x0000 0 fun _ => {})).2
    (by rw [analyzeInst_startOfInst]; simp)
  exact hkeep

end DolphinCore.DSP
