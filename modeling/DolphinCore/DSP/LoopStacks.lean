import DolphinCore.DSP.Analyzer
import DolphinCore.DSP.ParallelExecution
import DolphinCore.Lib.CircularStack

/-!
# DolphinCore.DSP.LoopStacks

What an instruction does to the call stack and the loop stacks. Calls, returns
and the starts of loops are the only instructions that change them, besides
moves to and from the stack registers themselves.
-/

namespace DolphinCore.DSP

variable {σ : Type} (io : Ifx σ)

/-! ## the hardware stacks -/

/-- A hardware stack, its register on top. -/
def SDSP.stack (s : SDSP σ) (i : Fin 4) : CircularStack 32 (BitVec 16) :=
  ⟨s.r.st i, s.regStackPtr i, s.regStack i⟩

namespace SDSP

theorem stack_regStoreStack (s : SDSP σ) (i : Fin 4) (val : BitVec 16) :
    (s.regStoreStack i val).stack i = (s.stack i).push val := by
  unfold stack regStoreStack regStackPush CircularStack.push
  simp only [Function.update_self]

theorem stack_regStoreStack_of_ne (s : SDSP σ) {i j : Fin 4} (h : j ≠ i) (val : BitVec 16) :
    (s.regStoreStack i val).stack j = s.stack j := by
  unfold stack regStoreStack regStackPush
  simp only [Function.update_of_ne h]

theorem stack_regStackPop (s : SDSP σ) (i : Fin 4) :
    (s.regStackPop i).stack i = (s.stack i).pop := by
  unfold stack regStackPop CircularStack.pop
  simp only [Function.update_self]

theorem stack_regStackPop_of_ne (s : SDSP σ) {i j : Fin 4} (h : j ≠ i) :
    (s.regStackPop i).stack j = s.stack j := by
  unfold stack regStackPop
  simp only [Function.update_of_ne h]

end SDSP

/-- The stacks of calls and loops are the same. -/
def SameControl (s t : SDSP σ) : Prop := ∀ i, i ≠ Data → t.stack i = s.stack i

namespace SameControl

variable {s t u : SDSP σ}

theorem refl (s : SDSP σ) : SameControl s s := fun _ _ => rfl

theorem trans (h : SameControl s t) (h' : SameControl t u) : SameControl s u :=
  fun i hi => (h' i hi).trans (h i hi)

theorem of_regs (hst : t.r.st = s.r.st) (hptr : t.regStackPtr = s.regStackPtr)
    (hstack : t.regStack = s.regStack) : SameControl s t := fun i _ => by
  unfold SDSP.stack
  rw [hst, hptr, hstack]

theorem regStoreStack (h : SameControl s t) (i : Fin 4) (val : BitVec 16) :
    SameControl (s.regStoreStack i val) (t.regStoreStack i val) := fun j hj => by
  by_cases hij : j = i
  · subst hij
    rw [SDSP.stack_regStoreStack, SDSP.stack_regStoreStack, h j hj]
  · rw [SDSP.stack_regStoreStack_of_ne _ hij, SDSP.stack_regStoreStack_of_ne _ hij, h j hj]

theorem regStackPop (h : SameControl s t) (i : Fin 4) :
    SameControl (s.regStackPop i) (t.regStackPop i) := fun j hj => by
  by_cases hij : j = i
  · subst hij
    rw [SDSP.stack_regStackPop, SDSP.stack_regStackPop, h j hj]
  · rw [SDSP.stack_regStackPop_of_ne _ hij, SDSP.stack_regStackPop_of_ne _ hij, h j hj]

theorem of_memories (h : s.MemoriesOf t) : SameControl s t := by
  rcases h with h | h
  · rw [h]
    exact of_regs rfl rfl rfl
  · rw [h]
    exact of_regs rfl rfl rfl

end SameControl

/-! ## effects on the stacks of calls and loops -/

/-- What an instruction does to the stacks of calls and loops. -/
inductive ControlEffect where
  | none
  | call (ret : BitVec 16)
  | ret
  | loop (start last cnt : BitVec 16)
  /-- A loop that is not entered: its body ends with the instruction at `last`. -/
  | skip (last : BitVec 16)
  deriving DecidableEq

/-- A loop with a counter. -/
def loopEffect (start last cnt : BitVec 16) : ControlEffect :=
  if cnt = 0 then .skip last else .loop start last cnt

/-- The effect of a function of the branch unit, the program counter being past the opcode. -/
def BranchFunc.effect (f : BranchFunc) (opc : BitVec 16) (s : SDSP σ) : ControlEffect :=
  match f with
  | .call => if s.condition opc then .call (s.pc + 1) else .none
  | .callr => if s.condition opc then .call s.pc else .none
  | .ret => if s.condition opc then .ret else .none
  | .rti => .ret
  | .loop => loopEffect s.pc s.pc (s.opReadReg (bits opc 0 5)).1
  | .loopi => loopEffect s.pc s.pc (opc &&& 0xff)
  | .bloop => loopEffect (s.pc + 1) s.peekCode (s.opReadReg (bits opc 0 5)).1
  | .bloopi => loopEffect (s.pc + 1) s.peekCode (opc &&& 0xff)
  | .ifcc | .jcc | .jmprcc | .halt => .none

def IntFunc.effect (f : IntFunc) (opc : BitVec 16) (s : SDSP σ) : ControlEffect :=
  match f with
  | .branch f => f.effect opc s
  | _ => .none

/-- The effect on the hardware stacks. -/
def ControlEffect.onStacks (e : ControlEffect) (s : SDSP σ) : SDSP σ :=
  match e with
  | .none | .skip _ => s
  | .call pc => s.regStoreStack Call pc
  | .ret => s.regStackPop Call
  | .loop start last cnt =>
    ((s.regStoreStack Call start).regStoreStack LoopAddress last).regStoreStack LoopCounter cnt

/-- The numbers of the registers an instruction moves from and to. -/
def IntFunc.movedRegs (f : IntFunc) (opc : BitVec 16) : List Nat :=
  match f with
  | .loadStore .mrr => [bits opc 0 5, bits opc 5 5]
  | .loadStore .lris | .loadStore .srs | .loadStore .lrs => [bits opc 8 3 + 0x18]
  | .loadStore .si => []
  | .loadStore .ilrr | .loadStore .ilrrd | .loadStore .ilrri | .loadStore .ilrrn => []
  | .loadStore _ => [bits opc 0 5]
  | .branch .loop | .branch .bloop => [bits opc 0 5]
  | .branch .callr | .branch .jmprcc => [bits opc 5 3]
  | _ => []

/-- No stack register but that of the data stack is moved from or to. -/
def IntFunc.SparesStacks (f : IntFunc) (opc : BitVec 16) : Prop :=
  ∀ n ∈ f.movedRegs opc, ∀ i, Reg.ofNumber n = .st i → i = Data

/-! ## moves, loads and stores -/

theorem conditionalExtendAccum_control (s : SDSP σ) (n : Nat) :
    SameControl s (s.conditionalExtendAccum n) := by
  refine .of_regs ?_ rfl rfl
  unfold SDSP.conditionalExtendAccum Regs.conditionalExtendAccum
  split
  · split <;> rfl
  · rfl

section

variable {n : Nat} (hn : ∀ i, Reg.ofNumber n = .st i → i = Data) (s : SDSP σ)

include hn

theorem opReadReg_control : SameControl s (s.opReadReg n).2 := by
  unfold SDSP.opReadReg
  split
  · next i h =>
    intro j hj
    exact s.stack_regStackPop_of_ne (by rw [hn i h]; exact hj)
  · exact .refl s

theorem opWriteReg_control (val : BitVec 16) : SameControl s (s.opWriteReg n val) := by
  unfold SDSP.opWriteReg
  split
  · next i h =>
    intro j hj
    exact s.stack_regStoreStack_of_ne (by rw [hn i h]; exact hj) val
  · next x h =>
    refine .of_regs ?_ rfl rfl
    generalize Reg.ofNumber n = y at h
    cases y with
    | st i => exact absurd rfl (h i)
    | _ => rfl

theorem readForStore_control : SameControl s (s.readForStore n).2 := by
  unfold SDSP.readForStore
  split
  · exact .refl s
  · exact opReadReg_control hn s

theorem writeExtended_control (val : BitVec 16) : SameControl s (s.writeExtended n val) :=
  (opWriteReg_control hn s val).trans (conditionalExtendAccum_control _ n)

end

theorem dmemRead_control (s : SDSP σ) (addr : BitVec 16) :
    SameControl s (s.dmemRead io addr).2 := by
  obtain ⟨m, h | h⟩ := s.dmemRead_eq io addr
  · rw [h]
    exact .of_regs rfl rfl rfl
  · rw [h]
    exact .of_regs rfl rfl rfl

theorem dmemWrite_control (s : SDSP σ) (addr val : BitVec 16) :
    SameControl s (s.dmemWrite io addr val) := by
  unfold SDSP.dmemWrite
  split
  · exact .of_regs rfl rfl rfl
  · split
    · exact .of_regs rfl rfl rfl
    · exact .refl s

theorem fetchCode_control (s : SDSP σ) : SameControl s s.fetchCode.2 := .of_regs rfl rfl rfl

theorem setAr_control (s : SDSP σ) (i : Fin 4) (val : BitVec 16) : SameControl s (s.setAr i val) :=
  .of_regs rfl rfl rfl

theorem lrr_control {opc : BitVec 16} (s : SDSP σ)
    (hn : ∀ i, Reg.ofNumber (bits opc 0 5) = .st i → i = Data) :
    SameControl s (Interpreter.lrr io opc s) :=
  (dmemRead_control io s _).trans (writeExtended_control hn _ _)

theorem srr_control {opc : BitVec 16} (s : SDSP σ)
    (hn : ∀ i, Reg.ofNumber (bits opc 0 5) = .st i → i = Data) :
    SameControl s (Interpreter.srr io opc s) :=
  (readForStore_control hn s).trans (dmemWrite_control io _ _ _)

theorem ilrr_control (opc : BitVec 16) (s : SDSP σ) : SameControl s (Interpreter.ilrr opc s) :=
  (SameControl.of_regs (t := { s with
    r := s.r.setAcM (bit1 opc 8) (s.mem.imemRead (s.r.ar (bits2 opc 0))) }) rfl rfl rfl).trans
    (conditionalExtendAccum_control _ _)

theorem LoadStoreFunc.exec_control (f : LoadStoreFunc) (opc : BitVec 16) (s : SDSP σ)
    (hf : (IntFunc.loadStore f).SparesStacks opc) : SameControl s (f.exec io opc s) := by
  cases f with
  | mrr =>
    exact (readForStore_control (hf _ List.mem_cons_self) s).trans
      (writeExtended_control (hf _ (List.mem_cons_of_mem _ List.mem_cons_self)) _ _)
  | lri =>
    exact (fetchCode_control s).trans (writeExtended_control (hf _ List.mem_cons_self) _ _)
  | lris => exact writeExtended_control (hf _ List.mem_cons_self) s _
  | srs =>
    exact (readForStore_control (hf _ List.mem_cons_self) s).trans (dmemWrite_control io _ _ _)
  | lrs =>
    exact (dmemRead_control io s _).trans (writeExtended_control (hf _ List.mem_cons_self) _ _)
  | lr =>
    exact ((fetchCode_control s).trans (dmemRead_control io _ _)).trans
      (writeExtended_control (hf _ List.mem_cons_self) _ _)
  | sr =>
    exact ((fetchCode_control s).trans (readForStore_control (hf _ List.mem_cons_self) _)).trans
      (dmemWrite_control io _ _ _)
  | si => exact (fetchCode_control s).trans (dmemWrite_control io _ _ _)
  | lrr => exact lrr_control io s (hf _ List.mem_cons_self)
  | lrrd | lrri | lrrn =>
    exact (lrr_control io s (hf _ List.mem_cons_self)).trans (setAr_control _ _ _)
  | srr => exact srr_control io s (hf _ List.mem_cons_self)
  | srrd | srri | srrn =>
    exact (srr_control io s (hf _ List.mem_cons_self)).trans (setAr_control _ _ _)
  | ilrr => exact ilrr_control opc s
  | ilrrd | ilrri | ilrrn => exact (ilrr_control opc s).trans (setAr_control _ _ _)

/-! ## the branch unit -/

namespace ControlEffect

variable {s t : SDSP σ}

theorem onStacks_control (e : ControlEffect) (h : SameControl s t) :
    SameControl (e.onStacks s) (e.onStacks t) := by
  cases e with
  | none | skip => exact h
  | call pc => exact h.regStoreStack Call pc
  | ret => exact h.regStackPop Call
  | loop start last cnt =>
    exact ((h.regStoreStack Call start).regStoreStack LoopAddress last).regStoreStack LoopCounter cnt

end ControlEffect

theorem SameControl.setPc {s t : SDSP σ} (h : SameControl s t) (pc : BitVec 16) :
    SameControl s { t with pc := pc } := h.trans (.of_regs rfl rfl rfl)

theorem startLoop_control (s : SDSP σ) (cnt : BitVec 16) :
    SameControl ((loopEffect s.pc s.pc cnt).onStacks s) (s.startLoop cnt) := by
  unfold loopEffect SDSP.startLoop
  by_cases h : cnt = 0
  · rw [if_pos h, if_neg (not_not.mpr h)]
    exact (SameControl.refl s).setPc _
  · rw [if_neg h, if_pos h]
    exact .refl _

theorem startBlockLoop_control (s : SDSP σ) (cnt : BitVec 16) :
    SameControl ((loopEffect (s.pc + 1) s.peekCode cnt).onStacks s) (s.startBlockLoop cnt) := by
  unfold loopEffect
  simp only [SDSP.startBlockLoop]
  by_cases h : cnt = 0
  · rw [if_pos h, if_neg (not_not.mpr h)]
    exact ((fetchCode_control s).setPc _).setPc _
  · rw [if_neg h, if_pos h]
    exact ControlEffect.onStacks_control (.loop _ _ _) (fetchCode_control s)

theorem BranchFunc.exec_control (f : BranchFunc) (opc : BitVec 16) (s : SDSP σ)
    (hf : (IntFunc.branch f).SparesStacks opc) :
    SameControl ((f.effect opc s).onStacks s) (f.exec opc s) := by
  cases f with
  | call =>
    have hcond : s.fetchCode.2.condition opc = s.condition opc := rfl
    simp only [exec, effect, Interpreter.call, hcond]
    by_cases h : s.condition opc
    · rw [if_pos h, if_pos h]
      exact (((fetchCode_control s).regStoreStack Call _)).setPc _
    · rw [if_neg h, if_neg h]
      exact fetchCode_control s
  | callr =>
    have hread := opReadReg_control (hf _ List.mem_cons_self) s
    have hpc : (s.opReadReg (bits opc 5 3)).2.pc = s.pc := by
      unfold SDSP.opReadReg
      split <;> rfl
    simp only [exec, effect, Interpreter.callr, hpc]
    by_cases h : s.condition opc
    · rw [if_pos h, if_pos h]
      exact (hread.regStoreStack Call _).setPc _
    · rw [if_neg h, if_neg h]
      exact .refl s
  | ifcc =>
    simp only [exec, effect, Interpreter.ifcc]
    split
    · exact .refl s
    · exact (SameControl.refl s).setPc _
  | jcc =>
    simp only [exec, effect, Interpreter.jcc]
    split
    · exact (fetchCode_control s).setPc _
    · exact fetchCode_control s
  | jmprcc =>
    simp only [exec, effect, Interpreter.jmprcc]
    split
    · exact (opReadReg_control (hf _ List.mem_cons_self) s).setPc _
    · exact .refl s
  | ret =>
    simp only [exec, effect, Interpreter.ret]
    by_cases h : s.condition opc
    · rw [if_pos h, if_pos h]
      exact (SameControl.refl _).setPc _
    · rw [if_neg h, if_neg h]
      exact .refl s
  | rti =>
    -- the pop of the data stack comes first
    have hdata : SameControl s (s.regStackPop Data) := fun i hi => s.stack_regStackPop_of_ne hi
    exact ((hdata.trans (.of_regs (t := { s.regStackPop Data with
      r := { (s.regStackPop Data).r with sr := s.r.st Data } }) rfl rfl rfl)).regStackPop
      Call).setPc _
  | halt => exact .of_regs rfl rfl rfl
  | loop =>
    have hread := opReadReg_control (hf _ List.mem_cons_self) s
    have hpc : (s.opReadReg (bits opc 0 5)).2.pc = s.pc := by
      unfold SDSP.opReadReg
      split <;> rfl
    refine (ControlEffect.onStacks_control _ hread).trans ?_
    have h := startLoop_control (s.opReadReg (bits opc 0 5)).2 (s.opReadReg (bits opc 0 5)).1
    rw [hpc] at h
    exact h
  | loopi => exact startLoop_control s _
  | bloop =>
    have hread := opReadReg_control (hf _ List.mem_cons_self) s
    have hpc : (s.opReadReg (bits opc 0 5)).2.pc = s.pc := by
      unfold SDSP.opReadReg
      split <;> rfl
    have hpeek : (s.opReadReg (bits opc 0 5)).2.peekCode = s.peekCode := by
      unfold SDSP.opReadReg
      split <;> rfl
    refine (ControlEffect.onStacks_control _ hread).trans ?_
    have h := startBlockLoop_control (s.opReadReg (bits opc 0 5)).2 (s.opReadReg (bits opc 0 5)).1
    rw [hpc, hpeek] at h
    exact h
  | bloopi => exact startBlockLoop_control s _

/-! ## where an effect leads -/

/-- Where the program counter is after an effect that determines it. -/
def ControlEffect.target (e : ControlEffect) (s : SDSP σ) : Option (BitVec 16) :=
  match e with
  | .ret => some (s.r.st Call)
  | .loop start _ _ => some start
  | .skip last => some (last + BitVec.ofNat 16 (getOpTemplate (s.mem.imemRead last)).size)
  | .none | .call _ => Option.none

theorem opReadReg_pc (s : SDSP σ) (n : Nat) :
    (s.opReadReg n).2.pc = s.pc ∧ (s.opReadReg n).2.mem = s.mem := by
  unfold SDSP.opReadReg
  split <;> exact ⟨rfl, rfl⟩

theorem startLoop_pc (s : SDSP σ) (cnt : BitVec 16) :
    (loopEffect s.pc s.pc cnt).target s = some (s.startLoop cnt).pc := by
  unfold loopEffect SDSP.startLoop
  by_cases h : cnt = 0
  · rw [if_pos h, if_neg (not_not.mpr h)]
    rfl
  · rw [if_neg h, if_pos h]
    rfl

theorem startBlockLoop_pc (s : SDSP σ) (cnt : BitVec 16) :
    (loopEffect (s.pc + 1) s.peekCode cnt).target s = some (s.startBlockLoop cnt).pc := by
  unfold loopEffect
  simp only [SDSP.startBlockLoop]
  by_cases h : cnt = 0
  · rw [if_pos h, if_neg (not_not.mpr h)]
    rfl
  · rw [if_neg h, if_pos h]
    rfl

theorem BranchFunc.exec_pc (f : BranchFunc) (opc : BitVec 16) (s : SDSP σ) {pc : BitVec 16}
    (h : (f.effect opc s).target s = some pc) : (f.exec opc s).pc = pc := by
  cases f with
  | call | callr =>
    simp only [effect] at h
    split at h <;> cases h
  | ifcc | jcc | jmprcc | halt => cases h
  | ret =>
    simp only [exec, effect, Interpreter.ret] at h ⊢
    by_cases hc : s.condition opc
    · rw [if_pos hc] at h ⊢
      exact Option.some.inj h
    · rw [if_neg hc] at h
      cases h
  | rti => exact Option.some.inj h
  | loop =>
    obtain ⟨hpc, hmem⟩ := opReadReg_pc s (bits opc 0 5)
    have h' := startLoop_pc (s.opReadReg (bits opc 0 5)).2 (s.opReadReg (bits opc 0 5)).1
    rw [hpc] at h'
    refine Option.some.inj (h'.symm.trans (Eq.trans ?_ h))
    simp only [effect, loopEffect]
    split
    · show some _ = some _
      rw [hmem]
    · rfl
  | loopi => exact Option.some.inj ((startLoop_pc s _).symm.trans h)
  | bloop =>
    obtain ⟨hpc, hmem⟩ := opReadReg_pc s (bits opc 0 5)
    have h' := startBlockLoop_pc (s.opReadReg (bits opc 0 5)).2 (s.opReadReg (bits opc 0 5)).1
    rw [hpc, SDSP.peekCode, hpc, hmem] at h'
    refine Option.some.inj (h'.symm.trans (Eq.trans ?_ h))
    simp only [effect, loopEffect]
    split
    · show some _ = some _
      rw [hmem]
      rfl
    · rfl
  | bloopi => exact Option.some.inj ((startBlockLoop_pc s _).symm.trans h)

/-! ## instructions -/

/-- The effect of an opcode, the program counter being past it. -/
def SDSP.effect (s : SDSP σ) (inst : BitVec 16) : ControlEffect :=
  (getOpTemplate inst).intFunc.effect inst s

theorem IntFunc.exec_control (f : IntFunc) (opc : BitVec 16) (s : SDSP σ)
    (hf : f.SparesStacks opc) : SameControl ((f.effect opc s).onStacks s) (f.exec io true opc s) := by
  cases f with
  | nop => exact .refl s
  | arith f => exact .of_regs (by cases f <;> rfl) rfl rfl
  | arithImm f => exact .of_regs (by cases f <;> rfl) rfl rfl
  | mult f => exact .of_regs (by cases f <;> rfl) rfl rfl
  | misc f =>
    refine .of_regs ?_ rfl rfl
    cases f with
    | srbith =>
      simp only [exec, MiscFunc.exec, Interpreter.srbith, effect, ControlEffect.onStacks]
      split <;> rfl
    | _ => rfl
  | loadStore f => exact f.exec_control io opc s hf
  | branch f => exact f.exec_control opc s hf

theorem IntFunc.effect_of_parallel {f : IntFunc} (hf : f.isParallel) (opc : BitVec 16)
    (s : SDSP σ) : f.effect opc s = .none := by
  cases f with
  | branch => cases hf
  | _ => rfl

theorem Regs.setAll_st (ws : List (Nat × BitVec 16)) : ∀ r : Regs,
    (∀ w ∈ ws, (Reg.ofNumber w.1).isPlain) → (r.setAll ws).st = r.st := by
  induction ws with
  | nil => exact fun _ _ => rfl
  | cons w ws ih =>
    intro r h
    refine (ih _ fun v hv => h v (List.mem_cons_of_mem _ hv)).trans ?_
    show (r.set w.2 (Reg.ofNumber w.1)).st = r.st
    have hplain := h w List.mem_cons_self
    generalize Reg.ofNumber w.1 = y at hplain
    cases y with
    | st i => cases hplain
    | _ => rfl

variable {inst : BitVec 16} {s : SDSP σ}

/-- **Stacks**: an instruction that spares the stack registers changes the stacks of calls and
loops by its effect. -/
theorem executeInstruction_control (hlog : s.LogEmpty)
    (hf : (getOpTemplate inst).intFunc.SparesStacks inst) :
    SameControl ((s.effect inst).onStacks s) (executeInstruction io true inst s) := by
  by_cases hext : (getOpTemplate inst).extended = true
  · have hpar := isParallel_of_extended hext
    have heff : s.effect inst = .none := IntFunc.effect_of_parallel hpar inst s
    rw [heff, executeInstruction_plan io hext hlog]
    have hmain := IntFunc.exec_control io _ inst (s.extRun io inst).2 hf
    rw [IntFunc.effect_of_parallel hpar] at hmain
    refine (SameControl.of_memories (s.extRun_memoriesOf io inst)).trans (hmain.trans ?_)
    rw [IntFunc.exec_parallel io hpar]
    exact .of_regs (Regs.setAll_st _ _ (ExtFunc.writesOk io inst s.r s).plain) rfl rfl
  · rw [executeInstruction_eq (by simpa using hext) rfl]
    exact IntFunc.exec_control io _ inst s hf

theorem executeInstruction_pc {inst pc : BitVec 16} (h : (s.effect inst).target s = some pc) :
    (executeInstruction io true inst s).pc = pc := by
  by_cases hext : (getOpTemplate inst).extended = true
  · rw [show s.effect inst = .none from
      IntFunc.effect_of_parallel (isParallel_of_extended hext) inst s] at h
    cases h
  · rw [executeInstruction_eq (by simpa using hext) rfl]
    unfold SDSP.effect at h
    generalize (getOpTemplate inst).intFunc = f at h
    cases f with
    | branch f => exact f.exec_pc inst s h
    | _ => cases h

/-! ## loops the analysis sees -/

theorem getOpTemplate_matches (h : getOpTemplate inst ≠ cw) :
    inst &&& (getOpTemplate inst).opcodeMask = (getOpTemplate inst).opcode := by
  unfold getOpTemplate at h ⊢
  cases hfind : sOpcodes.find? fun t => inst &&& t.opcodeMask = t.opcode with
  | none =>
    rw [hfind] at h
    exact absurd rfl h
  | some t =>
    have ht := List.find?_some hfind
    simpa using ht

/-- The opcode and the mask of the functions that start loops. -/
def IntFunc.loopPattern : IntFunc → Option (BitVec 16 × BitVec 16)
  | .branch .loop => some (0x0040, 0xffe0)
  | .branch .loopi => some (0x1000, 0xff00)
  | .branch .bloop => some (0x0060, 0xffe0)
  | .branch .bloopi => some (0x1100, 0xff00)
  | _ => none

theorem inst_of_loopPattern {p : BitVec 16 × BitVec 16}
    (h : (getOpTemplate inst).intFunc.loopPattern = some p) : inst &&& p.2 = p.1 := by
  have hrow : ∀ q, (getOpTemplate inst).intFunc.loopPattern = some q →
      (getOpTemplate inst).opcode = q.1 ∧ (getOpTemplate inst).opcodeMask = q.2 :=
    getOpTemplate_of_forall (p := fun t => ∀ q, t.intFunc.loopPattern = some q →
      t.opcode = q.1 ∧ t.opcodeMask = q.2) (by
        have hrows : ∀ t ∈ sOpcodes,
            t.intFunc.loopPattern.all fun q => t.opcode = q.1 ∧ t.opcodeMask = q.2 := by
          decide +kernel
        intro t ht q hq
        have h := hrows t ht
        rw [hq] at h
        simpa using h) nofun inst
  obtain ⟨hop, hmask⟩ := hrow p h
  have hne : getOpTemplate inst ≠ cw := by
    intro hcw
    rw [hcw] at h
    cases h
  have hmatch := getOpTemplate_matches hne
  rw [hop, hmask] at hmatch
  exact hmatch

theorem and_high_byte (inst : BitVec 16) : inst &&& 0xff00 = (inst &&& 0xffe0) &&& 0xff00 := by
  rw [BitVec.and_assoc]
  rfl

theorem loopEndOf_of_effect {a start last cnt : BitVec 16} (hpc : s.pc = a + 1)
    (h : s.effect (s.mem.imemRead a) = .loop start last cnt) :
    loopEndOf s.mem.imemRead a = some last := by
  have hpat := @inst_of_loopPattern (s.mem.imemRead a)
  unfold SDSP.effect at h
  unfold loopEndOf isBlockLoop isLoop
  generalize (getOpTemplate (s.mem.imemRead a)).intFunc = f at h hpat
  have hloop {c : BitVec 16} (hc : loopEffect s.pc s.pc c = .loop start last cnt) :
      last = a + 1 := by
    unfold loopEffect at hc
    split at hc
    · cases hc
    · cases hc
      exact hpc
  have hblock {c : BitVec 16} (hc : loopEffect (s.pc + 1) s.peekCode c = .loop start last cnt) :
      last = s.mem.imemRead (a + 1) := by
    unfold loopEffect at hc
    split at hc
    · cases hc
    · cases hc
      rw [SDSP.peekCode, hpc]
  have hhigh := and_high_byte (s.mem.imemRead a)
  generalize s.mem.imemRead a = inst at hpat hhigh
  cases f with
  | branch f =>
    cases f with
    | loop =>
      have hinst : inst &&& 0xffe0 = 0x0040 := hpat rfl
      rw [hinst] at hhigh
      rw [hloop h, hinst, hhigh]
      rfl
    | loopi =>
      have hinst : inst &&& 0xff00 = 0x1000 := hpat rfl
      have hne : inst &&& 0xffe0 ≠ 0x0060 := by
        intro h60
        rw [hinst, h60] at hhigh
        exact absurd hhigh (by decide)
      rw [hloop h, hinst, decide_eq_false hne]
      simp
    | bloop =>
      have hinst : inst &&& 0xffe0 = 0x0060 := hpat rfl
      rw [hblock h, hinst]
      simp
    | bloopi =>
      have hinst : inst &&& 0xff00 = 0x1100 := hpat rfl
      rw [hblock h, hinst]
      simp
    | call | callr | ret =>
      simp only [IntFunc.effect, BranchFunc.effect] at h
      split at h <;> cases h
    | ifcc | jcc | jmprcc | rti | halt => cases h
  | _ => cases h

end DolphinCore.DSP
