import DolphinCore.DSP.ParallelExecution

/-!
# DolphinCore.DSP.StatusFrames

What depends on the status register. Two cores that differ only in flags, the
low eight bits, do the same as long as nothing reads a flag in which they
differ: the mode bits and the interrupt enables are above the flags.
-/

namespace DolphinCore.DSP

variable {σ : Type} (io : Ifx σ)

/-! ## another status register -/

def Regs.withSR (r : Regs) (x : BitVec 16) : Regs := { r with sr := x }

def SDSP.withSR (s : SDSP σ) (x : BitVec 16) : SDSP σ := { s with r := s.r.withSR x }

/-- The registers agree above the flags. -/
def SameModes (sr x : BitVec 16) : Prop := ∀ k, 8 ≤ k → x.getLsbD k = sr.getLsbD k

theorem SameModes.and_eq {sr x flag : BitVec 16} (h : SameModes sr x)
    (hflag : ∀ k < 8, flag.getLsbD k = false) : x &&& flag = sr &&& flag := by
  apply BitVec.eq_of_getLsbD_eq
  intro k _
  rw [BitVec.getLsbD_and, BitVec.getLsbD_and]
  by_cases hk : k < 8
  · simp [hflag k hk]
  · rw [h k (by omega)]

variable {r : Regs}

theorem SameModes.isFlagSet {x : BitVec 16} (h : SameModes r.sr x) (flag : BitVec 16)
    (hflag : ∀ k < 8, flag.getLsbD k = false) : (r.withSR x).isFlagSet flag = r.isFlagSet flag := by
  show decide (x &&& flag ≠ 0) = decide (r.sr &&& flag ≠ 0)
  rw [h.and_eq hflag]

/-! ## arithmetic -/

theorem ArithFunc.exec_withSR (f : ArithFunc) (opc : BitVec 16) (r : Regs) (x : BitVec 16) :
    f.exec opc (r.withSR x) = ((f.exec opc r).1.withSR x, (f.exec opc r).2) := by
  cases f <;> rfl

theorem ArithImmFunc.exec_withSR (f : ArithImmFunc) (opc imm : BitVec 16) (r : Regs)
    (x : BitVec 16) :
    f.exec opc imm (r.withSR x) = ((f.exec opc imm r).1.withSR x, (f.exec opc imm r).2) := by
  cases f <;> rfl

theorem getMultiplyProd_withSR {x : BitVec 16} (h : SameModes r.sr x) (a b : BitVec 16)
    (sign : Nat) :
    Interpreter.getMultiplyProd (r.withSR x) a b sign = Interpreter.getMultiplyProd r a b sign := by
  unfold Interpreter.getMultiplyProd
  rw [h.isFlagSet SR_MUL_UNSIGNED (by decide), h.isFlagSet SR_MUL_MODIFY
    (by decide)]

section

open Interpreter

variable {x : BitVec 16}

theorem mulProd_withSR (h : SameModes r.sr x) (opc : BitVec 16) :
    mulProd opc (r.withSR x) = mulProd opc r := getMultiplyProd_withSR h _ _ _

theorem mulcProd_withSR (h : SameModes r.sr x) (opc : BitVec 16) :
    mulcProd opc (r.withSR x) = mulcProd opc r := getMultiplyProd_withSR h _ _ _

theorem multiply_withSR (h : SameModes r.sr x) (a b : BitVec 16) (sign : Nat) :
    multiply (r.withSR x) a b sign = multiply r a b sign := getMultiplyProd_withSR h _ _ _

theorem mulxProd_withSR (h : SameModes r.sr x) (opc : BitVec 16) :
    mulxProd opc (r.withSR x) = mulxProd opc r := by
  unfold mulxProd multiplyMulx
  simp only [multiply_withSR h]
  rfl

theorem multiplyAdd_withSR (h : SameModes r.sr x) (a b : BitVec 16) :
    multiplyAdd (r.withSR x) a b = multiplyAdd r a b :=
  congrArg (r.getLongProd + ·) (getMultiplyProd_withSR h _ _ _)

theorem multiplySub_withSR (h : SameModes r.sr x) (a b : BitVec 16) :
    multiplySub (r.withSR x) a b = multiplySub r a b :=
  congrArg (r.getLongProd - ·) (getMultiplyProd_withSR h _ _ _)

theorem storeProd_withSR {p p' : BitVec 64} (hp : p' = p) :
    storeProd (r.withSR x) p' = ((storeProd r p).1.withSR x, (storeProd r p).2) := by
  rw [hp]
  rfl

theorem storeProdAcc_withSR (d : Fin 2) {p p' : BitVec 64} (acc : BitVec 64) (hp : p' = p) :
    storeProdAcc (r.withSR x) d p' acc =
      ((storeProdAcc r d p acc).1.withSR x, (storeProdAcc r d p acc).2) := by
  rw [hp]
  rfl

end

theorem MultFunc.exec_withSR (f : MultFunc) (opc : BitVec 16) {x : BitVec 16}
    (h : SameModes r.sr x) :
    f.exec opc (r.withSR x) = ((f.exec opc r).1.withSR x, (f.exec opc r).2) := by
  cases f with
  | clrp | tstprod | movp | movnp | movpz | addpaxz => rfl
  | mulaxh => exact storeProd_withSR (multiply_withSR h _ _ _)
  | mul => exact storeProd_withSR (multiply_withSR h _ _ _)
  | mulac | mulmv | mulmvz => exact storeProdAcc_withSR _ _ (mulProd_withSR h opc)
  | mulx => exact storeProd_withSR (mulxProd_withSR h opc)
  | mulxac | mulxmv | mulxmvz => exact storeProdAcc_withSR _ _ (mulxProd_withSR h opc)
  | mulc => exact storeProd_withSR (mulcProd_withSR h opc)
  | mulcac | mulcmv | mulcmvz => exact storeProdAcc_withSR _ _ (mulcProd_withSR h opc)
  | maddx | maddc | madd => exact storeProd_withSR (multiplyAdd_withSR h _ _)
  | msubx | msubc | msub => exact storeProd_withSR (multiplySub_withSR h _ _)

theorem ArithFunc.exec_sr (f : ArithFunc) (opc : BitVec 16) (r : Regs) :
    (f.exec opc r).1.sr = r.sr := by cases f <;> rfl

theorem ArithImmFunc.exec_sr (f : ArithImmFunc) (opc imm : BitVec 16) (r : Regs) :
    (f.exec opc imm r).1.sr = r.sr := by cases f <;> rfl

theorem MultFunc.exec_sr (f : MultFunc) (opc : BitVec 16) (r : Regs) :
    (f.exec opc r).1.sr = r.sr := by cases f <;> rfl

/-! ## memories, registers and the loop hardware -/

namespace SDSP

variable {s : SDSP σ} {x : BitVec 16}

theorem dmemRead_withSR (s : SDSP σ) (x addr : BitVec 16) :
    (s.withSR x).dmemRead io addr = ((s.dmemRead io addr).1, (s.dmemRead io addr).2.withSR x) := by
  unfold dmemRead
  split
  · rfl
  · split
    · rfl
    · split
      · cases h : (io.read s.mem addr).2.2 <;> simp [withSR, Regs.withSR, reset, h]
      · rfl

theorem dmemWrite_withSR (s : SDSP σ) (x addr val : BitVec 16) :
    (s.withSR x).dmemWrite io addr val = (s.dmemWrite io addr val).withSR x := by
  unfold dmemWrite
  split
  · rfl
  · split <;> rfl

theorem opReadRegAndSaturate_withSR (h : SameModes s.r.sr x) (i : Fin 2) :
    (s.withSR x).r.opReadRegAndSaturate i = s.r.opReadRegAndSaturate i := by
  unfold Regs.opReadRegAndSaturate
  rw [show (s.withSR x).r = s.r.withSR x from rfl, h.isFlagSet Regs.SR_40_MODE_BIT (by decide)]
  rfl

theorem opReadReg_withSR {n : Nat} (hn : Reg.ofNumber n ≠ .sr) (s : SDSP σ) (x : BitVec 16) :
    (s.withSR x).opReadReg n = ((s.opReadReg n).1, (s.opReadReg n).2.withSR x) := by
  unfold opReadReg
  generalize Reg.ofNumber n = y at hn
  cases y with
  | sr => exact absurd rfl hn
  | _ => rfl

theorem readForStore_withSR {n : Nat} (hn : Reg.ofNumber n ≠ .sr) (h : SameModes s.r.sr x) :
    (s.withSR x).readForStore n = ((s.readForStore n).1, (s.readForStore n).2.withSR x) := by
  unfold readForStore
  split
  · rw [opReadRegAndSaturate_withSR h]
  · exact opReadReg_withSR hn s x

theorem opWriteReg_withSR {n : Nat} (hn : Reg.ofNumber n ≠ .sr) (s : SDSP σ) (x val : BitVec 16) :
    (s.withSR x).opWriteReg n val = (s.opWriteReg n val).withSR x := by
  unfold opWriteReg
  generalize Reg.ofNumber n = y at hn
  cases y with
  | sr => exact absurd rfl hn
  | _ => rfl

theorem opWriteReg_withSR_of_sr {n : Nat} (hn : Reg.ofNumber n = .sr) (s : SDSP σ)
    (x val : BitVec 16) : (s.withSR x).opWriteReg n val = s.opWriteReg n val := by
  unfold opWriteReg
  rw [hn]
  rfl

end SDSP

/-- A function of the core that neither reads a flag nor writes the status register. -/
structure FlagBlind (g : SDSP σ → SDSP σ) : Prop where
  sr : ∀ s, (g s).r.sr = s.r.sr
  commutes : ∀ s x, SameModes s.r.sr x → g (s.withSR x) = (g s).withSR x

namespace FlagBlind

theorem comp {g g' : SDSP σ → SDSP σ} (h' : FlagBlind g') (h : FlagBlind g) :
    FlagBlind fun s => g' (g s) where
  sr s := (h'.sr _).trans (h.sr s)
  commutes s x hx := by
    have hx' : SameModes (g s).r.sr x := by
      rw [h.sr s]
      exact hx
    rw [h.commutes s x hx, h'.commutes _ _ hx']

theorem conditionalExtendAccum (n : Nat) :
    FlagBlind (SDSP.conditionalExtendAccum (σ := σ) · n) where
  sr s := by
    unfold SDSP.conditionalExtendAccum Regs.conditionalExtendAccum
    split
    · simp only [apply_ite Regs.sr]
      exact ite_self _
    · rfl
  commutes s x h := by
    unfold SDSP.conditionalExtendAccum Regs.conditionalExtendAccum
    split
    · rw [show (s.withSR x).r = s.r.withSR x from rfl, h.isFlagSet Regs.SR_40_MODE_BIT (by decide)]
      split <;> rfl
    · rfl

theorem handleLoop_withSR (s : SDSP σ) (x : BitVec 16) :
    Interpreter.handleLoop (s.withSR x) = (Interpreter.handleLoop s).withSR x := by
  simp only [Interpreter.handleLoop, apply_ite (SDSP.withSR · x)]
  rfl

theorem handleLoopAtEnd : FlagBlind (SDSP.handleLoopAtEnd (σ := σ)) where
  sr s := by
    simp only [SDSP.handleLoopAtEnd, Interpreter.handleLoop, apply_ite SDSP.r, apply_ite Regs.sr,
      SDSP.regStackPop, ite_self]
  commutes s x _ := by
    unfold SDSP.handleLoopAtEnd
    rw [handleLoop_withSR, apply_ite (SDSP.withSR · x)]
    rfl

end FlagBlind

/-! ## extensions -/

theorem Ext.accWordOf_withSR {x : BitVec 16} (h : SameModes r.sr x) (k : Fin 4) :
    Ext.accWordOf (r.withSR x) k = Ext.accWordOf r k := by
  unfold Ext.accWordOf Regs.opReadRegAndSaturate
  rw [h.isFlagSet Regs.SR_40_MODE_BIT (by decide)]
  rfl

theorem Ext.loadIntoWrites_withSR {x : BitVec 16} (h : SameModes r.sr x) (opc : BitVec 16) :
    Ext.loadIntoWrites opc (r.withSR x) = Ext.loadIntoWrites opc r := by
  funext val
  unfold Ext.loadIntoWrites
  rw [h.isFlagSet Regs.SR_40_MODE_BIT (by decide)]

theorem ExtFunc.plan_withSR (f : ExtFunc) (opc : BitVec 16) {x : BitVec 16} (h : SameModes r.sr x) :
    f.plan opc (r.withSR x) = f.plan opc r := by
  have hsat (i : Fin 2) : (r.withSR x).opReadRegAndSaturate i = r.opReadRegAndSaturate i := by
    unfold Regs.opReadRegAndSaturate
    rw [h.isFlagSet Regs.SR_40_MODE_BIT (by decide)]
    rfl
  cases f with
  | cw | nop | dr | ir | nr => rfl
  | mv =>
    simp only [plan, Ext.accWordOf_withSR h]
  | s | sn =>
    simp only [plan, Ext.storePlan, Ext.accWordOf_withSR h]
    rfl
  | l | ln =>
    simp only [plan, Ext.loadIntoPlan, Ext.loadIntoWrites_withSR h]
    rfl
  | ls | sl | lsn | sln | lsm | slm | lsnm | slnm =>
    simp only [plan, Ext.storeLoadPlan, hsat]
    rfl
  | ldax | ldaxn | ldaxm | ldaxnm | ld | ldn | ldm | ldnm => rfl

theorem ExtFunc.next_withSR (f : ExtFunc) (opc : BitVec 16) (r r' : Regs) (x : BitVec 16) :
    ∀ n ∈ (f.plan opc r).next, n.2 (r'.withSR x) = n.2 r' := by
  intro n hn
  cases f with
  | cw | nop | mv => exact absurd hn List.not_mem_nil
  | dr | ir | nr | s | sn | l | ln =>
    cases List.mem_singleton.mp hn
    rfl
  | _ =>
    rcases List.mem_cons.mp hn with rfl | hn
    · rfl
    · cases List.mem_singleton.mp hn
      rfl

namespace ExtPlan

theorem storeTo_withSR (p : ExtPlan) (s : SDSP σ) (x : BitVec 16) :
    p.storeTo io (s.withSR x) = (p.storeTo io s).withSR x := by
  unfold storeTo
  split
  · rfl
  · exact s.dmemWrite_withSR io x _ _

theorem load_withSR (ls : List ExtLoad) (x : BitVec 16) : ∀ s : SDSP σ,
    load io ls (s.withSR x) = ((load io ls s).1, (load io ls s).2.withSR x) := by
  induction ls with
  | nil => exact fun _ => rfl
  | cons l ls ih =>
    intro s
    unfold load
    rw [s.dmemRead_withSR io]
    simp only [ih]

end ExtPlan

theorem SDSP.extRun_withSR {s : SDSP σ} {x : BitVec 16} (h : SameModes s.r.sr x)
    (inst : BitVec 16) :
    (s.withSR x).extRun io inst = ((s.extRun io inst).1, (s.extRun io inst).2.withSR x) := by
  have hplan : (s.withSR x).extPlan inst = s.extPlan inst := ExtFunc.plan_withSR _ inst h
  have hnext (t : SDSP σ) : (s.extPlan inst).next.map (fun n => (n.1.val, n.2 (t.withSR x).r)) =
      (s.extPlan inst).next.map fun n => (n.1.val, n.2 t.r) :=
    List.map_congr_left fun n hn => by
      rw [show n.2 (t.withSR x).r = n.2 t.r from ExtFunc.next_withSR _ inst s.r t.r x n hn]
  unfold SDSP.extRun
  rw [hplan, ExtPlan.run, ExtPlan.storeTo_withSR, ExtPlan.load_withSR]
  simp only [hnext]
  rfl

theorem Regs.setAll_withSR (x : BitVec 16) (ws : List (Nat × BitVec 16)) : ∀ r : Regs,
    (∀ w ∈ ws, (Reg.ofNumber w.1).isPlain) →
      (r.withSR x).setAll ws = (r.setAll ws).withSR x ∧ (r.setAll ws).sr = r.sr := by
  induction ws with
  | nil => exact fun _ _ => ⟨rfl, rfl⟩
  | cons w ws ih =>
    intro r h
    have hw : (r.withSR x).set w.2 (Reg.ofNumber w.1) = (r.set w.2 (Reg.ofNumber w.1)).withSR x ∧
        (r.set w.2 (Reg.ofNumber w.1)).sr = r.sr := by
      have hplain := h w List.mem_cons_self
      generalize Reg.ofNumber w.1 = y at hplain
      cases y with
      | sr => cases hplain
      | _ => exact ⟨rfl, rfl⟩
    obtain ⟨ih, hsr⟩ := ih (r.set w.2 (Reg.ofNumber w.1)) fun v hv => h v (List.mem_cons_of_mem _ hv)
    refine ⟨?_, hsr.trans hw.2⟩
    show ((r.withSR x).set w.2 (Reg.ofNumber w.1)).setAll ws = _
    rw [hw.1]
    exact ih

theorem SDSP.logFrom_withSR (x : BitVec 16) : ∀ (is : List (Fin 5)) (ws : List (Nat × BitVec 16))
    (s : SDSP σ), logFrom is ws (s.withSR x) = (logFrom is ws s).withSR x
  | [], _, _ => rfl
  | _ :: _, [], _ => rfl
  | i :: is, w :: ws, s => logFrom_withSR x is ws (s.writeToBackLog i w.1 w.2)

end DolphinCore.DSP
