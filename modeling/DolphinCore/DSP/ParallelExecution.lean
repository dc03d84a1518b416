import DolphinCore.DSP.AccumulatorExtension
import DolphinCore.Lib.Bits

/-!
# DolphinCore.DSP.ParallelExecution

An instruction and its extension as parallel execution.

What an extension asks for is a function of the registers before the
instruction: a plan of moves, a store, loads and updates of addressing
registers.  The interpreter carries out the plan on the memories, runs the
instruction, and applies the register writes of the plan from the log.  The
store of an extension comes before its load.
-/

namespace DolphinCore.DSP

variable {σ : Type} (io : Ifx σ)

/-! ## plans -/

/-- A load: the address, and the register numbers the value goes to. -/
structure ExtLoad where
  addr : BitVec 16
  into : BitVec 16 → List (Nat × BitVec 16)

/-- What an extension asks for. The updates of addressing registers are kept
as functions, since a read may reset the wrapping registers. -/
structure ExtPlan where
  moves : List (Nat × BitVec 16) := []
  store : Option (BitVec 16 × BitVec 16) := none
  loads : List ExtLoad := []
  next : List (Fin 4 × (Regs → BitVec 16)) := []

namespace ExtPlan

/-- Carries out the loads in order, and collects what they write to registers. -/
def load : List ExtLoad → SDSP σ → List (Nat × BitVec 16) × SDSP σ
  | [], s => ([], s)
  | l :: ls, s =>
    let (val, s) := s.dmemRead io l.addr
    let (writes, s) := load ls s
    (l.into val ++ writes, s)

/-- The plan's store, if any. -/
def storeTo (p : ExtPlan) (s : SDSP σ) : SDSP σ :=
  match p.store with
  | none => s
  | some (addr, val) => s.dmemWrite io addr val

/-- The register writes of a plan, and the core after its store and its loads. -/
def run (p : ExtPlan) (s : SDSP σ) : List (Nat × BitVec 16) × SDSP σ :=
  let (writes, s) := load io p.loads (p.storeTo io s)
  (p.moves ++ writes ++ p.next.map fun n => (n.1.val, n.2 s.r), s)

end ExtPlan

namespace Ext

/-- What `ACL0 + k` gives to a move or a store, from the registers. -/
def accWordOf (r : Regs) (k : Fin 4) : BitVec 16 :=
  if k.val < 2 then (r.ac (Fin.ofNat 2 k.val)).l
  else r.opReadRegAndSaturate (Fin.ofNat 2 k.val)

/-- The writes of `l` and `ln`: in 40 bit mode a middle word is extended. -/
def loadIntoWrites (opc : BitVec 16) (r : Regs) (val : BitVec 16) : List (Nat × BitVec 16) :=
  let dreg := bits opc 3 3 + DSP_REG_AXL0
  if dreg ≥ DSP_REG_ACM0 ∧ r.isFlagSet Regs.SR_40_MODE_BIT then
    [(dreg - DSP_REG_ACM0 + DSP_REG_ACH0, if val &&& 0x8000 ≠ 0 then 0xFFFF else 0x0000),
      (dreg, val), (dreg - DSP_REG_ACM0 + DSP_REG_ACL0, 0)]
  else [(dreg, val)]

def loadIntoPlan (opc : BitVec 16) (r : Regs) (next : Regs → BitVec 16) : ExtPlan where
  loads := [⟨r.ar (bits2 opc 0), loadIntoWrites opc r⟩]
  next := [(bits2 opc 0, next)]

def storePlan (opc : BitVec 16) (r : Regs) (next : Regs → BitVec 16) : ExtPlan where
  store := some (r.ar (bits2 opc 0), accWordOf r (bits2 opc 3))
  next := [(bits2 opc 0, next)]

def storeLoadPlan (dst src : Fin 4) (next3 next0 : Regs → BitVec 16) (opc : BitVec 16)
    (r : Regs) : ExtPlan where
  store := some (r.ar dst, r.opReadRegAndSaturate (bit1 opc 0))
  loads := [⟨r.ar src, fun val => [((bits2 opc 4).val + DSP_REG_AXL0, val)]⟩]
  next := [(3, next3), (0, next0)]

def loadTwoPlan (sreg : Fin 4) (dst1 dst2 : Nat) (next nextAr3 : Regs → BitVec 16)
    (r : Regs) : ExtPlan where
  loads := [⟨r.ar sreg, fun val => [(dst1, val)]⟩,
    ⟨if isSameMemArea (r.ar sreg) (r.ar 3) then r.ar sreg else r.ar 3, fun val => [(dst2, val)]⟩]
  next := [(sreg, next), (3, nextAr3)]

def ldPlan (next : Fin 4 → Regs → BitVec 16) (nextAr3 : Regs → BitVec 16) (opc : BitVec 16) :
    Regs → ExtPlan :=
  loadTwoPlan (bits2 opc 0) (2 * (bit1 opc 5).val + DSP_REG_AXL0)
    (2 * (bit1 opc 4).val + DSP_REG_AXL1) (next (bits2 opc 0)) nextAr3

def ldaxPlan (next : Fin 4 → Regs → BitVec 16) (nextAr3 : Regs → BitVec 16) (opc : BitVec 16) :
    Regs → ExtPlan :=
  loadTwoPlan (Fin.ofNat 4 (bit1 opc 5).val) ((bit1 opc 4).val + DSP_REG_AXH0)
    ((bit1 opc 4).val + DSP_REG_AXL0) (next (Fin.ofNat 4 (bit1 opc 5).val)) nextAr3

end Ext

/-- The plan of an extension, from the registers before the instruction. -/
def ExtFunc.plan (f : ExtFunc) (opc : BitVec 16) (r : Regs) : ExtPlan :=
  match f with
  | .cw => {}
  | .nop => {}
  | .dr => { next := [(bits2 opc 0, (·.decrementAddrReg (bits2 opc 0)))] }
  | .ir => { next := [(bits2 opc 0, Ext.increment (bits2 opc 0))] }
  | .nr => { next := [(bits2 opc 0, Ext.increase (bits2 opc 0))] }
  | .mv => { moves := [((bits2 opc 2).val + DSP_REG_AXL0, Ext.accWordOf r (bits2 opc 0))] }
  | .s => Ext.storePlan opc r (Ext.increment (bits2 opc 0))
  | .sn => Ext.storePlan opc r (Ext.increase (bits2 opc 0))
  | .l => Ext.loadIntoPlan opc r (Ext.increment (bits2 opc 0))
  | .ln => Ext.loadIntoPlan opc r (Ext.increase (bits2 opc 0))
  | .ls => Ext.storeLoadPlan 3 0 (Ext.increment 3) (Ext.increment 0) opc r
  | .lsn => Ext.storeLoadPlan 3 0 (Ext.increment 3) (Ext.increase 0) opc r
  | .lsm => Ext.storeLoadPlan 3 0 (Ext.increase 3) (Ext.increment 0) opc r
  | .lsnm => Ext.storeLoadPlan 3 0 (Ext.increase 3) (Ext.increase 0) opc r
  | .sl => Ext.storeLoadPlan 0 3 (Ext.increment 3) (Ext.increment 0) opc r
  | .sln => Ext.storeLoadPlan 0 3 (Ext.increment 3) (Ext.increase 0) opc r
  | .slm => Ext.storeLoadPlan 0 3 (Ext.increase 3) (Ext.increment 0) opc r
  | .slnm => Ext.storeLoadPlan 0 3 (Ext.increase 3) (Ext.increase 0) opc r
  | .ldax => Ext.ldaxPlan Ext.increment (Ext.increment 3) opc r
  | .ldaxn => Ext.ldaxPlan Ext.increase (Ext.increment 3) opc r
  | .ldaxm => Ext.ldaxPlan Ext.increment (Ext.increase 3) opc r
  | .ldaxnm => Ext.ldaxPlan Ext.increase (Ext.increase 3) opc r
  | .ld => Ext.ldPlan Ext.increment (Ext.increment 3) opc r
  | .ldn => Ext.ldPlan Ext.increase (Ext.increment 3) opc r
  | .ldm => Ext.ldPlan Ext.increment (Ext.increase 3) opc r
  | .ldnm => Ext.ldPlan Ext.increase (Ext.increase 3) opc r

/-! ## the log -/

namespace SDSP

/-- Leaves writes in entries of the log. -/
def logFrom : List (Fin 5) → List (Nat × BitVec 16) → SDSP σ → SDSP σ
  | i :: is, w :: ws, s => logFrom is ws (s.writeToBackLog i w.1 w.2)
  | _, _, s => s

def logAll (ws : List (Nat × BitVec 16)) (s : SDSP σ) : SDSP σ := logFrom [0, 1, 2, 3, 4] ws s

variable (s : SDSP σ)

@[simp] theorem dmemRead_ar (addr : BitVec 16) : (s.dmemRead io addr).2.r.ar = s.r.ar := by
  obtain ⟨m, h | h⟩ := s.dmemRead_eq io addr
  · rw [h]
  · rw [h]
    rfl

theorem writeToBackLog_dmemRead (i : Fin 5) (n : Nat) (val addr : BitVec 16) :
    (s.writeToBackLog i n val).dmemRead io addr =
      ((s.dmemRead io addr).1, (s.dmemRead io addr).2.writeToBackLog i n val) := by
  unfold dmemRead
  split
  · rfl
  · split
    · rfl
    · split
      · cases h : (io.read s.mem addr).2.2 <;> simp [writeToBackLog, reset, h]
      · rfl

end SDSP

namespace Ext

variable (opc : BitVec 16) (s : SDSP σ)

theorem loadInto_eq (next : Regs → BitVec 16) : loadInto io opc s next =
      SDSP.logAll ((loadIntoPlan opc s.r next).run io s).1
        ((loadIntoPlan opc s.r next).run io s).2 := by
  by_cases h : bits opc 3 3 + DSP_REG_AXL0 ≥ DSP_REG_ACM0 ∧ s.r.isFlagSet Regs.SR_40_MODE_BIT
  · have hw (val : BitVec 16) : loadIntoWrites opc s.r val =
        [(bits opc 3 3 + DSP_REG_AXL0 - DSP_REG_ACM0 + DSP_REG_ACH0,
          if val &&& 0x8000 ≠ 0 then 0xFFFF else 0x0000), (bits opc 3 3 + DSP_REG_AXL0, val),
          (bits opc 3 3 + DSP_REG_AXL0 - DSP_REG_ACM0 + DSP_REG_ACL0, 0)] := if_pos h
    simp only [ExtPlan.run, ExtPlan.load, loadIntoPlan, hw]
    exact if_pos h
  · have hw (val : BitVec 16) : loadIntoWrites opc s.r val =
        [(bits opc 3 3 + DSP_REG_AXL0, val)] := if_neg h
    simp only [ExtPlan.run, ExtPlan.load, loadIntoPlan, hw]
    exact if_neg h

theorem storeLoad_eq (dst src : Fin 4) (next3 next0 : Regs → BitVec 16) :
    storeLoad io dst src next3 next0 opc s =
      SDSP.logAll ((storeLoadPlan dst src next3 next0 opc s.r).run io s).1
        ((storeLoadPlan dst src next3 next0 opc s.r).run io s).2 := by
  unfold storeLoad
  simp only [SDSP.dmemWrite_r]
  rfl

theorem loadTwo_eq (sreg : Fin 4) (dst1 dst2 : Nat) (next nextAr3 : Regs → BitVec 16) :
    loadTwo io sreg dst1 dst2 next nextAr3 s =
      SDSP.logAll ((loadTwoPlan sreg dst1 dst2 next nextAr3 s.r).run io s).1
        ((loadTwoPlan sreg dst1 dst2 next nextAr3 s.r).run io s).2 := by
  unfold loadTwo
  simp only [SDSP.writeToBackLog_dmemRead, SDSP.writeToBackLog_r, SDSP.dmemRead_ar]
  rfl

end Ext

/-- **Extensions are their plans**: an extension carries out the plan made from the
registers it finds, and leaves the register writes of it in the log. -/
theorem ExtFunc.exec_eq (f : ExtFunc) (opc : BitVec 16) (s : SDSP σ) : f.exec io opc s =
      SDSP.logAll ((f.plan opc s.r).run io s).1 ((f.plan opc s.r).run io s).2 := by
  cases f with
  | cw | nop | dr | ir | nr | mv => rfl
  | s | sn =>
    simp only [exec, Ext.s, Ext.sn, SDSP.dmemWrite_r]
    rw [plan, Ext.storePlan, ExtPlan.run]
    simp only [ExtPlan.load, ExtPlan.storeTo, List.nil_append, List.map, SDSP.dmemWrite_r]
    rfl
  | l => exact Ext.loadInto_eq io opc s (Ext.increment (bits2 opc 0))
  | ln => exact Ext.loadInto_eq io opc s (Ext.increase (bits2 opc 0))
  | ls | sl | lsn | sln | lsm | slm | lsnm | slnm => exact Ext.storeLoad_eq io opc s _ _ _ _
  | ldax | ldaxn | ldaxm | ldaxnm => exact Ext.loadTwo_eq io s _ _ _ _ _
  | ld | ldn | ldm | ldnm => exact Ext.loadTwo_eq io s _ _ _ _ _

/-! ## writes that go to different registers -/

/-- What a register holds after a write: the high words are sign extended bytes. -/
def Reg.stored (val : BitVec 16) : Reg → BitVec 16
  | .ach _ => (val.setWidth 8).signExtend 16
  | _ => val

theorem Regs.get_set_self (r : Regs) (val : BitVec 16) (x : Reg) :
    (r.set val x).get x = x.stored val := by
  cases x <;> simp [set, get, setAr, setAcL, setAcM, setAcH, Reg.stored]

theorem Regs.get_set_of_ne (r : Regs) (val : BitVec 16) {x y : Reg} (h : y ≠ x) :
    (r.set val x).get y = r.get y := by
  cases x <;> cases y <;>
    simp_all [set, get, setAr, setAcL, setAcM, setAcH, Function.update_apply] <;>
    split <;> simp_all

/-- Registers that are written without a push or an effect on the flags. -/
def Reg.isPlain : Reg → Bool
  | .st _ => false
  | .sr => false
  | _ => true

/-- Writes applied in order. -/
def Regs.setAll (r : Regs) (ws : List (Nat × BitVec 16)) : Regs :=
  ws.foldl (fun r w => r.set w.2 (Reg.ofNumber w.1)) r

theorem Regs.get_setAll_of_notMem (x : Reg) (ws : List (Nat × BitVec 16)) :
    ∀ r : Regs, x ∉ ws.map (fun w => Reg.ofNumber w.1) → (r.setAll ws).get x = r.get x := by
  induction ws with
  | nil => exact fun _ _ => rfl
  | cons w ws ih =>
    intro r hx
    rw [List.map_cons, List.mem_cons, not_or] at hx
    exact (ih _ hx.2).trans (r.get_set_of_ne w.2 hx.1)

theorem Regs.get_setAll_of_mem {w : Nat × BitVec 16} (ws : List (Nat × BitVec 16)) :
    ∀ r : Regs, (ws.map fun w => Reg.ofNumber w.1).Nodup → w ∈ ws →
      (r.setAll ws).get (Reg.ofNumber w.1) = (Reg.ofNumber w.1).stored w.2 := by
  induction ws with
  | nil => exact fun _ _ h => absurd h List.not_mem_nil
  | cons v ws ih =>
    intro r hnodup hw
    rw [List.map_cons, List.nodup_cons] at hnodup
    rcases List.mem_cons.mp hw with rfl | hw
    · exact (get_setAll_of_notMem _ ws _ hnodup.1).trans (r.get_set_self w.2 _)
    · exact ih _ hnodup.2 hw

/-! ## the log applied -/

namespace SDSP

/-- No entry of the log is in use. -/
def LogEmpty (s : SDSP σ) : Prop := ∀ i, s.writeBackLogIdx i = none

/-- The entries hold the writes, and the entries after them are free. -/
def Pending (s : SDSP σ) : List (Fin 5) → List (Nat × BitVec 16) → Prop
  | is, [] => ∀ i ∈ is, s.writeBackLogIdx i = none
  | i :: is, w :: ws =>
    s.writeBackLogIdx i = some w.1 ∧ s.writeBackLog i = w.2 ∧ Pending s is ws
  | [], _ :: _ => False

variable {s t : SDSP σ}

theorem Pending.congr : ∀ {is : List (Fin 5)} {ws : List (Nat × BitVec 16)}, s.Pending is ws →
    (∀ i ∈ is, t.writeBackLogIdx i = s.writeBackLogIdx i ∧ t.writeBackLog i = s.writeBackLog i) →
    t.Pending is ws
  | [], [], _, _ => fun _ hi => absurd hi List.not_mem_nil
  | _ :: _, [], h, heq => fun i hi => (heq i hi).1.trans (h i hi)
  | i :: is, w :: ws, ⟨hidx, hval, hrest⟩, heq => by
    obtain ⟨hi, hv⟩ := heq i List.mem_cons_self
    exact ⟨hi.trans hidx, hv.trans hval, hrest.congr fun j hj => heq j (List.mem_cons_of_mem _ hj)⟩

theorem logFrom_of_notMem : ∀ (is : List (Fin 5)) (ws : List (Nat × BitVec 16)) (s : SDSP σ)
    (j : Fin 5), j ∉ is → (logFrom is ws s).writeBackLogIdx j = s.writeBackLogIdx j ∧
      (logFrom is ws s).writeBackLog j = s.writeBackLog j
  | [], _, _, _, _ => ⟨rfl, rfl⟩
  | _ :: _, [], _, _, _ => ⟨rfl, rfl⟩
  | i :: is, w :: ws, s, j, hj => by
    rw [List.mem_cons, not_or] at hj
    obtain ⟨hidx, hval⟩ := logFrom_of_notMem is ws (s.writeToBackLog i w.1 w.2) j hj.2
    exact ⟨hidx.trans (Function.update_of_ne hj.1 _ _), hval.trans (Function.update_of_ne hj.1 _ _)⟩

theorem logFrom_pending : ∀ (is : List (Fin 5)) (ws : List (Nat × BitVec 16)) (s : SDSP σ),
    is.Nodup → ws.length ≤ is.length → (∀ i ∈ is, s.writeBackLogIdx i = none) →
    (logFrom is ws s).Pending is ws
  | [], [], _, _, _, h => h
  | _ :: _, [], _, _, _, h => h
  | i :: is, w :: ws, s, hnodup, hlen, h => by
    rw [List.nodup_cons] at hnodup
    have hfree : ∀ j ∈ is, (s.writeToBackLog i w.1 w.2).writeBackLogIdx j = none := by
      intro j hj
      have hne : j ≠ i := fun h => hnodup.1 (h ▸ hj)
      exact (Function.update_of_ne hne _ _).trans (h j (List.mem_cons_of_mem _ hj))
    obtain ⟨hidx, hval⟩ := logFrom_of_notMem is ws (s.writeToBackLog i w.1 w.2) i hnodup.1
    exact ⟨hidx.trans (Function.update_self ..), hval.trans (Function.update_self ..),
      logFrom_pending is ws _ hnodup.2 (Nat.le_of_succ_le_succ hlen) hfree⟩

theorem logFrom_eq : ∀ (is : List (Fin 5)) (ws : List (Nat × BitVec 16)) (s : SDSP σ),
    logFrom is ws s =
      { s with
        writeBackLog := (logFrom is ws s).writeBackLog
        writeBackLogIdx := (logFrom is ws s).writeBackLogIdx }
  | [], _, _ => rfl
  | _ :: _, [], _ => rfl
  | i :: is, w :: ws, s => logFrom_eq is ws (s.writeToBackLog i w.1 w.2)

theorem opWriteReg_eq {n : Nat} (h : (Reg.ofNumber n).isPlain) (val : BitVec 16) :
    s.opWriteReg n val = { s with r := s.r.set val (Reg.ofNumber n) } := by
  unfold opWriteReg
  generalize Reg.ofNumber n = x at h
  cases x with
  | st i => cases h
  | _ => rfl

theorem applyWriteBackLogFrom_eq (ws : List (Nat × BitVec 16)) :
    ∀ (is : List (Fin 5)) (s : SDSP σ), is.Nodup → s.Pending is ws →
      (∀ i ∉ is, s.writeBackLogIdx i = none) → (∀ w ∈ ws, (Reg.ofNumber w.1).isPlain) →
      s.applyWriteBackLogFrom is =
        { s with r := s.r.setAll ws, writeBackLogIdx := fun _ => none } := by
  induction ws with
  | nil =>
    intro is s _ hpend hrest _
    have hnone : s.writeBackLogIdx = fun _ => none := by
      funext i
      by_cases hi : i ∈ is
      · cases is with
        | nil => exact absurd hi List.not_mem_nil
        | cons j is => exact hpend i hi
      · exact hrest i hi
    have hs : s.applyWriteBackLogFrom is = s := by
      cases is with
      | nil => rfl
      | cons i is =>
        unfold applyWriteBackLogFrom
        rw [hnone]
    rw [hs]
    exact congrArg (fun idx => { s with writeBackLogIdx := idx }) hnone
  | cons w ws ih =>
    intro is s hnodup hpend hrest hplain
    cases is with
    | nil => exact hpend.elim
    | cons i is =>
      obtain ⟨hidx, hval, hpend⟩ := hpend
      rw [List.nodup_cons] at hnodup
      have hw := opWriteReg_eq (s := s) (hplain w List.mem_cons_self) w.2
      have hstep : s.applyWriteBackLogFrom (i :: is) = ({ s with
            r := s.r.set w.2 (Reg.ofNumber w.1)
            writeBackLogIdx := Function.update s.writeBackLogIdx i none } :
            SDSP σ).applyWriteBackLogFrom is := by
        rw [applyWriteBackLogFrom, hidx]
        simp only [hval, hw]
      rw [hstep, ih is _ hnodup.2]
      · rfl
      · refine hpend.congr fun j hj => ⟨Function.update_of_ne ?_ _ _, rfl⟩
        exact fun h => hnodup.1 (h ▸ hj)
      · intro j hj
        by_cases hji : j = i
        · rw [hji]
          exact Function.update_self ..
        · have hj' : j ∉ i :: is := by simp [hji, hj]
          exact (Function.update_of_ne hji _ _).trans (hrest j hj')
      · exact fun v hv => hplain v (List.mem_cons_of_mem _ hv)

end SDSP

/-! ## the writes of a plan -/

/-- The registers that writes go to. -/
def writtenRegs (ws : List (Nat × BitVec 16)) : List Reg := ws.map fun w => Reg.ofNumber w.1

/-- Writes that fit in the log, go to different registers and are stored as they are. -/
structure WritesOk (ws : List (Nat × BitVec 16)) : Prop where
  short : ws.length ≤ 4
  nodup : (writtenRegs ws).Nodup
  plain : ∀ w ∈ ws, (Reg.ofNumber w.1).isPlain
  stored : ∀ w ∈ ws, (Reg.ofNumber w.1).stored w.2 = w.2

/-- Registers that besides hold every value written to them. -/
def Reg.isExact : Reg → Bool
  | .st _ => false
  | .sr => false
  | .ach _ => false
  | _ => true

variable {x : Reg}

theorem Reg.isPlain_of_isExact (h : x.isExact) : x.isPlain := by
  cases x <;> first | rfl | cases h

theorem Reg.stored_of_isExact (h : x.isExact) (val : BitVec 16) : x.stored val = val := by
  cases x <;> first | rfl | cases h

/-- Registers for at most four exact writes. -/
def Reg.AllExact (regs : List Reg) : Prop :=
  regs.length ≤ 4 ∧ regs.Nodup ∧ ∀ x ∈ regs, x.isExact

instance (regs : List Reg) : Decidable (Reg.AllExact regs) :=
  inferInstanceAs (Decidable (_ ∧ _ ∧ _))

theorem WritesOk.of_regs {ws : List (Nat × BitVec 16)} (h : Reg.AllExact (writtenRegs ws)) :
    WritesOk ws where
  short := by
    have hlen := h.1
    rw [writtenRegs, List.length_map] at hlen
    exact hlen
  nodup := h.2.1
  plain w hw := Reg.isPlain_of_isExact (h.2.2 _ (List.mem_map_of_mem hw))
  stored w hw := Reg.stored_of_isExact (h.2.2 _ (List.mem_map_of_mem hw)) _

namespace Ext

theorem allExact_next : ∀ i : Fin 4, Reg.AllExact [Reg.ofNumber i.val] := by decide

theorem allExact_move : ∀ k : Fin 4, Reg.AllExact [Reg.ofNumber (k.val + DSP_REG_AXL0)] := by
  decide

theorem allExact_load : ∀ (d : Fin 8) (i : Fin 4),
    Reg.AllExact [Reg.ofNumber (d.val + DSP_REG_AXL0), Reg.ofNumber i.val] := by decide

theorem allExact_storeLoad : ∀ k : Fin 4,
    Reg.AllExact [Reg.ofNumber (k.val + DSP_REG_AXL0), .ar 3, .ar 0] := by decide

theorem allExact_ldax : ∀ b a : Fin 2, Reg.AllExact [Reg.ofNumber (a.val + DSP_REG_AXH0),
    Reg.ofNumber (a.val + DSP_REG_AXL0), Reg.ofNumber (Fin.ofNat 4 b.val).val, .ar 3] := by decide

theorem allExact_ld : ∀ (i : Fin 4) (b a : Fin 2), i ≠ 3 →
    Reg.AllExact [Reg.ofNumber (2 * b.val + DSP_REG_AXL0), Reg.ofNumber (2 * a.val + DSP_REG_AXL1),
      Reg.ofNumber i.val, .ar 3] := by decide

theorem plain_extended : ∀ (d : Fin 8) (i : Fin 4), d.val + DSP_REG_AXL0 ≥ DSP_REG_ACM0 →
    [Reg.ofNumber (d.val + DSP_REG_AXL0 - DSP_REG_ACM0 + DSP_REG_ACH0),
        Reg.ofNumber (d.val + DSP_REG_AXL0),
        Reg.ofNumber (d.val + DSP_REG_AXL0 - DSP_REG_ACM0 + DSP_REG_ACL0),
        Reg.ofNumber i.val].Nodup ∧
      (Reg.ofNumber (d.val + DSP_REG_AXL0 - DSP_REG_ACM0 + DSP_REG_ACH0)).isPlain ∧
      (Reg.ofNumber (d.val + DSP_REG_AXL0)).isExact ∧
      (Reg.ofNumber (d.val + DSP_REG_AXL0 - DSP_REG_ACM0 + DSP_REG_ACL0)).isExact ∧
      (Reg.ofNumber i.val).isExact := by decide

theorem stored_sign (x : Reg) (c : Prop) [Decidable c] :
    x.stored (if c then 0xFFFF else 0x0000) = if c then 0xFFFF else 0x0000 := by
  cases x with
  | ach i => split <;> rfl
  | _ => rfl

variable (opc : BitVec 16) (r : Regs) (s : SDSP σ)

theorem bits_lt (lo w : Nat) : bits opc lo w < 2 ^ w := BitVec.isLt _

theorem loadInto_writesOk (next : Regs → BitVec 16) :
    WritesOk ((loadIntoPlan opc r next).run io s).1 := by
  obtain ⟨d, hd⟩ : ∃ d : Fin 8, bits opc 3 3 = d.val := ⟨⟨_, bits_lt opc 3 3⟩, rfl⟩
  by_cases h : bits opc 3 3 + DSP_REG_AXL0 ≥ DSP_REG_ACM0 ∧ r.isFlagSet Regs.SR_40_MODE_BIT
  · have hw (val : BitVec 16) : loadIntoWrites opc r val =
        [(bits opc 3 3 + DSP_REG_AXL0 - DSP_REG_ACM0 + DSP_REG_ACH0,
          if val &&& 0x8000 ≠ 0 then 0xFFFF else 0x0000), (bits opc 3 3 + DSP_REG_AXL0, val),
          (bits opc 3 3 + DSP_REG_AXL0 - DSP_REG_ACM0 + DSP_REG_ACL0, 0)] := if_pos h
    obtain ⟨hnodup, hh, hm, hl, ha⟩ := plain_extended d (bits2 opc 0) (hd ▸ h.1)
    simp only [ExtPlan.run, ExtPlan.load, loadIntoPlan, hw, hd]
    refine ⟨by simp, hnodup, ?_, ?_⟩
    · simp [hh, Reg.isPlain_of_isExact hm, Reg.isPlain_of_isExact hl, Reg.isPlain_of_isExact ha]
    · simp only [List.nil_append, List.append_nil, List.map_cons, List.map_nil,
        List.cons_append, List.forall_mem_cons]
      exact ⟨stored_sign _ _, Reg.stored_of_isExact hm _, Reg.stored_of_isExact hl _,
        Reg.stored_of_isExact ha _, fun _ h => absurd h List.not_mem_nil⟩
  · have hw (val : BitVec 16) : loadIntoWrites opc r val =
        [(bits opc 3 3 + DSP_REG_AXL0, val)] := if_neg h
    refine .of_regs ?_
    simp only [ExtPlan.run, ExtPlan.load, loadIntoPlan, hw, hd]
    exact allExact_load d _

end Ext

/-- The extension of the low bits of an opcode. -/
def extFuncAt (i : BitVec 8) : ExtFunc :=
  match sOpcodesExt.find? fun t => i.setWidth 16 &&& t.opcodeMask = t.opcode with
  | some t => t.intFunc
  | none => .cw

theorem byte_of_mask (inst c : BitVec 16) {k : Nat} (h2 : 2 ≤ k) (h8 : k ≤ 8)
    (hc : c.toNat = 2 ^ k - 1) :
    ((inst &&& c).setWidth 8).setWidth 16 = inst &&& c ∧
      ((inst &&& c).setWidth 8).toNat % 4 = inst.toNat % 4 := by
  have hmask := toNat_and_mask inst k hc
  have hlt : (inst &&& c).toNat < 256 := by
    rw [hmask]
    exact Nat.lt_of_lt_of_le (Nat.mod_lt _ (Nat.two_pow_pos k)) (Nat.pow_le_pow_right (by decide) h8)
  have hbyte : ((inst &&& c).setWidth 8).toNat = (inst &&& c).toNat := by
    exact Nat.mod_eq_of_lt hlt
  constructor
  · apply BitVec.eq_of_toNat_eq
    rw [BitVec.toNat_setWidth, hbyte]
    exact Nat.mod_eq_of_lt (BitVec.isLt _)
  · rw [hbyte, hmask]
    exact Nat.mod_mod_of_dvd _ (Nat.pow_dvd_pow 2 h2)

theorem getExtFunc_eq (inst : BitVec 16) :
    ∃ i : BitVec 8, getExtFunc inst = extFuncAt i ∧ i.toNat % 4 = inst.toNat % 4 := by
  unfold getExtFunc extFuncAt
  by_cases h : inst >>> 12 = 0x3
  · obtain ⟨hi, hmod⟩ := byte_of_mask inst 0x7F (k := 7) (by decide) (by decide) (by decide)
    refine ⟨(inst &&& 0x7F).setWidth 8, ?_, hmod⟩
    rw [if_pos h, hi] <;> rfl
  · obtain ⟨hi, hmod⟩ := byte_of_mask inst 0xFF (k := 8) (by decide) (by decide) (by decide)
    refine ⟨(inst &&& 0xFF).setWidth 8, ?_, hmod⟩
    rw [if_neg h, hi] <;> rfl

theorem extFuncAt_ld : ∀ i : BitVec 8, extFuncAt i = .ld ∨ extFuncAt i = .ldn ∨
    extFuncAt i = .ldm ∨ extFuncAt i = .ldnm → i.toNat % 4 ≠ 3 := by decide

variable {inst : BitVec 16}

theorem bits2_of_ld (h : getExtFunc inst = .ld ∨ getExtFunc inst = .ldn ∨
    getExtFunc inst = .ldm ∨ getExtFunc inst = .ldnm) : bits2 inst 0 ≠ 3 := by
  obtain ⟨i, hi, hmod⟩ := getExtFunc_eq inst
  rw [hi] at h
  intro h3
  have h3' : inst.toNat % 4 = 3 := by
    have := congrArg Fin.val h3
    simpa [bits2] using this
  exact extFuncAt_ld i h (hmod.trans h3')

theorem ExtFunc.writesOk (inst : BitVec 16) (r : Regs) (s : SDSP σ) :
    WritesOk (((getExtFunc inst).plan inst r).run io s).1 := by
  have hld : _ → bits2 inst 0 ≠ 3 := bits2_of_ld
  generalize getExtFunc inst = f at hld
  cases f with
  | cw | nop => exact .of_regs (show Reg.AllExact [] by decide)
  | dr | ir | nr => exact .of_regs (Ext.allExact_next _)
  | mv => exact .of_regs (Ext.allExact_move _)
  | s | sn => exact .of_regs (Ext.allExact_next _)
  | l | ln => exact Ext.loadInto_writesOk io inst r s _
  | ls | sl | lsn | sln | lsm | slm | lsnm | slnm => exact .of_regs (Ext.allExact_storeLoad _)
  | ldax | ldaxn | ldaxm | ldaxnm => exact .of_regs (Ext.allExact_ldax _ _)
  | ld | ldn | ldm | ldnm => exact .of_regs (Ext.allExact_ld _ _ _ (hld (by simp)))

/-! ## the instruction itself -/

/-- What an instruction with an extension does to the registers. -/
def IntFunc.mainRegs (f : IntFunc) (opc : BitVec 16) (r : Regs) : Regs :=
  match f with
  | .arith f => (f.exec opc r).1.updateSR (f.exec opc r).2
  | .mult f => (f.exec opc r).1.updateSR (f.exec opc r).2
  | .misc f => f.exec opc r
  | _ => r

/-- The registers an instruction writes: those that it changes in some state. -/
def IntFunc.Writes (f : IntFunc) (opc : BitVec 16) (x : Reg) : Prop :=
  ∃ r : Regs, (f.mainRegs opc r).get x ≠ r.get x

theorem IntFunc.exec_eq_mainRegs {f : IntFunc} (hf : f.isParallel) (opc : BitVec 16)
    (s : SDSP σ) : f.exec io true opc s = { s with r := f.mainRegs opc s.r } := by
  cases f with
  | arith | mult | misc => rfl
  | _ => cases hf

variable {needed : Bool}

theorem IntFunc.exec_parallel {f : IntFunc} (hf : f.isParallel) (opc : BitVec 16) (s : SDSP σ) :
    f.exec io needed opc s = { s with r := (f.exec io needed opc s).r } := by
  cases f with
  | arith | mult | misc => rfl
  | _ => cases hf

variable {s t : SDSP σ}

theorem IntFunc.exec_parallel_r {f : IntFunc} (hf : f.isParallel) (needed : Bool) (opc : BitVec 16)
    (h : t.r = s.r) : (f.exec io needed opc t).r = (f.exec io needed opc s).r := by
  cases f with
  | arith | mult | misc =>
    unfold exec
    simp only [SDSP.withRegs, h]
  | _ => cases hf

theorem IntFunc.mainRegs_operands {f : IntFunc} (hf : f.isParallel) (opc : BitVec 16)
    {r r' : Regs} (h : r'.operands = r.operands) :
    (f.mainRegs opc r').operands = (f.mainRegs opc r).operands := by
  obtain ⟨ar, ix, wr, st, cr, sr, prod, ax, ac⟩ := r
  obtain ⟨ar', ix', wr', st', cr', sr', prod', ax', ac'⟩ := r'
  cases h
  cases f with
  | arith f => cases f <;> rfl
  | mult f => cases f <;> rfl
  | misc f =>
    cases f with
    | nx => rfl
    | srbith =>
      simp only [mainRegs, MiscFunc.exec, Interpreter.srbith]
      split <;> rfl
    | _ => cases hf
  | _ => cases hf

/-- The registers that are operands. -/
def Reg.isOperand : Reg → Bool
  | .ar _ => false
  | .ix _ => false
  | .wr _ => false
  | .st _ => false
  | .cr => false
  | _ => true

theorem Regs.get_eq_of_operands {r r' : Regs} (h : r'.operands = r.operands) (hx : x.isOperand) :
    r'.get x = r.get x := by
  obtain ⟨ar, ix, wr, st, cr, sr, prod, ax, ac⟩ := r
  obtain ⟨ar', ix', wr', st', cr', sr', prod', ax', ac'⟩ := r'
  cases h
  cases x <;> first | rfl | cases hx

theorem IntFunc.isOperand_of_writes {f : IntFunc} (hf : f.isParallel) {opc : BitVec 16}
    (h : f.Writes opc x) : x.isOperand := by
  obtain ⟨r, hne⟩ := h
  by_contra hx
  refine hne ?_
  cases f with
  | arith f => cases x <;> first | exact absurd rfl hx | (cases f <;> rfl)
  | mult f => cases x <;> first | exact absurd rfl hx | (cases f <;> rfl)
  | misc f =>
    cases f with
    | nx => rfl
    | srbith =>
      simp only [mainRegs, MiscFunc.exec, Interpreter.srbith]
      cases x <;> first | exact absurd rfl hx | (split <;> rfl)
    | _ => cases hf
  | _ => cases hf

/-! ## parallel execution -/

/-- The plan of an instruction's extension. -/
def SDSP.extPlan (s : SDSP σ) (inst : BitVec 16) : ExtPlan := (getExtFunc inst).plan inst s.r

/-- What the extension writes to registers, and the core after its store and loads. -/
def SDSP.extRun (s : SDSP σ) (inst : BitVec 16) : List (Nat × BitVec 16) × SDSP σ :=
  (s.extPlan inst).run io s

/-- The core with other memories, reset or not. -/
def SDSP.MemoriesOf (s t : SDSP σ) : Prop :=
  t = { s with mem := t.mem } ∨ t = ({ s with mem := t.mem } : SDSP σ).reset

theorem ExtPlan.storeTo_eq (p : ExtPlan) (s : SDSP σ) :
    p.storeTo io s = { s with mem := (p.storeTo io s).mem } := by
  unfold storeTo
  split
  · rfl
  · unfold SDSP.dmemWrite
    split
    · rfl
    · split <;> rfl

theorem SDSP.MemoriesOf.trans {s t u : SDSP σ} (h : s.MemoriesOf t) (h' : t.MemoriesOf u) :
    s.MemoriesOf u := by
  rcases h with h | h <;> rcases h' with h' | h' <;> rw [h] at h'
  · exact .inl h'
  · exact .inr h'
  · exact .inr h'
  · exact .inr h'

theorem ExtPlan.load_memoriesOf (ls : List ExtLoad) :
    ∀ s : SDSP σ, s.MemoriesOf (load io ls s).2 := by
  induction ls with
  | nil => exact fun s => .inl rfl
  | cons l ls ih =>
    intro s
    refine SDSP.MemoriesOf.trans (t := (s.dmemRead io l.addr).2) ?_ (ih _)
    obtain ⟨m, h | h⟩ := s.dmemRead_eq io l.addr
    · rw [h]
      exact .inl rfl
    · rw [h]
      exact .inr rfl

theorem ExtPlan.load_of_memory (ls : List ExtLoad) :
    ∀ s : SDSP σ, (∀ l ∈ ls, l.addr >>> 12 ≠ 0xf) → (load io ls s).2 = s := by
  induction ls with
  | nil => exact fun _ _ => rfl
  | cons l ls ih =>
    intro s h
    have hread : (s.dmemRead io l.addr).2 = s := by
      unfold SDSP.dmemRead
      rw [if_neg (h l List.mem_cons_self)]
      split
      · rfl
      · split <;> rfl
    show (load io ls (s.dmemRead io l.addr).2).2 = s
    rw [hread]
    exact ih s fun l' hl' => h l' (List.mem_cons_of_mem _ hl')

theorem SDSP.extRun_memoriesOf (s : SDSP σ) (inst : BitVec 16) :
    s.MemoriesOf (s.extRun io inst).2 :=
  (SDSP.MemoriesOf.trans (t := (s.extPlan inst).storeTo io s)
    (.inl (ExtPlan.storeTo_eq io _ s)) (ExtPlan.load_memoriesOf io _ _))

/-- The state an instruction leads to as parallel execution of the instruction and
its extension, both on the registers before it. -/
structure ParallelResult (inst : BitVec 16) (s t : SDSP σ) : Prop where
  /-- The instruction's results and flags, from the registers before it. -/
  main : ∀ x, (getOpTemplate inst).intFunc.Writes inst x →
    t.r.get x = ((getOpTemplate inst).intFunc.mainRegs inst s.r).get x
  /-- The extension's loads, moves and address updates, of the plan made from
  the registers before it. -/
  ext : ∀ w ∈ (s.extRun io inst).1, t.r.get (Reg.ofNumber w.1) = w.2
  rest : ∀ x, ¬ (getOpTemplate inst).intFunc.Writes inst x →
    x ∉ writtenRegs (s.extRun io inst).1 → t.r.get x = (s.extRun io inst).2.r.get x
  core : t = { (s.extRun io inst).2 with
    r := t.r, writeBackLog := t.writeBackLog, writeBackLogIdx := t.writeBackLogIdx }
  log : t.LogEmpty
  /-- Outside the memories the extension leaves the core alone, unless a read of a
  hardware register resets it. -/
  memories : s.MemoriesOf (s.extRun io inst).2
  quiet : (∀ l ∈ (s.extPlan inst).loads, l.addr >>> 12 ≠ 0xf) →
    (s.extRun io inst).2 = (s.extPlan inst).storeTo io s

theorem SDSP.MemoriesOf.logEmpty (h : s.MemoriesOf t) (hs : s.LogEmpty) : t.LogEmpty := by
  rcases h with h | h
  · rw [h]
    exact hs
  · rw [h]
    exact hs

theorem SDSP.MemoriesOf.operands (h : s.MemoriesOf t) : t.r.operands = s.r.operands := by
  rcases h with h | h
  · rw [h]
  · rw [h]
    rfl

theorem executeInstruction_plan {s : SDSP σ} (hext : (getOpTemplate inst).extended = true)
    (hlog : s.LogEmpty) :
    executeInstruction io needed inst s =
      { (s.extRun io inst).2 with
        r := ((getOpTemplate inst).intFunc.exec io needed inst (s.extRun io inst).2).r.setAll
          (s.extRun io inst).1
        writeBackLog := (SDSP.logAll (s.extRun io inst).1 (s.extRun io inst).2).writeBackLog
        writeBackLogIdx := fun _ => none } := by
  have hok : WritesOk (s.extRun io inst).1 := ExtFunc.writesOk io inst s.r s
  have hcore := (s.extRun_memoriesOf io inst).logEmpty hlog
  rw [executeInstruction_extended_eq hext rfl rfl, ExtFunc.exec_eq,
    IntFunc.exec_parallel io (isParallel_of_extended hext)]
  change SDSP.applyWriteBackLog
    { SDSP.logAll (s.extRun io inst).1 (s.extRun io inst).2 with
      r := ((getOpTemplate inst).intFunc.exec io needed inst
        (SDSP.logAll (s.extRun io inst).1 (s.extRun io inst).2)).r } = _
  generalize (s.extRun io inst).1 = ws at hok ⊢
  generalize (s.extRun io inst).2 = c at hcore ⊢
  have hpend : (SDSP.logAll ws c).Pending [0, 1, 2, 3, 4] ws :=
    SDSP.logFrom_pending _ _ _ (by decide) (Nat.le_succ_of_le hok.short) fun i _ => hcore i
  have hlogged : SDSP.logAll ws c = _ := SDSP.logFrom_eq [0, 1, 2, 3, 4] ws c
  have hregs : ((getOpTemplate inst).intFunc.exec io needed inst (SDSP.logAll ws c)).r =
      ((getOpTemplate inst).intFunc.exec io needed inst c).r :=
    IntFunc.exec_parallel_r io (isParallel_of_extended hext) needed inst (by rw [hlogged])
  rw [SDSP.applyWriteBackLog, SDSP.applyWriteBackLogFrom_eq ws]
  · rw [hregs, hlogged]
  · decide
  · exact hpend.congr fun _ _ => ⟨rfl, rfl⟩
  · intro i hi
    exact absurd (by revert i; decide) hi
  · exact hok.plain

/-- **Parallel execution**: an instruction and its extension that write different
registers behave as if both ran on the state before. -/
theorem executeInstruction_parallel {inst : BitVec 16} {s : SDSP σ}
    (hext : (getOpTemplate inst).extended = true) (hlog : s.LogEmpty)
    (hdisjoint : ∀ x ∈ writtenRegs (s.extRun io inst).1,
      ¬ (getOpTemplate inst).intFunc.Writes inst x) :
    ParallelResult io inst s (executeInstruction io true inst s) := by
  have hok : WritesOk (s.extRun io inst).1 := ExtFunc.writesOk io inst s.r s
  have hmem := s.extRun_memoriesOf io inst
  have hpar := isParallel_of_extended hext
  have hmain := IntFunc.mainRegs_operands hpar inst hmem.operands
  rw [executeInstruction_plan io hext hlog, IntFunc.exec_eq_mainRegs io hpar]
  refine ⟨?_, ?_, ?_, rfl, fun _ => rfl, hmem, ?_⟩
  · intro x hx
    have hnot : x ∉ writtenRegs (s.extRun io inst).1 := fun h => hdisjoint x h hx
    exact (Regs.get_setAll_of_notMem x _ _ hnot).trans
      (Regs.get_eq_of_operands hmain (IntFunc.isOperand_of_writes hpar hx))
  · intro w hw
    exact (Regs.get_setAll_of_mem _ _ hok.nodup hw).trans (hok.stored w hw)
  · intro x hx hnot
    refine (Regs.get_setAll_of_notMem x _ _ hnot).trans ?_
    by_contra hne
    exact hx ⟨_, hne⟩
  · intro hquiet
    exact ExtPlan.load_of_memory io _ _ hquiet

/-- `ADD $AC0, $AC1 : DR $AR0` from reset. -/
theorem executeInstruction_parallel_add :
    ParallelResult noDevice 0x4c04 (SDSP.init (romWith [0x4c04]))
      (executeInstruction noDevice true 0x4c04 (SDSP.init (romWith [0x4c04]))) := by
  have hf : (getOpTemplate 0x4c04).intFunc = .arith .add := by decide
  refine executeInstruction_parallel noDevice (by decide) (fun _ => rfl) ?_
  intro x hx hw
  have hregs : writtenRegs ((SDSP.init (romWith [0x4c04])).extRun noDevice 0x4c04).1 =
      [.ar 0] := by decide
  rw [hregs, List.mem_singleton] at hx
  rw [hf, hx] at hw
  exact absurd (IntFunc.isOperand_of_writes rfl hw) (by decide)

/-- The core after reset with `$AC0.M` holding 7 and all addressing registers at 0. -/
def sevenInAccumulator : SDSP Unit :=
  { SDSP.init (romWith [0x8080]) with r := Regs.init.setAcM 0 7 }

/-- `NX : LS $AX0.L, $AC0.M` with both addresses alike loads the word it has stored,
not the one that was in memory. -/
theorem load_after_store : sevenInAccumulator.LogEmpty ∧ (getOpTemplate 0x8080).extended = true ∧
      (∀ x ∈ writtenRegs (sevenInAccumulator.extRun noDevice 0x8080).1,
        ¬ (getOpTemplate 0x8080).intFunc.Writes 0x8080 x) ∧
      (sevenInAccumulator.dmemRead noDevice (sevenInAccumulator.r.ar 0)).1 = 0 ∧
      (executeInstruction noDevice true 0x8080 sevenInAccumulator).r.get (.axl 0) = 7 := by
  have hf : (getOpTemplate 0x8080).intFunc = .misc .nx := by decide
  refine ⟨fun _ => rfl, by decide, ?_, by decide, ?_⟩
  · intro x _ hw
    rw [hf] at hw
    obtain ⟨r, hr⟩ := hw
    exact hr rfl
  · rw [executeInstruction_extended_eq (g := .ls) (by decide) hf (by decide)]
    decide

/-! ## the log between instructions -/

namespace SDSP

variable (s : SDSP σ)

theorem opReadReg_idx (reg : Nat) : (s.opReadReg reg).2.writeBackLogIdx = s.writeBackLogIdx := by
  unfold opReadReg
  split <;> rfl

theorem opWriteReg_idx (reg : Nat) (val : BitVec 16) :
    (s.opWriteReg reg val).writeBackLogIdx = s.writeBackLogIdx := by
  unfold opWriteReg
  split <;> rfl

theorem readForStore_idx (reg : Nat) :
    (s.readForStore reg).2.writeBackLogIdx = s.writeBackLogIdx := by
  unfold readForStore
  split
  · rfl
  · exact s.opReadReg_idx reg

theorem dmemRead_idx (addr : BitVec 16) :
    (s.dmemRead io addr).2.writeBackLogIdx = s.writeBackLogIdx := by
  obtain ⟨m, h | h⟩ := s.dmemRead_eq io addr
  · rw [h]
  · rw [h]
    rfl

theorem dmemWrite_idx (addr val : BitVec 16) :
    (s.dmemWrite io addr val).writeBackLogIdx = s.writeBackLogIdx := by
  unfold dmemWrite
  split
  · rfl
  · split <;> rfl

theorem startLoop_idx (cnt : BitVec 16) :
    (s.startLoop cnt).writeBackLogIdx = s.writeBackLogIdx := by
  unfold startLoop
  split <;> rfl

theorem startBlockLoop_idx (cnt : BitVec 16) :
    (s.startBlockLoop cnt).writeBackLogIdx = s.writeBackLogIdx := by
  simp only [startBlockLoop]
  split <;> rfl

theorem checkExceptions_idx : s.checkExceptions.writeBackLogIdx = s.writeBackLogIdx := by
  unfold checkExceptions
  split <;> rfl

theorem handleLoopAtEnd_idx : s.handleLoopAtEnd.writeBackLogIdx = s.writeBackLogIdx := by
  simp only [handleLoopAtEnd, Interpreter.handleLoop, apply_ite SDSP.writeBackLogIdx, regStackPop,
    ite_self]

end SDSP

theorem LoadStoreFunc.exec_idx (f : LoadStoreFunc) (opc : BitVec 16) (s : SDSP σ) :
    (f.exec io opc s).writeBackLogIdx = s.writeBackLogIdx := by
  cases f with
  | mrr => exact (SDSP.opWriteReg_idx _ _ _).trans (s.readForStore_idx _)
  | lri => exact s.fetchCode.2.opWriteReg_idx _ _
  | lris => exact s.opWriteReg_idx _ _
  | srs => exact (SDSP.dmemWrite_idx io _ _ _).trans (s.readForStore_idx _)
  | sr => exact (SDSP.dmemWrite_idx io _ _ _).trans (s.fetchCode.2.readForStore_idx _)
  | si => exact s.fetchCode.2.dmemWrite_idx io _ _
  | lrs => exact (SDSP.opWriteReg_idx _ _ _).trans (s.dmemRead_idx io _)
  | lr => exact (SDSP.opWriteReg_idx _ _ _).trans (s.fetchCode.2.dmemRead_idx io _)
  | lrr | lrrd | lrri | lrrn => exact (SDSP.opWriteReg_idx _ _ _).trans (s.dmemRead_idx io _)
  | srr | srrd | srri | srrn => exact (SDSP.dmemWrite_idx io _ _ _).trans (s.readForStore_idx _)
  | ilrr | ilrrd | ilrri | ilrrn => rfl

theorem BranchFunc.exec_idx (f : BranchFunc) (opc : BitVec 16) (s : SDSP σ) :
    (f.exec opc s).writeBackLogIdx = s.writeBackLogIdx := by
  cases f with
  | call | jcc | ret | ifcc =>
    simp only [exec, Interpreter.call, Interpreter.jcc, Interpreter.ret, Interpreter.ifcc]
    split <;> rfl
  | callr | jmprcc =>
    simp only [exec, Interpreter.callr, Interpreter.jmprcc]
    split
    · exact s.opReadReg_idx _
    · rfl
  | rti | halt => rfl
  | loop => exact (SDSP.startLoop_idx _ _).trans (s.opReadReg_idx _)
  | loopi => exact s.startLoop_idx _
  | bloop => exact (SDSP.startBlockLoop_idx _ _).trans (s.opReadReg_idx _)
  | bloopi => exact s.startBlockLoop_idx _

theorem IntFunc.exec_idx (needed : Bool) (f : IntFunc) (opc : BitVec 16) (s : SDSP σ) :
    (f.exec io needed opc s).writeBackLogIdx = s.writeBackLogIdx := by
  cases f with
  | loadStore f => exact f.exec_idx io opc s
  | branch f => exact f.exec_idx opc s
  | _ => rfl

theorem executeInstruction_logEmpty {s : SDSP σ} (h : s.LogEmpty) :
    (executeInstruction io needed inst s).LogEmpty := by
  by_cases hext : (getOpTemplate inst).extended = true
  · rw [executeInstruction_plan io hext h]
    exact fun _ => rfl
  · rw [executeInstruction_eq (by simpa using hext) rfl]
    intro i
    rw [IntFunc.exec_idx]
    exact h i

end DolphinCore.DSP
