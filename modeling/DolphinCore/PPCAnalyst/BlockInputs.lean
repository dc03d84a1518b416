import DolphinCore.PPCAnalyst.FlagScan

/-!
# DolphinCore.PPCAnalyst.BlockInputs

The registers that a block is said to need, and those it needs.  They are the same where the flags
in the tables say what the functions of the interpreter do; an instruction where they do not is made
up for only by the instructions behind it.
-/

namespace DolphinCore.PPCAnalyst

open PPCTables

-- the tables have some three hundred rows
set_option maxRecDepth 30000

/-! ## what the flags say of the registers -/

/-- The operands that the flags say are read. -/
def flagReads (flags : Flags) : List Operand :=
  (if has flags FL_IN_A then [.A] else []) ++ (if has flags FL_IN_A0 then [.A0] else []) ++
    (if has flags FL_IN_B then [.B] else []) ++ (if has flags FL_IN_C then [.C] else []) ++
    (if has flags FL_IN_S then [.S] else [])

/-- The operands that the flags say are overwritten. -/
def flagWrites (flags : Flags) : List Operand :=
  (if has flags FL_OUT_A then [.A] else []) ++ (if has flags FL_OUT_D then [.D] else [])

/-- The flags, and what is known of `stmw`, say that a register is read. -/
def FlagReads (r : Nat) (x : RunOp) : Prop :=
  (flagReads (getOpInfo x.1.inst).flags ++
    if x.1.inst.OPCD = 47 then [Operand.multiple] else []).any (Operand.has x.2 x.1.inst r) = true

/-- The flags, and what is known of `lmw`, say that a register is overwritten. -/
def FlagWrites (r : Nat) (x : RunOp) : Prop :=
  (flagWrites (getOpInfo x.1.inst).flags ++
    if x.1.inst.OPCD = 46 then [Operand.multiple] else []).any (Operand.has x.2 x.1.inst r) = true

instance (r : Nat) (x : RunOp) : Decidable (FlagReads r x) :=
  inferInstanceAs (Decidable (_ = true))

instance (r : Nat) (x : RunOp) : Decidable (FlagWrites r x) :=
  inferInstanceAs (Decidable (_ = true))

theorem getLsbD_insert {s : BitSet32} {k : Nat} (hk : k < 32) (r : Nat) :
    (s.insert k).getLsbD r = (s.getLsbD r || decide (r = k)) := by
  unfold BitSet32.insert
  congr 1
  by_cases hr : r = k
  · subst hr
    simp [hk]
  · rw [decide_eq_false hr]
    by_cases hlt : r < k
    · simp [hlt]
    · have hsub : r - k ≠ 0 := by omega
      simp [hsub]

theorem getLsbD_insertFrom (s : BitSet32) {k : Nat} (r : Nat) :
    (insertFrom s k).getLsbD r = (s.getLsbD r || (decide (k ≤ r) && decide (r < 32))) := by
  have hfold : ∀ (l : List Nat) (s : BitSet32), (∀ i ∈ l, i < 32) →
      (l.foldl BitSet32.insert s).getLsbD r = (s.getLsbD r || decide (r ∈ l)) := by
    intro l
    induction l with
    | nil => simp
    | cons i l ih =>
      intro s h
      obtain ⟨hi, hl⟩ := List.forall_mem_cons.mp h
      rw [List.foldl_cons, ih _ hl, getLsbD_insert hi, Bool.or_assoc]
      simp
  unfold insertFrom
  rw [hfold _ _ fun i hi => by
    have := (List.mem_range'_1.mp hi).2
    have := (List.mem_range'_1.mp hi).1
    omega]
  congr 1
  rw [Bool.eq_iff_iff]
  simp only [List.mem_range'_1, decide_eq_true_eq, Bool.and_eq_true]
  omega

theorem field_lt (inst : UGeckoInstruction) (lo len : Nat) : inst.field lo len < 2 ^ len :=
  Nat.mod_lt _ (Nat.two_pow_pos len)

theorem getLsbD_insert_if {c : Prop} [Decidable c] {s : BitSet32} {k : Nat} (hk : k < 32)
    (r : Nat) : (if c then s.insert k else s).getLsbD r =
      (s.getLsbD r || (decide c && decide (r = k))) := by
  by_cases hc : c
  · rw [if_pos hc, getLsbD_insert hk, decide_eq_true hc, Bool.true_and]
  · rw [if_neg hc, decide_eq_false hc, Bool.false_and, Bool.or_false]

theorem getLsbD_insertFrom_if {c : Prop} [Decidable c] {s : BitSet32} {k : Nat} (r : Nat) :
    (if c then insertFrom s k else s).getLsbD r =
      (s.getLsbD r || (decide c && (decide (k ≤ r) && decide (r < 32)))) := by
  by_cases hc : c
  · rw [if_pos hc, getLsbD_insertFrom, decide_eq_true hc, Bool.true_and]
  · rw [if_neg hc, decide_eq_false hc, Bool.false_and, Bool.or_false]

theorem any_singleton_if {c : Prop} [Decidable c] (p : Operand → Bool) (o : Operand) :
    (if c then [o] else []).any p = (decide c && p o) := by
  by_cases hc : c <;> simp [hc]

theorem regsIn_iff (outside : Outside) (op : CodeOp) (r : Nat) :
    (regsIn op.inst (getOpInfo op.inst)).getLsbD r = true ↔ FlagReads r (op, outside) := by
  have hRS : op.inst.RS < 32 := field_lt op.inst 21 5
  have hRA : op.inst.RA < 32 := field_lt op.inst 16 5
  have hRB : op.inst.RB < 32 := field_lt op.inst 11 5
  have hRC : op.inst.RC < 32 := field_lt op.inst 6 5
  have hor : ∀ a a0 n p : Bool, ((a || a0 && n) && p) = (a && p || a0 && (n && p)) := by decide
  unfold regsIn FlagReads flagReads
  rw [getLsbD_insertFrom_if, getLsbD_insert_if hRS, getLsbD_insert_if hRC, getLsbD_insert_if hRB,
    getLsbD_insert_if hRA]
  simp only [List.any_append, any_singleton_if, Operand.has]
  simp [hor, UGeckoInstruction.RS, UGeckoInstruction.RD]
  rfl

theorem regsOut_iff (outside : Outside) (op : CodeOp) (r : Nat) :
    (regsOut op.inst (getOpInfo op.inst)).getLsbD r = true ↔ FlagWrites r (op, outside) := by
  have hRD : op.inst.RD < 32 := field_lt op.inst 21 5
  have hRA : op.inst.RA < 32 := field_lt op.inst 16 5
  unfold regsOut FlagWrites flagWrites
  rw [getLsbD_insertFrom_if, getLsbD_insert_if hRD, getLsbD_insert_if hRA]
  simp only [List.any_append, any_singleton_if, Operand.has]
  simp

/-! ## where the flags are wrong -/

/-- How the flags can be wrong about what an instruction does with a register first. -/
inductive Mismatch
  | missesRead
  | inventsRead
  | missesWrite
  | inventsWrite

/-- Where the flags are wrong about a register: they leave out what `twi` reads, what `stswi` and
`stswx` store and all but the first register that `lswi` and `lswx` load, let `lfs` and `lfd` read
register 0 where it stands for the value 0, let `lswx` load a register for no byte, and know nothing
of what a call of the virtual machine does. -/
def mismatch (r : Nat) (x : RunOp) : Option Mismatch :=
  let inst := x.1.inst
  let A0 := Operand.A0.has x.2 inst r
  let B := Operand.B.has x.2 inst r
  match getInterpreterOp inst with
  | .twi => if r = inst.RA then some .missesRead else none
  | .lfs | .lfd => if r = 0 && inst.RA = 0 then some .inventsRead else none
  | .stswi => if holdsBytes inst (NB inst) r && !A0 then some .missesRead else none
  | .stswx => if holdsBytes inst x.2.stringctrl r && !(A0 || B) then some .missesRead else none
  | .lswi =>
    if holdsBytes inst (NB inst) r && r ≠ inst.RD && !A0 then some .missesWrite else none
  | .lswx =>
    if A0 || B then none
    else if r = inst.RD then if x.2.stringctrl = 0 then some .inventsWrite else none
    else if holdsBytes inst x.2.stringctrl r then some .missesWrite else none
  | .vmcall =>
    if x.2.calledReads.getLsbD r then some .missesRead
    else if x.2.calledWrites.getLsbD r then some .missesWrite else none
  | _ => none

/-- What the flags, and the special cases, say that the function of an instruction reads. -/
def saysReads : Instruction → List Operand
  | .twi | .vmcall => []
  | .lfs | .lfd => [.A]
  | .stswi => [.A0]
  | .stswx => [.A0, .B]
  | op => gprReads op

/-- What the flags, and the special cases, say that the function of an instruction overwrites. -/
def saysWrites : Instruction → List Operand
  | .lswi | .lswx => [.D]
  | .vmcall => []
  | op => gprWrites op

theorem flagReads_iff (r : Nat) (x : RunOp) : FlagReads r x ↔
    (saysReads (getInterpreterOp x.1.inst)).any (Operand.has x.2 x.1.inst r) = true := by
  have hrow : ∀ tpl ∈ allRows, flagReads tpl.opinfo.flags ++
      (if tpl.Inst = .stmw then [Operand.multiple] else []) = saysReads tpl.Inst := by
    decide
  unfold FlagReads
  rw [← show _ = saysReads (getInterpreterOp x.1.inst) from hrow _ (entry_mem_allRows x.1.inst)]
  simp only [← op_stmw_iff]
  rfl

theorem flagWrites_iff (r : Nat) (x : RunOp) : FlagWrites r x ↔
    (saysWrites (getInterpreterOp x.1.inst)).any (Operand.has x.2 x.1.inst r) = true := by
  have hrow : ∀ tpl ∈ allRows, flagWrites tpl.opinfo.flags ++
      (if tpl.Inst = .lmw then [Operand.multiple] else []) = saysWrites tpl.Inst := by
    decide
  unfold FlagWrites
  rw [← show _ = saysWrites (getInterpreterOp x.1.inst) from hrow _ (entry_mem_allRows x.1.inst)]
  simp only [← op_lmw_iff]
  rfl

theorem holdsBytes_first (inst : UGeckoInstruction) {bytes : Nat} (h : 0 < bytes) :
    holdsBytes inst bytes inst.RD = true := by
  unfold holdsBytes
  rw [List.any_eq_true]
  have hlt : inst.RD < 32 := field_lt inst 21 5
  exact ⟨0, List.mem_range.mpr h, by simp [Nat.mod_eq_of_lt hlt]⟩

theorem NB_pos (inst : UGeckoInstruction) : 0 < NB inst := by
  unfold NB
  split <;> omega

/-- What is wrong where the flags are wrong. -/
def Mismatch.At (r : Nat) (x : RunOp) : Mismatch → Prop
  | .missesRead => Reads r x ∧ Unused (FlagReads r) (FlagWrites r) x
  | .inventsRead => FlagReads r x ∧ Unused (Reads r) (Writes r) x
  | .missesWrite => (¬ Reads r x ∧ Writes r x) ∧ Unused (FlagReads r) (FlagWrites r) x
  | .inventsWrite => (¬ FlagReads r x ∧ FlagWrites r x) ∧ Unused (Reads r) (Writes r) x

variable {x : RunOp}

theorem uses_of_op {op : Instruction} (hop : getInterpreterOp x.1.inst = op)
    (reads writes reads' writes' : List Operand)
    (h : (gprReads op = reads ∧ gprWrites op = writes) ∧
      saysReads op = reads' ∧ saysWrites op = writes') (r : Nat) :
    ((Reads r x ↔ ∃ o ∈ reads, o.has x.2 x.1.inst r = true) ∧
      (Writes r x ↔ ∃ o ∈ writes, o.has x.2 x.1.inst r = true)) ∧
    (FlagReads r x ↔ ∃ o ∈ reads', o.has x.2 x.1.inst r = true) ∧
      (FlagWrites r x ↔ ∃ o ∈ writes', o.has x.2 x.1.inst r = true) := by
  obtain ⟨⟨rfl, rfl⟩, rfl, rfl⟩ := h
  subst hop
  simp only [← List.any_eq_true]
  exact ⟨⟨Iff.rfl, Iff.rfl⟩, flagReads_iff r x, flagWrites_iff r x⟩

theorem mismatch_spec (r : Nat) (x : RunOp) : match mismatch r x with
    | none => SameUse (FlagReads r) (FlagWrites r) (Reads r) (Writes r) x
    | some m => m.At r x := by
  have hNB := holdsBytes_first x.1.inst (NB_pos x.1.inst)
  have hbytes : 0 < x.2.stringctrl → holdsBytes x.1.inst x.2.stringctrl x.1.inst.RD = true :=
    holdsBytes_first x.1.inst
  have hnone : holdsBytes x.1.inst 0 r = false := by simp [holdsBytes]
  generalize hm : mismatch r x = m
  unfold mismatch at hm
  dsimp only at hm
  split at hm
  case h_1 hop =>
    have huses := uses_of_op hop [.A] [] [] [] ⟨⟨rfl, rfl⟩, rfl, rfl⟩ r
    simp [Operand.has] at huses hm
    grind [Mismatch.At, SameUse, Unused]
  case h_2 hop =>
    have huses := uses_of_op hop [.A0] [] [.A] [] ⟨⟨rfl, rfl⟩, rfl, rfl⟩ r
    simp [Operand.has] at huses hm
    grind [Mismatch.At, SameUse, Unused]
  case h_3 hop =>
    have huses := uses_of_op hop [.A0] [] [.A] [] ⟨⟨rfl, rfl⟩, rfl, rfl⟩ r
    simp [Operand.has] at huses hm
    grind [Mismatch.At, SameUse, Unused]
  case h_4 hop =>
    have huses := uses_of_op hop [.A0, .immediateBytes] [] [.A0] [] ⟨⟨rfl, rfl⟩, rfl, rfl⟩ r
    simp [Operand.has] at huses hm
    grind [Mismatch.At, SameUse, Unused]
  case h_5 hop =>
    have huses := uses_of_op hop [.A0, .B, .countedBytes] [] [.A0, .B] []
      ⟨⟨rfl, rfl⟩, rfl, rfl⟩ r
    simp [Operand.has] at huses hm
    grind [Mismatch.At, SameUse, Unused]
  case h_6 hop =>
    have huses := uses_of_op hop [.A0] [.immediateBytes] [.A0] [.D] ⟨⟨rfl, rfl⟩, rfl, rfl⟩ r
    simp [Operand.has] at huses hm
    grind [Mismatch.At, SameUse, Unused]
  case h_7 hop =>
    have huses := uses_of_op hop [.A0, .B] [.countedBytes] [.A0, .B] [.D]
      ⟨⟨rfl, rfl⟩, rfl, rfl⟩ r
    simp [Operand.has] at huses hm
    grind [Mismatch.At, SameUse, Unused]
  case h_8 hop =>
    have huses := uses_of_op hop [.calledReads] [.calledWrites] [] [] ⟨⟨rfl, rfl⟩, rfl, rfl⟩ r
    simp [Operand.has] at huses hm
    grind [Mismatch.At, SameUse, Unused]
  case h_9 _ htwi hlfs hlfd hstswi hstswx hlswi hlswx hvmcall =>
    have hsays : saysReads (getInterpreterOp x.1.inst) = gprReads (getInterpreterOp x.1.inst) ∧
        saysWrites (getInterpreterOp x.1.inst) = gprWrites (getInterpreterOp x.1.inst) := by
      generalize getInterpreterOp x.1.inst = op at *
      constructor
      · unfold saysReads
        split <;> first | rfl | contradiction
      · unfold saysWrites
        split <;> first | rfl | contradiction
    obtain ⟨⟨hreads, hwrites⟩, hreads', hwrites'⟩ := uses_of_op rfl _ _ _ _ ⟨⟨rfl, rfl⟩, hsays⟩ r
    subst hm
    exact ⟨hreads'.trans hreads.symm, fun _ => hwrites'.trans hwrites.symm⟩

/-! ## the scan for the registers -/

/-- A block when it is run. -/
def running (outside : Nat → Outside) (code : List CodeOp) : List RunOp :=
  code.zipIdx.map fun x => (x.1, outside x.2)

theorem mem_running {outside : Nat → Outside} {code : List CodeOp} (h : x ∈ running outside code) :
    x.1 ∈ code := by
  obtain ⟨y, hy, rfl⟩ := List.mem_map.mp h
  exact List.fst_mem_of_mem_zipIdx hy

theorem running_map_fst (outside : Nat → Outside) (code : List CodeOp) :
    (running outside code).map Prod.fst = code := by
  unfold running
  rw [List.map_map]
  exact List.zipIdx_map_fst 0 code

theorem inputScan_iff (r : Nat) (run : List RunOp)
    (h : ∀ x ∈ run, (x.1.regsIn.getLsbD r = true ↔ FlagReads r x) ∧
      (x.1.regsOut.getLsbD r = true ↔ FlagWrites r x)) :
    (gprDefined gprBlockInputs : BitSet32) →
    ((inputScan (run.map Prod.fst) gprDefined gprBlockInputs).getLsbD r = true ↔
      gprBlockInputs.getLsbD r = true ∨
        gprDefined.getLsbD r = false ∧ ExposedRead (FlagReads r) (FlagWrites r) run) := by
  induction run with
  | nil =>
    intro gprDefined gprBlockInputs
    exact ⟨.inl, fun h => h.elim id fun h => absurd h.2 (not_exposedRead_nil _ _)⟩
  | cons x run ih =>
    intro gprDefined gprBlockInputs
    obtain ⟨⟨hin, hout⟩, hrun⟩ := List.forall_mem_cons.mp h
    have hdefined : (x.1.regsIn &&& ~~~gprDefined).getLsbD r =
        (x.1.regsIn.getLsbD r && !gprDefined.getLsbD r) := by
      rw [BitVec.getLsbD_and, BitVec.getLsbD_not]
      by_cases hr : r < 32
      · rw [decide_eq_true hr, Bool.true_and]
      · rw [BitVec.getLsbD_of_ge x.1.regsIn r (Nat.le_of_not_lt hr), Bool.false_and, Bool.false_and]
    rw [List.map_cons, inputScan, ih hrun, exposedRead_cons, ← hin, ← hout, BitVec.getLsbD_or,
      BitVec.getLsbD_or, hdefined]
    cases gprDefined.getLsbD r <;> cases x.1.regsIn.getLsbD r <;>
      cases x.1.regsOut.getLsbD r <;> simp

/-- The registers that a block needs, given what its instructions do. -/
def NeedsRegisters (m_gpr_inputs : BitSet32) (run : List RunOp) : Prop :=
  ∀ r, m_gpr_inputs.getLsbD r = true ↔ ExposedRead (Reads r) (Writes r) run

/-- The instructions behind one where the flags are wrong make up for it. -/
def Mismatch.Repaired (r : Nat) (back : List RunOp) : Mismatch → Prop
  | .missesRead => ExposedRead (FlagReads r) (FlagWrites r) back
  | .inventsRead => ExposedRead (Reads r) (Writes r) back
  | .missesWrite => ¬ ExposedRead (FlagReads r) (FlagWrites r) back
  | .inventsWrite => ¬ ExposedRead (Reads r) (Writes r) back

/-- Where the flags are wrong about the first use of a register, the instructions behind make up
for it. -/
def WellDescribed (run : List RunOp) : Prop :=
  ∀ r front x back m, run = front ++ x :: back →
    (∀ y ∈ front, Unused (FlagReads r) (FlagWrites r) y ∧ Unused (Reads r) (Writes r) y) →
    mismatch r x = some m → m.Repaired r back

theorem Mismatch.At.repaired_iff {r : Nat} {m : Mismatch} (h : m.At r x) (back : List RunOp) :
    m.Repaired r back ↔ (ExposedRead (FlagReads r) (FlagWrites r) (x :: back) ↔
        ExposedRead (Reads r) (Writes r) (x :: back)) := by
  rw [exposedRead_cons, exposedRead_cons]
  cases m with
  | missesRead =>
    obtain ⟨hreads, hunused⟩ := h
    simp [Repaired, hreads, hunused.1, hunused.2]
  | inventsRead =>
    obtain ⟨hreads, hunused⟩ := h
    simp [Repaired, hreads, hunused.1, hunused.2]
  | missesWrite =>
    obtain ⟨⟨hreads, hwrites⟩, hunused⟩ := h
    simp [Repaired, hreads, hwrites, hunused.1, hunused.2]
  | inventsWrite =>
    obtain ⟨⟨hreads, hwrites⟩, hunused⟩ := h
    simp [Repaired, hreads, hwrites, hunused.1, hunused.2]

theorem Mismatch.At.not_sameUse {r : Nat} {m : Mismatch} (h : m.At r x) :
    ¬ SameUse (FlagReads r) (FlagWrites r) (Reads r) (Writes r) x := by
  rintro ⟨hreads, hwrites⟩
  cases m with
  | missesRead => exact h.2.1 (hreads.mpr h.1)
  | inventsRead => exact h.2.1 (hreads.mp h.1)
  | missesWrite => exact h.2.2 ((hwrites h.2.1).mpr h.1.2)
  | inventsWrite => exact h.2.2 ((hwrites h.1.1).mp h.1.2)

theorem wellDescribed_iff (run : List RunOp) : WellDescribed run ↔
    ∀ r, ExposedRead (FlagReads r) (FlagWrites r) run ↔ ExposedRead (Reads r) (Writes r) run := by
  refine forall_congr' fun r => ?_
  rw [exposedRead_iff]
  refine forall_congr' fun front => forall_congr' fun x => forall_congr' fun back => ?_
  have hspec := mismatch_spec r x
  constructor
  · intro h heq hfront hsame
    cases hm : mismatch r x with
    | none =>
      rw [hm] at hspec
      exact absurd hspec hsame
    | some m =>
      rw [hm] at hspec
      exact (Mismatch.At.repaired_iff hspec back).mp (h m heq hfront hm)
  · intro h m heq hfront hm
    rw [hm] at hspec
    exact (Mismatch.At.repaired_iff hspec back).mpr
      (h heq hfront (Mismatch.At.not_sameUse hspec))

/-! ## the whole analysis -/

section

variable (read : BitVec 32 → Option UGeckoInstruction) (analyzer : PPCAnalyzer)
  (address : BitVec 32) (blockSize : Nat)

theorem analyze_scans : ∃ block code, analyze read analyzer address blockSize = some block ∧
    (∀ a ∈ code, FromStats a) ∧ block.code = (flagScan code).1 ∧
    block.m_gpr_inputs = inputScan block.code 0 0 := by
  have hcollect : ∀ a ∈ (collect read analyzer address blockSize blockSize (.init address)).code,
      FromStats a :=
    fromStats_collect blockSize (.init address) (fun _ h => absurd h List.not_mem_nil)
  unfold analyze
  dsimp only
  generalize collect read analyzer address blockSize blockSize (.init address) = s at hcollect
  split
  · obtain ⟨code, hcode, hswaps⟩ := reorderInstructions_ends analyzer hcollect
    rw [hcode]
    exact ⟨_, code, rfl, fun a ha => hcollect a (hswaps.perm.mem_iff.mpr ha), rfl, rfl⟩
  · exact ⟨_, s.code, rfl, hcollect, rfl, rfl⟩

/-- The flags that a block wants are live, and the registers that it is said to need are those that
it needs just if its instructions are well described. -/
theorem analyzed_block_is_live : ∃ block, analyze read analyzer address blockSize = some block ∧
    LiveFlag readsCA overwritesCA CodeOp.wantsCA block.code ∧
    LiveFlag readsFPRF overwritesFPRF CodeOp.wantsFPRF block.code ∧
    ∀ outside, NeedsRegisters block.m_gpr_inputs (running outside block.code) ↔
      WellDescribed (running outside block.code) := by
  obtain ⟨block, code, hblock, hfrom, hcode, hinputs⟩ :=
    analyze_scans read analyzer address blockSize
  refine ⟨block, hblock, hcode ▸ liveFlag_wantsCA hfrom, hcode ▸ liveFlag_wantsFPRF hfrom,
    fun outside => ?_⟩
  have hregs : ∀ r, ∀ x ∈ running outside block.code,
      (x.1.regsIn.getLsbD r = true ↔ FlagReads r x) ∧
        (x.1.regsOut.getLsbD r = true ↔ FlagWrites r x) := by
    intro r x hx
    obtain ⟨i, hi⟩ := List.mem_iff_getElem?.mp (mem_running hx)
    rw [hcode] at hi
    obtain ⟨op, hop, hscanned, -⟩ := flagScan_getElem? code i x.1 hi
    have hop' := hfrom op (List.mem_of_getElem? hop)
    rw [← regsIn_iff, ← regsOut_iff, hscanned.regsIn, hscanned.regsOut, hscanned.inst,
      hop'.regsIn, hop'.regsOut, hop'.opinfo]
    exact ⟨Iff.rfl, Iff.rfl⟩
  rw [wellDescribed_iff]
  refine forall_congr' fun r => ?_
  have hscan := inputScan_iff r (running outside block.code) (hregs r) 0 0
  rw [running_map_fst, ← hinputs] at hscan
  rw [hscan]
  simp

end

/-- A block of one trap on a register. -/
def trapAt : BitVec 32 → Option UGeckoInstruction := fun _ => some 0x0fe30000#32

/-- The register that the trap reads is not among those that the block is said to need. -/
theorem trap_reads_unnamed : ∃ block,
    analyze trapAt ⟨false, false, false, false, false, fun _ => false⟩ 0x80000000 8 = some block ∧
    ∀ outside, ¬ NeedsRegisters block.m_gpr_inputs (running outside block.code) := by
  have hanalyze : (analyze trapAt ⟨false, false, false, false, false, fun _ => false⟩
      0x80000000 8).map (fun block => (block.m_gpr_inputs, block.code.map CodeOp.inst)) =
      some (0, [0x0fe30000#32]) := by
    decide
  obtain ⟨block, hblock, heq⟩ := Option.map_eq_some_iff.mp hanalyze
  obtain ⟨hinputs, hcode⟩ := Prod.mk.inj heq
  obtain ⟨op, hop, hinst⟩ := List.map_eq_singleton_iff.mp hcode
  refine ⟨block, hblock, fun outside hneeds => ?_⟩
  have hreads : Reads 3 (op, outside 0) := by
    have htwi : getInterpreterOp 0x0fe30000#32 = .twi := by decide
    refine ((uses_of_op (hinst ▸ htwi) [.A] [] [] [] ⟨⟨rfl, rfl⟩, rfl, rfl⟩ 3).1.1).mpr
      ⟨.A, List.mem_singleton_self _, ?_⟩
    rw [hinst]
    exact decide_eq_true (show 3 = UGeckoInstruction.RA 0x0fe30000#32 by decide)
  have hexposed : ExposedRead (Reads 3) (Writes 3) (running outside block.code) := by
    rw [hop]
    exact ⟨[], (op, outside 0), [], rfl, hreads, fun _ h => absurd h List.not_mem_nil⟩
  have hthree := (hneeds 3).mpr hexposed
  rw [hinputs] at hthree
  exact absurd hthree (by decide)

end DolphinCore.PPCAnalyst
