import DolphinCore.PPCAnalyst.Analyze

/-!
# DolphinCore.PPCAnalyst.BranchFollowing

The instructions that are collected for a block are the ones that are executed one after another,
as long as no conditional branch and no trap is taken.  A return is followed only while the link
register is known to hold the address behind the last call.
-/

namespace DolphinCore.PPCAnalyst

open PPCTables

-- the tables have some three hundred rows
set_option maxRecDepth 30000

/-! ## execution in sequence -/

/-- The registers that branches read and write. -/
structure PowerPCState where
  PC : BitVec 32
  LR : BitVec 32
  CTR : BitVec 32
  CR : Nat → Bool

namespace Interpreter

def bx (inst : UGeckoInstruction) (s : PowerPCState) : PowerPCState :=
  { s with
    LR := if inst.LK then s.PC + 4 else s.LR
    PC := (inst.LI ++ 0#2).signExtend 32 + if inst.AA then 0 else s.PC }

/-- The count register, counted down unless the branch says not to. -/
def decrement (inst : UGeckoInstruction) (s : PowerPCState) : PowerPCState :=
  { s with CTR := if inst.BO.testBit 2 then s.CTR else s.CTR - 1 }

def counter (inst : UGeckoInstruction) (s : PowerPCState) : Bool :=
  inst.BO.testBit 2 || Bool.xor (s.CTR ≠ 0) (inst.BO.testBit 1)

def condition (inst : UGeckoInstruction) (s : PowerPCState) : Bool :=
  inst.BO.testBit 4 || s.CR inst.BI = inst.BO.testBit 3

/-- Whether `bcx` and `bclrx` branch. -/
def branches (inst : UGeckoInstruction) (s : PowerPCState) : Bool :=
  counter inst (decrement inst s) && condition inst s

def bcx (inst : UGeckoInstruction) (s : PowerPCState) : PowerPCState :=
  let s' := decrement inst s
  if branches inst s then
    { s' with
      LR := if inst.LK then s.PC + 4 else s.LR
      PC := (inst.BD ++ 0#2).signExtend 32 + if inst.AA then 0 else s.PC }
  else { s' with PC := s.PC + 4 }

def bclrx (inst : UGeckoInstruction) (s : PowerPCState) : PowerPCState :=
  let s' := decrement inst s
  if branches inst s then
    { s' with
      PC := s.LR &&& ~~~3
      LR := if inst.LK then s.PC + 4 else s.LR }
  else { s' with PC := s.PC + 4 }

def bcctrx (inst : UGeckoInstruction) (s : PowerPCState) : PowerPCState :=
  if condition inst s then
    { s with
      PC := s.CTR &&& ~~~3
      LR := if inst.LK then s.PC + 4 else s.LR }
  else { s with PC := s.PC + 4 }

/-- Functions that may lead anywhere: exceptions, returns from them, calls of the host, and what
is no instruction. -/
def isSystem (op : Instruction) : Bool :=
  op = .sc || op = .rfi || op = .vmcall || op = .unknown_instruction

def isBranch (op : Instruction) : Bool :=
  op = .bx || op = .bcx || op = .bclrx || op = .bcctrx

def isTrap (op : Instruction) : Bool := op = .tw || op = .twi

/-- One instruction; the flag says that a conditional branch or a trap was taken.  What does not
branch goes on behind, and only `mtspr` writes the link register. -/
inductive Step (read : BitVec 32 → Option UGeckoInstruction) (s : PowerPCState) :
    Bool → PowerPCState → Prop
  | bx (inst : UGeckoInstruction) (hread : read s.PC = some inst)
      (hop : getInterpreterOp inst = .bx) : Step read s false (bx inst s)
  | bcx (inst : UGeckoInstruction) (hread : read s.PC = some inst)
      (hop : getInterpreterOp inst = .bcx) :
      Step read s (!isUnconditional inst && branches inst s) (bcx inst s)
  | bclrx (inst : UGeckoInstruction) (hread : read s.PC = some inst)
      (hop : getInterpreterOp inst = .bclrx) :
      Step read s (!isUnconditional inst && branches inst s) (bclrx inst s)
  | bcctrx (inst : UGeckoInstruction) (hread : read s.PC = some inst)
      (hop : getInterpreterOp inst = .bcctrx) :
      Step read s (!inst.BO.testBit 4 && condition inst s) (bcctrx inst s)
  | trap (inst : UGeckoInstruction) (hread : read s.PC = some inst)
      (hop : isTrap (getInterpreterOp inst) = true) (t : PowerPCState) : Step read s true t
  | noTrap (inst : UGeckoInstruction) (hread : read s.PC = some inst)
      (hop : isTrap (getInterpreterOp inst) = true) :
      Step read s false { s with PC := s.PC + 4 }
  | system (inst : UGeckoInstruction) (hread : read s.PC = some inst)
      (hop : isSystem (getInterpreterOp inst) = true) (t : PowerPCState) : Step read s false t
  | other (inst : UGeckoInstruction) (hread : read s.PC = some inst)
      (hbranch : isBranch (getInterpreterOp inst) = false)
      (htrap : isTrap (getInterpreterOp inst) = false)
      (hsystem : isSystem (getInterpreterOp inst) = false) (t : PowerPCState)
      (hpc : t.PC = s.PC + 4)
      (hlr : t.LR = s.LR ∨ getInterpreterOp inst = .mtspr ∧ inst.spr = SPR_LR) :
      Step read s false t

end Interpreter

/-! ## what the tables say -/

variable {inst : UGeckoInstruction}

theorem entry_of_19 (h : inst.OPCD = 19) :
    entry inst = (lookup table19 inst.SUBOP10).getD unknownop := by
  unfold entry
  rw [h]
  rfl

theorem entry_of_31 (h : inst.OPCD = 31) :
    entry inst = (lookup table31 inst.SUBOP10).getD unknownop := by
  unfold entry
  rw [h]
  rfl

theorem op_bx (h : inst.OPCD = 18) : getInterpreterOp inst = .bx := by
  unfold getInterpreterOp entry
  rw [h]
  rfl

theorem op_bcx (h : inst.OPCD = 16) : getInterpreterOp inst = .bcx := by
  unfold getInterpreterOp entry
  rw [h]
  rfl

theorem op_twi (h : inst.OPCD = 3) : getInterpreterOp inst = .twi := by
  unfold getInterpreterOp entry
  rw [h]
  rfl

theorem op_bclrx (h : inst.OPCD = 19) (h' : inst.SUBOP10 = 16) :
    getInterpreterOp inst = .bclrx := by
  unfold getInterpreterOp
  rw [entry_of_19 h, h']
  rfl

theorem op_bcctrx (h : inst.OPCD = 19) (h' : inst.SUBOP10 = 528) :
    getInterpreterOp inst = .bcctrx := by
  unfold getInterpreterOp
  rw [entry_of_19 h, h']
  rfl

theorem op_tw (h : inst.OPCD = 31) (h' : inst.SUBOP10 = 4) : getInterpreterOp inst = .tw := by
  unfold getInterpreterOp
  rw [entry_of_31 h, h']
  rfl

theorem endsBlock_of_control (inst : UGeckoInstruction)
    (h : Interpreter.isBranch (getInterpreterOp inst) ||
      Interpreter.isTrap (getInterpreterOp inst) ||
      Interpreter.isSystem (getInterpreterOp inst)) :
    has (getOpInfo inst).flags FL_ENDBLOCK = true := by
  have hall : ∀ tpl ∈ allRows, (Interpreter.isBranch tpl.Inst || Interpreter.isTrap tpl.Inst ||
      Interpreter.isSystem tpl.Inst) = true → has tpl.opinfo.flags FL_ENDBLOCK = true := by
    decide
  exact hall _ (entry_mem_allRows inst) h

theorem isMtspr_of_op (h : getInterpreterOp inst = .mtspr) : isMtspr inst = true := by
  have hprimary : ∀ tpl ∈ primarytable, tpl.Inst ≠ .mtspr := by decide
  have h19 : ∀ tpl ∈ table19, tpl.Inst ≠ .mtspr := by decide
  have h31 : ∀ tpl ∈ table31, tpl.Inst = .mtspr → tpl.opcode = 467 := by decide
  have hfloat : ∀ tpl ∈ floatRows, tpl.Inst ≠ .mtspr := by decide
  unfold getInterpreterOp at h
  have hfound := found_entry inst
  generalize entry inst = tpl at hfound h
  cases hfound with
  | unknown => cases h
  | primary _ hmem _ => exact absurd h (hprimary _ hmem)
  | table19 _ hmem _ _ => exact absurd h (h19 _ hmem)
  | table31 _ hmem hopcd hop =>
    unfold isMtspr
    rw [hopcd, ← hop, h31 _ hmem h]
    rfl
  | float _ hmem => exact absurd h (hfloat _ hmem)

/-! ## one step -/

namespace Interpreter

variable {read : BitVec 32 → Option UGeckoInstruction} {s t : PowerPCState}

/-- What a step that takes no conditional branch does. -/
structure Sequential (inst : UGeckoInstruction) (s t : PowerPCState) : Prop where
  bx : getInterpreterOp inst = .bx → t = bx inst s
  bcx : getInterpreterOp inst = .bcx → t = bcx inst s ∧ (isUnconditional inst = false →
    branches inst s = false)
  bclrx : getInterpreterOp inst = .bclrx → t = bclrx inst s ∧ (isUnconditional inst = false →
    branches inst s = false)
  bcctrx : getInterpreterOp inst = .bcctrx → t = bcctrx inst s ∧ (inst.BO.testBit 4 = false →
    condition inst s = false)
  trap : isTrap (getInterpreterOp inst) = true → t = { s with PC := s.PC + 4 }
  other : isBranch (getInterpreterOp inst) = false → isTrap (getInterpreterOp inst) = false →
    isSystem (getInterpreterOp inst) = false → t.PC = s.PC + 4 ∧
      (t.LR = s.LR ∨ getInterpreterOp inst = .mtspr ∧ inst.spr = SPR_LR)

theorem Step.sequential (hstep : Step read s false t) (hread : read s.PC = some inst) :
    Sequential inst s t := by
  have hsame : ∀ {inst'}, read s.PC = some inst' → inst' = inst := fun h =>
    Option.some.inj (h.symm.trans hread)
  generalize hfalse : false = taken at hstep
  cases hstep with
  | bx _ hread' hop =>
    obtain rfl := hsame hread'
    constructor <;> simp [hop, isBranch, isTrap, isSystem]
  | bcx _ hread' hop =>
    obtain rfl := hsame hread'
    constructor <;> simp_all [isBranch, isTrap, isSystem]
  | bclrx _ hread' hop =>
    obtain rfl := hsame hread'
    constructor <;> simp_all [isBranch, isTrap, isSystem]
  | bcctrx _ hread' hop =>
    obtain rfl := hsame hread'
    constructor <;> simp_all [isBranch, isTrap, isSystem]
  | trap => cases hfalse
  | noTrap _ hread' hop =>
    obtain rfl := hsame hread'
    simp only [isTrap, Bool.or_eq_true, decide_eq_true_eq] at hop
    obtain hop | hop := hop <;> constructor <;> simp [hop, isBranch, isTrap]
  | system _ hread' hop =>
    obtain rfl := hsame hread'
    simp only [isSystem, Bool.or_eq_true, decide_eq_true_eq] at hop
    obtain ((hop | hop) | hop) | hop := hop <;> constructor <;>
      simp [hop, isBranch, isTrap, isSystem]
  | other _ hread' hbranch htrap hsystem _ hpc hlr =>
    obtain rfl := hsame hread'
    constructor <;> intro h <;> simp_all [isBranch, isTrap, isSystem]

end Interpreter

/-! ## addresses of instructions -/

/-- An address of a word. -/
def Aligned (address : BitVec 32) : Prop := address.toNat % 4 = 0

theorem Aligned.add {a b : BitVec 32} (ha : Aligned a) (hb : Aligned b) : Aligned (a + b) := by
  unfold Aligned at *
  rw [BitVec.toNat_add]
  omega

theorem aligned_four : Aligned 4 := rfl

theorem aligned_zero : Aligned 0 := rfl

theorem aligned_iff {a : BitVec 32} : Aligned a ↔ a.getLsbD 0 = false ∧ a.getLsbD 1 = false := by
  unfold Aligned
  rw [BitVec.getLsbD, BitVec.getLsbD, Nat.testBit_eq_decide_div_mod_eq,
    Nat.testBit_eq_decide_div_mod_eq, decide_eq_false_iff_not, decide_eq_false_iff_not]
  omega

theorem aligned_signExtend {n : Nat} (x : BitVec n) : Aligned ((x ++ 0#2).signExtend 32) := by
  have hbit : ∀ i < 2, ((x ++ 0#2).signExtend 32).getLsbD i = false := by
    intro i hi
    rw [BitVec.getLsbD_signExtend, if_pos (by omega), BitVec.getLsbD_append, if_pos hi,
      BitVec.getLsbD_zero, Bool.and_false]
  exact aligned_iff.mpr ⟨hbit 0 (by decide), hbit 1 (by decide)⟩

theorem aligned_bxDestination {address : BitVec 32} (h : Aligned address) :
    Aligned (bxDestination inst address) := by
  refine (aligned_signExtend _).add ?_
  split
  · exact aligned_zero
  · exact h

theorem aligned_bcxDestination {address : BitVec 32} (h : Aligned address) :
    Aligned (bcxDestination inst address) := by
  refine (aligned_signExtend _).add ?_
  split
  · exact aligned_zero
  · exact h

theorem Aligned.and_mask {a : BitVec 32} (h : Aligned a) : a &&& ~~~3 = a := by
  obtain ⟨h0, h1⟩ := aligned_iff.mp h
  refine BitVec.eq_of_getLsbD_eq fun i hi => ?_
  rw [BitVec.getLsbD_and, BitVec.getLsbD_not]
  match i with
  | 0 => rw [h0, Bool.false_and]
  | 1 => rw [h1, Bool.false_and]
  | i + 2 =>
    have hclear : (3 : BitVec 32).getLsbD (i + 2) = false := by
      have hlarge : 3 < 2 ^ (i + 2) := by
        rw [Nat.pow_add]
        have := Nat.one_le_two_pow (n := i)
        omega
      exact Nat.testBit_lt_two_pow hlarge
    rw [hclear, Bool.not_false, Bool.and_true, decide_eq_true hi, Bool.and_true]

/-! ## one instruction -/

open Interpreter

section

variable {s s' : Collecting} {t t' : PowerPCState} {block_address : BitVec 32} {blockSize : Nat}
  {analyzer : PPCAnalyzer}

/-- The loop that collects is where the execution is, and what it knows of the last call is what
the link register holds. -/
structure Follows (analyzer : PPCAnalyzer) (s : Collecting) (t : PowerPCState) : Prop where
  pc : t.PC = s.address
  aligned : Aligned s.address
  knows : s.mayFollow analyzer = true → s.found_call = true →
    ∃ op, s.code[s.caller]? = some op ∧ Aligned op.address ∧ t.LR = op.address + 4

theorem branches_of_unconditional (h : isUnconditional inst = true) (t : PowerPCState) :
    branches inst t = true := by
  unfold isUnconditional at h
  rw [Bool.and_eq_true] at h
  unfold branches counter condition
  rw [h.1, h.2]
  rfl

theorem Interpreter.Sequential.conditional (h : Sequential inst t t')
    (hcond : isConditional inst = true) : t'.PC = t.PC + 4 := by
  unfold isConditional at hcond
  simp only [Bool.or_eq_true, Bool.and_eq_true, Bool.not_eq_true', decide_eq_true_eq] at hcond
  obtain ((⟨hop, huncond⟩ | ⟨⟨hop, hsub⟩, huncond⟩) | hop | ⟨hop, hsub⟩) | ⟨⟨hop, hsub⟩, hbo⟩ :=
    hcond
  · obtain ⟨rfl, hbranch⟩ := h.bcx (op_bcx hop)
    unfold Interpreter.bcx
    rw [hbranch huncond]
    rfl
  · obtain ⟨rfl, hbranch⟩ := h.bclrx (op_bclrx hop hsub)
    unfold Interpreter.bclrx
    rw [hbranch huncond]
    rfl
  · rw [h.trap (by rw [op_twi hop]; rfl)]
  · rw [h.trap (by rw [op_tw hop hsub]; rfl)]
  · obtain ⟨rfl, hbranch⟩ := h.bcctrx (op_bcctrx hop hsub)
    unfold Interpreter.bcctrx
    rw [hbranch hbo]
    rfl

theorem Interpreter.Sequential.goesOn (h : Sequential inst t t')
    (hend : has (getOpInfo inst).flags FL_ENDBLOCK = false) : t'.PC = t.PC + 4 ∧
      (t'.LR = t.LR ∨ isMtspr inst = true ∧ inst.spr = SPR_LR) := by
  have hcontrol : (isBranch (getInterpreterOp inst) || isTrap (getInterpreterOp inst) ||
      isSystem (getInterpreterOp inst)) = false := by
    refine Bool.eq_false_iff.mpr fun hcontrol => ?_
    rw [endsBlock_of_control inst hcontrol] at hend
    cases hend
  simp only [Bool.or_eq_false_iff] at hcontrol
  obtain ⟨hpc, hlr⟩ := h.other hcontrol.1.1 hcontrol.1.2 hcontrol.2
  exact ⟨hpc, hlr.imp_right fun hlr => ⟨isMtspr_of_op hlr.1, hlr.2⟩⟩

theorem followBranch_some (h : Follows analyzer s t) (hmay : s.mayFollow analyzer = true)
    (hseq : Sequential inst t t') {d : BitVec 32}
    (hd : (followBranch block_address blockSize s inst).destination = some d) :
    t'.PC = d ∧ Aligned d ∧ ((followBranch block_address blockSize s inst).found_call = true →
        (followBranch block_address blockSize s inst).caller = s.code.length ∧
            t'.LR = s.address + 4 ∨
          (followBranch block_address blockSize s inst).caller = s.caller ∧
            s.found_call = true ∧ t'.LR = t.LR) := by
  unfold followBranch at hd ⊢
  split at hd
  · next hbx =>
      rw [if_pos hbx]
      simp only [Bool.and_eq_true, decide_eq_true_eq] at hbx
      obtain ⟨-, hd⟩ := Option.ite_none_right_eq_some.mp hd
      cases hd
      obtain rfl := hseq.bx (op_bx hbx.1)
      refine ⟨?_, aligned_bxDestination h.aligned, fun hcall => ?_⟩
      · unfold bx bxDestination
        rw [h.pc]
      · cases hlk : inst.LK with
        | true =>
          refine .inl ⟨rfl, ?_⟩
          unfold bx
          rw [hlk, h.pc]
          rfl
        | false =>
          rw [hlk, Bool.false_or] at hcall
          refine .inr ⟨rfl, hcall, ?_⟩
          unfold bx
          rw [hlk]
          rfl
  · next hbx =>
      rw [if_neg hbx]
      split at hd
      · next hbcx =>
          rw [if_pos hbcx]
          simp only [Bool.and_eq_true, decide_eq_true_eq] at hbcx
          cases hd
          obtain ⟨rfl, -⟩ := hseq.bcx (op_bcx hbcx.1.1)
          have hbranch := branches_of_unconditional hbcx.1.2 t
          refine ⟨?_, aligned_bcxDestination h.aligned, fun hcall => ?_⟩
          · unfold bcx bcxDestination
            rw [hbranch, h.pc]
            rfl
          · cases hlk : inst.LK with
            | true =>
              refine .inl ⟨rfl, ?_⟩
              unfold bcx
              rw [hbranch, hlk, h.pc]
              rfl
            | false =>
              rw [hlk, Bool.false_or] at hcall
              refine .inr ⟨rfl, hcall, ?_⟩
              unfold bcx
              rw [hbranch, hlk]
              rfl
      · next hbcx =>
          rw [if_neg hbcx]
          split at hd
          · next hbclr =>
              rw [if_pos hbclr]
              simp only [Bool.and_eq_true, Bool.not_eq_true', decide_eq_true_eq] at hbclr
              obtain ⟨⟨⟨⟨hopcd, hsub⟩, hlk⟩, hcall⟩, huncond⟩ := hbclr
              obtain ⟨op, hop, halign, hlr⟩ := h.knows hmay hcall
              rw [hop] at hd
              cases hd
              obtain ⟨rfl, -⟩ := hseq.bclrx (op_bclrx hopcd hsub)
              have halign' := halign.add aligned_four
              refine ⟨?_, halign', nofun⟩
              unfold bclrx
              rw [branches_of_unconditional huncond t, hlr, halign'.and_mask]
              rfl
          · split at hd
            · cases hd
            · cases hd

theorem followBranch_none (h : Sequential inst t t')
    (hd : (followBranch block_address blockSize s inst).destination = none)
    (hend : has (getOpInfo inst).flags FL_ENDBLOCK = false)
    (hcall : (followBranch block_address blockSize s inst).found_call = true) :
    (followBranch block_address blockSize s inst).caller = s.caller ∧ s.found_call = true ∧
      t'.LR = t.LR := by
  have hno : ∀ op, getInterpreterOp inst = op →
      (isBranch op || isTrap op || isSystem op) = true → False := by
    rintro op rfl hcontrol
    rw [endsBlock_of_control inst hcontrol] at hend
    cases hend
  unfold followBranch at hd hcall ⊢
  split at hd
  · next hbx =>
      simp only [Bool.and_eq_true, decide_eq_true_eq] at hbx
      exact (hno _ (op_bx hbx.1) rfl).elim
  · next hbx =>
      rw [if_neg hbx] at hcall ⊢
      split at hd
      · cases hd
      · next hbcx =>
          rw [if_neg hbcx] at hcall ⊢
          split at hd
          · next hbclr =>
              simp only [Bool.and_eq_true, decide_eq_true_eq] at hbclr
              exact (hno _ (op_bclrx hbclr.1.1.1.1 hbclr.1.1.1.2) rfl).elim
          · next hbclr =>
              rw [if_neg hbclr] at hcall ⊢
              split at hd
              · next hmtspr =>
                  rw [if_pos hmtspr] at hcall
                  cases hcall
              · next hmtspr =>
                  rw [if_neg hmtspr] at hcall ⊢
                  refine ⟨rfl, hcall, (h.goesOn hend).2.resolve_right fun hlr => hmtspr ?_⟩
                  rw [hlr.1, hlr.2]
                  rfl

theorem followBranch_skip (h : (followBranch block_address blockSize s inst).skip = true) :
    s.found_call = true ∧ (followBranch block_address blockSize s inst).caller = s.caller := by
  unfold followBranch at h ⊢
  split at h
  · cases h
  · next hbx =>
      rw [if_neg hbx]
      split at h
      · cases h
      · next hbcx =>
          rw [if_neg hbcx]
          split at h
          · next hbclr =>
              rw [if_pos hbclr]
              simp only [Bool.and_eq_true, decide_eq_true_eq] at hbclr
              exact ⟨hbclr.1.2, rfl⟩
          · split at h
            · cases h
            · cases h

theorem collectOne_code : (collectOne analyzer block_address blockSize s inst).1.code =
      appendOp analyzer s inst (followed analyzer block_address blockSize s inst) := by
  unfold collectOne
  dsimp only
  split
  · rfl
  · split
    · rfl
    · split <;> rfl

theorem length_appendOp (following : Following) :
    (appendOp analyzer s inst following).length = s.code.length + 1 := by
  unfold appendOp
  rw [List.length_append, List.length_singleton]
  split
  · rw [List.length_modify]
  · rfl

theorem getElem?_appendOp_last (analyzer : PPCAnalyzer) (s : Collecting)
    (inst : UGeckoInstruction) (following : Following) :
    (appendOp analyzer s inst following)[s.code.length]? =
      some { setInstructionStats analyzer inst s.address with skip := following.skip } := by
  unfold appendOp
  split
  · rw [List.getElem?_append_right (Nat.le_of_eq (List.length_modify ..)),
      List.length_modify, Nat.sub_self]
    rfl
  · rw [List.getElem?_append_right (Nat.le_refl _), Nat.sub_self]
    rfl

/-- An instruction stays what it was, except that a call is marked. -/
structure SameOp (op op' : CodeOp) : Prop where
  address : op'.address = op.address
  inst : op'.inst = op.inst
  skip : op'.skip = op.skip
  skipLRStack : op.skipLRStack = true → op'.skipLRStack = true

theorem getElem?_appendOp (analyzer : PPCAnalyzer) (inst : UGeckoInstruction)
    (following : Following) {j : Nat} {op : CodeOp} (h : s.code[j]? = some op) :
    ∃ op', (appendOp analyzer s inst following)[j]? = some op' ∧ SameOp op op' ∧
      (following.skip = true → j = following.caller → op'.skipLRStack = true) := by
  have hlt : j < s.code.length := (List.getElem?_eq_some_iff.mp h).1
  unfold appendOp
  cases hskip : following.skip with
  | false =>
    rw [if_neg Bool.false_ne_true, List.getElem?_append_left hlt, h]
    exact ⟨op, rfl, ⟨rfl, rfl, rfl, id⟩, nofun⟩
  | true =>
    rw [if_pos rfl, List.getElem?_append_left (by rw [List.length_modify]; exact hlt),
      List.getElem?_modify, h]
    by_cases hj : following.caller = j
    · exact ⟨{ op with skipLRStack := true }, by simp [hj], ⟨rfl, rfl, rfl, fun _ => rfl⟩,
        fun _ _ => rfl⟩
    · exact ⟨op, by simp [hj], ⟨rfl, rfl, rfl, id⟩, fun _ heq => absurd heq.symm hj⟩

theorem appendOp_before {following : Following} {j : Nat} {op : CodeOp}
    (hj : j < s.code.length) (h : (appendOp analyzer s inst following)[j]? = some op) :
    ∃ op', s.code[j]? = some op' ∧ SameOp op' op := by
  obtain ⟨op', hop', hsame, -⟩ := getElem?_appendOp analyzer inst following
    (List.getElem?_eq_getElem hj)
  rw [h, Option.some.injEq] at hop'
  subst hop'
  exact ⟨_, List.getElem?_eq_getElem hj, hsame⟩

theorem collectOne_follows (h : Follows analyzer s t) (hseq : Sequential inst t t')
    (hone : (collectOne analyzer block_address blockSize s inst).2 = true) :
    Follows analyzer (collectOne analyzer block_address blockSize s inst).1 t' := by
  have hfollow : ∀ d, (followed analyzer block_address blockSize s inst).destination = some d →
      s.mayFollow analyzer = true ∧ followed analyzer block_address blockSize s inst =
        followBranch block_address blockSize s inst := by
    intro d hd
    unfold followed at hd ⊢
    split at hd
    · next hmay => exact ⟨hmay, if_pos hmay⟩
    · cases hd
  have hstays : (followed analyzer block_address blockSize s inst).destination = none →
      has (getOpInfo inst).flags FL_ENDBLOCK = false →
      (followed analyzer block_address blockSize s inst).found_call = true →
      s.mayFollow analyzer = true →
      (followed analyzer block_address blockSize s inst).caller = s.caller ∧
        s.found_call = true ∧ t'.LR = t.LR := by
    intro hd hend hcall hmay
    unfold followed at hd hcall ⊢
    rw [if_pos hmay] at hd hcall ⊢
    exact followBranch_none hseq hd hend hcall
  generalize hf : followed analyzer block_address blockSize s inst = f at hfollow hstays
  -- a call that is known stays where it is
  have hknown : f.caller = s.caller → s.found_call = true →
      s.mayFollow analyzer = true → t'.LR = t.LR →
      ∃ op, (appendOp analyzer s inst f)[f.caller]? = some op ∧ Aligned op.address ∧
        t'.LR = op.address + 4 := by
    intro hcaller hcall hmay hlr
    obtain ⟨op, hop, halign, hop4⟩ := h.knows hmay hcall
    obtain ⟨op', hop', hsame, -⟩ := getElem?_appendOp analyzer inst f hop
    rw [hcaller]
    exact ⟨op', hop', by rw [hsame.address]; exact halign, by rw [hlr, hop4, hsame.address]⟩
  unfold collectOne at hone ⊢
  dsimp only at hone ⊢
  rw [hf] at hone ⊢
  cases hd : f.destination with
  | some d =>
    obtain ⟨hmay, rfl⟩ := hfollow d hd
    obtain ⟨hpc, halign, hcall⟩ := followBranch_some h hmay hseq hd
    refine ⟨hpc, halign, fun _ hfound => ?_⟩
    obtain ⟨hcaller, hlr⟩ | ⟨hcaller, hfound', hlr⟩ := hcall hfound
    · have hlast := getElem?_appendOp_last analyzer s inst
        (followBranch block_address blockSize s inst)
      rw [← hcaller] at hlast
      exact ⟨_, hlast, h.aligned, hlr⟩
    · exact hknown hcaller hfound' hmay hlr
  | none =>
    rw [hd] at hone
    dsimp only at hone ⊢
    split at hone
    · cases hone
    · next hend =>
        rw [if_neg hend]
        have haligned := h.aligned.add aligned_four
        split
        · next hcond =>
            rw [Bool.and_eq_true] at hcond
            exact ⟨by rw [hseq.conditional hcond.2, h.pc], haligned, nofun⟩
        · next hcond =>
            have hend' : has (getOpInfo inst).flags FL_ENDBLOCK = false := by
              simpa [hcond] using hend
            refine ⟨by rw [(hseq.goesOn hend').1, h.pc], haligned, fun hmay hfound => ?_⟩
            obtain ⟨hcaller, hfound', hlr⟩ := hstays hd hend' hfound hmay
            exact hknown hcaller hfound' hmay hlr

end

/-! ## the whole sequence -/

/-- The instruction is executed as the one of this number; a return that is skipped finds the
address behind the call that was marked for it in the link register. -/
structure ExecutedAs (read : BitVec 32 → Option UGeckoInstruction) (trace : Nat → PowerPCState)
    (code : List CodeOp) (k : Nat) (op : CodeOp) : Prop where
  pc : (trace k).PC = op.address
  inst : read op.address = some op.inst
  skip : op.skip = true → ∃ j caller, j < k ∧ code[j]? = some caller ∧
    caller.skipLRStack = true ∧ (trace k).LR = caller.address + 4

/-- Every instruction of the list is executed, one after another. -/
def Executed (read : BitVec 32 → Option UGeckoInstruction) (trace : Nat → PowerPCState)
    (code : List CodeOp) : Prop :=
  ∀ k op, code[k]? = some op → ExecutedAs read trace code k op

section

variable {read : BitVec 32 → Option UGeckoInstruction} {trace : Nat → PowerPCState}
  {block_address : BitVec 32} {blockSize : Nat} {analyzer : PPCAnalyzer} {s : Collecting}

theorem executed_appendOp (h : Executed read trace s.code)
    (hfollows : Follows analyzer s (trace s.code.length))
    (hread : read s.address = some inst) :
    Executed read trace
      (appendOp analyzer s inst (followed analyzer block_address blockSize s inst)) := by
  intro k op hop
  obtain hk | hk := Nat.lt_or_ge k s.code.length
  · obtain ⟨op', hop', hsame⟩ := appendOp_before hk hop
    obtain ⟨hpc, hinst, hskip⟩ := h k op' hop'
    refine ⟨by rw [hpc, hsame.address], by rw [hsame.address, hsame.inst, hinst], fun hop => ?_⟩
    rw [hsame.skip] at hop
    obtain ⟨j, caller, hj, hcaller, hmark, hlr⟩ := hskip hop
    obtain ⟨caller', hcaller', hsame', -⟩ := getElem?_appendOp analyzer inst
      (followed analyzer block_address blockSize s inst) hcaller
    exact ⟨j, caller', hj, hcaller', hsame'.skipLRStack hmark, by rw [hlr, hsame'.address]⟩
  · have hlt := (List.getElem?_eq_some_iff.mp hop).1
    rw [length_appendOp] at hlt
    obtain rfl : k = s.code.length := by omega
    rw [getElem?_appendOp_last, Option.some.injEq] at hop
    subst hop
    refine ⟨hfollows.pc, hread, fun hskip => ?_⟩
    unfold followed at hskip ⊢
    split at hskip
    · next hmay =>
        obtain ⟨hcall, hcaller⟩ := followBranch_skip hskip
        obtain ⟨op, hop, -, hlr⟩ := hfollows.knows hmay hcall
        obtain ⟨op', hop', hsame, hmark⟩ := getElem?_appendOp analyzer inst
          (followBranch block_address blockSize s inst) hop
        rw [if_pos hmay]
        exact ⟨s.caller, op', (List.getElem?_eq_some_iff.mp hop).1, hop',
          hmark hskip hcaller.symm, by rw [hlr, hsame.address]⟩
    · cases hskip

theorem length_collect (read : BitVec 32 → Option UGeckoInstruction) (analyzer : PPCAnalyzer)
    (block_address : BitVec 32) (blockSize : Nat) (n : Nat) : (s : Collecting) →
    s.code.length ≤ (collect read analyzer block_address blockSize n s).code.length := by
  induction n with
  | zero => exact fun _ => Nat.le_refl _
  | succ n ih =>
    intro s
    rw [collect]
    cases read s.address with
    | none => exact Nat.le_refl _
    | some inst =>
      have hone : (collectOne analyzer block_address blockSize s inst).1.code.length =
          s.code.length + 1 := by
        rw [collectOne_code, length_appendOp]
      dsimp only
      split
      · have := ih (collectOne analyzer block_address blockSize s inst).1
        omega
      · omega

/-- **Run lemma**: as long as there are steps, what is collected is executed. -/
theorem executed_collect (n : Nat) : (s : Collecting) → Executed read trace s.code →
    (s.code.length < (collect read analyzer block_address blockSize n s).code.length →
      Follows analyzer s (trace s.code.length)) →
    (∀ k, k + 1 < (collect read analyzer block_address blockSize n s).code.length →
      Step read (trace k) false (trace (k + 1))) →
    Executed read trace (collect read analyzer block_address blockSize n s).code := by
  induction n with
  | zero => exact fun _ h _ _ => h
  | succ n ih =>
    intro s h hfollows hsteps
    rw [collect] at hfollows hsteps ⊢
    cases hread : read s.address with
    | none => exact h
    | some inst =>
      rw [hread] at hfollows hsteps
      dsimp only at hfollows hsteps ⊢
      have hlength : (collectOne analyzer block_address blockSize s inst).1.code.length =
          s.code.length + 1 := by
        rw [collectOne_code, length_appendOp]
      have hnow : ∀ hlt, Executed read trace
          (collectOne analyzer block_address blockSize s inst).1.code := fun hlt => by
        rw [collectOne_code]
        exact executed_appendOp h (hfollows hlt) hread
      split
      · next hmore =>
          rw [if_pos hmore] at hfollows hsteps hnow
          have hle := length_collect read analyzer block_address blockSize n
            (collectOne analyzer block_address blockSize s inst).1
          refine ih _ (hnow (by omega)) (fun hlt => ?_) hsteps
          rw [hlength] at hlt ⊢
          have hfollow := hfollows (by omega)
          refine collectOne_follows hfollow ?_ hmore
          exact (hsteps _ hlt).sequential (by rw [hfollow.pc, hread])
      · next hmore =>
          rw [if_neg hmore] at hnow
          exact hnow (by omega)

end

/-- **What is collected from the address of a word is what is executed from there, as long as no
conditional branch and no trap is taken.** -/
theorem collected_is_executed (read : BitVec 32 → Option UGeckoInstruction)
    (analyzer : PPCAnalyzer) (start : BitVec 32) (blockSize : Nat) (trace : Nat → PowerPCState)
    (halign : Aligned start) (hstart : (trace 0).PC = start)
    (hsteps : ∀ k, k + 1 < (collect read analyzer start blockSize blockSize
      (.init start)).code.length → Step read (trace k) false (trace (k + 1))) :
    Executed read trace
      (collect read analyzer start blockSize blockSize (.init start)).code := by
  refine executed_collect blockSize (.init start) ?_ (fun _ => ⟨hstart, halign, nofun⟩) hsteps
  intro k op hop
  cases hop

/-! ### a call and its return -/

/-- All options, and no breakpoints. -/
def allOptions : PPCAnalyzer := ⟨true, true, true, true, true, fun _ => false⟩

/-- `bl` at an address, and `blr` where it leads; behind the call is a `nop`. -/
def callAt (start : BitVec 32) (address : BitVec 32) : Option UGeckoInstruction :=
  if address = start then some 0x48000011
  else if address = start + 16 then some 0x4e800020
  else if address = start + 4 then some 0x60000000
  else none

/-- The call, the return, and what is behind the call. -/
def callTrace (start behind : BitVec 32) : Nat → PowerPCState
  | 0 => ⟨start, 0, 0, fun _ => false⟩
  | 1 => ⟨start + 16, start + 4, 0, fun _ => false⟩
  | _ => ⟨behind, start + 4, 0, fun _ => false⟩

theorem length_callAt (start : BitVec 32) (h : start = 0x1000 ∨ start = 0x1002) :
    (collect (callAt start) allOptions start 8 8 (.init start)).code.length = 3 := by
  obtain rfl | rfl := h <;> decide

theorem step_callTrace {start : BitVec 32} (h : start = 0x1000 ∨ start = 0x1002) (k : Nat)
    (hk : k + 1 < 3) : Step (callAt start) (callTrace start 0x1004 k) false
      (callTrace start 0x1004 (k + 1)) := by
  have hcall : ∀ {s t} inst, callAt start s.PC = some inst → getInterpreterOp inst = .bx →
      t = bx inst s → Step (callAt start) s false t := by
    rintro s t inst hread hop rfl
    exact .bx inst hread hop
  have hreturn : ∀ {s t} inst, callAt start s.PC = some inst → getInterpreterOp inst = .bclrx →
      t = bclrx inst s → (!isUnconditional inst && branches inst s) = false →
      Step (callAt start) s false t := by
    rintro s t inst hread hop rfl hfalse
    exact hfalse ▸ .bclrx inst hread hop
  match k with
  | 0 =>
    refine hcall 0x48000011 ?_ (op_bx rfl) ?_
    · exact if_pos rfl
    · obtain rfl | rfl := h <;> rfl
  | 1 =>
    refine hreturn 0x4e800020 ?_ (op_bclrx rfl rfl) ?_ rfl
    · obtain rfl | rfl := h <;> rfl
    · obtain rfl | rfl := h <;> rfl
  | k + 2 => omega

/-- The call and its return, from the address of a word. -/
theorem collected_is_executed_call : Executed (callAt 0x1000) (callTrace 0x1000 0x1004)
    (collect (callAt 0x1000) allOptions 0x1000 8 8 (.init 0x1000)).code :=
  collected_is_executed (callAt 0x1000) allOptions 0x1000 8 (callTrace 0x1000 0x1004) rfl rfl
    fun k hk => step_callTrace (.inl rfl) k (by rwa [length_callAt _ (.inl rfl)] at hk)

/-- From another address, the execution goes on at the word before the instruction that is
collected. -/
theorem unaligned_call_differs : ¬ ∀ (read : BitVec 32 → Option UGeckoInstruction)
    (analyzer : PPCAnalyzer) (start : BitVec 32) (blockSize : Nat) (trace : Nat → PowerPCState),
    (trace 0).PC = start →
    (∀ k, k + 1 < (collect read analyzer start blockSize blockSize (.init start)).code.length →
      Step read (trace k) false (trace (k + 1))) →
    Executed read trace
      (collect read analyzer start blockSize blockSize (.init start)).code := by
  intro h
  have hexecuted := h (callAt 0x1002) allOptions 0x1002 8 (callTrace 0x1002 0x1004) rfl
    fun k hk => step_callTrace (.inr rfl) k (by rwa [length_callAt _ (.inr rfl)] at hk)
  have haddress : ((collect (callAt 0x1002) allOptions 0x1002 8 8 (.init 0x1002)).code[2]?.map
      CodeOp.address) = some 0x1006 := by
    decide
  obtain ⟨op, hop, haddress⟩ := Option.map_eq_some_iff.mp haddress
  have hpc := (hexecuted 2 op hop).pc
  rw [haddress] at hpc
  exact absurd hpc (by decide)

end DolphinCore.PPCAnalyst
