import DolphinCore.Lib.Liveness
import DolphinCore.PPCAnalyst.RegisterUse
import DolphinCore.PPCAnalyst.Reorder

/-!
# DolphinCore.PPCAnalyst.FlagScan

The scans at the end of `Analyze`.  A flag that an instruction is not said to want is overwritten
before anything reads it or leaves the block; the registers that a block is said to need are those
that the flags of its instructions say are read first.
-/

namespace DolphinCore.PPCAnalyst

open PPCTables

-- the tables have some three hundred rows
set_option maxRecDepth 30000

/-! ## opcodes -/

variable {inst : UGeckoInstruction} {a : CodeOp} {code : List CodeOp}

theorem op_primary_iff {op : Instruction} (n : Nat)
    (hrow : ((lookup primarytable n).getD unknownop).opinfo.type ≠ .Subtable ∧
      ((lookup primarytable n).getD unknownop).Inst = op)
    (hprimary : ∀ tpl ∈ primarytable, tpl.Inst = op → tpl.opcode = n)
    (hrest : ∀ tpl ∈ unknownop :: (table19 ++ table31 ++ floatRows), tpl.Inst ≠ op) :
    getInterpreterOp inst = op ↔ inst.OPCD = n := by
  unfold getInterpreterOp
  constructor
  · intro h
    have hfound := found_entry inst
    generalize entry inst = tpl at hfound h
    cases hfound with
    | unknown => exact absurd h (hrest _ List.mem_cons_self)
    | primary _ hmem hop => exact hop.symm.trans (hprimary _ hmem h)
    | table19 _ hmem _ _ => exact absurd h (hrest _ (by simp [hmem]))
    | table31 _ hmem _ _ => exact absurd h (hrest _ (by simp [hmem]))
    | float _ hmem => exact absurd h (hrest _ (by simp [hmem]))
  · rintro rfl
    unfold entry
    rw [if_neg hrow.1]
    exact hrow.2

theorem op_lmw_iff : getInterpreterOp inst = .lmw ↔ inst.OPCD = 46 :=
  op_primary_iff 46 (by decide) (by decide) (by decide)

theorem op_stmw_iff : getInterpreterOp inst = .stmw ↔ inst.OPCD = 47 :=
  op_primary_iff 47 (by decide) (by decide) (by decide)

theorem op_table31_iff {op : Instruction} (n : Nat)
    (hrow : ((lookup table31 n).getD unknownop).Inst = op)
    (htable : ∀ tpl ∈ table31, tpl.Inst = op → tpl.opcode = n)
    (hrest : ∀ tpl ∈ unknownop :: (primarytable ++ table19 ++ floatRows), tpl.Inst ≠ op) :
    getInterpreterOp inst = op ↔ inst.OPCD = 31 ∧ inst.SUBOP10 = n := by
  unfold getInterpreterOp
  constructor
  · intro h
    have hfound := found_entry inst
    generalize entry inst = tpl at hfound h
    cases hfound with
    | unknown => exact absurd h (hrest _ List.mem_cons_self)
    | primary _ hmem _ => exact absurd h (hrest _ (by simp [hmem]))
    | table19 _ hmem _ _ => exact absurd h (hrest _ (by simp [hmem]))
    | table31 _ hmem hopcd hop => exact ⟨hopcd, hop.symm.trans (htable _ hmem h)⟩
    | float _ hmem => exact absurd h (hrest _ (by simp [hmem]))
  · rintro ⟨hopcd, rfl⟩
    unfold entry
    rw [hopcd]
    exact hrow

theorem isMfspr_iff : isMfspr inst = true ↔ getInterpreterOp inst = .mfspr := by
  rw [op_table31_iff 339 (by decide) (by decide) (by decide)]
  simp [isMfspr]

theorem isMtspr_iff : isMtspr inst = true ↔ getInterpreterOp inst = .mtspr := by
  rw [op_table31_iff 467 (by decide) (by decide) (by decide)]
  simp [isMtspr]

/-! ## what the flags say of the carry and the result flags -/

theorem FromStats.wantsCA_eq (h : FromStats a) : a.wantsCA = readsCA a.inst := by
  have hrow : ∀ tpl ∈ allRows, tpl.Inst ≠ .mfspr → has tpl.opinfo.flags FL_READ_CA =
      match tpl.Inst with
      | .addex | .addmex | .addzex | .subfex | .subfmex | .subfzex | .mcrxr => true
      | _ => false := by
    decide
  rw [h.wantsCA, h.opinfo]
  unfold readsCA
  split
  · next hspr => rw [isMfspr_iff.mp hspr]
  · next hspr =>
      have hop : getInterpreterOp a.inst ≠ .mfspr := fun hop => hspr (isMfspr_iff.mpr hop)
      rw [show has (getOpInfo a.inst).flags FL_READ_CA = _ from
        hrow _ (entry_mem_allRows a.inst) hop]
      unfold getInterpreterOp at hop ⊢
      split <;> simp_all

theorem FromStats.outputCA_eq (h : FromStats a) : a.outputCA = overwritesCA a.inst := by
  have hrow : ∀ tpl ∈ allRows, tpl.Inst ≠ .mtspr → has tpl.opinfo.flags FL_SET_CA =
      match tpl.Inst with
      | .addcx | .addex | .addmex | .addzex | .subfcx | .subfex | .subfmex | .subfzex | .subfic
      | .addic | .addic_rc | .srawx | .srawix | .mcrxr => true
      | _ => false := by
    decide
  rw [h.outputCA, h.opinfo]
  unfold overwritesCA
  split
  · next hspr => rw [isMtspr_iff.mp hspr]
  · next hspr =>
      have hop : getInterpreterOp a.inst ≠ .mtspr := fun hop => hspr (isMtspr_iff.mpr hop)
      rw [show has (getOpInfo a.inst).flags FL_SET_CA = _ from
        hrow _ (entry_mem_allRows a.inst) hop]
      unfold getInterpreterOp at hop ⊢
      split <;> simp_all

theorem readFPRF_rows : ∀ tpl ∈ allRows, has tpl.opinfo.flags FL_READ_FPRF =
    match tpl.Inst with
    | .mcrfs | .mffsx | .mtfsb0x | .mtfsb1x | .mtfsfix | .mtfsfx | .fcmpo | .fcmpu | .ps_cmpu0
    | .ps_cmpo0 | .ps_cmpu1 | .ps_cmpo1 => true
    | _ => false := by
  decide

theorem FromStats.wantsFPRF_eq (h : FromStats a) : a.wantsFPRF = readsFPRF a.inst := by
  rw [h.wantsFPRF, h.opinfo]
  exact readFPRF_rows _ (entry_mem_allRows a.inst)

theorem setFPRF_rows : ∀ tpl ∈ allRows, has tpl.opinfo.flags FL_SET_FPRF = true →
    has tpl.opinfo.flags FL_READ_FPRF = false →
    (match tpl.Inst with
      | .frspx | .fmulx | .fmulsx | .fmaddx | .fmaddsx | .faddx | .faddsx | .fdivx | .fdivsx
      | .fresx | .frsqrtex | .fmsubx | .fmsubsx | .fnmaddx | .fnmaddsx | .fnmsubx | .fnmsubsx
      | .fsubx | .fsubsx => true
      | .ps_div | .ps_res | .ps_rsqrte | .ps_sub | .ps_add | .ps_mul | .ps_msub | .ps_madd
      | .ps_nmsub | .ps_nmadd | .ps_sum0 | .ps_sum1 | .ps_muls0 | .ps_muls1 | .ps_madds0
      | .ps_madds1 => true
      | _ => false) = true := by
  decide

theorem FromStats.overwritesFPRF (h : FromStats a) (hset : a.outputFPRF = true)
    (hread : a.wantsFPRF = false) : overwritesFPRF a.inst = true := by
  rw [h.outputFPRF, h.opinfo] at hset
  rw [h.wantsFPRF, h.opinfo] at hread
  exact setFPRF_rows _ (entry_mem_allRows a.inst) hset hread

theorem FromStats.not_canEndBlock (h : FromStats a)
    (hset : a.outputCA = true ∨ a.outputFPRF = true) : a.canEndBlock = false := by
  have hrow : ∀ tpl ∈ allRows, has tpl.opinfo.flags FL_SET_CA = true ∨
      has tpl.opinfo.flags FL_SET_FPRF = true ∨ tpl.Inst = .mtspr →
      has tpl.opinfo.flags FL_ENDBLOCK = false := by
    decide
  rw [h.canEndBlock, h.opinfo]
  refine hrow _ (entry_mem_allRows a.inst) ?_
  obtain hset | hset := hset
  · rw [h.outputCA, h.opinfo] at hset
    split at hset
    · next hspr => exact .inr (.inr (isMtspr_iff.mp hspr))
    · exact .inl hset
  · rw [h.outputFPRF, h.opinfo] at hset
    exact .inr (.inl hset)

/-! ## the scan for the flags -/

/-- What the scan leaves as it is. -/
structure Scanned (op op' : CodeOp) : Prop where
  inst : op'.inst = op.inst
  regsOut : op'.regsOut = op.regsOut
  regsIn : op'.regsIn = op.regsIn
  canEndBlock : op'.canEndBlock = op.canEndBlock

theorem flagScan_wants (code : List CodeOp) : (flagScan code).2.wantsCA =
        liveBefore CodeOp.wantsCA CodeOp.canEndBlock CodeOp.outputCA code ∧
      (flagScan code).2.wantsFPRF =
        liveBefore CodeOp.wantsFPRF CodeOp.canEndBlock CodeOp.outputFPRF code := by
  induction code with
  | nil => exact ⟨rfl, rfl⟩
  | cons op code ih =>
    rw [liveBefore, liveBefore, ← ih.1, ← ih.2]
    exact ⟨rfl, rfl⟩

theorem flagScan_getElem? (code : List CodeOp) : (i : Nat) → (op' : CodeOp) →
    (flagScan code).1[i]? = some op' → ∃ op, code[i]? = some op ∧ Scanned op op' ∧
      op'.wantsCA = ((flagScan (code.drop (i + 1))).2.wantsCA || op.canEndBlock) ∧
      op'.wantsFPRF = ((flagScan (code.drop (i + 1))).2.wantsFPRF || op.canEndBlock) := by
  induction code with
  | nil => exact fun _ _ h => nomatch h
  | cons op code ih =>
    intro i op' h
    cases i with
    | zero =>
      obtain rfl := Option.some.inj h
      exact ⟨op, rfl, ⟨rfl, rfl, rfl, rfl⟩, rfl, rfl⟩
    | succ i => exact ih i op' h

theorem length_flagScan (code : List CodeOp) : (flagScan code).1.length = code.length := by
  induction code with
  | nil => rfl
  | cons op code ih => exact congrArg Nat.succ ih

theorem flagScan_scanned {i : Nat} {op : CodeOp} (h : code[i]? = some op) :
    ∃ op', (flagScan code).1[i]? = some op' ∧ Scanned op op' := by
  obtain ⟨hlt, -⟩ := List.getElem?_eq_some_iff.mp h
  rw [← length_flagScan] at hlt
  obtain ⟨op₁, hop₁, hscanned, -⟩ :=
    flagScan_getElem? code i _ (List.getElem?_eq_getElem hlt)
  obtain rfl := Option.some.inj (h.symm.trans hop₁)
  exact ⟨_, List.getElem?_eq_getElem hlt, hscanned⟩

/-- A flag that is not wanted behind an instruction of a block: whatever reads it, or can end the
block, comes behind an instruction that overwrites it. -/
def LiveFlag (reads overwrites : UGeckoInstruction → Bool) (wants : CodeOp → Bool)
    (code : List CodeOp) : Prop :=
  ∀ (i : Nat) (op : CodeOp), code[i]? = some op → wants op = false →
    ∀ (j : Nat) (op' : CodeOp), i ≤ j → code[j]? = some op' →
    op'.canEndBlock = true ∨ i < j ∧ reads op'.inst = true →
    ∃ (k : Nat) (op'' : CodeOp), i < k ∧ k < j ∧ code[k]? = some op'' ∧ overwrites op''.inst = true ∧
      reads op''.inst = false

theorem liveFlag_flagScan {reads overwrites : UGeckoInstruction → Bool}
    {uses kills wants : CodeOp → Bool} (hreads : ∀ a ∈ code, uses a = reads a.inst)
    (hkills : ∀ a ∈ code, kills a = true → uses a = false → overwrites a.inst = true)
    (hends : ∀ a ∈ code, kills a = true → a.canEndBlock = false)
    (hwants : ∀ i op', (flagScan code).1[i]? = some op' → ∃ op, code[i]? = some op ∧
      wants op' = (liveBefore uses CodeOp.canEndBlock kills (code.drop (i + 1)) ||
        op.canEndBlock)) :
    LiveFlag reads overwrites wants (flagScan code).1 := by
  intro i op hi hwant j op' hij hj hor
  obtain ⟨op₀, hop₀, heq⟩ := hwants i op hi
  rw [heq, Bool.or_eq_false_iff, liveBefore_eq_false] at hwant
  obtain ⟨opj, hopj, hscanned, -⟩ := flagScan_getElem? code j op' hj
  have hlt : i < j := by
    refine Nat.lt_of_le_of_ne hij fun hij => ?_
    subst hij
    obtain rfl := Option.some.inj (hop₀.symm.trans hopj)
    obtain hend | ⟨hlt, -⟩ := hor
    · rw [hscanned.canEndBlock, hwant.2] at hend
      cases hend
    · exact absurd hlt (Nat.lt_irrefl i)
  obtain ⟨d, rfl⟩ : ∃ d, j = i + 1 + d := ⟨j - (i + 1), by omega⟩
  have hmem := List.mem_of_getElem? hopj
  rw [← List.getElem?_drop] at hopj
  obtain ⟨k, x, hk, hx, hkill, huse⟩ := hwant.1.before
    (fun y hy => hends y (List.mem_of_mem_drop hy)) hopj (by
      rw [hreads opj hmem, ← hscanned.inst, ← hscanned.canEndBlock]
      exact hor.elim .inr fun h => .inl h.2)
  rw [List.getElem?_drop] at hx
  obtain ⟨x', hx', hscanned'⟩ := flagScan_scanned hx
  have hxmem := List.mem_of_getElem? hx
  refine ⟨i + 1 + k, x', by omega, by omega, hx', ?_, ?_⟩
  · rw [hscanned'.inst]
    exact hkills x hxmem hkill huse
  · rw [hscanned'.inst, ← hreads x hxmem]
    exact huse

theorem liveFlag_wantsCA (h : ∀ a ∈ code, FromStats a) :
    LiveFlag readsCA overwritesCA CodeOp.wantsCA (flagScan code).1 :=
  liveFlag_flagScan (fun a ha => (h a ha).wantsCA_eq)
    (fun a ha hkill _ => (h a ha).outputCA_eq ▸ hkill)
    (fun a ha hkill => (h a ha).not_canEndBlock (.inl hkill))
    (fun i op' hi => by
      obtain ⟨op, hop, -, hwants, -⟩ := flagScan_getElem? code i op' hi
      exact ⟨op, hop, (flagScan_wants _).1 ▸ hwants⟩)

theorem liveFlag_wantsFPRF (h : ∀ a ∈ code, FromStats a) :
    LiveFlag readsFPRF overwritesFPRF CodeOp.wantsFPRF (flagScan code).1 :=
  liveFlag_flagScan (fun a ha => (h a ha).wantsFPRF_eq)
    (fun a ha hkill huse => (h a ha).overwritesFPRF hkill huse)
    (fun a ha hkill => (h a ha).not_canEndBlock (.inr hkill))
    (fun i op' hi => by
      obtain ⟨op, hop, -, -, hwants⟩ := flagScan_getElem? code i op' hi
      exact ⟨op, hop, (flagScan_wants _).2 ▸ hwants⟩)

end DolphinCore.PPCAnalyst
