import DolphinCore.Lib.AdjacentSwaps
import DolphinCore.PPCAnalyst.Analyze

/-!
# DolphinCore.PPCAnalyst.Reorder

The passes of `ReorderInstructionsCore` come to an end: what is moved is only swapped with what is
not, in one direction.
-/

namespace DolphinCore.PPCAnalyst

open PPCTables Relation

/-! ## what is known of a collected instruction -/

/-- What `SetInstructionStats` makes of an instruction. -/
structure FromStats (a : CodeOp) : Prop where
  opinfo : a.opinfo = getOpInfo a.inst
  regsOut : a.regsOut = PPCAnalyst.regsOut a.inst a.opinfo
  regsIn : a.regsIn = PPCAnalyst.regsIn a.inst a.opinfo
  wantsFPRF : a.wantsFPRF = has a.opinfo.flags FL_READ_FPRF
  wantsCA : a.wantsCA =
    if isMfspr a.inst then decide (a.inst.spr = SPR_XER) else has a.opinfo.flags FL_READ_CA
  outputCR0 : a.outputCR0 =
    (isBlr a.inst a.opinfo || outputCR a.inst a.opinfo FL_RC_BIT FL_SET_CR0 0)
  outputFPRF : a.outputFPRF = has a.opinfo.flags FL_SET_FPRF
  outputCA : a.outputCA =
    if isMtspr a.inst then decide (a.inst.spr = SPR_XER) else has a.opinfo.flags FL_SET_CA
  canEndBlock : a.canEndBlock = has a.opinfo.flags FL_ENDBLOCK

theorem fromStats_setInstructionStats (analyzer : PPCAnalyzer) (inst : UGeckoInstruction)
    (address : BitVec 32) (skip : Bool) :
    FromStats { setInstructionStats analyzer inst address with skip := skip } :=
  ⟨rfl, rfl, rfl, rfl, rfl, rfl, rfl, rfl, rfl⟩

theorem FromStats.mark {a : CodeOp} (h : FromStats a) : FromStats { a with skipLRStack := true } :=
  ⟨h.opinfo, h.regsOut, h.regsIn, h.wantsFPRF, h.wantsCA, h.outputCR0, h.outputFPRF, h.outputCA,
    h.canEndBlock⟩

section

variable {read : BitVec 32 → Option UGeckoInstruction} {analyzer : PPCAnalyzer}
  {block_address : BitVec 32} {blockSize : Nat}

theorem fromStats_appendOp {s : Collecting} (h : ∀ a ∈ s.code, FromStats a)
    (inst : UGeckoInstruction) (following : Following) :
    ∀ a ∈ appendOp analyzer s inst following, FromStats a := by
  intro a ha
  unfold appendOp at ha
  rw [List.mem_append, List.mem_singleton] at ha
  obtain ha | rfl := ha
  · split at ha
    · obtain ⟨i, hi⟩ := List.mem_iff_getElem?.mp ha
      rw [List.getElem?_modify] at hi
      obtain ⟨op, hop, rfl⟩ := Option.map_eq_some_iff.mp hi
      have hfrom := h op (List.mem_of_getElem? hop)
      split
      · exact hfrom.mark
      · exact hfrom
    · exact h a ha
  · exact fromStats_setInstructionStats ..

theorem fromStats_collect (n : Nat) : (s : Collecting) → (∀ a ∈ s.code, FromStats a) →
    ∀ a ∈ (collect read analyzer block_address blockSize n s).code, FromStats a := by
  induction n with
  | zero => exact fun _ h => h
  | succ n ih =>
    intro s h
    rw [collect]
    cases read s.address with
    | none => exact h
    | some inst =>
      have hone : ∀ a ∈ (collectOne analyzer block_address blockSize s inst).1.code,
          FromStats a := by
        unfold collectOne
        dsimp only
        split
        · exact fromStats_appendOp h inst _
        · split
          · exact fromStats_appendOp h inst _
          · split <;> exact fromStats_appendOp h inst _
      dsimp only
      split
      · exact ih _ hone
      · exact hone

end

/-! ## what can be swapped -/

@[simp] theorem has_or (flags m n : Flags) :
    has flags (m ||| n) = (has flags m || has flags n) := by
  unfold has
  rw [BitVec.and_or_distrib_left]
  by_cases hm : flags &&& m = 0
  · simp [hm]
  · have hor : flags &&& m ||| flags &&& n ≠ 0 := fun h => hm (BitVec.or_eq_zero_iff.mp h).1
    rw [decide_eq_true hor, decide_eq_true hm, Bool.true_or]

/-- What `CanSwapAdjacentOps` found out. -/
structure CanSwap (a b : CodeOp) : Prop where
  setCRx : has b.opinfo.flags FL_SET_CRx = false
  setOE : has b.opinfo.flags FL_SET_OE = false
  rc : has b.opinfo.flags FL_RC_BIT = true → b.inst.Rc = false
  carry : has a.opinfo.flags FL_SET_CA = true ∨ has a.opinfo.flags FL_READ_CA = true →
    has b.opinfo.flags FL_SET_CA = false ∧ has b.opinfo.flags FL_READ_CA = false
  opcd : b.inst.OPCD ≠ 19
  integer : b.opinfo.type = .Integer
  integer' : a.opinfo.type = .Integer
  outIn : b.regsOut &&& a.regsIn = 0
  inOut : a.regsOut &&& b.regsIn = 0
  outOut : b.regsOut &&& a.regsOut = 0

variable {a b : CodeOp}

theorem of_canSwapAdjacentOps {analyzer : PPCAnalyzer}
    (h : canSwapAdjacentOps analyzer a b = true) : CanSwap a b := by
  unfold canSwapAdjacentOps at h
  simp only [Bool.if_false_left, Bool.and_eq_true, Bool.not_eq_true', decide_eq_false_iff_not,
    decide_eq_true_eq, has_or, Bool.or_eq_true, not_and, not_or, ne_eq, Decidable.not_not,
    Bool.not_eq_true] at h
  obtain ⟨-, ⟨⟨⟨⟨hcr, -⟩, -⟩, -⟩, hoe⟩, hrc, hcarry, ⟨-, h19⟩, hb, ha, houtIn, hinOut, houtOut, -⟩ := h
  exact ⟨hcr, hoe, fun hbit => hrc (.inl hbit), hcarry, h19, hb, ha, houtIn, hinOut, houtOut⟩

theorem has_setCRn_of_isCmp {a : CodeOp} (h : FromStats a) (hcmp : isCmp a = true) :
    has a.opinfo.flags FL_SET_CRn = true := by
  have hinfo : getOpInfo a.inst = ⟨.Integer, FL_IN_A ||| FL_SET_CRn⟩ ∨
      getOpInfo a.inst = ⟨.Integer, FL_IN_AB ||| FL_SET_CRn⟩ := by
    unfold isCmp at hcmp
    simp only [Bool.or_eq_true, Bool.and_eq_true, decide_eq_true_eq] at hcmp
    unfold getOpInfo entry
    obtain (hop | hop) | ⟨hop, hsub | hsub⟩ := hcmp
    · rw [hop]
      exact .inl rfl
    · rw [hop]
      exact .inl rfl
    · rw [hop, hsub]
      exact .inr rfl
    · rw [hop, hsub]
      exact .inr rfl
  rw [h.opinfo]
  obtain hinfo | hinfo := hinfo <;> rw [hinfo] <;> decide

theorem CanSwap.not_moved {type : ReorderType} (h : CanSwap a b) (hb : FromStats b)
    (ha : isMoved type a = true) : isMoved type b = false := by
  have hcrn : has b.opinfo.flags FL_SET_CRn = false ∧ has b.opinfo.flags FL_SET_CR0 = false := by
    have hcrx := h.setCRx
    unfold FL_SET_CRx at hcrx
    simp only [has_or, Bool.or_eq_false_iff] at hcrx
    exact ⟨hcrx.2, hcrx.1.1⟩
  have hcmp : isCmp b = false := by
    refine Bool.eq_false_iff.mpr fun hcmp => ?_
    rw [has_setCRn_of_isCmp hb hcmp] at hcrn
    cases hcrn.1
  have hcr0 : b.outputCR0 = false := by
    rw [hb.outputCR0]
    unfold isBlr outputCR
    rw [h.integer, hcrn.1, hcrn.2]
    split
    · next hrc => simp [h.rc hrc]
    · rfl
  cases type with
  | REORDER_CROR =>
    have hop : isCror b = false := by
      unfold isCror
      rw [decide_eq_false h.opcd, Bool.false_and]
    simp [isMoved, hop]
  | REORDER_CMP => simp [isMoved, hcmp, hcr0]
  | REORDER_CARRY =>
    have hset : has a.opinfo.flags FL_SET_CA = true := by
      have hcarry : isCarryOp a = true := by simpa [isMoved] using ha
      unfold isCarryOp at hcarry
      rw [Bool.and_eq_true, Bool.and_eq_true] at hcarry
      exact hcarry.1.1
    have hop : isCarryOp b = false := by
      unfold isCarryOp
      rw [(h.carry (.inl hset)).1, Bool.false_and, Bool.false_and]
    simp [isMoved, hop]

/-! ## passes -/

/-- What a pass swaps. -/
structure Swapped (type : ReorderType) (a b : CodeOp) : Prop where
  moved : isMoved type a = true
  canSwap : CanSwap a b
  left : FromStats a
  right : FromStats b

theorem Swapped.moves {type : ReorderType} (h : Swapped type a b) :
    isMoved type a = true ∧ isMoved type b = false :=
  ⟨h.moved, h.canSwap.not_moved h.right h.moved⟩

section

variable {analyzer : PPCAnalyzer} {reverse : Bool} {type : ReorderType}

theorem reorderPass_swaps (analyzer : PPCAnalyzer) (reverse : Bool) (type : ReorderType)
    (code : List CodeOp) : (before : Option CodeOp) → (a : CodeOp) →
    (∀ x ∈ a :: code, FromStats x) →
    SwapsTo (Swapped type) (a :: code) (reorderPass analyzer reverse type before a code).1 ∧
      ((reorderPass analyzer reverse type before a code).2 = true →
        TransGen (AdjacentSwap (Swapped type)) (a :: code)
          (reorderPass analyzer reverse type before a code).1) := by
  induction code with
  | nil => exact fun _ _ _ => ⟨.refl, nofun⟩
  | cons b code ih =>
    intro before a h
    have ha := h a List.mem_cons_self
    have hb := h b (List.mem_cons_of_mem _ List.mem_cons_self)
    have hcode : ∀ x ∈ code, FromStats x := fun x hx =>
      h x (List.mem_cons_of_mem _ (List.mem_cons_of_mem _ hx))
    rw [reorderPass]
    split
    · next hswap =>
        simp only [Bool.and_eq_true] at hswap
        have hswapped : Swapped type a b :=
          ⟨hswap.1.1, of_canSwapAdjacentOps hswap.2, ha, hb⟩
        have hstep : AdjacentSwap (Swapped type) (a :: b :: code) (b :: a :: code) :=
          .swap [] code a b hswapped
        have hrest := (ih (some b) a (List.forall_mem_cons.mpr ⟨ha, hcode⟩)).1.cons b
        have htrans := TransGen.head' hstep hrest
        exact ⟨htrans.to_reflTransGen, fun _ => htrans⟩
    · obtain ⟨hrest, hswapped⟩ := ih (some a) b (List.forall_mem_cons.mpr ⟨hb, hcode⟩)
      exact ⟨hrest.cons a, fun h => TransGen.lift (fun l => a :: l)
        (fun _ _ hswap => AdjacentSwap.cons a hswap) _ _ (hswapped h)⟩

theorem reorderPasses_ends (analyzer : PPCAnalyzer) (reverse : Bool) (type : ReorderType)
    (n : Nat) : (code : List CodeOp) → (∀ x ∈ code, FromStats x) →
    inversions (isMoved type) code < n → ∃ code',
      reorderPasses analyzer reverse type n code = some code' ∧ SwapsTo (Swapped type) code code' := by
  induction n with
  | zero => exact fun _ _ h => absurd h (Nat.not_lt_zero _)
  | succ n ih =>
    intro code h hlt
    cases code with
    | nil => exact ⟨[], rfl, .refl⟩
    | cons a code =>
      obtain ⟨hpass, hswapped⟩ := reorderPass_swaps analyzer reverse type code none a h
      rw [reorderPasses]
      dsimp only
      split
      · next hmore =>
          have hless : inversions (isMoved type)
              (reorderPass analyzer reverse type none a code).1 <
              inversions (isMoved type) (a :: code) :=
            inversions_lt_of_transGen (fun _ _ hswap => hswap.moves) (hswapped hmore)
          obtain ⟨code', hcode', hrest⟩ := ih _ (fun x hx => h x (hpass.perm.mem_iff.mpr hx))
            (by omega)
          exact ⟨code', hcode', hpass.trans hrest⟩
      · exact ⟨_, rfl, hpass⟩

theorem reorderInstructionsCore_ends (analyzer : PPCAnalyzer) (reverse : Bool)
    (type : ReorderType) {code : List CodeOp} (h : ∀ x ∈ code, FromStats x) :
    ∃ code', reorderInstructionsCore analyzer reverse type code = some code' ∧
      (if reverse then SwapsTo (flip (Swapped type)) code code'
        else SwapsTo (Swapped type) code code') := by
  have hinversions : ∀ l : List CodeOp, inversions (isMoved type) l < l.length * l.length + 1 :=
    fun l => Nat.lt_succ_of_le (inversions_le _ l)
  unfold reorderInstructionsCore
  cases reverse with
  | false =>
    obtain ⟨code', hcode', hswaps⟩ := reorderPasses_ends analyzer false type
      (code.length * code.length + 1) code h (hinversions code)
    exact ⟨code', hcode', hswaps⟩
  | true =>
    have hlt := hinversions code.reverse
    rw [List.length_reverse] at hlt
    obtain ⟨code', hcode', hswaps⟩ := reorderPasses_ends analyzer true type
      (code.length * code.length + 1) code.reverse
      (fun x hx => h x (List.mem_reverse.mp hx)) hlt
    refine ⟨code'.reverse, ?_, ?_⟩
    · rw [if_pos rfl, hcode']
      rfl
    · have hback := hswaps.reverse
      rw [List.reverse_reverse] at hback
      exact hback

end

/-- Any instructions that are swapped, in either direction. -/
def AnySwapped (a b : CodeOp) : Prop := ∃ type, Swapped type a b ∨ Swapped type b a

theorem reorderInstructions_ends (analyzer : PPCAnalyzer) {code : List CodeOp}
    (h : ∀ x ∈ code, FromStats x) : ∃ code', reorderInstructions analyzer code = some code' ∧
      SwapsTo AnySwapped code code' := by
  have hcore : ∀ (reverse : Bool) (type : ReorderType) {l : List CodeOp}, (∀ x ∈ l, FromStats x) →
      ∃ l', reorderInstructionsCore analyzer reverse type l = some l' ∧
        SwapsTo AnySwapped l l' ∧ ∀ x ∈ l', FromStats x := by
    intro reverse type l hl
    obtain ⟨l', hl', hswaps⟩ := reorderInstructionsCore_ends analyzer reverse type hl
    have hany : SwapsTo AnySwapped l l' := by
      cases reverse with
      | false => exact hswaps.mono fun _ _ h => ⟨type, .inl h⟩
      | true => exact hswaps.mono fun _ _ h => ⟨type, .inr h⟩
    exact ⟨l', hl', hany, fun x hx => hl x (hany.perm.mem_iff.mpr hx)⟩
  have hwhen : ∀ (option : Bool) (f : List CodeOp → Option (List CodeOp)),
      (∀ {l : List CodeOp}, (∀ x ∈ l, FromStats x) → ∃ l', f l = some l' ∧
        SwapsTo AnySwapped l l' ∧ ∀ x ∈ l', FromStats x) →
      ∀ {l : List CodeOp}, (∀ x ∈ l, FromStats x) →
        ∃ l', withOption option f l = some l' ∧ SwapsTo AnySwapped l l' ∧
          ∀ x ∈ l', FromStats x := by
    intro option f hf l hl
    cases option with
    | false => exact ⟨l, rfl, .refl, hl⟩
    | true => exact hf hl
  have hboth : ∀ {l : List CodeOp}, (∀ x ∈ l, FromStats x) → ∃ l',
      (do let l ← reorderInstructionsCore analyzer false .REORDER_CARRY l
          reorderInstructionsCore analyzer true .REORDER_CARRY l) = some l' ∧
        SwapsTo AnySwapped l l' ∧ ∀ x ∈ l', FromStats x := by
    intro l hl
    obtain ⟨l', hl', hswaps, hfrom⟩ := hcore false .REORDER_CARRY hl
    obtain ⟨l'', hl'', hswaps', hfrom'⟩ := hcore true .REORDER_CARRY hfrom
    refine ⟨l'', ?_, hswaps.trans hswaps', hfrom'⟩
    rw [hl']
    exact hl''
  obtain ⟨l₁, h₁, hswaps₁, hfrom₁⟩ := hwhen analyzer.OPTION_CROR_MERGE _
    (hcore true .REORDER_CROR) h
  obtain ⟨l₂, h₂, hswaps₂, hfrom₂⟩ := hwhen analyzer.OPTION_CARRY_MERGE _ hboth hfrom₁
  obtain ⟨l₃, h₃, hswaps₃, -⟩ := hwhen analyzer.OPTION_BRANCH_MERGE _
    (hcore false .REORDER_CMP) hfrom₂
  refine ⟨l₃, ?_, (hswaps₁.trans hswaps₂).trans hswaps₃⟩
  exact Option.bind_eq_some_iff.mpr ⟨l₁, h₁, Option.bind_eq_some_iff.mpr ⟨l₂, h₂, h₃⟩⟩

end DolphinCore.PPCAnalyst
