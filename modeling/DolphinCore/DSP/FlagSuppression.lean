import DolphinCore.DSP.Analyzer
import DolphinCore.DSP.StatusFrames

/-!
# DolphinCore.DSP.FlagSuppression

Execution with the flag updates left out where the analysis does not ask for
them, as the recompiler may do.

Two cores run in lockstep, one with every update and one with the updates
suppressed. The flags in which they may differ are tracked in a mask of stale
bits: an update left out makes its bits stale, one that is carried out makes
them fresh.
-/

namespace DolphinCore.DSP

variable {σ : Type} (io : Ifx σ)

/-! ## stale bits -/

/-- Agreement of two status registers but for stale flags. -/
def SRAgree (stale sr x : BitVec 16) : Prop :=
  ∀ k, 8 ≤ k ∨ stale.getLsbD k = false → x.getLsbD k = sr.getLsbD k

theorem SRAgree.refl (stale sr : BitVec 16) : SRAgree stale sr sr := fun _ _ => rfl

variable {stale sr x : BitVec 16} {opc : BitVec 16}

theorem SRAgree.sameModes (h : SRAgree stale sr x) : SameModes sr x :=
  fun k hk => h k (.inl hk)

theorem SRAgree.eq (h : SRAgree stale sr x) (hfresh : stale &&& 0xff = 0) : x = sr := by
  apply BitVec.eq_of_getLsbD_eq
  intro k _
  refine h k ?_
  by_cases hk : 8 ≤ k
  · exact .inl hk
  · have hmask : (0xff : BitVec 16).getLsbD k = true := by
      have : ∀ k < 8, (0xff : BitVec 16).getLsbD k = true := by decide
      exact this k (by omega)
    have hbit := congrArg (·.getLsbD k) hfresh
    simp only [BitVec.getLsbD_and, hmask, Bool.and_true] at hbit
    exact .inr (hbit.trans (by simp))

theorem SRAgree.isFlagSet {stale x : BitVec 16} {r : Regs} (h : SRAgree stale r.sr x)
    (flag : BitVec 16) (hfresh : stale &&& flag = 0) : (r.withSR x).isFlagSet flag = r.isFlagSet flag := by
  have hand : x &&& flag = r.sr &&& flag := by
    apply BitVec.eq_of_getLsbD_eq
    intro k _
    have hbit := congrArg (·.getLsbD k) hfresh
    simp only [BitVec.getLsbD_and] at hbit ⊢
    cases hs : stale.getLsbD k
    · rw [h k (.inr hs)]
    · rw [hs, Bool.true_and] at hbit
      rw [hbit]
      simp
  show decide (x &&& flag ≠ 0) = decide (r.sr &&& flag ≠ 0)
  rw [hand]

/-! ## updates -/

namespace SRUpdate

/-- The flags an update determines; the sticky overflow only when it sets it. -/
def bits : SRUpdate → BitVec 16
  | .none => 0
  | .register64 _ _ overflow => if overflow then 0xbf else 0x3f
  | .register16 _ _ overflow _ => if overflow then 0xbf else 0x3f
  | .lz _ => SR_LOGIC_ZERO

/-- The flags an update clears first. -/
def clears : SRUpdate → BitVec 16
  | .none => 0
  | .register64 .. => SR_CMP_MASK
  | .register16 .. => SR_CMP_MASK
  | .lz val => if val then 0 else SR_LOGIC_ZERO

/-- The flags of a result. -/
def resultFlags (carry overflow zero sign overS32 top2 : Bool) : BitVec 16 :=
  flagIf carry SR_CARRY ||| flagIf overflow SR_OVERFLOW ||| flagIf overflow SR_OVERFLOW_STICKY |||
    flagIf zero SR_ARITH_ZERO ||| flagIf sign SR_SIGN ||| flagIf overS32 SR_OVER_S32 |||
    flagIf top2 SR_TOP2BITS

/-- The flags an update sets. -/
def sets : SRUpdate → BitVec 16
  | .none => 0
  | .register64 val carry overflow =>
    resultFlags carry overflow (val = 0) val.msb (val ≠ (val.setWidth 32).signExtend 64)
      (val &&& 0xc0000000 = 0 ∨ val &&& 0xc0000000 = 0xc0000000)
  | .register16 val carry overflow overS32 =>
    resultFlags carry overflow (val = 0) val.msb overS32 (val >>> 14 = 0 ∨ val >>> 14 = 3)
  | .lz val => if val then SR_LOGIC_ZERO else 0

theorem apply_eq (u : SRUpdate) (sr : BitVec 16) : u.apply sr = sr &&& ~~~u.clears ||| u.sets := by
  have hall : sr &&& ~~~(0 : BitVec 16) = sr := BitVec.and_allOnes
  cases u with
  | none =>
    simp only [apply, clears, sets, hall]
    exact BitVec.or_zero.symm
  | register64 => simp only [apply, updateSRRegister64, clears, sets, resultFlags, BitVec.or_assoc]
  | register16 => simp only [apply, updateSRRegister16, clears, sets, resultFlags, BitVec.or_assoc]
  | lz val =>
    cases val
    · simp [apply, updateSRLZ, clears, sets]
    · show sr ||| SR_LOGIC_ZERO = sr &&& ~~~(0 : BitVec 16) ||| SR_LOGIC_ZERO
      rw [hall]

theorem resultFlags_bits : ∀ c o z s v t : Bool, SR_CMP_MASK &&& ~~~(if o then 0xbf else 0x3f) = 0 ∧
      resultFlags c o z s v t &&& ~~~(if o then 0xbf else 0x3f) = 0 ∧
      (if o then 0xbf else 0x3f) &&& ~~~(SR_CMP_MASK ||| resultFlags c o z s v t) = 0 ∧
      (if o then (0xbf : BitVec 16) else 0x3f) &&& ~~~0xff = 0 := by
  decide

theorem bits_eq (u : SRUpdate) : u.clears &&& ~~~u.bits = 0 ∧ u.sets &&& ~~~u.bits = 0 ∧
    u.bits &&& ~~~(u.clears ||| u.sets) = 0 ∧ u.bits &&& ~~~0xff = 0 := by
  cases u with
  | none => decide
  | register64 | register16 => exact resultFlags_bits _ _ _ _ _ _
  | lz val => cases val <;> decide

end SRUpdate

theorem SRAgree.apply (h : SRAgree stale sr x) (u : SRUpdate) :
    SRAgree (stale &&& ~~~u.bits) (u.apply sr) (u.apply x) := by
  intro k hk
  obtain ⟨-, -, hdet, -⟩ := u.bits_eq
  have hbit := congrArg (·.getLsbD k) hdet
  rw [u.apply_eq, u.apply_eq]
  simp only [BitVec.getLsbD_or, BitVec.getLsbD_and, BitVec.getLsbD_not] at hk hbit ⊢
  have hx := h k
  grind

theorem SRAgree.suppress (h : SRAgree stale sr x) (u : SRUpdate) :
    SRAgree (stale ||| u.bits) (u.apply sr) x := by
  intro k hk
  obtain ⟨hclear, hset, -, hlow⟩ := u.bits_eq
  have hc := congrArg (·.getLsbD k) hclear
  have hs := congrArg (·.getLsbD k) hset
  have hl := congrArg (·.getLsbD k) hlow
  have hmask : ∀ k, 8 ≤ k → (0xff : BitVec 16).getLsbD k = false := by
    intro k hk
    by_cases h16 : k < 16
    · have : ∀ k < 16, 8 ≤ k → (0xff : BitVec 16).getLsbD k = false := by decide
      exact this k h16 hk
    · exact BitVec.getLsbD_of_ge _ _ (by omega)
  rw [u.apply_eq]
  simp only [BitVec.getLsbD_or, BitVec.getLsbD_and, BitVec.getLsbD_not] at hk hc hs hl ⊢
  have hx := h k
  by_cases h16 : k < 16
  · grind
  · rw [BitVec.getLsbD_of_ge x k (by omega), BitVec.getLsbD_of_ge sr k (by omega),
      BitVec.getLsbD_of_ge u.sets k (by omega)]
    rfl

/-! ## what reads and writes flags -/

/-- The flags a condition depends on. -/
def conditionFlags (condition : BitVec 4) : BitVec 16 :=
  match condition.toNat with
  | 0x0 | 0x1 => SR_OVERFLOW ||| SR_SIGN
  | 0x2 | 0x3 => SR_OVERFLOW ||| SR_SIGN ||| SR_ARITH_ZERO
  | 0x4 | 0x5 => SR_ARITH_ZERO
  | 0x6 | 0x7 => SR_CARRY
  | 0x8 | 0x9 => SR_OVER_S32
  | 0xa | 0xb => SR_OVER_S32 ||| SR_TOP2BITS ||| SR_ARITH_ZERO
  | 0xc | 0xd => SR_LOGIC_ZERO
  | 0xe => SR_OVERFLOW
  | _ => 0

theorem fresh_left {stale a b : BitVec 16} (h : stale &&& (a ||| b) = 0) : stale &&& a = 0 :=
  (BitVec.or_eq_zero_iff.mp (BitVec.and_or_distrib_left.symm.trans h)).1

theorem fresh_right {stale a b : BitVec 16} (h : stale &&& (a ||| b) = 0) : stale &&& b = 0 :=
  (BitVec.or_eq_zero_iff.mp (BitVec.and_or_distrib_left.symm.trans h)).2

theorem SRAgree.checkCondition {stale x : BitVec 16} {r : Regs} (h : SRAgree stale r.sr x)
    (condition : BitVec 4) (hfresh : stale &&& conditionFlags condition = 0) :
    (r.withSR x).checkCondition condition = r.checkCondition condition := by
  have hlt : condition.toNat < 16 := condition.isLt
  unfold conditionFlags at hfresh
  unfold Regs.checkCondition Regs.isLess Regs.isZero Regs.isCarrySet Regs.isOverS32Set
    Regs.isConditionA Regs.isLogicZero Regs.isOverflowSet
  generalize condition.toNat = c at hfresh hlt
  match c, hfresh with
  | 0, hfresh | 1, hfresh =>
    simp only [h.isFlagSet _ (fresh_left hfresh), h.isFlagSet _ (fresh_right hfresh)]
  | 2, hfresh | 3, hfresh =>
    simp only [h.isFlagSet _ (fresh_left (fresh_left hfresh)),
      h.isFlagSet _ (fresh_right (fresh_left hfresh)), h.isFlagSet _ (fresh_right hfresh)]
  | 4, hfresh | 5, hfresh => simp only [h.isFlagSet SR_ARITH_ZERO hfresh]
  | 6, hfresh | 7, hfresh => simp only [h.isFlagSet SR_CARRY hfresh]
  | 8, hfresh | 9, hfresh => simp only [h.isFlagSet SR_OVER_S32 hfresh]
  | 10, hfresh | 11, hfresh =>
    simp only [h.isFlagSet _ (fresh_left (fresh_left hfresh)),
      h.isFlagSet _ (fresh_right (fresh_left hfresh)), h.isFlagSet _ (fresh_right hfresh)]
  | 12, hfresh | 13, hfresh => simp only [h.isFlagSet SR_LOGIC_ZERO hfresh]
  | 14, hfresh => simp only [h.isFlagSet SR_OVERFLOW hfresh]
  | 15, _ => rfl
  | c + 16, _ => omega

/-- The flags, when a register number is the status register's. -/
def flagsOf (reg : Nat) : BitVec 16 := if Reg.ofNumber reg = .sr then 0xff else 0

/-- The flags a function of the branch unit reads. -/
def BranchFunc.srReads (f : BranchFunc) (opc : BitVec 16) : BitVec 16 :=
  match f with
  | .call | .ifcc | .jcc | .ret => conditionFlags (opc.setWidth 4)
  | .callr | .jmprcc => conditionFlags (opc.setWidth 4) ||| flagsOf (bits opc 5 3)
  | .loop | .bloop => flagsOf (bits opc 0 5)
  | .loopi | .bloopi | .rti | .halt => 0

/-- The flags a move or a store reads. -/
def LoadStoreFunc.srReads (f : LoadStoreFunc) (opc : BitVec 16) : BitVec 16 :=
  match f with
  | .mrr | .sr | .srr | .srrd | .srri | .srrn => flagsOf (bits opc 0 5)
  | .srs => flagsOf (bits opc 8 3 + 0x18)
  | _ => 0

/-- The flags an instruction reads. -/
def IntFunc.srReads (f : IntFunc) (opc : BitVec 16) : BitVec 16 :=
  match f with
  | .branch f => f.srReads opc
  | .loadStore f => f.srReads opc
  | _ => 0

/-- The flags an instruction writes other than by an update. -/
def IntFunc.srWrites (f : IntFunc) (opc : BitVec 16) : BitVec 16 :=
  match f with
  | .branch .rti => 0xff
  | .misc .sbclr | .misc .sbset => (1 : BitVec 16) <<< (bits opc 0 3 + 6)
  | .loadStore .mrr => flagsOf (bits opc 5 5)
  | .loadStore .lri | .loadStore .lr | .loadStore .lrr | .loadStore .lrrd | .loadStore .lrri
  | .loadStore .lrrn => flagsOf (bits opc 0 5)
  | .loadStore .lris => flagsOf (bits opc 8 3 + DSP_REG_AXL0)
  | .loadStore .lrs => flagsOf (bits opc 8 3 + 0x18)
  | _ => 0

/-- The update an instruction ends with. -/
def IntFunc.update (f : IntFunc) (opc imm : BitVec 16) (r : Regs) : SRUpdate :=
  match f with
  | .arith f => (f.exec opc r).2
  | .arithImm f => (f.exec opc imm r).2
  | .mult f => (f.exec opc r).2
  | _ => .none

/-- The stale bits after an instruction. -/
def IntFunc.staleAfter (needed : Bool) (f : IntFunc) (opc : BitVec 16) (s : SDSP σ)
    (stale : BitVec 16) : BitVec 16 :=
  let u := f.update opc s.peekCode s.r
  (if needed then stale &&& ~~~u.bits else stale ||| u.bits) &&& ~~~f.srWrites opc

/-! ## cores that agree up to stale flags -/

/-- Two cores alike but for stale flags. -/
def SDSP.UpTo (stale : BitVec 16) (s t : SDSP σ) : Prop :=
  ∃ x, t = s.withSR x ∧ SRAgree stale s.r.sr x

namespace SDSP.UpTo

variable {stale : BitVec 16} {s t : SDSP σ}

theorem refl (stale : BitVec 16) (s : SDSP σ) : UpTo stale s s := ⟨s.r.sr, rfl, .refl _ _⟩

theorem of_commutes {g : SDSP σ → SDSP σ} {x : BitVec 16} (h : SRAgree stale s.r.sr x)
    (hg : g (s.withSR x) = (g s).withSR x) (hsr : (g s).r.sr = s.r.sr) :
    UpTo stale (g s) (g (s.withSR x)) :=
  ⟨x, hg, by rw [hsr]; exact h⟩

theorem map {g : SDSP σ → SDSP σ} (hg : FlagBlind g) (h : UpTo stale s t) :
    UpTo stale (g s) (g t) := by
  obtain ⟨x, rfl, hx⟩ := h
  exact of_commutes hx (hg.commutes s x hx.sameModes) (hg.sr s)

theorem of_and_not_zero (h : UpTo stale s t) : UpTo (stale &&& ~~~0) s t := by
  have hall : stale &&& ~~~(0 : BitVec 16) = stale := BitVec.and_allOnes
  rw [hall]
  exact h

theorem opWriteReg (h : UpTo stale s t) (n : Nat) (val : BitVec 16) :
    UpTo (stale &&& ~~~flagsOf n) (s.opWriteReg n val) (t.opWriteReg n val) := by
  obtain ⟨x, rfl, hx⟩ := h
  by_cases hn : Reg.ofNumber n = .sr
  · rw [opWriteReg_withSR_of_sr hn]
    exact refl _ _
  · rw [flagsOf, if_neg hn]
    refine of_and_not_zero ⟨x, opWriteReg_withSR hn s x val, ?_⟩
    have hsr : (s.opWriteReg n val).r.sr = s.r.sr := by
      unfold SDSP.opWriteReg
      generalize Reg.ofNumber n = y at hn
      cases y with
      | sr => exact absurd rfl hn
      | _ => rfl
    rw [hsr]
    exact hx

theorem writeExtended (h : UpTo stale s t) (n : Nat) (val : BitVec 16) :
    UpTo (stale &&& ~~~flagsOf n) (s.writeExtended n val) (t.writeExtended n val) :=
  (h.opWriteReg n val).map (.conditionalExtendAccum n)

theorem fetchCode (h : UpTo stale s t) :
    t.fetchCode.1 = s.fetchCode.1 ∧ UpTo stale s.fetchCode.2 t.fetchCode.2 := by
  obtain ⟨x, rfl, hx⟩ := h
  exact ⟨rfl, x, rfl, hx⟩

theorem dmemRead (h : UpTo stale s t) (addr : BitVec 16) :
    (t.dmemRead io addr).1 = (s.dmemRead io addr).1 ∧
      UpTo stale (s.dmemRead io addr).2 (t.dmemRead io addr).2 := by
  obtain ⟨x, rfl, hx⟩ := h
  rw [s.dmemRead_withSR io]
  refine ⟨rfl, x, rfl, ?_⟩
  have hsr : (s.dmemRead io addr).2.r.sr = s.r.sr :=
    congrArg Regs.Operands.sr (s.dmemRead_operands io addr)
  rw [hsr]
  exact hx

theorem dmemWrite (h : UpTo stale s t) (addr val : BitVec 16) :
    UpTo stale (s.dmemWrite io addr val) (t.dmemWrite io addr val) :=
  h.map ⟨fun s => by rw [s.dmemWrite_r io], fun s x _ => s.dmemWrite_withSR io x addr val⟩

theorem regs (h : UpTo stale s t) : ∃ x, t.r = s.r.withSR x := by
  obtain ⟨x, rfl, -⟩ := h
  exact ⟨x, rfl⟩

theorem setAr (h : UpTo stale s t) (i : Fin 4) (g : Regs → BitVec 16)
    (hg : ∀ r x, g (r.withSR x) = g r) : UpTo stale (s.setAr i (g s.r)) (t.setAr i (g t.r)) := by
  obtain ⟨x, rfl, hx⟩ := h
  refine ⟨x, ?_, hx⟩
  show SDSP.setAr (s.withSR x) i (g (s.r.withSR x)) = _
  rw [hg]
  rfl

theorem readForStore (h : UpTo stale s t) (n : Nat) (hfresh : stale &&& flagsOf n = 0) :
    (t.readForStore n).1 = (s.readForStore n).1 ∧
      UpTo stale (s.readForStore n).2 (t.readForStore n).2 := by
  obtain ⟨x, rfl, hx⟩ := h
  by_cases hn : Reg.ofNumber n = .sr
  · rw [flagsOf, if_pos hn] at hfresh
    rw [hx.eq hfresh]
    exact ⟨rfl, refl _ _⟩
  · rw [readForStore_withSR hn hx.sameModes]
    refine ⟨rfl, x, rfl, ?_⟩
    have hsr : (s.readForStore n).2.r.sr = s.r.sr := by
      unfold SDSP.readForStore SDSP.opReadReg
      split
      · rfl
      · split <;> rfl
    rw [hsr]
    exact hx

theorem opReadReg (h : UpTo stale s t) (n : Nat) (hfresh : stale &&& flagsOf n = 0) :
    (t.opReadReg n).1 = (s.opReadReg n).1 ∧ UpTo stale (s.opReadReg n).2 (t.opReadReg n).2 := by
  obtain ⟨x, rfl, hx⟩ := h
  by_cases hn : Reg.ofNumber n = .sr
  · rw [flagsOf, if_pos hn] at hfresh
    rw [hx.eq hfresh]
    exact ⟨rfl, refl _ _⟩
  · rw [opReadReg_withSR hn]
    refine ⟨rfl, x, rfl, ?_⟩
    have hsr : (s.opReadReg n).2.r.sr = s.r.sr := by
      unfold SDSP.opReadReg
      split <;> rfl
    rw [hsr]
    exact hx

end SDSP.UpTo

/-! ## instructions in lockstep -/

section

open SDSP

variable {stale : BitVec 16} {s t : SDSP σ}

theorem lrr_upTo (h : UpTo stale s t) (opc : BitVec 16) :
    UpTo (stale &&& ~~~flagsOf (bits opc 0 5)) (Interpreter.lrr io opc s)
      (Interpreter.lrr io opc t) := by
  obtain ⟨x, hr⟩ := h.regs
  have har : t.r.ar = s.r.ar := by rw [hr]; rfl
  obtain ⟨hval, hs⟩ := h.dmemRead io (s.r.ar (bits2 opc 5))
  unfold Interpreter.lrr
  simp only [har, hval]
  exact hs.writeExtended _ _

theorem srr_upTo (h : UpTo stale s t) (opc : BitVec 16)
    (hfresh : stale &&& flagsOf (bits opc 0 5) = 0) :
    UpTo stale (Interpreter.srr io opc s) (Interpreter.srr io opc t) := by
  obtain ⟨hval, hs⟩ := h.readForStore _ hfresh
  obtain ⟨x, hr⟩ := hs.regs
  have har : (t.readForStore (bits opc 0 5)).2.r.ar = (s.readForStore (bits opc 0 5)).2.r.ar := by
    rw [hr]
    rfl
  unfold Interpreter.srr
  simp only [hval, har]
  exact hs.dmemWrite io _ _

theorem ilrr_upTo (h : UpTo stale s t) (opc : BitVec 16) :
    UpTo stale (Interpreter.ilrr opc s) (Interpreter.ilrr opc t) := by
  refine UpTo.map (g := Interpreter.ilrr opc) ?_ h
  exact (FlagBlind.conditionalExtendAccum _).comp (g := fun s =>
    { s with r := s.r.setAcM (bit1 opc 8) (s.mem.imemRead (s.r.ar (bits2 opc 0))) })
    ⟨fun _ => rfl, fun _ _ _ => rfl⟩

theorem LoadStoreFunc.exec_upTo (f : LoadStoreFunc) (opc : BitVec 16) (h : UpTo stale s t)
    (hfresh : stale &&& f.srReads opc = 0) :
    UpTo (stale &&& ~~~(IntFunc.loadStore f).srWrites opc) (f.exec io opc s) (f.exec io opc t) := by
  obtain ⟨himm, hf⟩ := h.fetchCode
  have hcr : t.crAddr opc = s.crAddr opc := by
    obtain ⟨x, hr⟩ := h.regs
    unfold SDSP.crAddr
    rw [hr]
    rfl
  cases f with
  | mrr =>
    obtain ⟨hval, hs⟩ := h.readForStore _ hfresh
    unfold exec Interpreter.mrr
    simp only [hval]
    exact hs.writeExtended _ _
  | lri =>
    unfold exec Interpreter.lri
    simp only [himm]
    exact hf.writeExtended _ _
  | lris => exact h.writeExtended _ _
  | srs =>
    obtain ⟨hval, hs⟩ := h.readForStore _ hfresh
    unfold exec Interpreter.srs
    simp only [hval, hcr]
    exact .of_and_not_zero (hs.dmemWrite io _ _)
  | sr =>
    obtain ⟨hval, hs⟩ := hf.readForStore _ hfresh
    unfold exec Interpreter.sr
    simp only [hval, himm]
    exact .of_and_not_zero (hs.dmemWrite io _ _)
  | si =>
    unfold exec Interpreter.si
    simp only [himm]
    exact .of_and_not_zero (hf.dmemWrite io _ _)
  | lrs =>
    obtain ⟨hval, hs⟩ := h.dmemRead io (s.crAddr opc)
    unfold exec Interpreter.lrs
    simp only [hval, hcr]
    exact hs.writeExtended _ _
  | lr =>
    obtain ⟨hval, hs⟩ := hf.dmemRead io s.fetchCode.1
    unfold exec Interpreter.lr
    simp only [hval, himm]
    exact hs.writeExtended _ _
  | lrr => exact lrr_upTo io h opc
  | lrrd => exact (lrr_upTo io h opc).setAr _ (·.decrementAddrReg (bits2 opc 5)) fun _ _ => rfl
  | lrri => exact (lrr_upTo io h opc).setAr _ (·.incrementAddrReg (bits2 opc 5)) fun _ _ => rfl
  | lrrn =>
    exact (lrr_upTo io h opc).setAr _
      (fun r => r.increaseAddrReg (bits2 opc 5) (r.ix (bits2 opc 5))) fun _ _ => rfl
  | srr => exact .of_and_not_zero (srr_upTo io h opc hfresh)
  | srrd =>
    exact .of_and_not_zero ((srr_upTo io h opc hfresh).setAr _
      (·.decrementAddrReg (bits2 opc 5)) fun _ _ => rfl)
  | srri =>
    exact .of_and_not_zero ((srr_upTo io h opc hfresh).setAr _
      (·.incrementAddrReg (bits2 opc 5)) fun _ _ => rfl)
  | srrn =>
    exact .of_and_not_zero ((srr_upTo io h opc hfresh).setAr _
      (fun r => r.increaseAddrReg (bits2 opc 5) (r.ix (bits2 opc 5))) fun _ _ => rfl)
  | ilrr => exact .of_and_not_zero (ilrr_upTo h opc)
  | ilrrd =>
    exact .of_and_not_zero ((ilrr_upTo h opc).setAr _
      (·.decrementAddrReg (bits2 opc 0)) fun _ _ => rfl)
  | ilrri =>
    exact .of_and_not_zero ((ilrr_upTo h opc).setAr _
      (·.incrementAddrReg (bits2 opc 0)) fun _ _ => rfl)
  | ilrrn =>
    exact .of_and_not_zero ((ilrr_upTo h opc).setAr _
      (fun r => r.increaseAddrReg (bits2 opc 0) (r.ix (bits2 opc 0))) fun _ _ => rfl)

theorem condition_upTo (h : UpTo stale s t)
    (hfresh : stale &&& conditionFlags (opc.setWidth 4) = 0) :
    t.condition opc = s.condition opc := by
  obtain ⟨x, rfl, hx⟩ := h
  exact hx.checkCondition _ hfresh

theorem pushCall_upTo (h : UpTo stale s t) (pc : BitVec 16) :
    UpTo stale { s.regStoreStack Call s.pc with pc := pc }
      { t.regStoreStack Call t.pc with pc := pc } := by
  obtain ⟨x, rfl, hx⟩ := h
  exact ⟨x, rfl, hx⟩

theorem jump_upTo (h : UpTo stale s t) (pc : BitVec 16) :
    UpTo stale { s with pc := pc } { t with pc := pc } := by
  obtain ⟨x, rfl, hx⟩ := h
  exact ⟨x, rfl, hx⟩

theorem skipInst_upTo (h : UpTo stale s t) : UpTo stale s.skipInst t.skipInst := by
  obtain ⟨x, rfl, hx⟩ := h
  exact ⟨x, rfl, hx⟩

theorem startLoop_upTo (h : UpTo stale s t) (cnt : BitVec 16) :
    UpTo stale (s.startLoop cnt) (t.startLoop cnt) := by
  unfold SDSP.startLoop
  split
  · obtain ⟨x, rfl, hx⟩ := h
    exact ⟨x, rfl, hx⟩
  · exact skipInst_upTo h

theorem startBlockLoop_upTo (h : UpTo stale s t) (cnt : BitVec 16) :
    UpTo stale (s.startBlockLoop cnt) (t.startBlockLoop cnt) := by
  obtain ⟨himm, hf⟩ := h.fetchCode
  unfold SDSP.startBlockLoop
  simp only [himm]
  split
  · obtain ⟨x, ht, hx⟩ := hf
    rw [ht]
    exact ⟨x, rfl, hx⟩
  · exact skipInst_upTo (jump_upTo hf _)

theorem BranchFunc.exec_upTo (f : BranchFunc) (opc : BitVec 16) (h : UpTo stale s t)
    (hfresh : stale &&& f.srReads opc = 0) :
    UpTo (stale &&& ~~~(IntFunc.branch f).srWrites opc) (f.exec opc s) (f.exec opc t) := by
  obtain ⟨himm, hf⟩ := h.fetchCode
  cases f with
  | call =>
    refine .of_and_not_zero ?_
    unfold exec Interpreter.call
    simp only [himm, condition_upTo hf hfresh]
    split
    · exact pushCall_upTo hf _
    · exact hf
  | callr =>
    obtain ⟨hval, hs⟩ := h.opReadReg _ (fresh_right hfresh)
    refine .of_and_not_zero ?_
    unfold exec Interpreter.callr
    simp only [hval, condition_upTo h (fresh_left hfresh)]
    split
    · exact pushCall_upTo hs _
    · exact h
  | ifcc =>
    refine .of_and_not_zero ?_
    simp only [exec, Interpreter.ifcc, condition_upTo h hfresh]
    split
    · exact h
    · exact skipInst_upTo h
  | jcc =>
    refine .of_and_not_zero ?_
    unfold exec Interpreter.jcc
    simp only [himm, condition_upTo hf hfresh]
    split
    · exact jump_upTo hf _
    · exact hf
  | jmprcc =>
    obtain ⟨hval, hs⟩ := h.opReadReg _ (fresh_right hfresh)
    refine .of_and_not_zero ?_
    unfold exec Interpreter.jmprcc
    simp only [hval, condition_upTo h (fresh_left hfresh)]
    split
    · exact jump_upTo hs _
    · exact h
  | ret =>
    refine .of_and_not_zero ?_
    simp only [exec, Interpreter.ret, condition_upTo h hfresh]
    split
    · obtain ⟨x, rfl, hx⟩ := h
      exact ⟨x, rfl, hx⟩
    · exact h
  | rti =>
    -- the status register is restored from the stack
    obtain ⟨x, rfl, hx⟩ := h
    exact SDSP.UpTo.refl _ _
  | halt =>
    obtain ⟨x, rfl, hx⟩ := h
    exact .of_and_not_zero ⟨x, rfl, hx⟩
  | loop =>
    obtain ⟨hval, hs⟩ := h.opReadReg _ hfresh
    unfold exec Interpreter.loop
    simp only [hval]
    exact .of_and_not_zero (startLoop_upTo hs _)
  | loopi => exact .of_and_not_zero (startLoop_upTo h _)
  | bloop =>
    obtain ⟨hval, hs⟩ := h.opReadReg _ hfresh
    unfold exec Interpreter.bloop
    simp only [hval]
    exact .of_and_not_zero (startBlockLoop_upTo hs _)
  | bloopi => exact .of_and_not_zero (startBlockLoop_upTo h _)

theorem SRAgree.clear {sr x : BitVec 16} (h : SRAgree stale sr x) (c : BitVec 16) :
    SRAgree (stale &&& ~~~c) (sr &&& ~~~c) (x &&& ~~~c) := by
  intro k hk
  have hx := h k
  by_cases h16 : k < 16
  · grind
  · rw [BitVec.getLsbD_of_ge _ k (by omega), BitVec.getLsbD_of_ge _ k (by omega)]

theorem SRAgree.set {sr x : BitVec 16} (h : SRAgree stale sr x) (c : BitVec 16) :
    SRAgree (stale &&& ~~~c) (sr ||| c) (x ||| c) := by
  intro k hk
  have hx := h k
  by_cases h16 : k < 16
  · grind
  · rw [BitVec.getLsbD_of_ge _ k (by omega), BitVec.getLsbD_of_ge _ k (by omega)]

theorem SRAgree.widen {sr x c : BitVec 16} (h : SRAgree (stale &&& ~~~c) sr x) :
    SRAgree stale sr x := by
  intro k hk
  refine h k (hk.imp_right fun hs => ?_)
  rw [BitVec.getLsbD_and, hs, Bool.false_and]

theorem srbith_upTo (opc : BitVec 16) (h : UpTo stale s t) :
    UpTo stale { s with r := Interpreter.srbith opc s.r }
      { t with r := Interpreter.srbith opc t.r } := by
  obtain ⟨x, rfl, hx⟩ := h
  unfold Interpreter.srbith
  split
  · exact ⟨_, rfl, (hx.clear SR_MUL_MODIFY).widen⟩
  · exact ⟨_, rfl, (hx.set SR_MUL_MODIFY).widen⟩
  · exact ⟨_, rfl, (hx.clear SR_MUL_UNSIGNED).widen⟩
  · exact ⟨_, rfl, (hx.set SR_MUL_UNSIGNED).widen⟩
  · exact ⟨_, rfl, (hx.clear Regs.SR_40_MODE_BIT).widen⟩
  · exact ⟨_, rfl, (hx.set Regs.SR_40_MODE_BIT).widen⟩
  · exact ⟨x, rfl, hx⟩

theorem MiscFunc.exec_upTo (f : MiscFunc) (opc : BitVec 16) (h : UpTo stale s t) :
    UpTo (stale &&& ~~~(IntFunc.misc f).srWrites opc) { s with r := f.exec opc s.r }
      { t with r := f.exec opc t.r } := by
  cases f with
  | nx | dar | iar | subarn | addarn =>
    obtain ⟨x, rfl, hx⟩ := h
    exact .of_and_not_zero ⟨x, rfl, hx⟩
  | sbclr =>
    obtain ⟨x, rfl, hx⟩ := h
    exact ⟨_, rfl, hx.clear _⟩
  | sbset =>
    obtain ⟨x, rfl, hx⟩ := h
    exact ⟨_, rfl, hx.set _⟩
  | srbith => exact .of_and_not_zero (srbith_upTo opc h)

theorem withRegs_upTo {x : BitVec 16} (hx : SRAgree stale s.r.sr x) (needed : Bool)
    {p p' : Regs × SRUpdate} (hp : p' = (p.1.withSR x, p.2)) (hsr : p.1.sr = s.r.sr) :
    UpTo (if needed then stale &&& ~~~p.2.bits else stale ||| p.2.bits) (s.withRegs true p)
      ((s.withSR x).withRegs needed p') := by
  rw [hp]
  rw [← hsr] at hx
  cases needed
  · exact ⟨x, rfl, hx.suppress p.2⟩
  · exact ⟨p.2.apply x, rfl, hx.apply p.2⟩

/-- **Instructions in lockstep**: an instruction whose flags are fresh does the same on
both cores, up to the flags that are stale after it. -/
theorem IntFunc.exec_upTo (needed : Bool) (f : IntFunc) (opc : BitVec 16) (h : UpTo stale s t)
    (hfresh : stale &&& f.srReads opc = 0) :
    UpTo (f.staleAfter needed opc s stale) (f.exec io true opc s) (f.exec io needed opc t) := by
  have hnone : (if needed then stale &&& ~~~SRUpdate.bits .none
      else stale ||| SRUpdate.bits .none) = stale := by
    cases needed
    · exact BitVec.or_zero
    · exact BitVec.and_allOnes
  cases f with
  | nop =>
    unfold staleAfter
    simp only [update, hnone]
    exact .of_and_not_zero h
  | arith f =>
    obtain ⟨x, rfl, hx⟩ := h
    exact .of_and_not_zero
      (withRegs_upTo hx needed (f.exec_withSR opc s.r x) (f.exec_sr opc s.r))
  | arithImm f =>
    obtain ⟨x, rfl, hx⟩ := h
    exact .of_and_not_zero (withRegs_upTo (s := s.fetchCode.2) hx needed
      (f.exec_withSR opc s.peekCode s.r x) (f.exec_sr opc s.peekCode s.r))
  | mult f =>
    obtain ⟨x, rfl, hx⟩ := h
    exact .of_and_not_zero
      (withRegs_upTo hx needed (f.exec_withSR opc hx.sameModes) (f.exec_sr opc s.r))
  | misc f =>
    unfold staleAfter
    simp only [update, hnone]
    exact f.exec_upTo opc h
  | loadStore f =>
    unfold staleAfter
    simp only [update, hnone]
    exact f.exec_upTo io opc h hfresh
  | branch f =>
    unfold staleAfter
    simp only [update, hnone]
    exact f.exec_upTo opc h hfresh

/-- The stale bits after an instruction with its extension. -/
def SDSP.staleAfter (needed : Bool) (inst : BitVec 16) (s : SDSP σ) (stale : BitVec 16) :
    BitVec 16 :=
  let s := if (getOpTemplate inst).extended then (getExtFunc inst).exec io inst s else s
  (getOpTemplate inst).intFunc.staleAfter needed inst s stale

theorem executeInstruction_upTo (needed : Bool) (inst : BitVec 16) (h : UpTo stale s t)
    (hlog : s.LogEmpty) (hfresh : stale &&& (getOpTemplate inst).intFunc.srReads inst = 0) :
    UpTo (s.staleAfter io needed inst stale) (executeInstruction io true inst s)
      (executeInstruction io needed inst t) := by
  by_cases hext : (getOpTemplate inst).extended = true
  · obtain ⟨x, rfl, hx⟩ := h
    have hsr : (s.extRun io inst).2.r.sr = s.r.sr :=
      congrArg Regs.Operands.sr (s.extRun_memoriesOf io inst).operands
    have hcore : UpTo stale (s.extRun io inst).2 ((s.extRun io inst).2.withSR x) :=
      ⟨x, rfl, by rw [hsr]; exact hx⟩
    obtain ⟨y, hy, hagree⟩ := IntFunc.exec_upTo io needed _ inst hcore hfresh
    have hplain := (ExtFunc.writesOk io inst s.r s).plain
    obtain ⟨hset, hsetsr⟩ := Regs.setAll_withSR y (s.extRun io inst).1
      ((getOpTemplate inst).intFunc.exec io true inst (s.extRun io inst).2).r hplain
    have hstale : s.staleAfter io needed inst stale = (getOpTemplate inst).intFunc.staleAfter
        needed inst (s.extRun io inst).2 stale := by
      have hlogged : (getExtFunc inst).exec io inst s = _ :=
        (ExtFunc.exec_eq io (getExtFunc inst) inst s).trans (SDSP.logFrom_eq _ _ _)
      unfold SDSP.staleAfter
      rw [if_pos hext, hlogged]
      rfl
    rw [executeInstruction_plan io hext hlog,
      executeInstruction_plan io (s := s.withSR x) hext hlog, SDSP.extRun_withSR io hx.sameModes,
      hstale]
    refine ⟨y, ?_, ?_⟩
    · simp only [hy, SDSP.logAll, SDSP.logFrom_withSR]
      show _ = SDSP.mk (Regs.withSR _ y) _ _ _ _ _ _ _
      rw [← hset]
      rfl
    · rw [hsetsr]
      exact hagree
  · rw [executeInstruction_eq (by simpa using hext) rfl, executeInstruction_eq
      (by simpa using hext) rfl]
    unfold SDSP.staleAfter
    rw [if_neg hext]
    exact IntFunc.exec_upTo io needed _ inst h hfresh

end

/-! ## what a step shows of the flags -/

/-- `FlagsNeeded` at the instruction the core is at. -/
def SDSP.flagsNeeded (s : SDSP σ) : Bool :=
  !(s.codeFlags s.pc).startOfInst || (s.codeFlags s.pc).updateSr

/-- Instructions that branch or skip on a condition. -/
def IntFunc.isConditional : IntFunc → Bool
  | .branch .call | .branch .callr | .branch .ifcc | .branch .jcc | .branch .jmprcc
  | .branch .ret => true
  | _ => false

/-- The number of the register whose value an instruction moves, stores or takes as
a count or an address. -/
def IntFunc.source (f : IntFunc) (opc : BitVec 16) : Option Nat :=
  match f with
  | .loadStore .mrr | .loadStore .sr | .loadStore .srr | .loadStore .srrd | .loadStore .srri
  | .loadStore .srrn | .branch .loop | .branch .bloop => some (bits opc 0 5)
  | .loadStore .srs => some (bits opc 8 3 + 0x18)
  | .branch .callr | .branch .jmprcc => some (bits opc 5 3)
  | _ => none

/-- Whether that register is the status register. -/
def IntFunc.readsStatus (f : IntFunc) (opc : BitVec 16) : Bool :=
  (f.source opc).any fun n => Reg.ofNumber n = .sr

/-- What a step does with flags: where it is, whether a condition holds, the value
of the status register that an instruction reads or an exception saves. -/
structure FlowEvent where
  pc : BitVec 16
  inst : BitVec 16
  taken : Option Bool
  read : Option (BitVec 16)
  saved : Option (BitVec 16)
  deriving DecidableEq

/-- The function of the instruction a core is at. -/
def SDSP.nextFunc (s : SDSP σ) : IntFunc := (getOpTemplate s.peekCode).intFunc

def SDSP.observe (s : SDSP σ) : FlowEvent :=
  let s' := s.checkExceptions
  { pc := s'.pc
    inst := s'.peekCode
    taken := if s'.nextFunc.isConditional then some (s'.condition s'.peekCode) else none
    read := if s'.nextFunc.readsStatus s'.peekCode then some s'.r.sr else none
    saved := s.pendingException.map fun _ => s.r.sr }

/-- The flags a step depends on: all of them when an exception saves them. -/
def SDSP.srConsumed (s : SDSP σ) : BitVec 16 :=
  (if s.pendingException.isSome then 0xff else 0) |||
    s.checkExceptions.nextFunc.srReads s.checkExceptions.peekCode

section

variable {stale : BitVec 16} {s t : SDSP σ} {f : IntFunc}

theorem conditionFlags_fresh (hf : f.isConditional) (hfresh : stale &&& f.srReads opc = 0) :
    stale &&& conditionFlags (opc.setWidth 4) = 0 := by
  cases f with
  | branch f =>
    cases f with
    | call | ifcc | jcc | ret => exact hfresh
    | callr | jmprcc => exact fresh_left hfresh
    | _ => cases hf
  | _ => cases hf

theorem source_fresh {n : Nat} (hf : f.source opc = some n) (hfresh : stale &&& f.srReads opc = 0) :
    stale &&& flagsOf n = 0 := by
  cases f with
  | branch f =>
    cases f with
    | loop | bloop =>
      cases hf
      exact hfresh
    | callr | jmprcc =>
      cases hf
      exact fresh_right hfresh
    | _ => cases hf
  | loadStore f =>
    cases f with
    | mrr | sr | srr | srrd | srri | srrn | srs =>
      cases hf
      exact hfresh
    | _ => cases hf
  | _ => cases hf

theorem fresh_of_readsStatus (hf : f.readsStatus opc) (hfresh : stale &&& f.srReads opc = 0) :
    stale &&& 0xff = 0 := by
  unfold IntFunc.readsStatus at hf
  cases hn : f.source opc with
  | none =>
    rw [hn] at hf
    cases hf
  | some n =>
    rw [hn] at hf
    have hsr : Reg.ofNumber n = .sr := by simpa using hf
    have h := source_fresh hn hfresh
    rw [flagsOf, if_pos hsr] at h
    exact h

theorem pendingException_upTo (h : s.UpTo stale t) : t.pendingException = s.pendingException := by
  obtain ⟨x, rfl, hx⟩ := h
  unfold SDSP.pendingException
  rw [show (s.withSR x).r = s.r.withSR x from rfl, hx.sameModes.isFlagSet SR_INT_ENABLE (by decide)]
  rfl

theorem checkExceptions_upTo (h : s.UpTo stale t)
    (hfresh : stale &&& (if s.pendingException.isSome then 0xff else 0) = 0) :
    s.checkExceptions.UpTo stale t.checkExceptions := by
  have hpend := pendingException_upTo h
  cases hp : s.pendingException with
  | none =>
    rw [hp] at hpend
    unfold SDSP.checkExceptions
    rw [hp, hpend]
    exact h
  | some i =>
    rw [hp] at hfresh
    obtain ⟨x, rfl, hx⟩ := h
    rw [hx.eq hfresh]
    exact SDSP.UpTo.refl _ _

theorem checkExceptions_log (hlog : s.LogEmpty) : s.checkExceptions.LogEmpty :=
  fun i => (congrFun s.checkExceptions_idx i).trans (hlog i)

theorem observe_upTo (h : s.UpTo stale t) (hfresh : stale &&& s.srConsumed = 0) :
    t.observe = s.observe := by
  have hexc := checkExceptions_upTo h (fresh_left hfresh)
  have hreads := fresh_right hfresh
  have hpend := pendingException_upTo h
  obtain ⟨x, ht, hx⟩ := hexc
  have hsaved : (t.pendingException.map fun _ => t.r.sr) =
      s.pendingException.map fun _ => s.r.sr := by
    rw [hpend]
    cases hp : s.pendingException with
    | none => rfl
    | some i =>
      have hall := fresh_left hfresh
      rw [hp] at hall
      obtain ⟨y, rfl, hy⟩ := h
      rw [hy.eq hall]
      rfl
  unfold SDSP.observe
  rw [hsaved, ht]
  simp only [FlowEvent.mk.injEq]
  refine ⟨rfl, rfl, ?_, ?_, trivial⟩
  · show (if s.checkExceptions.nextFunc.isConditional then
      some ((s.checkExceptions.withSR x).condition s.checkExceptions.peekCode) else none) = _
    split
    · next hc =>
      rw [condition_upTo ⟨x, rfl, hx⟩ (conditionFlags_fresh hc hreads)]
    · rfl
  · show (if s.checkExceptions.nextFunc.readsStatus s.checkExceptions.peekCode then
      some x else none) = _
    split
    · next hr => rw [hx.eq (fresh_of_readsStatus hr hreads)]
    · rfl

end

/-! ## runs in lockstep -/

/-- Two cores in lockstep: with every update, and with updates only where the analysis
asks for them. -/
structure Lockstep (σ : Type) where
  full : SDSP σ
  supp : SDSP σ
  stale : BitVec 16
  fullTrace : List FlowEvent
  suppTrace : List FlowEvent

namespace Lockstep

def init (mem : Mem σ) : Lockstep σ := ⟨SDSP.init mem, SDSP.init mem, 0, [], []⟩

/-- The stale bits after the next step. -/
def nextStale (b : Lockstep σ) : BitVec 16 :=
  let s := b.full.checkExceptions
  s.fetchCode.2.staleAfter io s.flagsNeeded s.peekCode b.stale

def step (b : Lockstep σ) : Lockstep σ where
  full := b.full.step io
  supp := b.supp.stepWith io SDSP.flagsNeeded
  stale := b.nextStale io
  fullTrace := b.fullTrace ++ [b.full.observe]
  suppTrace := b.suppTrace ++ [b.supp.observe]

def event (b : Lockstep σ) : CoreEvent σ → Option (Lockstep σ)
  | .step => some (b.step io)
  | a =>
    (b.full.event io a).bind fun full =>
      (b.supp.event io a).bind fun supp => some { b with full := full, supp := supp }

/-- The step to come depends on fresh flags only. -/
def FlagsFresh (b : Lockstep σ) : CoreEvent σ → Prop
  | .step => b.stale &&& b.full.srConsumed = 0
  | _ => True

/-- The cores agree up to stale flags, and have shown the same so far. -/
structure Agree (b : Lockstep σ) : Prop where
  upTo : b.full.UpTo b.stale b.supp
  trace : b.suppTrace = b.fullTrace
  log : b.full.LogEmpty

variable {io} {b c : Lockstep σ}

theorem Agree.step (h : b.Agree) (hfresh : b.FlagsFresh .step) (hc : b.event io .step = some c) :
    c.Agree := by
  cases hc
  have hexc := checkExceptions_upTo h.upTo (fresh_left hfresh)
  have hlog := checkExceptions_log h.log
  have hobs := observe_upTo h.upTo hfresh
  refine ⟨?_, ?_, ?_⟩
  · have hneeded : b.supp.checkExceptions.flagsNeeded = b.full.checkExceptions.flagsNeeded := by
      obtain ⟨x, ht, -⟩ := hexc
      rw [ht]
      rfl
    have hinst : b.supp.checkExceptions.fetchCode.1 = b.full.checkExceptions.fetchCode.1 :=
      hexc.fetchCode.1
    have hrun := executeInstruction_upTo io b.full.checkExceptions.flagsNeeded
      b.full.checkExceptions.fetchCode.1 hexc.fetchCode.2 hlog (fresh_right hfresh)
    show SDSP.UpTo _ (executeInstruction io true b.full.checkExceptions.fetchCode.1
      b.full.checkExceptions.fetchCode.2).handleLoopAtEnd
      (executeInstruction io b.supp.checkExceptions.flagsNeeded b.supp.checkExceptions.fetchCode.1
        b.supp.checkExceptions.fetchCode.2).handleLoopAtEnd
    rw [hneeded, hinst]
    exact hrun.map .handleLoopAtEnd
  · show b.suppTrace ++ [b.supp.observe] = b.fullTrace ++ [b.full.observe]
    rw [h.trace, hobs]
  · intro i
    show (executeInstruction io true b.full.checkExceptions.fetchCode.1
      b.full.checkExceptions.fetchCode.2).handleLoopAtEnd.writeBackLogIdx i = none
    rw [SDSP.handleLoopAtEnd_idx]
    exact executeInstruction_logEmpty (s := b.full.checkExceptions.fetchCode.2) io hlog i

theorem checkExternalInterrupt_blind : FlagBlind (SDSP.checkExternalInterrupt (σ := σ)) where
  sr s := by
    unfold SDSP.checkExternalInterrupt
    split <;> rfl
  commutes s x h := by
    unfold SDSP.checkExternalInterrupt
    rw [show (s.withSR x).r = s.r.withSR x from rfl, h.isFlagSet SR_EXT_INT_ENABLE (by decide)]
    split <;> rfl

/-- **Suppressed updates**: in every run in which each step depends only on flags that are
fresh, the core with suppressed updates takes the same branches and skips and sees the
same values of the status register as the core with every update. -/
theorem reads_agree_of_run {mem : Mem σ} (h : Run (event io) FlagsFresh (init mem) b) : b.Agree := by
  refine h.invariant (I := Agree) ⟨SDSP.UpTo.refl _ _, rfl, fun _ => rfl⟩ ?_
  intro b a c hb hok hc
  cases a with
  | step => exact hb.step hok hc
  | externalInterrupt =>
    cases hc
    refine ⟨hb.upTo.map checkExternalInterrupt_blind, hb.trace, ?_⟩
    show SDSP.LogEmpty b.full.checkExternalInterrupt
    unfold SDSP.checkExternalInterrupt
    split <;> exact hb.log
  | device mem =>
    cases hc
    exact ⟨hb.upTo.map (g := fun s => { s with mem := mem }) ⟨fun _ => rfl, fun _ _ _ => rfl⟩,
      hb.trace, hb.log⟩
  | control cr =>
    cases hc
    exact ⟨hb.upTo.map (g := fun s => { s with cr := cr }) ⟨fun _ => rfl, fun _ _ _ => rfl⟩,
      hb.trace, hb.log⟩
  | reset =>
    cases hc
    exact ⟨hb.upTo.map (g := SDSP.reset) ⟨fun _ => rfl, fun _ _ _ => rfl⟩, hb.trace, hb.log⟩

end Lockstep

/-! ## a flag that is read without a branch -/

theorem romWith_imemRead (program : List (BitVec 16)) (addr : BitVec 16) :
    (romWith program).imemRead addr ∈ 0 :: 0x0021 :: program := by
  unfold Mem.imemRead
  split
  · exact List.mem_cons_of_mem _ List.mem_cons_self
  · split
    · show program.getD (addr.setWidth 12).toNat 0x0021 ∈ _
      rw [List.getD_eq_getElem?_getD]
      cases h : program[(addr.setWidth 12).toNat]? with
      | none => exact List.mem_cons_of_mem _ List.mem_cons_self
      | some x => exact List.mem_cons_of_mem _ (List.mem_cons_of_mem _ (List.mem_of_getElem? h))
    · exact List.mem_cons_self

theorem flagsNeeded_of_unconditional {program : List (BitVec 16)}
    (h : ∀ w ∈ 0 :: 0x0021 :: program,
      ((getOpTemplate w).branch && !(getOpTemplate w).uncondBranch) = false) :
    (SDSP.init (romWith program)).flagsNeeded = false := by
  have hupd : (analyze (romWith program).imemRead 0x8000).updateSr = false :=
    analyze_updateSr_of_unconditional (fun addr => h _ (romWith_imemRead program addr)) 0x8000
  have hstart := analyze_startOfInst_irom (romWith program).imemRead
  unfold SDSP.flagsNeeded SDSP.codeFlags
  rw [show (SDSP.init (romWith program)).pc = 0x8000 from rfl,
    show (SDSP.init (romWith program)).mem = romWith program from rfl, hupd, hstart]
  rfl

/-- `CMP` and `MRR $AR0, $SR`. -/
def statusProgram : Mem Unit := romWith [0x8200, 0x1c13]

theorem executeInstruction_cmp (needed : Bool) (s : SDSP Unit) :
    executeInstruction noDevice needed 0x8200 s =
      (s.withRegs needed (Interpreter.cmp 0x8200 s.r)).applyWriteBackLog := by
  have hg : getExtFunc 0x8200 = .nop := by decide
  rfl

theorem Lockstep.step_fullTrace (b : Lockstep σ) :
    (b.step io).fullTrace = b.fullTrace ++ [b.full.observe] := rfl

theorem Lockstep.step_suppTrace (b : Lockstep σ) :
    (b.step io).suppTrace = b.suppTrace ++ [b.supp.observe] := rfl

theorem Lockstep.step_full (b : Lockstep σ) : (b.step io).full = b.full.step io := rfl

theorem Lockstep.step_supp (b : Lockstep σ) :
    (b.step io).supp = b.supp.stepWith io SDSP.flagsNeeded := rfl

theorem Lockstep.init_full (mem : Mem σ) : (Lockstep.init mem).full = SDSP.init mem := rfl

theorem Lockstep.init_supp (mem : Mem σ) : (Lockstep.init mem).supp = SDSP.init mem := rfl

theorem Lockstep.run_step {io : Ifx σ} {b c : Lockstep σ}
    (h : Run (Lockstep.event io) (fun _ _ => True) b c) :
    Run (Lockstep.event io) (fun _ _ => True) b (c.step io) := h.tail .step trivial rfl

theorem statusProgram_peekCode : (SDSP.init statusProgram).peekCode = 0x8200 := by
  decide

theorem statusProgram_read :
    ((SDSP.init statusProgram).step noDevice).observe.read = some 0x0a25 := by
  have hs := SDSP.step_eq noDevice (s := SDSP.init statusProgram) (by decide)
  rw [statusProgram_peekCode, executeInstruction_cmp] at hs
  rw [hs (by decide)]
  decide

theorem statusProgram_read_suppressed :
    ((SDSP.init statusProgram).stepWith noDevice SDSP.flagsNeeded).observe.read = some 0x0a00 := by
  have hwords : ∀ w ∈ [(0 : BitVec 16), 0x0021, 0x8200, 0x1c13],
      ((getOpTemplate w).branch && !(getOpTemplate w).uncondBranch) = false := by
    simp only [List.forall_mem_cons]
    exact ⟨by decide, by decide, by decide, by decide,
      fun _ h => absurd h List.not_mem_nil⟩
  have hneeded : (SDSP.init statusProgram).flagsNeeded = false :=
    flagsNeeded_of_unconditional hwords
  have hs := @SDSP.stepWith_eq _ noDevice (SDSP.init statusProgram) SDSP.flagsNeeded
    (by decide)
  rw [hneeded, statusProgram_peekCode, executeInstruction_cmp] at hs
  rw [hs (by decide)]
  decide

/-- A comparison whose flags are then read from the status register: after two steps the
core without the update has read another value. -/
theorem suppressed_flag_read :
    ∃ b, Run (Lockstep.event noDevice) (fun _ _ => True) (Lockstep.init statusProgram) b ∧
      b.suppTrace ≠ b.fullTrace := by
  refine ⟨_, Lockstep.run_step (Lockstep.run_step .refl), fun h => ?_⟩
  rw [Lockstep.step_suppTrace, Lockstep.step_fullTrace] at h
  have hlast := congrArg List.getLast? h
  rw [List.getLast?_concat, List.getLast?_concat, Option.some.injEq, Lockstep.step_supp,
    Lockstep.step_full, Lockstep.init_supp, Lockstep.init_full] at hlast
  have hread := statusProgram_read_suppressed
  rw [hlast, statusProgram_read] at hread
  exact absurd hread (by decide)

/-- The comparison alone: one step from reset, with no flag stale before it. -/
theorem reads_agree_of_run_cmp : ((Lockstep.init statusProgram).step noDevice).Agree :=
  Lockstep.reads_agree_of_run (Run.single .step BitVec.zero_and rfl)

end DolphinCore.DSP
