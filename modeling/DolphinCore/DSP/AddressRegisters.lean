import DolphinCore.DSP.IntUtil
import DolphinCore.Lib.AddWithCarry
import Mathlib.Algebra.Order.Group.Abs
import Mathlib.Algebra.Order.Group.Int

/-!
# DolphinCore.DSP.AddressRegisters

What the four steps of an address register compute (`DSPIntUtil.h`). The wrapping register `wr`
makes the low bits of `ar` a circular buffer of `wr + 1` words that ends where those bits are all
set; a step that leaves it shows in the carry out of them.
-/

namespace DolphinCore.DSP

/-! ## the carry that the wrap looks at -/

/-- The bits that `wr | 1` takes; the mask `(wr | 1) << 1` ends one bit above them. -/
def wrapBits (wr : BitVec 16) : Nat := Nat.size (wr.toNat ||| 1)

/-- What lies below the carry. -/
def lowBits (wr x : BitVec 16) : Nat := x.toNat % 2 ^ wrapBits wr

variable (wr : BitVec 16)

theorem toNat_or_one_lt : wr.toNat ||| 1 < 2 ^ 16 :=
  Nat.or_lt_two_pow wr.isLt (by omega)

theorem wrapBits_le : wrapBits wr ≤ 16 := Nat.size_le.mpr (toNat_or_one_lt wr)

theorem wrapBits_pos : 0 < wrapBits wr := by
  have hone : 1 ≤ wr.toNat ||| 1 := Nat.right_le_or
  exact Nat.size_pos.mpr hone

theorem or_one_lt_two_pow : wr.toNat ||| 1 < 2 ^ wrapBits wr :=
  Nat.lt_size_self _

theorem two_pow_le_or_one : 2 ^ wrapBits wr ≤ 2 * (wr.toNat ||| 1) := by
  have hpos := wrapBits_pos wr
  have hle : 2 ^ (wrapBits wr - 1) ≤ wr.toNat ||| 1 := Nat.lt_size.mp (Nat.sub_one_lt_of_lt hpos)
  calc 2 ^ wrapBits wr = 2 * 2 ^ (wrapBits wr - 1) := by
        rw [← Nat.pow_succ', Nat.succ_eq_add_one, Nat.sub_add_cancel hpos]
    _ ≤ 2 * (wr.toNat ||| 1) := Nat.mul_le_mul_left 2 hle

theorem toNat_lt_two_pow : wr.toNat < 2 ^ wrapBits wr :=
  Nat.lt_of_le_of_lt Nat.left_le_or (or_one_lt_two_pow wr)

theorem or_one_le : wr.toNat ||| 1 ≤ wr.toNat + 1 := by
  have hhalf : (wr.toNat ||| 1) / 2 = wr.toNat / 2 := by simp [Nat.or_div_two]
  omega

theorem toNat_mask : (((wr.setWidth 32 ||| 1) <<< 1 : BitVec 32)).toNat = 2 * (wr.toNat ||| 1) := by
  have hlt := toNat_or_one_lt wr
  rw [BitVec.toNat_shiftLeft, BitVec.toNat_or, BitVec.toNat_setWidth_of_le (by decide),
    Nat.shiftLeft_eq]
  change (wr.toNat ||| 1) * 2 ^ 1 % _ = _
  omega

theorem lt_masked_iff (d : BitVec 32) :
    wr.setWidth 32 < d &&& (wr.setWidth 32 ||| 1) <<< 1 ↔ d.getLsbD (wrapBits wr) = true := by
  have hlow := two_pow_le_or_one wr
  have hhigh := or_one_lt_two_pow wr
  have hone := or_one_le wr
  rw [BitVec.lt_def, BitVec.toNat_and, toNat_mask, BitVec.toNat_setWidth_of_le (by decide),
    lt_and_iff_testBit hlow (by omega) (toNat_lt_two_pow wr), BitVec.testBit_toNat]

theorem lowBits_lt (wr x : BitVec 16) : lowBits wr x < 2 ^ wrapBits wr :=
  Nat.mod_lt _ (Nat.two_pow_pos _)

theorem toNat_setWidth_low (wr x : BitVec 16) :
    (x.setWidth 32).toNat % 2 ^ wrapBits wr = lowBits wr x := by
  rw [BitVec.toNat_setWidth_of_le (by decide), lowBits]

theorem lowBits_eq_toNat_setWidth (x : BitVec 32) :
    lowBits wr (x.setWidth 16) = x.toNat % 2 ^ wrapBits wr := by
  rw [lowBits, BitVec.toNat_setWidth, Nat.mod_mod_of_dvd _ (Nat.pow_dvd_pow 2 (wrapBits_le wr))]

theorem setWidth_signExtend (x : BitVec 16) : (x.signExtend 32).setWidth 16 = x := by
  apply BitVec.eq_of_getLsbD_eq
  intro i hi
  have hi' : i < 32 := Nat.lt_trans hi (by decide)
  rw [BitVec.getLsbD_setWidth, BitVec.getLsbD_signExtend]
  simp [hi, hi']

theorem toNat_signExtend_low (wr x : BitVec 16) :
    (x.signExtend 32).toNat % 2 ^ wrapBits wr = lowBits wr x := by
  rw [← lowBits_eq_toNat_setWidth, setWidth_signExtend]

theorem lowBits_add (wr x y : BitVec 16) :
    lowBits wr (x + y) = (lowBits wr x + lowBits wr y) % 2 ^ wrapBits wr := by
  rw [lowBits, BitVec.toNat_add, Nat.mod_mod_of_dvd _ (Nat.pow_dvd_pow 2 (wrapBits_le wr)),
    Nat.add_mod, lowBits, lowBits]

/-! ## the four steps -/

theorem setWidth_sub_wrap (nar : BitVec 32) (wr : BitVec 16) :
    (nar - (wr.setWidth 32 + 1)).setWidth 16 = nar.setWidth 16 - (wr + 1) := by
  apply BitVec.eq_of_toNat_eq
  simp [BitVec.toNat_sub, BitVec.toNat_add]
  omega

theorem setWidth_add_wrap (nar : BitVec 32) (wr : BitVec 16) :
    (nar + (wr.setWidth 32 + 1)).setWidth 16 = nar.setWidth 16 + (wr + 1) := by
  apply BitVec.eq_of_toNat_eq
  simp [BitVec.toNat_add]

theorem setWidth_sub_signExtend (ar ix : BitVec 16) :
    (ar.setWidth 32 - ix.signExtend 32).setWidth 16 = ar - ix := by
  rw [BitVec.sub_eq_add_neg, BitVec.setWidth_add _ _ (by decide),
    BitVec.setWidth_neg_of_le (by decide), setWidth_signExtend,
    BitVec.setWidth_setWidth_of_le _ (by decide), BitVec.setWidth_eq, BitVec.sub_eq_add_neg]

theorem setWidth_add_signExtend (ar ix : BitVec 16) :
    (ar.setWidth 32 + ix.signExtend 32).setWidth 16 = ar + ix := by
  rw [BitVec.setWidth_add _ _ (by decide), setWidth_signExtend,
    BitVec.setWidth_setWidth_of_le _ (by decide), BitVec.setWidth_eq]

theorem add_carries (wr ar ix : BitVec 16) :
    wr.setWidth 32 < ((ar.setWidth 32 + ix.signExtend 32) ^^^ ar.setWidth 32 ^^^
      ix.signExtend 32) &&& (wr.setWidth 32 ||| 1) <<< 1 ↔
    2 ^ wrapBits wr ≤ lowBits wr ar + lowBits wr ix := by
  have hk : wrapBits wr < 32 := Nat.lt_of_le_of_lt (wrapBits_le wr) (by decide)
  rw [lt_masked_iff, getLsbD_add_xor _ _ hk, toNat_setWidth_low, toNat_signExtend_low,
    decide_eq_true_eq]

theorem sub_carries (wr ar ix : BitVec 16) :
    wr.setWidth 32 < ((ar.setWidth 32 - ix.signExtend 32) ^^^ ar.setWidth 32 ^^^
      ~~~ix.signExtend 32) &&& (wr.setWidth 32 ||| 1) <<< 1 ↔
    lowBits wr ix ≤ lowBits wr ar := by
  have hk : wrapBits wr < 32 := Nat.lt_of_le_of_lt (wrapBits_le wr) (by decide)
  rw [lt_masked_iff, getLsbD_sub_xor _ _ hk, toNat_setWidth_low, toNat_signExtend_low,
    decide_eq_true_eq]

theorem toNat_wrap : (wr.setWidth 32 + 1).toNat = wr.toNat + 1 := by
  change (wr.toNat + 1) % _ = _
  omega

theorem masked_le_iff (nar d : BitVec 32) : ((nar + wr.setWidth 32 + (1 : BitVec 32)) ^^^ nar)
    &&& (d &&& (wr.setWidth 32 ||| 1) <<< 1) ≤
      wr.setWidth 32 ↔
    ¬ (2 ^ wrapBits wr ≤ lowBits wr (nar.setWidth 16) + (wr.toNat + 1) ∧
      wr.setWidth 32 < d &&& (wr.setWidth 32 ||| 1) <<< 1) := by
  have hk : wrapBits wr < 32 := Nat.lt_of_le_of_lt (wrapBits_le wr) (by decide)
  have hwrap : (wr.setWidth 32 + 1).toNat ≤ 2 ^ wrapBits wr := by
    rw [toNat_wrap]
    exact toNat_lt_two_pow wr
  rw [← BitVec.not_lt, ← BitVec.and_assoc, lt_masked_iff, lt_masked_iff, BitVec.getLsbD_and,
    BitVec.add_assoc, getLsbD_add_xor_self _ _ hk hwrap, toNat_wrap, lowBits_eq_toNat_setWidth,
    Bool.and_eq_true, decide_eq_true_eq]

namespace Regs

variable (r : Regs) (reg : Fin 4) (ix : BitVec 16)

theorem increaseAddrReg_eq : r.increaseAddrReg reg ix =
      if ix.msb = false then
        if 2 ^ wrapBits (r.wr reg) ≤ lowBits (r.wr reg) (r.ar reg) + lowBits (r.wr reg) ix then
          r.ar reg + ix - (r.wr reg + 1)
        else r.ar reg + ix
      else if 2 * 2 ^ wrapBits (r.wr reg) ≤
          lowBits (r.wr reg) (r.ar reg) + lowBits (r.wr reg) ix + ((r.wr reg).toNat + 1) then
        r.ar reg + ix
      else r.ar reg + ix + (r.wr reg + 1) := by
  generalize hwr : r.wr reg = wr
  generalize har : r.ar reg = ar
  have hlow := lowBits_add wr ar ix
  have ha := lowBits_lt wr ar
  have hi := lowBits_lt wr ix
  have hw := toNat_lt_two_pow wr
  have hneg : 2 ^ wrapBits wr ≤ lowBits wr (ar + ix) + (wr.toNat + 1) ∧
      2 ^ wrapBits wr ≤ lowBits wr ar + lowBits wr ix ↔
      2 * 2 ^ wrapBits wr ≤ lowBits wr ar + lowBits wr ix + (wr.toNat + 1) := by
    by_cases hcarry : 2 ^ wrapBits wr ≤ lowBits wr ar + lowBits wr ix
    · rw [Nat.mod_eq_sub_mod hcarry, Nat.mod_eq_of_lt (by omega)] at hlow
      omega
    · omega
  have hmsb : (ix.signExtend 32).msb = ix.msb := by simp [BitVec.msb_signExtend]
  simp only [increaseAddrReg, hwr, har, gt_iff_lt, masked_le_iff, add_carries, hmsb,
    setWidth_add_signExtend, hneg, apply_ite (BitVec.setWidth 16), setWidth_sub_wrap,
    setWidth_add_wrap, ite_not, Bool.not_eq_true]

theorem lt_signExtend_iff : (0xFFFF8000 : BitVec 32) < ix.signExtend 32 ↔ 0x8000 < ix.toNat := by
  rw [BitVec.lt_def, BitVec.toNat_signExtend, BitVec.toNat_setWidth_of_le (by decide),
    BitVec.msb_eq_decide]
  change 0xFFFF8000 < _ ↔ _
  by_cases hneg : 2 ^ (16 - 1) ≤ ix.toNat
  · simp only [hneg, decide_true, if_true]
    omega
  · simp only [hneg, decide_false, Bool.false_eq_true, if_false]
    omega

theorem decreaseAddrReg_eq : r.decreaseAddrReg reg ix =
      if 0x8000 < ix.toNat then
        if lowBits (r.wr reg) ix ≤ lowBits (r.wr reg) (r.ar reg) then
          r.ar reg - ix - (r.wr reg + 1)
        else r.ar reg - ix
      else if 2 ^ wrapBits (r.wr reg) + lowBits (r.wr reg) ix ≤
          lowBits (r.wr reg) (r.ar reg) + ((r.wr reg).toNat + 1) then
        r.ar reg - ix
      else r.ar reg - ix + (r.wr reg + 1) := by
  generalize hwr : r.wr reg = wr
  generalize har : r.ar reg = ar
  have hlow : lowBits wr ar = (lowBits wr (ar - ix) + lowBits wr ix) % 2 ^ wrapBits wr := by
    rw [← lowBits_add, BitVec.sub_add_cancel]
  have ha := lowBits_lt wr (ar - ix)
  have hi := lowBits_lt wr ix
  have hw := toNat_lt_two_pow wr
  have hpos : 2 ^ wrapBits wr ≤ lowBits wr (ar - ix) + (wr.toNat + 1) ∧
      lowBits wr ix ≤ lowBits wr ar ↔
      2 ^ wrapBits wr + lowBits wr ix ≤ lowBits wr ar + (wr.toNat + 1) := by
    by_cases hcarry : 2 ^ wrapBits wr ≤ lowBits wr (ar - ix) + lowBits wr ix
    · rw [Nat.mod_eq_sub_mod hcarry, Nat.mod_eq_of_lt (by omega)] at hlow
      omega
    · rw [Nat.mod_eq_of_lt (by omega)] at hlow
      omega
  simp only [decreaseAddrReg, hwr, har, gt_iff_lt, masked_le_iff, sub_carries, lt_signExtend_iff,
    setWidth_sub_signExtend, hpos, apply_ite (BitVec.setWidth 16), setWidth_sub_wrap,
    setWidth_add_wrap, ite_not]

theorem incrementAddrReg_eq : r.incrementAddrReg reg =
      if 2 ^ wrapBits (r.wr reg) ≤ lowBits (r.wr reg) (r.ar reg) + 1 then
        r.ar reg + 1 - (r.wr reg + 1)
      else r.ar reg + 1 := by
  generalize hwr : r.wr reg = wr
  generalize har : r.ar reg = ar
  have hcond : (wr.setWidth 32 ||| 1) <<< 1 < (ar.setWidth 32 + 1) ^^^ ar.setWidth 32 ↔
      2 ^ wrapBits wr ≤ lowBits wr ar + 1 := by
    have hlow := two_pow_le_or_one wr
    have hhigh := or_one_lt_two_pow wr
    have hsucc : (ar.setWidth 32 + 1 : BitVec 32).toNat = ar.toNat + 1 := toNat_wrap ar
    rw [BitVec.lt_def, toNat_mask, BitVec.toNat_xor, hsucc,
      BitVec.toNat_setWidth_of_le (by decide), lowBits]
    obtain ⟨hcarry, hbig⟩ | ⟨hnone, hsmall⟩ := succ_xor ar.toNat (wrapBits wr)
    · omega
    · omega
  have hone : (ar.setWidth 32 + 1 : BitVec 32).setWidth 16 = ar + 1 := by
    rw [BitVec.setWidth_add _ _ (by decide), BitVec.setWidth_setWidth_of_le _ (by decide),
      BitVec.setWidth_eq]
    rfl
  simp only [incrementAddrReg, hwr, har, gt_iff_lt, hcond, apply_ite (BitVec.setWidth 16),
    setWidth_sub_wrap, hone]

theorem decrementAddrReg_eq : r.decrementAddrReg reg =
      if 2 ^ wrapBits (r.wr reg) ≤ lowBits (r.wr reg) (r.ar reg) + (r.wr reg).toNat then
        r.ar reg - 1
      else r.ar reg + r.wr reg := by
  generalize hwr : r.wr reg = wr
  generalize har : r.ar reg = ar
  have hk : wrapBits wr < 32 := Nat.lt_of_le_of_lt (wrapBits_le wr) (by decide)
  have hto : (wr.setWidth 32).toNat = wr.toNat := BitVec.toNat_setWidth_of_le (by decide)
  have hcond : wr.setWidth 32 < ((ar.setWidth 32 + wr.setWidth 32) ^^^ ar.setWidth 32) &&&
      (wr.setWidth 32 ||| 1) <<< 1 ↔ 2 ^ wrapBits wr ≤ lowBits wr ar + wr.toNat := by
    rw [lt_masked_iff, getLsbD_add_xor_self _ _ hk (hto ▸ (toNat_lt_two_pow wr).le),
      toNat_setWidth_low, hto, decide_eq_true_eq]
  have hsum : (ar.setWidth 32 + wr.setWidth 32).setWidth 16 = ar + wr := by
    simp only [BitVec.setWidth_add _ _ (by decide : 16 ≤ 32),
      BitVec.setWidth_setWidth_of_le _ (by decide : 16 ≤ 32), BitVec.setWidth_eq]
  have hback : ar + wr - (wr + 1) = ar - 1 := by
    grind
  simp only [decrementAddrReg, hwr, har, gt_iff_lt, hcond, apply_ite (BitVec.setWidth 16),
    setWidth_sub_wrap, hsum, hback]

/-! ## the steps against each other -/

theorem lowBits_one : lowBits wr 1#16 = 1 :=
  Nat.mod_eq_of_lt (Nat.one_lt_two_pow (wrapBits_pos wr).ne')

theorem incrementAddrReg_eq_increaseAddrReg : r.incrementAddrReg reg = r.increaseAddrReg reg 1 := by
  simp [incrementAddrReg_eq, increaseAddrReg_eq, lowBits_one]

theorem decrementAddrReg_eq_decreaseAddrReg : r.decrementAddrReg reg = r.decreaseAddrReg reg 1 := by
  have hcond : 2 ^ wrapBits (r.wr reg) ≤ lowBits (r.wr reg) (r.ar reg) + (r.wr reg).toNat ↔
      2 ^ wrapBits (r.wr reg) + 1 ≤
        lowBits (r.wr reg) (r.ar reg) + ((r.wr reg).toNat + 1) := by omega
  simp [decrementAddrReg_eq, decreaseAddrReg_eq, lowBits_one, hcond]

theorem lowBits_neg (wr ix : BitVec 16) :
    lowBits wr (-ix) = (2 ^ wrapBits wr - lowBits wr ix) % 2 ^ wrapBits wr := by
  have hsum : (lowBits wr (-ix) + lowBits wr ix) % 2 ^ wrapBits wr = 0 := by
    rw [← lowBits_add, BitVec.add_comm, BitVec.add_right_neg]
    exact Nat.zero_mod _
  have hlt := lowBits_lt wr ix
  have hneg := lowBits_lt wr (-ix)
  by_cases hcarry : lowBits wr (-ix) + lowBits wr ix < 2 ^ wrapBits wr
  · rw [Nat.mod_eq_of_lt hcarry] at hsum
    rw [show lowBits wr ix = 0 by omega, Nat.sub_zero, Nat.mod_self]
    omega
  · rw [Nat.mod_eq_sub_mod (by omega), Nat.mod_eq_of_lt (by omega)] at hsum
    rw [Nat.mod_eq_of_lt (by omega)]
    omega

theorem msb_eq_false_iff (x : BitVec 16) : x.msb = false ↔ x.toNat < 0x8000 := by
  rw [BitVec.msb_eq_decide, decide_eq_false_iff_not]
  omega

/-- A step backwards is the step forwards by the opposite index, as long as the index is no multiple
of what the low bits hold. Where it is one, the two differ on the side of the buffer they
take for a step of nothing. -/
theorem decreaseAddrReg_eq_increaseAddrReg_neg_iff (hix : ix ≠ 0x8000#16) :
    r.decreaseAddrReg reg ix = r.increaseAddrReg reg (-ix) ↔ lowBits (r.wr reg) ix ≠ 0 ∨
      ix = 0#16 ∧ 2 ^ wrapBits (r.wr reg) ≤ lowBits (r.wr reg) (r.ar reg) + ((r.wr reg).toNat + 1) ∨
      0 < ix.toInt ∧ lowBits (r.wr reg) (r.ar reg) + ((r.wr reg).toNat + 1) <
        2 ^ wrapBits (r.wr reg) := by
  simp only [decreaseAddrReg_eq, increaseAddrReg_eq, msb_eq_false_iff]
  generalize r.wr reg = wr
  generalize r.ar reg = ar
  have hlt := ix.isLt
  have hne : ix.toNat ≠ 0x8000 := fun h => hix (BitVec.eq_of_toNat_eq h)
  have hto : (-ix).toNat = (2 ^ 16 - ix.toNat) % 2 ^ 16 := BitVec.toNat_neg ix
  have ha := lowBits_lt wr ar
  have hw := toNat_lt_two_pow wr
  have hsub : ar + -ix = ar - ix := (BitVec.sub_eq_add_neg ar ix).symm
  rw [hsub]
  have hneg := lowBits_neg wr ix
  by_cases hlow : lowBits wr ix = 0
  · have hint : 0 < ix.toInt ↔ 0 < ix.toNat ∧ ix.toNat < 0x8000 := by
      rw [BitVec.toInt]
      omega
    have hzero : ix = 0#16 ↔ ix.toNat = 0 := (BitVec.toNat_inj (y := 0#16)).symm
    -- A buffer of all words leaves no index but 0 with these low bits.
    have hfull : wr + 1 = 0#16 → ix.toNat = 0 ∧ 2 ^ wrapBits wr = wr.toNat + 1 := by
      intro hall
      have htop : wr.toNat = 0xFFFF := by
        have := congrArg BitVec.toNat hall
        simp at *
        omega
      have hle : 2 ^ wrapBits wr ≤ 2 ^ 16 := Nat.pow_le_pow_right (by decide) (wrapBits_le wr)
      have hk : 2 ^ wrapBits wr = 2 ^ 16 := by omega
      rw [lowBits, hk, Nat.mod_eq_of_lt hlt] at hlow
      exact ⟨hlow, by omega⟩
    rw [hlow, Nat.sub_zero, Nat.mod_self] at hneg
    simp only [hneg, hlow, hzero, hint, Nat.add_zero, Nat.zero_le, if_true, ne_eq, not_true,
      false_or, not_le.mpr ha, if_false]
    have hup : ar - ix + (wr + 1) = ar - ix ↔ wr + 1 = 0#16 :=
      BitVec.add_right_eq_self
    have hdown : ar - ix - (wr + 1) = ar - ix ↔ wr + 1 = 0#16 := by
      rw [BitVec.sub_eq_iff_eq_add, eq_comm, hup]
    obtain hix | hsmall | hlarge :
        ix.toNat = 0 ∨ 0 < ix.toNat ∧ ix.toNat < 0x8000 ∨ 0x8000 < ix.toNat := by omega
    · have hpos : ¬ 0x8000 < ix.toNat := by omega
      have hflip : (-ix).toNat < 0x8000 := by omega
      simp only [hpos, hflip, if_true, if_false]
      by_cases hcond : 2 ^ wrapBits wr ≤ lowBits wr ar + (wr.toNat + 1)
      · simp [hix, hcond]
      · rw [if_neg hcond, hup]
        constructor
        · intro h
          have := hfull h
          omega
        · omega
    · have hpos : ¬ 0x8000 < ix.toNat := by omega
      have hflip : ¬ (-ix).toNat < 0x8000 := by omega
      have htwo : ¬ 2 * 2 ^ wrapBits wr ≤ lowBits wr ar + (wr.toNat + 1) := by omega
      simp only [hpos, hflip, htwo, if_false]
      by_cases hcond : 2 ^ wrapBits wr ≤ lowBits wr ar + (wr.toNat + 1)
      · rw [if_pos hcond, eq_comm, hup]
        constructor
        · intro h
          have := hfull h
          omega
        · omega
      · rw [if_neg hcond, eq_self_iff_true, true_iff]
        omega
    · have hflip : (-ix).toNat < 0x8000 := by omega
      simp only [hlarge, hflip, if_true]
      rw [hdown]
      constructor
      · intro h
        have := hfull h
        omega
      · omega
  · have hpos : ix.toNat ≠ 0 := fun h => hlow (by simp [lowBits, h])
    rw [Nat.mod_eq_of_lt (by omega)] at hneg
    simp only [hlow, ne_eq, not_false_iff, true_or, iff_true]
    by_cases hsign : 0x8000 < ix.toNat
    · have hflip : (-ix).toNat < 0x8000 := by omega
      have hcond : lowBits wr ix ≤ lowBits wr ar ↔
          2 ^ wrapBits wr ≤ lowBits wr ar + lowBits wr (-ix) := by omega
      simp only [hsign, hflip, hcond, if_true]
    · have hflip : ¬ (-ix).toNat < 0x8000 := by omega
      have hcond : 2 ^ wrapBits wr + lowBits wr ix ≤ lowBits wr ar + (wr.toNat + 1) ↔
          2 * 2 ^ wrapBits wr ≤ lowBits wr ar + lowBits wr (-ix) + (wr.toNat + 1) := by omega
      simp only [hsign, hflip, hcond, if_false]

/-! ## the circular buffer -/

/-- The low bits that a buffer of `wr + 1` words takes. -/
def bufferBits (wr : BitVec 16) : Nat := Nat.size wr.toNat

theorem wrapBits_eq_bufferBits (hwr : wr.toNat ≠ 0) :
    wrapBits wr = bufferBits wr := by
  have hpos : 0 < Nat.size wr.toNat := Nat.size_pos.mpr (Nat.pos_of_ne_zero hwr)
  apply Nat.le_antisymm
  · exact Nat.size_le.mpr (Nat.or_lt_two_pow (Nat.lt_size_self _) (Nat.one_lt_two_pow hpos.ne'))
  · exact Nat.size_le.mpr (toNat_lt_two_pow wr)

/-- The first word of the buffer around an address: it ends where the low bits are all set. -/
def bufferStart (wr ar : BitVec 16) : Nat :=
  ar.toNat - ar.toNat % 2 ^ bufferBits wr + (2 ^ bufferBits wr - 1 - wr.toNat)

theorem bufferStart_eq (wr ar : BitVec 16) (hwr : wr.toNat ≠ 0) :
    bufferStart wr ar = ar.toNat - lowBits wr ar + (2 ^ wrapBits wr - 1 - wr.toNat) := by
  rw [bufferStart, lowBits, wrapBits_eq_bufferBits wr hwr]

theorem emod_of_one_turn {x n : Int} (hlo : -n ≤ x) (hhi : x < 2 * n) :
    x % n = if x < 0 then x + n else if x < n then x else x - n := by
  split_ifs with hneg hlt
  · rw [← Int.add_emod_right, Int.emod_eq_of_lt (by omega) (by omega)]
  · exact Int.emod_eq_of_lt (by omega) hlt
  · rw [← Int.sub_emod_right, Int.emod_eq_of_lt (by omega) (by omega)]

theorem lowBits_of_lt (wr x : BitVec 16) (hx : x.toNat ≤ wr.toNat) : lowBits wr x = x.toNat :=
  Nat.mod_eq_of_lt (Nat.lt_of_le_of_lt hx (toNat_lt_two_pow wr))

theorem eq_zero_of_lowBits (wr ix : BitVec 16) (hix : |ix.toInt| ≤ wr.toNat)
    (hlow : lowBits wr ix = 0) : ix = 0#16 := by
  obtain ⟨hge, hle⟩ := abs_le.mp hix
  have hint : ix.toInt = if ix.toNat < 0x8000 then (ix.toNat : Int) else ix.toNat - 2 ^ 16 := by
    rw [BitVec.toInt]
    split_ifs <;> omega
  apply BitVec.eq_of_toNat_eq
  by_cases hsign : ix.toNat < 0x8000
  · rw [← lowBits_of_lt wr ix (by omega), hlow]
    rfl
  · have hopp : (-ix).toNat = 2 ^ 16 - ix.toNat := by
      rw [BitVec.toNat_neg]
      omega
    have hneg := lowBits_neg wr ix
    rw [hlow, Nat.sub_zero, Nat.mod_self, lowBits_of_lt wr (-ix) (by omega)] at hneg
    omega

theorem sub_lowBits_add_le (wr ar : BitVec 16) :
    ar.toNat - lowBits wr ar + 2 ^ wrapBits wr ≤ 2 ^ 16 := by
  have hsplit := Nat.div_add_mod ar.toNat (2 ^ wrapBits wr)
  have hpow : 2 ^ wrapBits wr * 2 ^ (16 - wrapBits wr) = 2 ^ 16 := by
    rw [← Nat.pow_add, Nat.add_sub_cancel' (wrapBits_le wr)]
  have hdiv : ar.toNat / 2 ^ wrapBits wr < 2 ^ (16 - wrapBits wr) :=
    Nat.div_lt_of_lt_mul (hpow ▸ ar.isLt)
  have hmul := Nat.mul_le_mul_left (2 ^ wrapBits wr) (Nat.succ_le_of_lt hdiv)
  rw [hpow, Nat.mul_succ] at hmul
  unfold lowBits
  omega

theorem increaseAddrReg_circular (hlo : bufferStart (r.wr reg) (r.ar reg) ≤ (r.ar reg).toNat)
    (hix : |ix.toInt| ≤ (r.wr reg).toNat) :
    ((r.increaseAddrReg reg ix).toNat : Int) = bufferStart (r.wr reg) (r.ar reg) +
        ((r.ar reg).toNat - bufferStart (r.wr reg) (r.ar reg) + ix.toInt) %
          ((r.wr reg).toNat + 1) := by
  simp only [increaseAddrReg_eq, msb_eq_false_iff]
  generalize r.wr reg = wr at *
  generalize r.ar reg = ar at *
  obtain ⟨hge, hle⟩ := abs_le.mp hix
  by_cases hzero : wr.toNat = 0
  · -- The buffer is the one word, and the only index is 0.
    have hnone : ix = 0#16 := BitVec.eq_of_toInt_eq (by rw [hzero] at hge hle; simp; omega)
    have hstart : bufferStart wr ar = ar.toNat := by
      simp [bufferStart, bufferBits, hzero, Nat.mod_one]
    have hnocarry : ¬ 2 ^ wrapBits wr ≤ lowBits wr ar + lowBits wr 0#16 := by
      simpa [lowBits_of_lt] using lowBits_lt wr ar
    simp [hnone, hstart, hzero, hnocarry]
  have hstart := bufferStart_eq wr ar hzero
  have hfits := sub_lowBits_add_le wr ar
  have hsub : lowBits wr ar ≤ ar.toNat := Nat.mod_le _ _
  have ha := lowBits_lt wr ar
  have hw := toNat_lt_two_pow wr
  generalize lowBits wr ar = a at *
  generalize hP : 2 ^ wrapBits wr = P at *
  by_cases hsign : ix.toNat < 0x8000
  · have hint : ix.toInt = ix.toNat := by
      rw [BitVec.toInt]
      omega
    have hlow : lowBits wr ix = ix.toNat := lowBits_of_lt wr ix (by omega)
    rw [if_pos hsign, hint, hlow, emod_of_one_turn (by omega) (by omega)]
    split <;> split_ifs <;> simp [BitVec.toNat_sub, BitVec.toNat_add] <;> omega
  · have hint : ix.toInt = ix.toNat - 2 ^ 16 := by
      rw [BitVec.toInt]
      omega
    have hopp : (-ix).toNat = 2 ^ 16 - ix.toNat := by
      rw [BitVec.toNat_neg]
      omega
    have hlow : lowBits wr ix = P - (2 ^ 16 - ix.toNat) := by
      have hneg := lowBits_neg wr (-ix)
      rw [BitVec.neg_neg, lowBits_of_lt wr (-ix) (by omega), hopp, hP] at hneg
      rw [hneg, Nat.mod_eq_of_lt (by omega)]
    rw [if_neg hsign, hint, hlow, emod_of_one_turn (by omega) (by omega)]
    split <;> split_ifs <;> simp [BitVec.toNat_add] <;> omega

theorem decreaseAddrReg_circular (hwr : (r.wr reg).toNat ≠ 0) (hmin : ix ≠ 0x8000#16)
    (hlo : bufferStart (r.wr reg) (r.ar reg) ≤ (r.ar reg).toNat)
    (hix : |ix.toInt| ≤ (r.wr reg).toNat) :
    ((r.decreaseAddrReg reg ix).toNat : Int) = bufferStart (r.wr reg) (r.ar reg) +
        ((r.ar reg).toNat - bufferStart (r.wr reg) (r.ar reg) - ix.toInt) %
          ((r.wr reg).toNat + 1) := by
  have hneg : (-ix).toInt = -ix.toInt := BitVec.toInt_neg_of_ne_intMin hmin
  have hcond : lowBits (r.wr reg) ix ≠ 0 ∨ ix = 0#16 ∧ 2 ^ wrapBits (r.wr reg) ≤
        lowBits (r.wr reg) (r.ar reg) + ((r.wr reg).toNat + 1) ∨
      0 < ix.toInt ∧ lowBits (r.wr reg) (r.ar reg) + ((r.wr reg).toNat + 1) <
        2 ^ wrapBits (r.wr reg) := by
    by_cases hzero : ix = 0#16
    · have hstart := bufferStart_eq (r.wr reg) (r.ar reg) hwr
      refine .inr (.inl ⟨hzero, ?_⟩)
      omega
    · exact .inl fun hlow => hzero (eq_zero_of_lowBits _ ix hix hlow)
  rw [(decreaseAddrReg_eq_increaseAddrReg_neg_iff r reg ix hmin).mpr hcond,
    increaseAddrReg_circular r reg (-ix) hlo (by rw [hneg, abs_neg]; exact hix), hneg]
  rfl

/-- The four steps: those by one are those by an index of 1, a step backwards is the step forwards
by the opposite index where the low bits tell them apart, and a step from a word of the
buffer by at most its length goes round it. -/
theorem addrReg_steps : r.incrementAddrReg reg = r.increaseAddrReg reg 1 ∧
    r.decrementAddrReg reg = r.decreaseAddrReg reg 1 ∧
    (∀ ix, ix ≠ 0x8000#16 → lowBits (r.wr reg) ix ≠ 0 ∨ ix = 0#16 ∧ 2 ^ wrapBits (r.wr reg) ≤
        lowBits (r.wr reg) (r.ar reg) + ((r.wr reg).toNat + 1) ∨
      0 < ix.toInt ∧ lowBits (r.wr reg) (r.ar reg) + ((r.wr reg).toNat + 1) <
        2 ^ wrapBits (r.wr reg) →
      r.decreaseAddrReg reg ix = r.increaseAddrReg reg (-ix)) ∧
    ∀ ix, bufferStart (r.wr reg) (r.ar reg) ≤ (r.ar reg).toNat →
      (r.ar reg).toNat ≤ bufferStart (r.wr reg) (r.ar reg) + (r.wr reg).toNat →
      |ix.toInt| ≤ ((r.wr reg).toNat : Int) →
      ((r.increaseAddrReg reg ix).toNat : Int) = bufferStart (r.wr reg) (r.ar reg) +
          ((r.ar reg).toNat - bufferStart (r.wr reg) (r.ar reg) + ix.toInt) %
            ((r.wr reg).toNat + 1) ∧
      ((r.wr reg).toNat ≠ 0 → ix ≠ 0x8000#16 → ((r.decreaseAddrReg reg ix).toNat : Int) =
          bufferStart (r.wr reg) (r.ar reg) +
            ((r.ar reg).toNat - bufferStart (r.wr reg) (r.ar reg) - ix.toInt) %
              ((r.wr reg).toNat + 1)) :=
  ⟨incrementAddrReg_eq_increaseAddrReg r reg, decrementAddrReg_eq_decreaseAddrReg r reg,
    fun ix hmin h => (decreaseAddrReg_eq_increaseAddrReg_neg_iff r reg ix hmin).mpr h,
    fun ix hlo _ hix => ⟨increaseAddrReg_circular r reg ix hlo hix,
      fun hwr hmin => decreaseAddrReg_circular r reg ix hwr hmin hlo hix⟩⟩

/-- Registers of which only an address and its wrapping matter. -/
def ofAddress (ar wr : BitVec 16) : Regs where
  ar _ := ar
  ix _ := 0
  wr _ := wr
  st _ := 0
  cr := 0
  sr := 0
  prod := ⟨0, 0, 0, 0⟩
  ax _ := ⟨0, 0⟩
  ac _ := ⟨0, 0, 0⟩

theorem addrReg_steps_three : bufferStart 2 1 = 1 ∧
    (ofAddress 1 2).decreaseAddrReg 0 1 = (ofAddress 1 2).increaseAddrReg 0 (-1) ∧
    ((ofAddress 1 2).increaseAddrReg 0 2).toNat =
      (bufferStart 2 1 + (1 - bufferStart 2 1 + 2) % 3 : Int) :=
  ⟨by decide, (addrReg_steps (ofAddress 1 2) 0).2.2.1 1 (by decide) (by decide),
    ((addrReg_steps (ofAddress 1 2) 0).2.2.2 2 (by decide) (by decide) (by decide)).1⟩

/-- With `wr = 2` the buffer does not begin where the low bits are clear: from 1, two further is 3
and not 0. And with `wr = 0`, a step backwards by nothing from an even address goes one up. -/
theorem addrReg_steps_not_from_zero :
    ¬ ((ofAddress 1 2).increaseAddrReg 0 2).toNat = (0 + (1 - 0 + 2) % 3 : Int) ∧
    (ofAddress 0 0).decreaseAddrReg 0 0 ≠ (ofAddress 0 0).increaseAddrReg 0 (-0) := by
  decide

end Regs

end DolphinCore.DSP
