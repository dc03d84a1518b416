import Mathlib.Data.List.Basic
import Mathlib.Data.Nat.Bitwise
import DolphinCore.Lib.StdString

/-!
# DolphinCore.DSP.Accelerator

The accelerator reads samples from memory, from a current address up to an end
address, and goes back to a start address. ADPCM samples are nibbles in frames of
16, the first two of which are the header of the frame.
-/

namespace DolphinCore.DSP

structure Accelerator where
  m_start_address : BitVec 32
  m_end_address : BitVec 32
  m_current_address : BitVec 32
  m_sample_format : BitVec 16
  m_yn1 : BitVec 16
  m_yn2 : BitVec 16
  m_pred_scale : BitVec 16
  m_reads_stopped : Bool

namespace Accelerator

abbrev START_END_ADDRESS_MASK : BitVec 32 := 0x3fffffff
abbrev CURRENT_ADDRESS_MASK : BitVec 32 := 0xbfffffff

def SetStartAddress (a : Accelerator) (address : BitVec 32) : Accelerator :=
  { a with m_start_address := address &&& START_END_ADDRESS_MASK }

def SetEndAddress (a : Accelerator) (address : BitVec 32) : Accelerator :=
  { a with m_end_address := address &&& START_END_ADDRESS_MASK }

def SetCurrentAddress (a : Accelerator) (address : BitVec 32) : Accelerator :=
  { a with m_current_address := address &&& CURRENT_ADDRESS_MASK }

def SetSampleFormat (a : Accelerator) (format : BitVec 16) : Accelerator :=
  { a with m_sample_format := format }

def SetYn1 (a : Accelerator) (yn1 : BitVec 16) : Accelerator := { a with m_yn1 := yn1 }

def SetYn2 (a : Accelerator) (yn2 : BitVec 16) : Accelerator :=
  { a with m_yn2 := yn2, m_reads_stopped := false }

def SetPredScale (a : Accelerator) (pred_scale : BitVec 16) : Accelerator :=
  { a with m_pred_scale := pred_scale &&& 0x7f }

variable (ReadMemory : BitVec 32 → BitVec 8) (coefs : Nat → BitVec 16)

/-! ## samples -/

/-- An ADPCM sample: the nibble at an address, scaled, on what the samples before it predict. -/
def adpcmSample (m_pred_scale m_yn1 m_yn2 : BitVec 16) (address : BitVec 32) : BitVec 16 :=
  let scale : Int := 2 ^ (m_pred_scale &&& 0xF).toNat
  let coef_idx := (m_pred_scale >>> 4 &&& 0x7).toNat
  let coef1 := (coefs (coef_idx * 2 + 0)).toInt
  let coef2 := (coefs (coef_idx * 2 + 1)).toInt
  let byte := ReadMemory (address >>> 1)
  let nibble : Int := if address &&& 1 ≠ 0 then (byte &&& 0xF).toNat else (byte >>> 4).toNat
  let temp := if nibble ≥ 8 then nibble - 16 else nibble
  let val32 := scale * temp + (0x400 + coef1 * m_yn1.toInt + coef2 * m_yn2.toInt) / 2 ^ 11
  BitVec.ofInt 16 (max (-0x7FFF) (min val32 0x7FFF))

/-- A 16-bit PCM sample -/
def pcm16Sample (address : BitVec 32) : BitVec 16 :=
  (ReadMemory (address * 2)).setWidth 16 <<< 8 ||| (ReadMemory (address * 2 + 1)).setWidth 16

/-- An 8-bit PCM sample -/
def pcm8Sample (address : BitVec 32) : BitVec 16 := (ReadMemory address).setWidth 16 <<< 8

/-! ## reads -/

/-- A sample was read: it takes the place of the last one. -/
def push (a : Accelerator) (val : BitVec 16) : Accelerator :=
  { a with m_yn2 := a.m_yn1, m_yn1 := val, m_current_address := a.m_current_address + 1 }

/-- Behind an ADPCM sample: two alignments of the end loop on their own, and a frame that is
entered has its header read and skipped. The size of the step comes with it. -/
def skipHeader (a : Accelerator) : Accelerator × BitVec 32 :=
  if a.m_end_address &&& 0xf = 0x0 ∧ a.m_current_address = a.m_end_address then
    ({ a with m_current_address := a.m_start_address + 1 }, 2)
  else if a.m_end_address &&& 0xf = 0x1 ∧ a.m_current_address = a.m_end_address - 1 then
    ({ a with m_current_address := a.m_start_address }, 2)
  else if a.m_current_address &&& 15 = 0 then
    ({ a with
        m_pred_scale := (ReadMemory ((a.m_current_address &&& ~~~15) >>> 1)).setWidth 16
        m_current_address := a.m_current_address + 2 }, 4)
  else (a, 2)

/-- The sample at the current address, and the accelerator behind it. -/
def decode (a : Accelerator) : BitVec 16 × Accelerator × BitVec 32 :=
  match a.m_sample_format.toNat with
  | 0x00 =>
    let val := adpcmSample ReadMemory coefs a.m_pred_scale a.m_yn1 a.m_yn2 a.m_current_address
    (val, (a.push val).skipHeader ReadMemory)
  | 0x0A =>
    let val := pcm16Sample ReadMemory a.m_current_address
    (val, a.push val, 2)
  | 0x19 =>
    let val := pcm8Sample ReadMemory a.m_current_address
    (val, a.push val, 2)
  | _ => (0, { a with m_current_address := a.m_current_address + 1 }, 2)

/-- What a read gives: the value, the accelerator behind it, and whether the end exception fires. -/
structure ReadResult where
  val : BitVec 16
  accelerator : Accelerator
  endException : Bool

def Read (a : Accelerator) : ReadResult :=
  if a.m_reads_stopped then ⟨0x0000, a, false⟩
  else
    let (val, a, step_size_bytes) := a.decode ReadMemory coefs
    if a.m_current_address = a.m_end_address + step_size_bytes - 1 then
      let a := { a with m_current_address := a.m_start_address, m_reads_stopped := true }
      ⟨val, a.SetCurrentAddress a.m_current_address, true⟩
    else ⟨val, a.SetCurrentAddress a.m_current_address, false⟩

/-- One read after another. -/
def reads : Nat → Accelerator → List (BitVec 16 × Bool) × Accelerator
  | 0, a => ([], a)
  | n + 1, a =>
    let r := a.Read ReadMemory coefs
    let (rest, last) := reads n r.accelerator
    ((r.val, r.endException) :: rest, last)

/-! ## the samples of a pass -/

/-- The position has a sample: in ADPCM it is not in the header of a frame. -/
def IsSample (format : BitVec 16) (p : Nat) : Prop := format = 0 → 2 ≤ p % 16

instance (format : BitVec 16) (p : Nat) : Decidable (IsSample format p) :=
  inferInstanceAs (Decidable (_ → _))

/-- The positions with samples from `first` to `last`. -/
def positions (format : BitVec 16) (first last : Nat) : List Nat :=
  (List.range' first (last + 1 - first)).filter fun p => IsSample format p

/-- The predictor and scale of the frame that a position is in: those of the accelerator for the
frame where the pass begins, and for the others what their header says. -/
def frameScale (first : Nat) (m_pred_scale : BitVec 16) (p : Nat) : BitVec 16 :=
  if p / 16 = first / 16 then m_pred_scale
  else (ReadMemory (BitVec.ofNat 32 (p / 16 * 8))).setWidth 16

/-- The sample at a position. -/
def sampleAt (format scale m_yn1 m_yn2 : BitVec 16) (p : Nat) : BitVec 16 :=
  let address := BitVec.ofNat 32 p
  if format = 0 then adpcmSample ReadMemory coefs scale m_yn1 m_yn2 address
  else if format = 0x0A then pcm16Sample ReadMemory address
  else pcm8Sample ReadMemory address

/-- The samples at some positions, each after those before it. -/
def samplesAt (format : BitVec 16) (scale : Nat → BitVec 16) :
    BitVec 16 → BitVec 16 → List Nat → List (BitVec 16)
  | _, _, [] => []
  | m_yn1, m_yn2, p :: ps =>
    let val := sampleAt ReadMemory coefs format (scale p) m_yn1 m_yn2 p
    val :: samplesAt format scale val m_yn1 ps

/-! ### positions -/

section

variable {format : BitVec 16} {p last : Nat}

/-- The next position with a sample. -/
def nextPosition (format : BitVec 16) (p : Nat) : Nat :=
  if format = 0 ∧ (p + 1) % 16 = 0 then p + 3 else p + 1

theorem isSample_next (h : IsSample format p) : IsSample format (nextPosition format p) := by
  intro hformat
  have hp := h hformat
  unfold nextPosition
  simp only [hformat, true_and]
  split <;> omega

theorem positions_nil (h : last < p) : positions format p last = [] := by
  unfold positions
  rw [show last + 1 - p = 0 by omega]
  rfl

theorem positions_cons_of_le (h : p ≤ last) : positions format p last =
    if IsSample format p then p :: positions format (p + 1) last
    else positions format (p + 1) last := by
  unfold positions
  rw [show last + 1 - p = last + 1 - (p + 1) + 1 by omega, List.range'_succ, List.filter_cons]
  simp

theorem positions_skip (h : ¬ IsSample format p) :
    positions format p last = positions format (p + 1) last := by
  rcases Nat.lt_or_ge last p with hlt | hle
  · rw [positions_nil hlt, positions_nil (by omega)]
  · rw [positions_cons_of_le hle, if_neg h]

theorem positions_cons (h : IsSample format p) (hle : p ≤ last) :
    positions format p last = p :: positions format (nextPosition format p) last := by
  rw [positions_cons_of_le hle, if_pos h]
  unfold nextPosition
  split
  · next hheader =>
    obtain ⟨rfl, hmod⟩ := hheader
    have hnot : ∀ q, q % 16 < 2 → ¬ IsSample 0 q := fun q hq hs => by
      have := hs rfl
      omega
    rw [positions_skip (hnot _ (by omega)), positions_skip (hnot _ (by omega))]
  · rfl

end

/-! ### one read -/

theorem toNat_and_15 (x : BitVec 32) : (x &&& 15).toNat = x.toNat % 16 := by
  exact Nat.and_two_pow_sub_one_eq_mod _ 4

theorem and_15_eq_iff (x y : BitVec 32) : x &&& 15 = y ↔ x.toNat % 16 = y.toNat := by
  rw [← BitVec.toNat_inj, toNat_and_15]

theorem headerAddress {x : BitVec 32} (h : x.toNat % 16 = 0) :
    (x &&& ~~~15) >>> 1 = BitVec.ofNat 32 (x.toNat / 16 * 8) := by
  have hzero : x &&& 15 = 0 := (and_15_eq_iff x 0).mpr h
  have hself : x &&& ~~~15 = x := by
    refine BitVec.eq_of_getLsbD_eq fun i hi => ?_
    have hbit := congrArg (fun y => y.getLsbD i) hzero
    simp only [BitVec.getLsbD_and, BitVec.getLsbD_not] at hbit ⊢
    cases hx : x.getLsbD i <;> simp_all
  rw [hself]
  refine BitVec.eq_of_toNat_eq ?_
  rw [BitVec.toNat_ushiftRight, BitVec.toNat_ofNat, Nat.shiftRight_eq_div_pow]
  omega

/-- The pass has begun: the position is one with a sample, between the start and the end. -/
structure Sampling (a : Accelerator) : Prop where
  format : a.m_sample_format = 0 ∨ a.m_sample_format = 0x0A ∨ a.m_sample_format = 0x19
  running : a.m_reads_stopped = false
  start_le : a.m_start_address ≤ a.m_current_address
  le_end : a.m_current_address ≤ a.m_end_address
  end_le : a.m_end_address ≤ START_END_ADDRESS_MASK
  sample : IsSample a.m_sample_format a.m_current_address.toNat

/-- The two ADPCM alignments of the end in which the end exception does not fire. -/
def Special (a : Accelerator) : Prop := a.m_sample_format = 0 ∧ a.m_end_address.toNat % 16 < 2

instance (a : Accelerator) : Decidable a.Special := inferInstanceAs (Decidable (_ ∧ _))

/-- Where a pass begins again. -/
def loopAddress (a : Accelerator) : BitVec 32 :=
  if a.m_sample_format = 0 ∧ a.m_end_address.toNat % 16 = 0 then a.m_start_address + 1
  else a.m_start_address

/-- The sample that is read next. -/
def sample (a : Accelerator) : BitVec 16 :=
  sampleAt ReadMemory coefs a.m_sample_format a.m_pred_scale a.m_yn1 a.m_yn2
    a.m_current_address.toNat

/-- The accelerator behind this sample, and the size of the step. -/
def moved (a : Accelerator) : Accelerator × BitVec 32 :=
  if a.m_sample_format = 0 then (a.push (a.sample ReadMemory coefs)).skipHeader ReadMemory
  else (a.push (a.sample ReadMemory coefs), 2)

variable {ReadMemory coefs} {a : Accelerator}

theorem decode_eq (h : a.Sampling) :
    a.decode ReadMemory coefs = (a.sample ReadMemory coefs, a.moved ReadMemory coefs) := by
  unfold decode moved sample sampleAt
  rw [BitVec.ofNat_toNat, BitVec.setWidth_eq]
  rcases h.format with hf | hf | hf <;> rw [hf] <;> rfl

theorem Sampling.bounds (h : a.Sampling) : a.m_start_address.toNat ≤ a.m_current_address.toNat ∧
      a.m_current_address.toNat ≤ a.m_end_address.toNat ∧ a.m_end_address.toNat ≤ 0x3fffffff :=
  ⟨h.start_le, h.le_end, h.end_le⟩

theorem push_current (h : a.Sampling) (val : BitVec 16) :
    (a.push val).m_current_address.toNat = a.m_current_address.toNat + 1 := by
  have := h.bounds
  unfold push
  bv_omega

theorem skipHeader_eq (h : a.Sampling) (val : BitVec 16) : (a.push val).skipHeader ReadMemory =
      if a.m_end_address.toNat % 16 = 0 ∧ a.m_current_address.toNat + 1 = a.m_end_address.toNat then
        ({ a.push val with m_current_address := a.m_start_address + 1 }, 2)
      else if a.m_end_address.toNat % 16 = 1 ∧
          a.m_current_address.toNat + 2 = a.m_end_address.toNat then
        ({ a.push val with m_current_address := a.m_start_address }, 2)
      else if (a.m_current_address.toNat + 1) % 16 = 0 then
        ({ a.push val with
            m_pred_scale := (ReadMemory
              (BitVec.ofNat 32 ((a.m_current_address.toNat + 1) / 16 * 8))).setWidth 16
            m_current_address := a.m_current_address + 3 }, 4)
      else (a.push val, 2) := by
  have hcur := push_current h val
  have hzero : (a.m_end_address &&& 0xf = 0x0 ∧ (a.push val).m_current_address = a.m_end_address) ↔
      a.m_end_address.toNat % 16 = 0 ∧ a.m_current_address.toNat + 1 = a.m_end_address.toNat := by
    rw [and_15_eq_iff, ← BitVec.toNat_inj, hcur]
    rfl
  have hone : (a.m_end_address &&& 0xf = 0x1 ∧
      (a.push val).m_current_address = a.m_end_address - 1) ↔
      a.m_end_address.toNat % 16 = 1 ∧ a.m_current_address.toNat + 2 = a.m_end_address.toNat := by
    rw [and_15_eq_iff]
    refine and_congr_right fun hmod => ?_
    bv_omega
  have hheader : (a.push val).m_current_address &&& 15 = 0 ↔
      (a.m_current_address.toNat + 1) % 16 = 0 := by
    rw [and_15_eq_iff, hcur]
    rfl
  refine if_congr hzero rfl (if_congr hone rfl ?_)
  by_cases hmod : (a.m_current_address.toNat + 1) % 16 = 0
  · rw [if_pos (hheader.mpr hmod), if_pos hmod, headerAddress (by rw [hcur]; exact hmod), hcur]
    have hthree : (a.push val).m_current_address + 2 = a.m_current_address + 3 := by
      bv_omega
    rw [hthree]
  · rw [if_neg (fun hh => hmod (hheader.mp hh)), if_neg hmod]

/-- The accelerator behind a sample that is not the last one of a pass. -/
def behind (ReadMemory : BitVec 32 → BitVec 8) (a : Accelerator) (val : BitVec 16) : Accelerator :=
  let next := nextPosition a.m_sample_format a.m_current_address.toNat
  { a with
    m_current_address := BitVec.ofNat 32 next
    m_yn1 := val
    m_yn2 := a.m_yn1
    m_pred_scale := if a.m_sample_format = 0 ∧ (a.m_current_address.toNat + 1) % 16 = 0 then
        (ReadMemory (BitVec.ofNat 32 (next / 16 * 8))).setWidth 16
      else a.m_pred_scale }

theorem read_of_ne (h : a.Sampling) {b : Accelerator} {step : BitVec 32}
    (hb : a.moved ReadMemory coefs = (b, step))
    (hne : b.m_current_address ≠ b.m_end_address + step - 1) :
    a.Read ReadMemory coefs =
      ⟨a.sample ReadMemory coefs, b.SetCurrentAddress b.m_current_address, false⟩ := by
  unfold Read
  rw [h.running, decode_eq h, hb]
  simp only [Bool.false_eq_true, if_false, if_neg hne]

theorem read_of_eq (h : a.Sampling) {b : Accelerator} {step : BitVec 32}
    (hb : a.moved ReadMemory coefs = (b, step))
    (heq : b.m_current_address = b.m_end_address + step - 1) :
    a.Read ReadMemory coefs = ⟨a.sample ReadMemory coefs,
      { b with m_current_address := b.m_start_address &&& CURRENT_ADDRESS_MASK
               m_reads_stopped := true }, true⟩ := by
  unfold Read
  rw [h.running, decode_eq h, hb]
  simp only [Bool.false_eq_true, if_false, if_pos heq]
  rfl

theorem and_current_mask {x : BitVec 32} (h : x.toNat ≤ 0x3fffffff) :
    x &&& CURRENT_ADDRESS_MASK = x := by
  refine BitVec.eq_of_toNat_eq ?_
  rw [BitVec.toNat_and]
  have hsplit : (CURRENT_ADDRESS_MASK).toNat = 2 ^ 31 ||| (2 ^ 30 - 1) := by decide
  rw [hsplit, Nat.and_or_distrib_left, Nat.and_two_pow_sub_one_eq_mod, Nat.mod_eq_of_lt (by omega)]
  have hhigh : x.toNat &&& 2 ^ 31 = 0 := by
    rw [Nat.and_two_pow, Nat.testBit_lt_two_pow (by omega)]
    rfl
  rw [hhigh, Nat.zero_or]

/-- The accelerator behind the header of a frame that it enters. -/
def entered (ReadMemory : BitVec 32 → BitVec 8) (a : Accelerator) (val : BitVec 16) : Accelerator :=
  { a.push val with
    m_pred_scale := (ReadMemory
      (BitVec.ofNat 32 ((a.m_current_address.toNat + 1) / 16 * 8))).setWidth 16
    m_current_address := a.m_current_address + 3 }

theorem moved_of_header (h : a.Sampling)
    (hheader : a.m_sample_format = 0 ∧ (a.m_current_address.toNat + 1) % 16 = 0)
    (hzero : a.m_current_address.toNat + 1 ≠ a.m_end_address.toNat)
    (hone : a.m_current_address.toNat + 2 ≠ a.m_end_address.toNat) :
    a.moved ReadMemory coefs = (a.entered ReadMemory (a.sample ReadMemory coefs), 4) := by
  rw [moved, if_pos hheader.1, skipHeader_eq h, if_neg (fun hh => hzero hh.2),
    if_neg (fun hh => hone hh.2), if_pos hheader.2]
  rfl

theorem moved_of_not_header (h : a.Sampling)
    (hheader : ¬ (a.m_sample_format = 0 ∧ (a.m_current_address.toNat + 1) % 16 = 0)) :
    a.moved ReadMemory coefs = (a.push (a.sample ReadMemory coefs), 2) := by
  rw [moved]
  split
  · next hformat =>
    have hmod : ¬ (a.m_current_address.toNat + 1) % 16 = 0 := fun hm => hheader ⟨hformat, hm⟩
    rw [skipHeader_eq h, if_neg (by omega), if_neg (by omega), if_neg hmod]
  · rfl

/-- **A sample before the last one**: the next position with a sample follows. -/
theorem read_next (h : a.Sampling)
    (hnext : nextPosition a.m_sample_format a.m_current_address.toNat ≤ a.m_end_address.toNat) :
    a.Read ReadMemory coefs =
      ⟨a.sample ReadMemory coefs, a.behind ReadMemory (a.sample ReadMemory coefs), false⟩ := by
  obtain ⟨hstart, hle, hmax⟩ := h.bounds
  by_cases hheader : a.m_sample_format = 0 ∧ (a.m_current_address.toNat + 1) % 16 = 0
  · have hposition : nextPosition a.m_sample_format a.m_current_address.toNat =
        a.m_current_address.toNat + 3 := if_pos hheader
    have hthree : (a.m_current_address + 3).toNat = a.m_current_address.toNat + 3 := by bv_omega
    rw [read_of_ne h (moved_of_header h hheader (by omega) (by omega))
      (show ¬ a.m_current_address + 3 = a.m_end_address + 4 - 1 by bv_omega)]
    unfold behind SetCurrentAddress entered push
    dsimp only
    rw [hposition, if_pos hheader, and_current_mask (by omega), ← hthree, BitVec.ofNat_toNat,
      BitVec.setWidth_eq, hthree,
      show (a.m_current_address.toNat + 3) / 16 = (a.m_current_address.toNat + 1) / 16 by omega]
  · have hposition : nextPosition a.m_sample_format a.m_current_address.toNat =
        a.m_current_address.toNat + 1 := if_neg hheader
    have hone : (a.m_current_address + 1).toNat = a.m_current_address.toNat + 1 := by bv_omega
    rw [read_of_ne h (moved_of_not_header h hheader)
      (show ¬ a.m_current_address + 1 = a.m_end_address + 2 - 1 by bv_omega)]
    unfold behind SetCurrentAddress push
    dsimp only
    rw [hposition, if_neg hheader, and_current_mask (by omega), ← hone, BitVec.ofNat_toNat,
      BitVec.setWidth_eq]

/-- The accelerator behind the last sample of a pass. -/
def atEnd (ReadMemory : BitVec 32 → BitVec 8) (a : Accelerator) (val : BitVec 16) : Accelerator :=
  { a with
    m_current_address := a.loopAddress
    m_yn1 := val
    m_yn2 := a.m_yn1
    m_pred_scale := if a.m_sample_format = 0 ∧ a.m_end_address.toNat % 16 = 15 then
        (ReadMemory (BitVec.ofNat 32 ((a.m_end_address.toNat + 1) / 16 * 8))).setWidth 16
      else a.m_pred_scale
    m_reads_stopped := !decide a.Special }

theorem read_last_special (h : a.Sampling) (hspecial : a.Special)
    (hlast : a.m_end_address.toNat < nextPosition a.m_sample_format a.m_current_address.toNat) :
    a.Read ReadMemory coefs =
      ⟨a.sample ReadMemory coefs, a.atEnd ReadMemory (a.sample ReadMemory coefs), false⟩ := by
  obtain ⟨hstart, hle, hmax⟩ := h.bounds
  obtain ⟨hformat, hend⟩ := id hspecial
  have hsample := h.sample hformat
  -- the end is in the header that follows the sample
  have hheader : (a.m_current_address.toNat + 1) % 16 = 0 := by
    by_contra hnot
    have hposition : nextPosition a.m_sample_format a.m_current_address.toNat =
        a.m_current_address.toNat + 1 := if_neg fun hh => hnot hh.2
    omega
  have hposition : nextPosition a.m_sample_format a.m_current_address.toNat =
      a.m_current_address.toNat + 3 := if_pos ⟨hformat, hheader⟩
  obtain ⟨b, hmoved, hb, hne⟩ : ∃ b : Accelerator, a.moved ReadMemory coefs = (b, 2) ∧
      b = { a.push (a.sample ReadMemory coefs) with m_current_address := a.loopAddress } ∧
      b.m_current_address ≠ b.m_end_address + 2 - 1 := by
    refine ⟨_, ?_, rfl, ?_⟩
    · rw [moved, if_pos hformat, skipHeader_eq h]
      unfold loopAddress
      by_cases hzero : a.m_end_address.toNat % 16 = 0
      · rw [if_pos ⟨hzero, by omega⟩, if_pos ⟨hformat, hzero⟩]
      · rw [if_neg (fun hh => hzero hh.1), if_pos ⟨by omega, by omega⟩,
          if_neg (fun hh => hzero hh.2)]
    · show a.loopAddress ≠ a.m_end_address + 2 - 1
      unfold loopAddress
      split <;> bv_omega
  have hloop : a.loopAddress.toNat ≤ 0x3fffffff := by
    unfold loopAddress
    split <;> bv_omega
  rw [read_of_ne h hmoved hne, hb]
  unfold atEnd SetCurrentAddress push
  rw [and_current_mask hloop, if_neg (by omega), decide_eq_true hspecial, h.running]
  rfl

theorem read_last (h : a.Sampling) (hspecial : ¬ a.Special)
    (hlast : a.m_end_address.toNat < nextPosition a.m_sample_format a.m_current_address.toNat) :
    a.Read ReadMemory coefs =
      ⟨a.sample ReadMemory coefs, a.atEnd ReadMemory (a.sample ReadMemory coefs), true⟩ := by
  obtain ⟨hstart, hle, hmax⟩ := h.bounds
  unfold nextPosition at hlast
  have hend : a.m_current_address.toNat = a.m_end_address.toNat := by
    split at hlast
    · next hheader =>
      have : ¬ a.m_end_address.toNat % 16 < 2 := fun hlt => hspecial ⟨hheader.1, hlt⟩
      omega
    · omega
  have hloop : a.loopAddress = a.m_start_address := by
    unfold loopAddress
    rw [if_neg]
    rintro ⟨hformat, hzero⟩
    exact hspecial ⟨hformat, by omega⟩
  have hmask := and_current_mask (x := a.m_start_address) (by omega)
  by_cases hheader : a.m_sample_format = 0 ∧ (a.m_current_address.toNat + 1) % 16 = 0
  · rw [read_of_eq h (moved_of_header h hheader (by omega) (by omega))
      (show a.m_current_address + 3 = a.m_end_address + 4 - 1 by bv_omega)]
    unfold atEnd entered push
    rw [hmask, hloop, if_pos ⟨hheader.1, by omega⟩, decide_eq_false hspecial, ← hend]
    rfl
  · rw [read_of_eq h (moved_of_not_header h hheader)
      (show a.m_current_address + 1 = a.m_end_address + 2 - 1 by bv_omega)]
    unfold atEnd push
    rw [hmask, hloop, if_neg (fun hh => hheader ⟨hh.1, by omega⟩), decide_eq_false hspecial]
    rfl

/-! ## a pass -/

theorem Sampling.behind (h : a.Sampling)
    (hnext : nextPosition a.m_sample_format a.m_current_address.toNat ≤ a.m_end_address.toNat)
    (val : BitVec 16) : (a.behind ReadMemory val).Sampling ∧
      (a.behind ReadMemory val).m_current_address.toNat =
        nextPosition a.m_sample_format a.m_current_address.toNat := by
  obtain ⟨hstart, hle, hmax⟩ := h.bounds
  have hlt : a.m_current_address.toNat <
      nextPosition a.m_sample_format a.m_current_address.toNat := by
    unfold nextPosition
    split <;> omega
  have hcur : (a.behind ReadMemory val).m_current_address.toNat =
      nextPosition a.m_sample_format a.m_current_address.toNat := by
    unfold Accelerator.behind
    rw [BitVec.toNat_ofNat, Nat.mod_eq_of_lt (by omega)]
  refine ⟨⟨h.format, h.running, ?_, ?_, h.end_le, ?_⟩, hcur⟩
  · show a.m_start_address.toNat ≤ _
    omega
  · show _ ≤ a.m_end_address.toNat
    omega
  · rw [hcur]
    exact isSample_next h.sample

theorem samplesAt_congr {format : BitVec 16} {scale scale' : Nat → BitVec 16} {ps : List Nat}
    (h : ∀ p ∈ ps, format = 0 → scale p = scale' p) (m_yn1 m_yn2 : BitVec 16) :
    samplesAt ReadMemory coefs format scale m_yn1 m_yn2 ps =
      samplesAt ReadMemory coefs format scale' m_yn1 m_yn2 ps := by
  induction ps generalizing m_yn1 m_yn2 with
  | nil => rfl
  | cons p ps ih =>
    obtain ⟨hp, hps⟩ := List.forall_mem_cons.mp h
    have hsample : sampleAt ReadMemory coefs format (scale p) m_yn1 m_yn2 p =
        sampleAt ReadMemory coefs format (scale' p) m_yn1 m_yn2 p := by
      unfold sampleAt
      by_cases hformat : format = 0
      · rw [hp hformat]
      · simp only [if_neg hformat]
    rw [samplesAt, samplesAt, hsample, ih hps]

theorem frameScale_behind (val : BitVec 16) {q : Nat}
    (hformat : a.m_sample_format = 0)
    (hq : nextPosition a.m_sample_format a.m_current_address.toNat ≤ q) :
    frameScale ReadMemory a.m_current_address.toNat a.m_pred_scale q =
      frameScale ReadMemory (nextPosition a.m_sample_format a.m_current_address.toNat)
        (a.behind ReadMemory val).m_pred_scale q := by
  unfold frameScale Accelerator.behind
  dsimp only
  by_cases hheader : a.m_sample_format = 0 ∧ (a.m_current_address.toNat + 1) % 16 = 0
  · have hposition : nextPosition a.m_sample_format a.m_current_address.toNat =
        a.m_current_address.toNat + 3 := if_pos hheader
    rw [if_pos hheader, if_neg (by omega)]
    split
    · next hframe => rw [hframe]
    · rfl
  · have hposition : nextPosition a.m_sample_format a.m_current_address.toNat =
        a.m_current_address.toNat + 1 := if_neg hheader
    have hmod : ¬ (a.m_current_address.toNat + 1) % 16 = 0 := fun hm => hheader ⟨hformat, hm⟩
    have hsame : (a.m_current_address.toNat + 1) / 16 = a.m_current_address.toNat / 16 := by omega
    rw [hposition, hsame, if_neg hheader]

/-- The positions of the pass, from the current one on. -/
abbrev passPositions (a : Accelerator) : List Nat :=
  positions a.m_sample_format a.m_current_address.toNat a.m_end_address.toNat

theorem mem_positions {format : BitVec 16} {first last p : Nat}
    (h : p ∈ positions format first last) : first ≤ p := by
  have := (List.mem_range'_1.mp (List.mem_filter.mp h).1).1
  exact this

/-- **The samples of a pass**, up to its last one. -/
theorem reads_pass (h : a.Sampling) : ∃ last, reads ReadMemory coefs a.passPositions.length a =
        ((samplesAt ReadMemory coefs a.m_sample_format
          (frameScale ReadMemory a.m_current_address.toNat a.m_pred_scale) a.m_yn1 a.m_yn2
          a.passPositions).zip
            (List.replicate (a.passPositions.length - 1) false ++ [!decide a.Special]), last) ∧
      last.m_current_address = a.loopAddress ∧ last.m_reads_stopped = !decide a.Special := by
  obtain ⟨hstart, hle, hmax⟩ := h.bounds
  induction hn : a.m_end_address.toNat - a.m_current_address.toNat using Nat.strongRecOn
    generalizing a with
  | _ n ih =>
    have hpositions := positions_cons h.sample hle
    have hsample : sampleAt ReadMemory coefs a.m_sample_format (frameScale ReadMemory
        a.m_current_address.toNat a.m_pred_scale a.m_current_address.toNat) a.m_yn1 a.m_yn2
        a.m_current_address.toNat = a.sample ReadMemory coefs := by
      unfold sample frameScale
      rw [if_pos rfl]
    unfold passPositions
    rw [hpositions, List.length_cons, samplesAt, hsample, reads]
    rcases Nat.lt_or_ge a.m_end_address.toNat
      (nextPosition a.m_sample_format a.m_current_address.toNat) with hlast | hnext
    · rw [positions_nil hlast]
      by_cases hspecial : a.Special
      · rw [read_last_special h hspecial hlast]
        exact ⟨a.atEnd ReadMemory (a.sample ReadMemory coefs),
          by simp [reads, samplesAt, hspecial], rfl, rfl⟩
      · rw [read_last h hspecial hlast]
        exact ⟨a.atEnd ReadMemory (a.sample ReadMemory coefs),
          by simp [reads, samplesAt, hspecial], rfl, rfl⟩
    · obtain ⟨hbehind, hcur⟩ := @Sampling.behind ReadMemory a h hnext
        (a.sample ReadMemory coefs)
      have hlt : a.m_current_address.toNat <
          nextPosition a.m_sample_format a.m_current_address.toNat := by
        unfold nextPosition
        split <;> omega
      obtain ⟨hstart', hle', hmax'⟩ := hbehind.bounds
      obtain ⟨last, hreads, haddress, hstopped⟩ := ih _ (by
        show a.m_end_address.toNat - _ < n
        omega) hbehind hstart' hle' hmax' rfl
      have hrest : (a.behind ReadMemory (a.sample ReadMemory coefs)).passPositions =
          positions a.m_sample_format (nextPosition a.m_sample_format a.m_current_address.toNat)
            a.m_end_address.toNat := by
        unfold passPositions
        rw [hcur]
        rfl
      have hsamples := @samplesAt_congr ReadMemory coefs a.m_sample_format
        (frameScale ReadMemory a.m_current_address.toNat a.m_pred_scale)
        (frameScale ReadMemory (nextPosition a.m_sample_format a.m_current_address.toNat)
          (a.behind ReadMemory (a.sample ReadMemory coefs)).m_pred_scale)
        (positions a.m_sample_format (nextPosition a.m_sample_format a.m_current_address.toNat)
            a.m_end_address.toNat) (fun q hq hformat =>
          frameScale_behind _ hformat (mem_positions hq)) (a.sample ReadMemory coefs) a.m_yn1
      have hne : (positions a.m_sample_format (nextPosition a.m_sample_format
          a.m_current_address.toNat) a.m_end_address.toNat).length ≠ 0 := by
        rw [positions_cons (isSample_next h.sample) hnext]
        exact Nat.succ_ne_zero _
      rw [hrest, hcur] at hreads
      refine ⟨last, ?_, haddress, hstopped⟩
      rw [read_next h hnext]
      rw [hreads, hsamples]
      obtain ⟨k, hk⟩ := Nat.exists_eq_succ_of_ne_zero hne
      rw [hk]
      rfl

theorem reads_of_stopped (h : a.m_reads_stopped = true) (m : Nat) :
    reads ReadMemory coefs m a = (List.replicate m (0, false), a) := by
  have hread : a.Read ReadMemory coefs = ⟨0, a, false⟩ := by
    unfold Read
    rw [h, if_pos rfl]
  induction m with
  | zero => rfl
  | succ m ih => rw [reads, hread, ih, List.replicate_succ]

/-- The current address has no bits outside of its mask. -/
def Masked (a : Accelerator) : Prop :=
  a.m_current_address &&& CURRENT_ADDRESS_MASK = a.m_current_address

theorem SetCurrentAddress_masked (a : Accelerator) (address : BitVec 32) :
    (a.SetCurrentAddress address).Masked := by
  show address &&& CURRENT_ADDRESS_MASK &&& CURRENT_ADDRESS_MASK = address &&& CURRENT_ADDRESS_MASK
  rw [BitVec.and_assoc, BitVec.and_self]

theorem read_masked (h : a.Masked) : (a.Read ReadMemory coefs).accelerator.Masked := by
  unfold Read
  split
  · exact h
  · dsimp only
    split <;> exact SetCurrentAddress_masked _ _

theorem reads_masked (h : a.Masked) (m : Nat) : (reads ReadMemory coefs m a).2.Masked := by
  induction m generalizing a with
  | zero => exact h
  | succ m ih => exact ih (read_masked h)

/-- What the reads of a pass do. -/
structure Passes (ReadMemory : BitVec 32 → BitVec 8) (coefs : Nat → BitVec 16) (a : Accelerator) :
    Prop where
  /-- The samples come one after another, each from its frame; the last of them fires the end
  exception but for the two special alignments. Then the pass begins again, and where the exception
  fired nothing more is read. -/
  samples : ∃ last, reads ReadMemory coefs a.passPositions.length a =
      ((samplesAt ReadMemory coefs a.m_sample_format
        (frameScale ReadMemory a.m_current_address.toNat a.m_pred_scale) a.m_yn1 a.m_yn2
        a.passPositions).zip
          (List.replicate (a.passPositions.length - 1) false ++ [!decide a.Special]), last) ∧
    last.m_current_address = a.loopAddress ∧ last.m_reads_stopped = !decide a.Special ∧
    (¬ a.Special → ∀ m, reads ReadMemory coefs m last = (List.replicate m (0, false), last))
  masked : ∀ m, (reads ReadMemory coefs m a).2.Masked

/-- ADPCM from the last nibble of a frame, up to the header of the next one. -/
def endOnHeader : Accelerator := ⟨2, 16, 15, 0, 0, 0, 0, false⟩

theorem endOnHeader_sampling : endOnHeader.Sampling :=
  ⟨.inl rfl, rfl, by decide, by decide, by decide, by decide⟩

end Accelerator

end DolphinCore.DSP
