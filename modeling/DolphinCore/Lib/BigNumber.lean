import Mathlib.Algebra.Order.Group.Nat
import Mathlib.Data.BitVec
import Mathlib.Tactic.Ring

/-!
# DolphinCore.Lib.BigNumber

Big-endian numbers in buffers of bytes, and the loops over them: from the last byte
to the first with an unsigned index that stops by going below zero, and over all
bits from the highest one on.
-/

namespace DolphinCore

/-! ## numbers -/

/-- The number of `count` bytes from `first` on, the highest byte first. -/
def bigNum (f : Nat → BitVec 8) : Nat → Nat → Nat
  | _, 0 => 0
  | first, count + 1 => (f first).toNat * 256 ^ count + bigNum f (first + 1) count

variable {f g : Nat → BitVec 8} {first count : Nat}

theorem bigNum_lt : bigNum f first count < 256 ^ count := by
  induction count generalizing first with
  | zero => exact Nat.one_pos
  | succ count ih =>
    have hbyte : ((f first).toNat + 1) * 256 ^ count ≤ 256 * 256 ^ count :=
      Nat.mul_le_mul_right _ (f first).isLt
    have hrest : bigNum f (first + 1) count < 256 ^ count := ih
    rw [bigNum, Nat.pow_succ]
    rw [Nat.add_mul] at hbyte
    omega

theorem bigNum_congr (h : ∀ i, first ≤ i → i < first + count → f i = g i) :
    bigNum f first count = bigNum g first count := by
  induction count generalizing first with
  | zero => rfl
  | succ count ih =>
    rw [bigNum, bigNum, h first (Nat.le_refl _) (by omega), ih fun i hi hlt =>
      h i (by omega) (by omega)]

theorem bigNum_succ_right :
    bigNum f first (count + 1) = bigNum f first count * 256 + (f (first + count)).toNat := by
  induction count generalizing first with
  | zero => simp [bigNum]
  | succ count ih =>
    rw [bigNum, ih, bigNum, Nat.pow_succ, Nat.add_mul, Nat.add_assoc first 1 count,
      Nat.add_comm 1 count]
    ring

theorem bigNum_zero (h : ∀ i, first ≤ i → i < first + count → f i = 0) :
    bigNum f first count = 0 := by
  induction count generalizing first with
  | zero => rfl
  | succ count ih =>
    rw [bigNum, h first (Nat.le_refl _) (by omega), ih fun i hi hlt => h i (by omega) (by omega)]
    simp

theorem bigNum_lt_of_byte_lt (h : (f first).toNat < (g first).toNat) :
    bigNum f first (count + 1) < bigNum g first (count + 1) := by
  have hrest : bigNum f (first + 1) count < 256 ^ count := bigNum_lt
  have hbyte : ((f first).toNat + 1) * 256 ^ count ≤ (g first).toNat * 256 ^ count :=
    Nat.mul_le_mul_right _ h
  rw [bigNum, bigNum]
  rw [Nat.add_mul] at hbyte
  omega

/-! ## from the last byte to the first -/

/-- `for (i = start; i < n; i--)` -/
def downLoop {σ : Type _} (n : BitVec 32) (body : Nat → σ → σ) (i : BitVec 32) (s : σ) : σ :=
  if i < n then downLoop n body (i - 1) (body i.toNat s) else s
termination_by if i < n then i.toNat + 1 else 0
decreasing_by
  next h =>
  rw [if_pos h]
  split
  · next h' =>
    have hpos : i ≠ 0 := by
      rintro rfl
      bv_omega
    bv_omega
  · omega

/-- The indices from `n - 1` down to 0. -/
def downFrom {σ : Type _} (body : Nat → σ → σ) : Nat → σ → σ
  | 0, s => s
  | k + 1, s => downFrom body k (body k s)

theorem downLoop_eq {σ : Type _} {n : BitVec 32} {f : Nat → σ → σ} {k : Nat}
    (hk : k ≤ n.toNat) (s : σ) :
    downLoop n f (BitVec.ofNat 32 k - 1) s = downFrom f k s := by
  induction k generalizing s with
  | zero =>
    -- below zero the index is the largest number
    rw [downLoop, if_neg (by bv_omega)]
    rfl
  | succ k ih =>
    have hpred : BitVec.ofNat 32 (k + 1) - 1 = BitVec.ofNat 32 k := by bv_omega
    have htoNat : (BitVec.ofNat 32 k).toNat = k := by
      rw [BitVec.toNat_ofNat, Nat.mod_eq_of_lt (by omega)]
    have hlt : BitVec.ofNat 32 k < n := by
      rw [BitVec.lt_def, htoNat]
      omega
    rw [hpred, downLoop, if_pos hlt, htoNat, ih (by omega)]
    rfl

/-- **Invariant rule** of the loop. -/
theorem downFrom_invariant {σ : Type _} {f : Nat → σ → σ} {I : Nat → σ → Prop} {n : Nat} {s : σ}
    (h : I n s) (hstep : ∀ k < n, ∀ s, I (k + 1) s → I k (f k s)) : I 0 (downFrom f n s) := by
  induction n generalizing s with
  | zero => exact h
  | succ n ih =>
    exact ih (hstep n (Nat.lt_succ_self n) s h) fun k hk => hstep k (Nat.lt_succ_of_lt hk)

/-! ## over all bits -/

/-- The masks of the bits of a byte, the highest bit first. -/
def byteMasks : List (BitVec 8) := [0x80, 0x40, 0x20, 0x10, 0x08, 0x04, 0x02, 0x01]

theorem byteMasks_fold (v : BitVec 8) (n : Nat) :
    byteMasks.foldl (fun n mask => 2 * n + if v &&& mask ≠ 0 then 1 else 0) n =
      n * 256 + v.toNat := by
  have hbyte : ∀ v : BitVec 8,
      byteMasks.foldl (fun n mask => 2 * n + if v &&& mask ≠ 0 then 1 else 0) 0 = v.toNat := by
    decide
  have hshift : ∀ (masks : List (BitVec 8)) (m k : Nat),
      masks.foldl (fun n mask => 2 * n + if v &&& mask ≠ 0 then 1 else 0) (m + k) =
        m * 2 ^ masks.length +
          masks.foldl (fun n mask => 2 * n + if v &&& mask ≠ 0 then 1 else 0) k := by
    intro masks
    induction masks with
    | nil => intro m k; simp
    | cons mask masks ih =>
      intro m k
      rw [List.foldl_cons, List.foldl_cons, Nat.mul_add, Nat.add_assoc, ih, List.length_cons,
        Nat.pow_succ]
      ring
  have := hshift byteMasks n 0
  rw [Nat.add_zero] at this
  rw [this, hbyte]
  rfl

/-- **Invariant rule** of a loop over the bits of a number, from the highest one on: a bit that
is met is put behind those before it. -/
theorem bytes_fold {σ : Type _} {R : Nat → σ → Prop} {g : Nat → BitVec 8 → σ → σ}
    (hstep : ∀ i mask n s, R n s → R (2 * n + if f i &&& mask ≠ 0 then 1 else 0) (g i mask s))
    {s : σ} (h : R 0 s) (count : Nat) :
    R (bigNum f 0 count) ((List.range count).foldl (fun s i =>
      byteMasks.foldl (fun s mask => g i mask s) s) s) := by
  induction count with
  | zero => exact h
  | succ count ih =>
    have hbyte : ∀ (masks : List (BitVec 8)) (n : Nat) (s : σ), R n s →
        R (masks.foldl (fun n mask => 2 * n + if f count &&& mask ≠ 0 then 1 else 0) n)
          (masks.foldl (fun s mask => g count mask s) s) := by
      intro masks
      induction masks with
      | nil => exact fun _ _ h => h
      | cons mask masks ih => exact fun n s h => ih _ _ (hstep count mask n s h)
    have hcount := hbyte byteMasks _ _ ih
    rw [byteMasks_fold] at hcount
    rw [List.range_succ, List.foldl_append, bigNum_succ_right, Nat.zero_add]
    exact hcount

end DolphinCore
