import Mathlib.Logic.Function.Basic
import DolphinCore.Lib.BigNumber
import Mathlib.FieldTheory.Finite.Basic

/-!
# DolphinCore.Crypto.Bn

Modular arithmetic on big-endian numbers of `n` bytes. The functions work on
buffers, which may be the same ones: a result can take the place of an operand.

What the functions on big numbers compute. A loop over the bytes keeps the sum of
what it has written and the carry; a loop over the bits keeps the product with the
number of the bits so far, or the power of it.
-/

namespace DolphinCore.Crypto

/-- The bytes of each buffer. -/
abbrev Buffers (ι : Type) := ι → Nat → BitVec 8

namespace Buffers

variable {ι : Type} [DecidableEq ι]

def set (s : Buffers ι) (d : ι) (i : Nat) (v : BitVec 8) : Buffers ι :=
  Function.update s d (Function.update (s d) i v)

/-- The number in a buffer of `n` bytes. -/
def num (s : Buffers ι) (x : ι) (n : BitVec 32) : Nat := bigNum (s x) 0 n.toNat

/-- A function with a buffer of its own, which holds anything at first. -/
def withLocal (s : Buffers ι) (junk : Nat → BitVec 8)
    (f : Buffers (Option ι) → Buffers (Option ι)) : Buffers ι :=
  fun x => f (fun x => x.elim junk s) (some x)

end Buffers

variable {ι : Type} [DecidableEq ι]

def bn_zero (s : Buffers ι) (d : ι) (n : BitVec 32) : Buffers ι :=
  Function.update s d fun i => if i < n.toNat then 0 else s d i

def bn_copy (s : Buffers ι) (d a : ι) (n : BitVec 32) : Buffers ι :=
  Function.update s d fun i => if i < n.toNat then s a i else s d i

/-- The first byte that differs decides. -/
def compareBytes (s : Buffers ι) (a b : ι) : List Nat → Int
  | [] => 0
  | i :: is =>
    if s a i < s b i then -1
    else if s a i > s b i then 1
    else compareBytes s a b is

def bn_compare (s : Buffers ι) (a b : ι) (n : BitVec 32) : Int :=
  compareBytes s a b (List.range n.toNat)

/-- One byte of `bn_sub_modulus`; the borrow is in 8 bits. -/
def subByte (a N : ι) (i : Nat) : Buffers ι × BitVec 8 → Buffers ι × BitVec 8
  | (s, c) =>
    let dig : BitVec 32 := (s N i).setWidth 32 + c.setWidth 32
    let c : BitVec 8 := if (s a i).setWidth 32 < dig then 1 else 0
    (s.set a i (s a i - dig.setWidth 8), c)

def bn_sub_modulus (s : Buffers ι) (a N : ι) (n : BitVec 32) : Buffers ι :=
  (downLoop n (subByte a N) (n - 1) (s, 0)).1

/-- One byte of the sum in `bn_add`. -/
def addByte (d a b : ι) (i : Nat) : Buffers ι × BitVec 8 → Buffers ι × BitVec 8
  | (s, c) =>
    let dig : BitVec 32 := (s a i).setWidth 32 + (s b i).setWidth 32 + c.setWidth 32
    let c : BitVec 8 := if dig ≥ 0x100 then 1 else 0
    (s.set d i (dig.setWidth 8), c)

def bn_add (s : Buffers ι) (d a b N : ι) (n : BitVec 32) : Buffers ι :=
  let (s, c) := downLoop n (addByte d a b) (n - 1) (s, 0)
  let s := if c ≠ 0 then bn_sub_modulus s d N n else s
  if bn_compare s d N n ≥ 0 then bn_sub_modulus s d N n else s

/-- One bit of `bn_mul`. -/
def mulBit (d a b N : ι) (n : BitVec 32) (i : Nat) (mask : BitVec 8) (s : Buffers ι) : Buffers ι :=
  let s := bn_add s d d d N n
  if s a i &&& mask ≠ 0 then bn_add s d d b N n else s

def bn_mul (s : Buffers ι) (d a b N : ι) (n : BitVec 32) : Buffers ι :=
  (List.range n.toNat).foldl (fun s i =>
    byteMasks.foldl (fun s mask => mulBit d a b N n i mask s) s) (bn_zero s d n)

/-- One bit of `bn_exp`. -/
def expBit (t d a N e : ι) (n : BitVec 32) (i : Nat) (mask : BitVec 8) (s : Buffers ι) :
    Buffers ι :=
  let s := bn_mul s t d d N n
  if s e i &&& mask ≠ 0 then bn_mul s d t a N n else bn_copy s d t n

/-- `bn_exp`, with its buffer `t` -/
def bn_exp (junk : Nat → BitVec 8) (s : Buffers ι) (d a N : ι) (n : BitVec 32) (e : ι)
    (en : BitVec 32) : Buffers ι :=
  s.withLocal junk fun s =>
    (List.range en.toNat).foldl (fun s i =>
      byteMasks.foldl (fun s mask => expBit none (some d) (some a) (some N) (some e) n i mask s) s)
      ((bn_zero s (some d) n).set (some d) (n.toNat - 1) 1)

/-- `bn_inv`, with its buffers `t` and `s`; only for prime `N`. -/
def bn_inv (junk : Nat → BitVec 8) (s : Buffers ι) (d a N : ι) (n : BitVec 32) : Buffers ι :=
  s.withLocal junk fun s =>
    s.withLocal junk fun s =>
      let t : Option (Option ι) := some none
      let s := bn_copy s t (some (some N)) n
      let s := (bn_zero s none n).set none (n.toNat - 1) 2
      let s := bn_sub_modulus s t none n
      bn_exp junk s (some (some d)) (some (some a)) (some (some N)) n t n

end DolphinCore.Crypto

namespace DolphinCore.Crypto

variable {ι : Type} [DecidableEq ι] {s : Buffers ι} {n : BitVec 32}

namespace Buffers

theorem set_apply (s : Buffers ι) (d x : ι) (i j : Nat) (v : BitVec 8) :
    s.set d i v x j = if x = d ∧ j = i then v else s x j := by
  unfold set
  rcases eq_or_ne x d with rfl | hx
  · rcases eq_or_ne j i with rfl | hj
    · simp
    · simp [hj]
  · simp [hx]

/-- Only the number in `d` may have changed. -/
def Same (s s' : Buffers ι) (d : ι) (n : BitVec 32) : Prop :=
  ∀ x j, x ≠ d ∨ n.toNat ≤ j → s' x j = s x j

omit [DecidableEq ι] in
theorem Same.trans {s s' s'' : Buffers ι} {d : ι} (h : s.Same s' d n) (h' : s'.Same s'' d n) :
    s.Same s'' d n := fun x j hx => (h' x j hx).trans (h x j hx)

omit [DecidableEq ι] in
theorem Same.apply {s s' : Buffers ι} {d : ι} (h : s.Same s' d n) {x : ι} (hx : x ≠ d) :
    s' x = s x := funext fun j => h x j (.inl hx)

omit [DecidableEq ι] in
theorem Same.num {s s' : Buffers ι} {d : ι} (h : s.Same s' d n) {x : ι} (hx : x ≠ d)
    (m : BitVec 32) : s'.num x m = s.num x m := by
  unfold Buffers.num
  rw [h.apply hx]

omit [DecidableEq ι] in
theorem num_lt (s : Buffers ι) (x : ι) (n : BitVec 32) : s.num x n < 256 ^ n.toNat := bigNum_lt

end Buffers

open Buffers

/-! ## sums and differences -/

theorem add_byte (x y c : BitVec 8) (hc : c.toNat ≤ 1) :
    let dig : BitVec 32 := x.setWidth 32 + y.setWidth 32 + c.setWidth 32
    (dig.setWidth 8).toNat + (if dig ≥ 0x100 then (1 : BitVec 8) else 0).toNat * 256 =
      x.toNat + y.toNat + c.toNat ∧ (if dig ≥ 0x100 then (1 : BitVec 8) else 0).toNat ≤ 1 := by
  have hdig : (x.setWidth 32 + y.setWidth 32 + c.setWidth 32 : BitVec 32).toNat =
      x.toNat + y.toNat + c.toNat := by
    bv_omega
  have hone : (1 : BitVec 8).toNat = 1 := rfl
  have hzero : (0 : BitVec 8).toNat = 0 := rfl
  have hlow : ∀ z : BitVec 32, (z.setWidth 8).toNat = z.toNat % 256 :=
    fun _ => BitVec.toNat_setWidth ..
  dsimp only
  rw [hlow, hdig]
  split
  · next h =>
    have h : 256 ≤ x.toNat + y.toNat + c.toNat := hdig ▸ BitVec.le_def.mp h
    omega
  · next h =>
    have h : ¬ 256 ≤ x.toNat + y.toNat + c.toNat := fun hle => h (BitVec.le_def.mpr (hdig ▸ hle))
    omega

theorem sub_byte (x y c : BitVec 8) (hc : c.toNat ≤ 1) :
    let dig : BitVec 32 := y.setWidth 32 + c.setWidth 32
    (x - dig.setWidth 8).toNat + y.toNat + c.toNat =
      x.toNat + (if x.setWidth 32 < dig then (1 : BitVec 8) else 0).toNat * 256 ∧
        (if x.setWidth 32 < dig then (1 : BitVec 8) else 0).toNat ≤ 1 := by
  have hdig : (y.setWidth 32 + c.setWidth 32 : BitVec 32).toNat = y.toNat + c.toNat := by
    bv_omega
  have hx32 : (x.setWidth 32).toNat = x.toNat := by bv_omega
  have hone : (1 : BitVec 8).toNat = 1 := rfl
  have hzero : (0 : BitVec 8).toNat = 0 := rfl
  have hlow : ∀ z : BitVec 32, (z.setWidth 8).toNat = z.toNat % 256 :=
    fun _ => BitVec.toNat_setWidth ..
  dsimp only
  rw [BitVec.toNat_sub, hlow, hdig]
  split
  · next h =>
    have h : x.toNat < y.toNat + c.toNat := by
      have := BitVec.lt_def.mp h
      rwa [hdig, hx32] at this
    omega
  · next h =>
    have h : ¬ x.toNat < y.toNat + c.toNat := fun hlt => h (BitVec.lt_def.mpr (by rwa [hdig, hx32]))
    omega

/-- The bytes of `d` from `k` on are written, up to a carry or borrow of `c`. -/
structure Written (s₀ : Buffers ι) (d : ι) (n k : Nat) (r : Buffers ι × BitVec 8) : Prop where
  same : ∀ x j, x ≠ d ∨ j < k ∨ n ≤ j → r.1 x j = s₀ x j
  carry : r.2.toNat ≤ 1

variable {r : Buffers ι × BitVec 8} {d : ι}

theorem Written.set {m k : Nat} (h : Written s d m (k + 1) r) (hk : k < m) {v c : BitVec 8}
    (hc : c.toNat ≤ 1) : Written s d m k (r.1.set d k v, c) := by
  refine ⟨fun x j hx => ?_, hc⟩
  show r.1.set d k v x j = s x j
  rw [set_apply, if_neg]
  · exact h.same x j (hx.imp_right (Or.imp_left Nat.lt_succ_of_lt))
  · rintro ⟨rfl, rfl⟩
    rcases hx with hx | hx | hx
    · exact hx rfl
    · exact Nat.lt_irrefl _ hx
    · omega

theorem bigNum_set (s : Buffers ι) (d : ι) {k m : Nat} (hk : k < m) (v : BitVec 8) :
    bigNum (s.set d k v d) k (m - k) =
      v.toNat * 256 ^ (m - (k + 1)) + bigNum (s d) (k + 1) (m - (k + 1)) := by
  have hrest : bigNum (s.set d k v d) (k + 1) (m - (k + 1)) =
      bigNum (s d) (k + 1) (m - (k + 1)) := bigNum_congr fun i hi _ => by
    rw [set_apply, if_neg (by omega)]
  have hhead : s.set d k v d k = v := by
    rw [set_apply, if_pos ⟨rfl, rfl⟩]
  rw [show m - k = m - (k + 1) + 1 by omega, bigNum, hrest, hhead]

theorem bigNum_from {f : Nat → BitVec 8} {k m : Nat} (hk : k < m) : bigNum f k (m - k) =
      (f k).toNat * 256 ^ (m - (k + 1)) + bigNum f (k + 1) (m - (k + 1)) := by
  rw [show m - k = m - (k + 1) + 1 by omega, bigNum]

theorem addByte_sum {d a b : ι} {m k : Nat} (hk : k < m)
    (h : Written s d m (k + 1) r ∧ bigNum (r.1 d) (k + 1) (m - (k + 1)) +
      r.2.toNat * 256 ^ (m - (k + 1)) =
        bigNum (s a) (k + 1) (m - (k + 1)) + bigNum (s b) (k + 1) (m - (k + 1))) :
    Written s d m k (addByte d a b k r) ∧
      bigNum ((addByte d a b k r).1 d) k (m - k) + (addByte d a b k r).2.toNat * 256 ^ (m - k) =
        bigNum (s a) k (m - k) + bigNum (s b) k (m - k) := by
  obtain ⟨r, c⟩ := r
  obtain ⟨hw, hsum⟩ := h
  have ha : r a k = s a k := hw.same a k (.inr (.inl (Nat.lt_succ_self k)))
  have hb : r b k = s b k := hw.same b k (.inr (.inl (Nat.lt_succ_self k)))
  obtain ⟨hbyte, hcarry⟩ := add_byte (r a k) (r b k) c hw.carry
  unfold addByte
  dsimp only at hsum hbyte hcarry ⊢
  generalize (r a k).setWidth 32 + (r b k).setWidth 32 + c.setWidth 32 = dig at hbyte hcarry ⊢
  generalize (if dig ≥ 0x100 then (1 : BitVec 8) else 0) = c' at hbyte hcarry ⊢
  refine ⟨hw.set hk hcarry, ?_⟩
  have hpow : 256 ^ (m - k) = 256 ^ (m - (k + 1)) * 256 := by
    rw [← Nat.pow_succ, show m - k = m - (k + 1) + 1 by omega]
  have hmul := congrArg (· * 256 ^ (m - (k + 1))) hbyte
  rw [Nat.add_mul, Nat.add_mul, Nat.add_mul, Nat.mul_assoc c'.toNat, Nat.mul_comm 256, ← hpow]
    at hmul
  rw [bigNum_set r d hk, bigNum_from hk, bigNum_from hk, ← ha, ← hb]
  omega

theorem subByte_difference {a N : ι} (hN : N ≠ a) {m k : Nat} (hk : k < m)
    (h : Written s a m (k + 1) r ∧
      bigNum (r.1 a) (k + 1) (m - (k + 1)) + bigNum (s N) (k + 1) (m - (k + 1)) =
        bigNum (s a) (k + 1) (m - (k + 1)) + r.2.toNat * 256 ^ (m - (k + 1))) :
    Written s a m k (subByte a N k r) ∧
      bigNum ((subByte a N k r).1 a) k (m - k) + bigNum (s N) k (m - k) =
        bigNum (s a) k (m - k) + (subByte a N k r).2.toNat * 256 ^ (m - k) := by
  obtain ⟨r, c⟩ := r
  obtain ⟨hw, hsum⟩ := h
  have ha : r a k = s a k := hw.same a k (.inr (.inl (Nat.lt_succ_self k)))
  have hNk : r N k = s N k := hw.same N k (.inl hN)
  obtain ⟨hbyte, hcarry⟩ := sub_byte (r a k) (r N k) c hw.carry
  unfold subByte
  dsimp only at hsum hbyte hcarry ⊢
  generalize (r N k).setWidth 32 + c.setWidth 32 = dig at hbyte hcarry ⊢
  generalize (if (r a k).setWidth 32 < dig then (1 : BitVec 8) else 0) = c' at hbyte hcarry ⊢
  refine ⟨hw.set hk hcarry, ?_⟩
  have hpow : 256 ^ (m - k) = 256 ^ (m - (k + 1)) * 256 := by
    rw [← Nat.pow_succ, show m - k = m - (k + 1) + 1 by omega]
  have hmul := congrArg (· * 256 ^ (m - (k + 1))) hbyte
  rw [Nat.add_mul, Nat.add_mul, Nat.add_mul, Nat.mul_assoc c'.toNat, Nat.mul_comm 256, ← hpow]
    at hmul
  rw [bigNum_set r a hk, bigNum_from hk, bigNum_from hk, ← ha, ← hNk]
  omega

theorem downLoop_pred {σ : Type} (body : Nat → σ → σ) (s : σ) :
    downLoop n body (n - 1) s = downFrom body n.toNat s := by
  have := downLoop_eq (f := body) (Nat.le_refl n.toNat) s
  rwa [BitVec.ofNat_toNat, BitVec.setWidth_eq] at this

omit [DecidableEq ι] in
theorem Written.start (s : Buffers ι) (d : ι) (m : Nat) : Written s d m m (s, 0) :=
  ⟨fun _ _ _ => rfl, Nat.zero_le 1⟩

omit [DecidableEq ι] in
theorem Written.same_of_done (h : Written s d n.toNat 0 r) : s.Same r.1 d n :=
  fun x j hx => h.same x j (hx.imp_right fun hj => .inr hj)

theorem add_loop (s : Buffers ι) (d a b : ι) (n : BitVec 32) :
    let r := downLoop n (addByte d a b) (n - 1) (s, 0)
    s.Same r.1 d n ∧ r.2.toNat ≤ 1 ∧
      r.1.num d n + r.2.toNat * 256 ^ n.toNat = s.num a n + s.num b n := by
  obtain ⟨hw, hsum⟩ := downFrom_invariant (n := n.toNat) (f := addByte d a b)
    (I := fun k r => Written s d n.toNat k r ∧
      bigNum (r.1 d) k (n.toNat - k) + r.2.toNat * 256 ^ (n.toNat - k) =
        bigNum (s a) k (n.toNat - k) + bigNum (s b) k (n.toNat - k))
    (s := (s, 0)) ⟨.start s d _, by simp [bigNum]⟩ fun k hk r h => addByte_sum hk h
  rw [downLoop_pred]
  exact ⟨hw.same_of_done, hw.carry, hsum⟩

theorem bn_sub_modulus_spec {a N : ι} (hN : N ≠ a) (s : Buffers ι) (n : BitVec 32) :
    s.Same (bn_sub_modulus s a N n) a n ∧
      ∃ borrow ≤ 1, (bn_sub_modulus s a N n).num a n + s.num N n =
        s.num a n + borrow * 256 ^ n.toNat := by
  obtain ⟨hw, hsum⟩ := downFrom_invariant (n := n.toNat) (f := subByte a N)
    (I := fun k r => Written s a n.toNat k r ∧
      bigNum (r.1 a) k (n.toNat - k) + bigNum (s N) k (n.toNat - k) =
        bigNum (s a) k (n.toNat - k) + r.2.toNat * 256 ^ (n.toNat - k))
    (s := (s, 0)) ⟨.start s a _, by simp [bigNum]⟩ fun k hk r h => subByte_difference hN hk h
  unfold bn_sub_modulus
  rw [downLoop_pred]
  exact ⟨hw.same_of_done, _, hw.carry, hsum⟩

theorem bn_sub_modulus_of_le {a N : ι} (hN : N ≠ a) (h : s.num N n ≤ s.num a n) :
    (bn_sub_modulus s a N n).num a n = s.num a n - s.num N n := by
  obtain ⟨-, borrow, hborrow, hsum⟩ := bn_sub_modulus_spec hN s n
  have hlt := num_lt (bn_sub_modulus s a N n) a n
  obtain rfl | rfl : borrow = 0 ∨ borrow = 1 := by omega
  · omega
  · omega

theorem bn_sub_modulus_of_lt {a N : ι} (hN : N ≠ a) (h : s.num a n < s.num N n) :
    (bn_sub_modulus s a N n).num a n = s.num a n + 256 ^ n.toNat - s.num N n := by
  obtain ⟨-, borrow, hborrow, hsum⟩ := bn_sub_modulus_spec hN s n
  obtain rfl | rfl : borrow = 0 ∨ borrow = 1 := by omega
  · omega
  · omega

omit [DecidableEq ι] in
theorem compareBytes_neg {a b : ι} {first count : Nat} :
    compareBytes s a b (List.range' first count) < 0 ↔
      bigNum (s a) first count < bigNum (s b) first count := by
  induction count generalizing first with
  | zero => simp [compareBytes, bigNum]
  | succ count ih =>
    rw [List.range'_succ, compareBytes]
    split
    · next h => simp [bigNum_lt_of_byte_lt (BitVec.lt_def.mp h)]
    split
    · next h =>
      have : bigNum (s b) first (count + 1) < bigNum (s a) first (count + 1) :=
        bigNum_lt_of_byte_lt (BitVec.lt_def.mp h)
      simp
      omega
    · next hlt hgt =>
      have heq : s a first = s b first := by bv_omega
      rw [ih, bigNum, bigNum, heq]
      omega

omit [DecidableEq ι] in
theorem bn_compare_nonneg {a b : ι} : bn_compare s a b n ≥ 0 ↔ s.num b n ≤ s.num a n := by
  have : compareBytes s a b (List.range' 0 n.toNat) < 0 ↔
      bigNum (s a) 0 n.toNat < bigNum (s b) 0 n.toNat := compareBytes_neg
  rw [← List.range_eq_range'] at this
  unfold bn_compare Buffers.num
  omega

/-- **bn_add** adds modulo `N`, whatever `d` is. -/
theorem bn_add_spec {d a b N : ι} (hN : N ≠ d) (ha : s.num a n < s.num N n)
    (hb : s.num b n < s.num N n) :
    s.Same (bn_add s d a b N n) d n ∧
      (bn_add s d a b N n).num d n = (s.num a n + s.num b n) % s.num N n := by
  obtain ⟨hsame, hcarry, hsum⟩ := add_loop s d a b n
  unfold bn_add
  generalize downLoop n (addByte d a b) (n - 1) (s, 0) = r at hsame hcarry hsum
  obtain ⟨r, c⟩ := r
  dsimp only at hsame hcarry hsum ⊢
  have hNr : r.num N n = s.num N n := hsame.num hN n
  have hNlt := num_lt s N n
  have hsub := bn_sub_modulus_spec hN r n
  rcases eq_or_ne c 0 with rfl | hc
  · -- no carry: the sum fits, and loses the modulus where it is not less
    have hsum : r.num d n = s.num a n + s.num b n := by
      have hzero : (0 : BitVec 8).toNat = 0 := rfl
      rw [hzero] at hsum
      omega
    rw [if_neg (show ¬(0 : BitVec 8) ≠ 0 by simp)]
    split
    · next h =>
      rw [bn_compare_nonneg] at h
      refine ⟨hsame.trans hsub.1, ?_⟩
      rw [bn_sub_modulus_of_le hN h, hNr, hsum, Nat.mod_eq_sub_mod (by omega),
        Nat.mod_eq_of_lt (by omega)]
    · next h =>
      rw [bn_compare_nonneg] at h
      exact ⟨hsame, by rw [hsum, Nat.mod_eq_of_lt (by omega)]⟩
  · -- with a carry what is left is less than the modulus, and the difference borrows
    have hone : c.toNat = 1 := by
      have : c.toNat ≠ 0 := fun h => hc (BitVec.eq_of_toNat_eq h)
      omega
    rw [hone, Nat.one_mul] at hsum
    have hdiff := bn_sub_modulus_of_lt hN (s := r) (n := n) (a := d) (N := N) (by omega)
    have hNd : (bn_sub_modulus r d N n).num N n = s.num N n := (hsub.1.num hN n).trans hNr
    rw [if_pos hc, if_neg]
    · refine ⟨hsame.trans hsub.1, ?_⟩
      rw [hdiff, hNr, Nat.mod_eq_sub_mod (by omega), Nat.mod_eq_of_lt (by omega)]
      omega
    · rw [bn_compare_nonneg, hNd]
      omega

/-! ## zero, copies and single bytes -/

theorem bn_zero_same (s : Buffers ι) (d : ι) (n : BitVec 32) : s.Same (bn_zero s d n) d n := by
  intro x j hx
  unfold bn_zero
  rcases eq_or_ne x d with rfl | hne
  · have hj : n.toNat ≤ j := hx.resolve_left fun h => h rfl
    simp [hj]
  · simp [hne]

variable {i : Nat}

theorem bn_zero_apply (hi : i < n.toNat) : bn_zero s d n d i = 0 := by
  simp [bn_zero, hi]

theorem num_bn_zero (s : Buffers ι) (d : ι) (n : BitVec 32) : (bn_zero s d n).num d n = 0 :=
  bigNum_zero fun i _ hi => bn_zero_apply (by omega)

theorem bn_copy_same (s : Buffers ι) (d a : ι) (n : BitVec 32) : s.Same (bn_copy s d a n) d n := by
  intro x j hx
  unfold bn_copy
  rcases eq_or_ne x d with rfl | hne
  · have hj : n.toNat ≤ j := hx.resolve_left fun h => h rfl
    simp [hj]
  · simp [hne]

theorem num_bn_copy (s : Buffers ι) (d a : ι) (n : BitVec 32) :
    (bn_copy s d a n).num d n = s.num a n := by
  refine bigNum_congr fun i _ hi => ?_
  have hi : i < n.toNat := by omega
  simp [bn_copy, hi]

theorem set_same (hi : i < n.toNat) (s : Buffers ι) (v : BitVec 8) : s.Same (s.set d i v) d n := by
  intro x j hx
  rw [set_apply, if_neg]
  rintro ⟨rfl, rfl⟩
  rcases hx with hx | hx
  · exact hx rfl
  · omega

theorem num_zero_set (hn : 0 < n.toNat) (s : Buffers ι) (d : ι) (v : BitVec 8) :
    ((bn_zero s d n).set d (n.toNat - 1) v).num d n = v.toNat := by
  obtain ⟨m, hm⟩ : ∃ m, n.toNat = m + 1 := ⟨n.toNat - 1, by omega⟩
  have hhigh : bigNum ((bn_zero s d n).set d (n.toNat - 1) v d) 0 m = 0 :=
    bigNum_zero fun i _ hi => by
      rw [set_apply, if_neg (by omega), bn_zero_apply (by omega)]
  have hlow : (bn_zero s d n).set d (n.toNat - 1) v d m = v := by
    rw [set_apply, if_pos ⟨rfl, by omega⟩]
  unfold Buffers.num
  rw [hm, bigNum_succ_right, Nat.zero_add, ← hm, hhigh, hlow, Nat.zero_mul, Nat.zero_add]

/-! ## products -/

theorem mulBit_spec {d a b N : ι} (hN : N ≠ d) (ha : a ≠ d) (hb : b ≠ d)
    (hlt : s.num b n < s.num N n) {mask : BitVec 8} {acc : Nat} {s' : Buffers ι}
    (h : s.Same s' d n ∧ s'.num d n = acc * s.num b n % s.num N n) :
    let bit := if s a i &&& mask ≠ 0 then 1 else 0
    s.Same (mulBit d a b N n i mask s') d n ∧
      (mulBit d a b N n i mask s').num d n = (2 * acc + bit) * s.num b n % s.num N n := by
  obtain ⟨hsame, hnum⟩ := h
  have hNs : s'.num N n = s.num N n := hsame.num hN n
  have hd : s'.num d n < s'.num N n := by
    rw [hnum, hNs]
    exact Nat.mod_lt _ (by omega)
  have hdouble := bn_add_spec hN hd hd
  rw [hnum, hNs, ← Nat.add_mod, ← Nat.add_mul, ← Nat.two_mul] at hdouble
  have hsame' := hsame.trans hdouble.1
  unfold mulBit
  generalize bn_add s' d d d N n = s'' at hdouble hsame'
  dsimp only
  rw [hsame'.apply ha]
  split
  · have hNs'' : s''.num N n = s.num N n := hsame'.num hN n
    have hbs'' : s''.num b n = s.num b n := hsame'.num hb n
    have hd'' : s''.num d n < s''.num N n := by
      rw [hdouble.2, hNs'']
      exact Nat.mod_lt _ (by omega)
    have hadd := bn_add_spec hN hd'' (by rwa [hbs'', hNs''])
    refine ⟨hsame'.trans hadd.1, ?_⟩
    rw [hadd.2, hdouble.2, hNs'', hbs'', Nat.mod_add_mod, ← Nat.succ_mul]
  · exact ⟨hsame', hdouble.2⟩

/-- **bn_mul** multiplies modulo `N`, into a buffer of its own. -/
theorem bn_mul_spec {d a b N : ι} (hN : N ≠ d) (ha : a ≠ d) (hb : b ≠ d)
    (hlt : s.num b n < s.num N n) :
    s.Same (bn_mul s d a b N n) d n ∧
      (bn_mul s d a b N n).num d n = s.num a n * s.num b n % s.num N n := by
  refine bytes_fold (f := s a)
    (R := fun acc s' => s.Same s' d n ∧ s'.num d n = acc * s.num b n % s.num N n)
    (g := mulBit d a b N n) (fun i mask acc s' h => mulBit_spec hN ha hb hlt h) ?_ n.toNat
  exact ⟨bn_zero_same s d n, by rw [num_bn_zero, Nat.zero_mul, Nat.zero_mod]⟩

/-! ## powers -/

/-- Only the number in `d` and the buffer `t` may have changed. -/
def SameBut (s s' : Buffers ι) (t d : ι) (n : BitVec 32) : Prop :=
  ∀ x j, x ≠ t → x ≠ d ∨ n.toNat ≤ j → s' x j = s x j

omit [DecidableEq ι] in
theorem SameBut.apply {s s' : Buffers ι} {t d x : ι} (h : SameBut s s' t d n) (ht : x ≠ t)
    (hd : x ≠ d) : s' x = s x := funext fun j => h x j ht (.inl hd)

omit [DecidableEq ι] in
theorem SameBut.num {s s' : Buffers ι} {t d x : ι} (h : SameBut s s' t d n) (ht : x ≠ t)
    (hd : x ≠ d) (m : BitVec 32) : s'.num x m = s.num x m := by
  unfold Buffers.num
  rw [h.apply ht hd]

omit [DecidableEq ι] in
theorem SameBut.trans_buffer {s s' s'' : Buffers ι} {t d : ι} (h : SameBut s s' t d n)
    (h' : s'.Same s'' t n) : SameBut s s'' t d n :=
  fun x j ht hd => (h' x j (.inl ht)).trans (h x j ht hd)

omit [DecidableEq ι] in
theorem SameBut.trans_result {s s' s'' : Buffers ι} {t d : ι} (h : SameBut s s' t d n)
    (h' : s'.Same s'' d n) : SameBut s s'' t d n :=
  fun x j ht hd => (h' x j hd).trans (h x j ht hd)

theorem expBit_spec {t d a N e : ι} (htd : d ≠ t) (hta : a ≠ t) (htN : N ≠ t) (hte : e ≠ t)
    (hda : a ≠ d) (hdN : N ≠ d) (hde : e ≠ d) (hlt : s.num a n < s.num N n) {mask : BitVec 8}
    {acc : Nat} {s' : Buffers ι}
    (h : SameBut s s' t d n ∧ s'.num d n = s.num a n ^ acc % s.num N n) :
    let bit := if s e i &&& mask ≠ 0 then 1 else 0
    SameBut s (expBit t d a N e n i mask s') t d n ∧
      (expBit t d a N e n i mask s').num d n = s.num a n ^ (2 * acc + bit) % s.num N n := by
  obtain ⟨hsame, hnum⟩ := h
  have hNs : s'.num N n = s.num N n := hsame.num htN hdN n
  have hd : s'.num d n < s'.num N n := by
    rw [hnum, hNs]
    exact Nat.mod_lt _ (by omega)
  have hsquare := bn_mul_spec htN htd htd hd
  rw [hnum, hNs, ← Nat.mul_mod, ← Nat.pow_add, ← Nat.two_mul] at hsquare
  have hsame' := hsame.trans_buffer hsquare.1
  unfold expBit
  generalize bn_mul s' t d d N n = s'' at hsquare hsame'
  dsimp only
  rw [hsame'.apply hte hde]
  split
  · have hNs'' : s''.num N n = s.num N n := hsame'.num htN hdN n
    have has'' : s''.num a n = s.num a n := hsame'.num hta hda n
    have hmul := bn_mul_spec hdN htd.symm hda (s := s'') (n := n) (by rwa [has'', hNs''])
    refine ⟨hsame'.trans_result hmul.1, ?_⟩
    rw [hmul.2, hsquare.2, hNs'', has'', Nat.mod_mul_mod, ← Nat.pow_succ]
  · refine ⟨hsame'.trans_result (bn_copy_same s'' d t n), ?_⟩
    rw [num_bn_copy, hsquare.2]
    rfl

/-- **bn_exp** raises to a power modulo `N`. -/
theorem bn_exp_spec (junk : Nat → BitVec 8) {d a N e : ι} (hn : 0 < n.toNat) (hda : a ≠ d)
    (hdN : N ≠ d) (hde : e ≠ d) (hlt : s.num a n < s.num N n) (hone : 1 < s.num N n)
    (en : BitVec 32) :
    s.Same (bn_exp junk s d a N n e en) d n ∧
      (bn_exp junk s d a N n e en).num d n = s.num a n ^ s.num e en % s.num N n := by
  let s₀ : Buffers (Option ι) := fun x => x.elim junk s
  have hstart : s₀.Same ((bn_zero s₀ (some d) n).set (some d) (n.toNat - 1) 1) (some d) n :=
    (bn_zero_same s₀ (some d) n).trans (set_same (by omega) _ _)
  obtain ⟨hsame, hnum⟩ := bytes_fold (f := s₀ (some e))
    (R := fun acc s' => SameBut s₀ s' none (some d) n ∧
      s'.num (some d) n = s₀.num (some a) n ^ acc % s₀.num (some N) n)
    (g := expBit none (some d) (some a) (some N) (some e) n)
    (fun i mask acc s' h => expBit_spec (s := s₀) (t := none) (d := some d) (a := some a)
      (N := some N) (e := some e) (by simp) (by simp) (by simp) (by simp) (by simpa)
      (by simpa) (by simpa) hlt h)
    (s := (bn_zero s₀ (some d) n).set (some d) (n.toNat - 1) 1)
    ⟨fun x j _ hx => hstart x j hx, by
      rw [num_zero_set hn, Nat.pow_zero]
      exact (Nat.mod_eq_of_lt hone).symm⟩ en.toNat
  exact ⟨fun x j hx => hsame (some x) j (by simp) (by simpa using hx), hnum⟩

/-- **bn_inv** raises to the power of the modulus without two. -/
theorem bn_inv_spec (junk : Nat → BitVec 8) {d a N : ι} (hn : 0 < n.toNat) (hda : a ≠ d)
    (hdN : N ≠ d) (hlt : s.num a n < s.num N n) (htwo : 2 < s.num N n) :
    s.Same (bn_inv junk s d a N n) d n ∧
      (bn_inv junk s d a N n).num d n = s.num a n ^ (s.num N n - 2) % s.num N n := by
  let s₀ : Buffers (Option (Option ι)) := fun x => x.elim junk fun x => x.elim junk s
  let t : Option (Option ι) := some none
  let s₁ := bn_copy s₀ t (some (some N)) n
  let s₂ := (bn_zero s₁ none n).set none (n.toNat - 1) 2
  let s₃ := bn_sub_modulus s₂ t none n
  have hne : none ≠ t := by simp [t]
  have h₁ : s₀.Same s₁ t n := bn_copy_same s₀ t _ n
  have h₂ : s₁.Same s₂ none n := (bn_zero_same s₁ none n).trans (set_same (by omega) _ _)
  have h₃ : s₂.Same s₃ t n := (bn_sub_modulus_spec hne s₂ n).1
  -- the two buffers hold the modulus and 2
  have ht : s₂.num t n = s.num N n := (h₂.num hne.symm n).trans (num_bn_copy s₀ t _ n)
  have hs : s₂.num none n = 2 := num_zero_set hn s₁ none 2
  have hexp : s₃.num t n = s.num N n - 2 := by
    rw [bn_sub_modulus_of_le hne (by omega), ht, hs]
  have harg (x : ι) : s₃ (some (some x)) = s x :=
    ((h₃.apply (by simp [t])).trans (h₂.apply (by simp))).trans (h₁.apply (by simp [t]))
  have hnumarg (x : ι) : s₃.num (some (some x)) n = s.num x n := by
    unfold Buffers.num
    rw [harg]
  obtain ⟨hsame, hnum⟩ := bn_exp_spec junk (s := s₃) (n := n) (d := some (some d))
    (a := some (some a)) (N := some (some N)) (e := t) hn (by simpa) (by simpa) (by simp [t])
    (by rwa [hnumarg, hnumarg]) (by rw [hnumarg]; omega) n
  rw [hnumarg, hnumarg, hexp] at hnum
  exact ⟨fun x j hx => (hsame (some (some x)) j (by simpa using hx)).trans
    (congrFun (harg x) j), hnum⟩

/-- **The arithmetic modulo `N`**: `bn_add` gives the sum also where `d` is an operand, `bn_mul`
the product and `bn_exp` the power in a buffer apart from the operands, and with prime `N` the
number from `bn_inv` is inverse. -/
theorem bn_arithmetic (junk : Nat → BitVec 8) (s : Buffers ι) (n : BitVec 32) (a b N : ι)
    (hn : 1 ≤ n.toNat ∧ n.toNat ≤ 512) (ha : s.num a n < s.num N n)
    (hb : s.num b n < s.num N n) :
    (∀ d, d ≠ N → s.Same (bn_add s d a b N n) d n ∧
      (bn_add s d a b N n).num d n = (s.num a n + s.num b n) % s.num N n) ∧
    (∀ d, d ≠ a → d ≠ b → d ≠ N → s.Same (bn_mul s d a b N n) d n ∧
      (bn_mul s d a b N n).num d n = s.num a n * s.num b n % s.num N n) ∧
    (∀ d e (en : BitVec 32), d ≠ a → d ≠ N → d ≠ e → 1 < s.num N n →
      s.Same (bn_exp junk s d a N n e en) d n ∧
        (bn_exp junk s d a N n e en).num d n = s.num a n ^ s.num e en % s.num N n) ∧
    (∀ d r, d ≠ a → d ≠ N → r ≠ d → r ≠ a → r ≠ N →
      (s.num N n).Prime → 2 < s.num N n → s.num a n ≠ 0 →
        (bn_mul (bn_inv junk s d a N n) r d a N n).num r n = 1) := by
  refine ⟨fun d hN => bn_add_spec hN.symm ha hb, fun d hda hdb hdN => bn_mul_spec hdN.symm
    hda.symm hdb.symm hb, fun d e en hda hdN hde hone => bn_exp_spec junk hn.1 hda.symm hdN.symm
    hde.symm ha hone en, fun d r hda hdN hrd hra hrN hprime htwo hne => ?_⟩
  obtain ⟨hsame, hinv⟩ := bn_inv_spec junk (s := s) (n := n) hn.1 hda.symm hdN.symm ha htwo
  have hNs := hsame.num hdN.symm n
  have has := hsame.num hda.symm n
  have hmul := bn_mul_spec (s := bn_inv junk s d a N n) (n := n) (d := r) (a := d) (b := a)
    hrN.symm hrd.symm hra.symm (by rwa [hNs, has])
  rw [hmul.2, hinv, hNs, has, Nat.mod_mul_mod, ← Nat.pow_succ,
    show (s.num N n - 2).succ = s.num N n - 1 by omega]
  -- Fermat
  have : Fact (s.num N n).Prime := ⟨hprime⟩
  have hunit : ((s.num a n : Nat) : ZMod (s.num N n)) ≠ 0 := by
    rw [Ne, ZMod.natCast_eq_zero_iff]
    exact Nat.not_dvd_of_pos_of_lt (Nat.pos_of_ne_zero hne) ha
  have hfermat : ((s.num a n ^ (s.num N n - 1) : Nat) : ZMod (s.num N n)) = (1 : Nat) := by
    rw [Nat.cast_pow, Nat.cast_one]
    exact ZMod.pow_card_sub_one_eq_one hunit
  rw [(ZMod.natCast_eq_natCast_iff' _ _ _).mp hfermat, Nat.mod_eq_of_lt (by omega)]

/-- Modulo 7: 5 + 4 is 2 in place of 5, 5 · 4 is 6, 5 to the power 4 is 2, and 5 has an
inverse. -/
theorem bn_arithmetic_seven :
    let s : Buffers (Fin 6) := fun x _ => ([5, 4, 7, 0, 0, 0] : List (BitVec 8)).getD x.val 0
    let junk : Nat → BitVec 8 := fun _ => 0
    (bn_add s 0 0 1 2 1).num 0 1 = 2 ∧ (bn_mul s 3 0 1 2 1).num 3 1 = 6 ∧
      (bn_exp junk s 3 0 2 1 1 1).num 3 1 = 2 ∧
      (bn_mul (bn_inv junk s 3 0 2 1) 4 3 0 2 1).num 4 1 = 1 := by
  intro s junk
  obtain ⟨hadd, hmul, hexp, hinv⟩ :=
    bn_arithmetic junk s 1 0 1 2 (by decide) (by decide) (by decide)
  exact ⟨(hadd 0 (by decide)).2.trans (by decide),
    (hmul 3 (by decide) (by decide) (by decide)).2.trans (by decide),
    (hexp 3 1 1 (by decide) (by decide) (by decide) (by decide)).2.trans (by decide),
    hinv 3 4 (by decide) (by decide) (by decide) (by decide) (by decide) (by decide) (by decide)
      (by decide)⟩

end DolphinCore.Crypto
