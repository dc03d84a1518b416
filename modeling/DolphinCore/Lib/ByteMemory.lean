import Mathlib.Data.BitVec

/-!
# DolphinCore.Lib.ByteMemory

A byte-addressed memory with wrapping addresses, the byte strings read from it and
written to it, and the big-endian numbers they stand for.
-/

namespace DolphinCore

/-- A memory of `2 ^ w` bytes. -/
abbrev Mem (w : Nat) := BitVec w → BitVec 8

namespace Mem

variable {w : Nat}

/-! ## reading and writing byte strings -/

/-- The `n` bytes from `a` on. -/
def read (m : Mem w) (a : BitVec w) : Nat → List (BitVec 8)
  | 0 => []
  | n + 1 => m a :: read m (a + 1) n

/-- The memory with the bytes written from `a` on. -/
def write (m : Mem w) (a : BitVec w) : List (BitVec 8) → Mem w
  | [] => m
  | b :: bs => fun x => if x = a then b else write m (a + 1) bs x

@[simp] theorem length_read (m : Mem w) : (a : BitVec w) → (n : Nat) → (m.read a n).length = n
  | _, 0 => rfl
  | a, n + 1 => by rw [read, List.length_cons, length_read m (a + 1) n]

theorem add_one_add_ofNat (a : BitVec w) (i : Nat) :
    a + 1 + BitVec.ofNat w i = a + BitVec.ofNat w (i + 1) := by
  rw [BitVec.ofNat_add, BitVec.add_comm (BitVec.ofNat w i), ← BitVec.add_assoc]
  rfl

theorem getElem_read (m : Mem w) : (a : BitVec w) → (n i : Nat) → (h : i < (m.read a n).length) →
    (m.read a n)[i] = m (a + BitVec.ofNat w i)
  | a, n + 1, 0, _ => by simp [read]
  | a, n + 1, i + 1, h => by
    have hi : i < (m.read (a + 1) n).length := by simpa [read] using h
    simp only [read, List.getElem_cons_succ]
    rw [getElem_read m (a + 1) n i hi, add_one_add_ofNat]

theorem write_of_ne (m : Mem w) {x : BitVec w} : (a : BitVec w) → (bs : List (BitVec 8)) →
    (∀ i < bs.length, x ≠ a + BitVec.ofNat w i) → m.write a bs x = m x
  | _, [], _ => rfl
  | a, b :: bs, h => by
    have h0 : x ≠ a := by simpa using h 0 (by simp)
    simp only [write]
    rw [if_neg h0]
    refine write_of_ne m (a + 1) bs fun i hi => ?_
    rw [add_one_add_ofNat]
    exact h (i + 1) (by simpa using hi)

theorem write_of_lt (m : Mem w) : (a : BitVec w) → (bs : List (BitVec 8)) → bs.length ≤ 2 ^ w →
    (i : Nat) → (h : i < bs.length) → m.write a bs (a + BitVec.ofNat w i) = bs[i]
  | a, b :: bs, _, 0, _ => by simp [write]
  | a, b :: bs, hlen, i + 1, h => by
    have hi : i < bs.length := by simpa using h
    rw [List.length_cons] at hlen
    have hne : a + BitVec.ofNat w (i + 1) ≠ a := by
      intro heq
      have h0 : BitVec.ofNat w (i + 1) = 0 := by simpa using heq
      have h0' := congrArg BitVec.toNat h0
      rw [BitVec.toNat_ofNat, Nat.mod_eq_of_lt (by omega)] at h0'
      simp at h0'
    simp only [write]
    rw [if_neg hne, ← add_one_add_ofNat, write_of_lt m (a + 1) bs (by omega) i hi,
      List.getElem_cons_succ]

theorem read_write (m : Mem w) (a : BitVec w) (bs : List (BitVec 8)) (h : bs.length ≤ 2 ^ w) :
    (m.write a bs).read a bs.length = bs := by
  apply List.ext_getElem
  · simp
  · intro i hi hi'
    rw [getElem_read, write_of_lt m a bs h i hi']

theorem read_congr {m m' : Mem w} {a : BitVec w} {n : Nat}
    (h : ∀ i < n, m' (a + BitVec.ofNat w i) = m (a + BitVec.ofNat w i)) :
    m'.read a n = m.read a n := by
  apply List.ext_getElem
  · simp
  · intro i hi hi'
    rw [getElem_read, getElem_read, h i (by simpa using hi)]

/-! ## strings at numbers -/

/-- The bytes from the address `a` on are those of the string. -/
def Holds (m : Mem w) (a : Nat) (bs : List (BitVec 8)) : Prop :=
  ∀ (i : Nat) (h : i < bs.length), m (BitVec.ofNat w (a + i)) = bs[i]

theorem write_of_outside (m : Mem w) {a x : Nat} {bs : List (BitVec 8)} (hx : x < 2 ^ w)
    (ha : a + bs.length ≤ 2 ^ w) (h : x < a ∨ a + bs.length ≤ x) :
    m.write (BitVec.ofNat w a) bs (BitVec.ofNat w x) = m (BitVec.ofNat w x) := by
  refine write_of_ne m _ bs fun i hi heq => ?_
  have hnat := congrArg BitVec.toNat heq
  rw [← BitVec.ofNat_add, BitVec.toNat_ofNat, BitVec.toNat_ofNat, Nat.mod_eq_of_lt hx,
    Nat.mod_eq_of_lt (by omega)] at hnat
  omega

namespace Holds

variable {m : Mem w} {a : Nat} {bs : List (BitVec 8)}

theorem write (m : Mem w) (h : a + bs.length ≤ 2 ^ w) :
    Holds (m.write (BitVec.ofNat w a) bs) a bs := by
  intro i hi
  rw [BitVec.ofNat_add]
  exact write_of_lt m _ bs (by omega) i hi

theorem write_agree (hm : Holds m a bs) {x : Nat} {cs : List (BitVec 8)}
    (ha : a + bs.length ≤ 2 ^ w) (hx : x + cs.length ≤ 2 ^ w)
    (h : ∀ i j (hi : i < bs.length) (hj : j < cs.length), a + i = x + j → bs[i] = cs[j]) :
    Holds (m.write (BitVec.ofNat w x) cs) a bs := by
  intro i hi
  by_cases hin : x ≤ a + i ∧ a + i < x + cs.length
  · obtain ⟨j, hj⟩ := Nat.exists_eq_add_of_le hin.1
    rw [hj, Holds.write m hx j (by omega), h i j hi (by omega) hj]
  · rw [write_of_outside m (by omega) hx (by omega)]
    exact hm i hi

theorem write_outside (hm : Holds m a bs) {x : Nat} {cs : List (BitVec 8)}
    (ha : a + bs.length ≤ 2 ^ w) (hx : x + cs.length ≤ 2 ^ w)
    (h : x + cs.length ≤ a ∨ a + bs.length ≤ x) :
    Holds (m.write (BitVec.ofNat w x) cs) a bs :=
  hm.write_agree ha hx fun i j hi hj heq => absurd heq (by omega)

theorem append (hm : Holds m a bs) (cs : List (BitVec 8))
    (h : a + (bs ++ cs).length ≤ 2 ^ w) :
    Holds (m.write (BitVec.ofNat w (a + bs.length)) cs) a (bs ++ cs) := by
  rw [List.length_append] at h
  intro i hi
  rw [List.length_append] at hi
  by_cases hlt : i < bs.length
  · rw [List.getElem_append_left hlt]
    exact hm.write_outside (by omega) (by omega) (.inr (Nat.le_refl _)) i hlt
  · obtain ⟨j, rfl⟩ := Nat.exists_eq_add_of_le (Nat.le_of_not_lt hlt)
    rw [List.getElem_append_right (by omega), ← Nat.add_assoc]
    simp only [Nat.add_sub_cancel_left]
    exact Holds.write m (by omega) j (by omega)

end Holds

/-! ## big-endian numbers -/

/-- The `n` low bytes of a number, the most significant one first. -/
def toBytes : Nat → Nat → List (BitVec 8)
  | 0, _ => []
  | n + 1, v => toBytes n (v / 256) ++ [BitVec.ofNat 8 v]

/-- The number a byte string stands for. -/
def ofBytes (bs : List (BitVec 8)) : Nat := bs.foldl (fun v b => v * 256 + b.toNat) 0

@[simp] theorem length_toBytes : (n v : Nat) → (toBytes n v).length = n
  | 0, _ => rfl
  | n + 1, v => by rw [toBytes, List.length_append, length_toBytes n]; rfl

@[simp] theorem ofBytes_append_singleton (bs : List (BitVec 8)) (b : BitVec 8) :
    ofBytes (bs ++ [b]) = ofBytes bs * 256 + b.toNat := by
  simp [ofBytes]

theorem ofBytes_toBytes : (n v : Nat) → ofBytes (toBytes n v) = v % 256 ^ n
  | 0, v => by rw [Nat.pow_zero, Nat.mod_one]; rfl
  | n + 1, v => by
    have hmod : v % 256 ^ (n + 1) = v % 256 + 256 * (v / 256 % 256 ^ n) := by
      rw [Nat.pow_succ', Nat.mod_mul]
    rw [toBytes, ofBytes_append_singleton, ofBytes_toBytes n, BitVec.toNat_ofNat, hmod]
    omega

theorem getElem_toBytes : (n v i : Nat) → (h : i < (toBytes n v).length) →
    (toBytes n v)[i] = BitVec.ofNat 8 (v / 256 ^ (n - 1 - i))
  | n + 1, v, i, h => by
    rw [length_toBytes] at h
    simp only [toBytes, List.getElem_append, length_toBytes]
    split
    · next hi =>
        rw [getElem_toBytes n, Nat.div_div_eq_div_mul, ← Nat.pow_succ']
        congr 3
        omega
    · next hi =>
        have hn : i = n := by omega
        subst hn
        simp

theorem ofBytes_lt (bs : List (BitVec 8)) : ofBytes bs < 256 ^ bs.length := by
  induction bs using List.reverseRecOn with
  | nil => exact Nat.one_pos
  | append_singleton bs b ih =>
    rw [ofBytes_append_singleton, List.length_append, List.length_singleton, Nat.pow_succ]
    omega

theorem ofBytes_reverse_div : (bs : List (BitVec 8)) → (i : Nat) → (h : i < bs.length) →
    ofBytes bs.reverse / 256 ^ i % 256 = bs[i].toNat
  | b :: bs, 0, _ => by
    rw [List.reverse_cons, ofBytes_append_singleton, List.getElem_cons_zero]
    omega
  | b :: bs, i + 1, h => by
    have hdiv : (ofBytes bs.reverse * 256 + b.toNat) / 256 = ofBytes bs.reverse := by omega
    rw [List.reverse_cons, ofBytes_append_singleton, List.getElem_cons_succ, Nat.pow_succ',
      ← Nat.div_div_eq_div_mul, hdiv]
    exact ofBytes_reverse_div bs i (by simpa using h)

end Mem

end DolphinCore
