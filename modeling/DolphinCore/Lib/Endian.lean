import DolphinCore.Lib.StdString

/-!
# DolphinCore.Lib.Endian

Numbers as strings of bytes, the low byte first (`toLE`) or the high byte first (`toBE`), and
tables of such numbers.
-/

namespace DolphinCore.Endian

/-- The `k` low bytes of a number, the lowest first. -/
def toLE : Nat → Nat → List Byte
  | 0, _ => []
  | k + 1, n => BitVec.ofNat 8 n :: toLE k (n / 256)

/-- The number of a string of bytes, the lowest first. -/
def fromLE : List Byte → Nat
  | [] => 0
  | b :: bs => b.toNat + 256 * fromLE bs

@[simp] theorem length_toLE : (k n : Nat) → (toLE k n).length = k
  | 0, _ => rfl
  | k + 1, n => by rw [toLE, List.length_cons, length_toLE k]

theorem fromLE_toLE : (k n : Nat) → fromLE (toLE k n) = n % 256 ^ k
  | 0, n => by rw [toLE, fromLE, Nat.pow_zero, Nat.mod_one]
  | k + 1, n => by
    have hb : (BitVec.ofNat 8 n).toNat = n % 256 := BitVec.toNat_ofNat n 8
    rw [toLE, fromLE, fromLE_toLE k, hb, Nat.pow_succ']
    exact Nat.mod_mul.symm

theorem fromLE_toLE_of_lt {k n : Nat} (h : n < 256 ^ k) : fromLE (toLE k n) = n := by
  rw [fromLE_toLE, Nat.mod_eq_of_lt h]

theorem fromLE_lt : (bs : List Byte) → fromLE bs < 256 ^ bs.length
  | [] => Nat.one_pos
  | b :: bs => by
    have ih := fromLE_lt bs
    rw [fromLE, List.length_cons, Nat.pow_succ']
    omega

/-- The `k` low bytes of a number, the lowest last. -/
def toBE (k n : Nat) : List Byte := (toLE k n).reverse

/-- The number of a string of bytes, the lowest last. -/
def fromBE (bs : List Byte) : Nat := fromLE bs.reverse

@[simp] theorem length_toBE (k n : Nat) : (toBE k n).length = k := by
  rw [toBE, List.length_reverse, length_toLE]

theorem fromBE_toBE_of_lt {k n : Nat} (h : n < 256 ^ k) : fromBE (toBE k n) = n := by
  rw [fromBE, toBE, List.reverse_reverse, fromLE_toLE_of_lt h]

theorem fromBE_lt (bs : List Byte) : fromBE bs < 256 ^ bs.length := by
  rw [fromBE, ← List.length_reverse]
  exact fromLE_lt _

/-! ## strings of fields and tables -/

theorem take_drop_append {α : Type u} {p m s : List α} {i n : Nat} (hi : p.length = i)
    (hn : m.length = n) : ((p ++ (m ++ s)).drop i).take n = m := by
  rw [← hi, ← hn, List.drop_left, List.take_left]

theorem length_flatMap_of_length {α β : Type} {f : α → List β} {k : Nat}
    (h : ∀ a, (f a).length = k) : (l : List α) → (l.flatMap f).length = k * l.length
  | [] => rfl
  | a :: l => by
    rw [List.flatMap_cons, List.length_append, h, length_flatMap_of_length h l, List.length_cons,
      Nat.mul_succ, Nat.add_comm]

theorem take_drop_flatMap {α β : Type} {f : α → List β} {k : Nat} (h : ∀ a, (f a).length = k) :
    (l : List α) → (i : Nat) → (hi : i < l.length) → (s : List β) →
    ((l.flatMap f ++ s).drop (k * i)).take k = f l[i]
  | [], i, hi, _ => absurd hi (Nat.not_lt_zero i)
  | a :: l, 0, _, s => by
    rw [List.flatMap_cons, List.append_assoc, Nat.mul_zero, List.drop_zero, ← h a, List.take_left]
    rfl
  | a :: l, i + 1, hi, s => by
    rw [List.flatMap_cons, List.append_assoc, Nat.mul_succ, Nat.add_comm, ← List.drop_drop,
      List.drop_append_of_le_length (Nat.le_of_eq (h a).symm), ← h a, List.drop_length, List.nil_append, h a,
      take_drop_flatMap h l i (Nat.lt_of_succ_lt_succ hi) s]
    rfl

end DolphinCore.Endian
