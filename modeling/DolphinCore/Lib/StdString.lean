import Mathlib.Data.BitVec
import Mathlib.Data.List.Infix

/-!
# DolphinCore.Lib.StdString

Searching and replacing in strings as `std::string` does it, with positions.
-/

namespace DolphinCore

abbrev Byte := BitVec 8

instance byteListLawful : LawfulBEq (List Byte) := inferInstance

namespace StdString

variable {α : Type u}

def substr (s : List α) (pos n : Nat) : List α := (s.drop pos).take n

def replace (s : List α) (pos n : Nat) (t : List α) : List α :=
  s.take pos ++ t ++ s.drop (pos + n)

theorem replace_append (p m s t : List α) :
    replace (p ++ (m ++ s)) p.length m.length t = p ++ (t ++ s) := by
  rw [replace, List.take_left, ← List.append_assoc p, ← List.length_append, List.drop_left,
    List.append_assoc]

theorem substr_append (p m s : List α) : substr (p ++ (m ++ s)) p.length m.length = m := by
  rw [substr, List.drop_left, List.take_left]

variable [DecidableEq α]

/-- The position of the first occurrence of a pattern, counted from `i`. -/
def search (pat : List α) : List α → Nat → Option Nat
  | [], i => if pat <+: [] then some i else none
  | c :: cs, i => if pat <+: c :: cs then some i else search pat cs (i + 1)

/-- `find` from a position on. -/
def find (s pat : List α) (pos : Nat) : Option Nat :=
  if pos ≤ s.length then search pat (s.drop pos) pos else none

theorem find_append (p s pat : List α) : find (p ++ s) pat p.length = search pat s p.length := by
  rw [find, if_pos (by simp), List.drop_left]

theorem search_of_isPrefix {pat : List α} (i : Nat) : {s : List α} → pat <+: s → search pat s i = some i
  | [], h => if_pos h
  | _ :: _, h => if_pos h

theorem search_cons_of_not_isPrefix {pat : List α} {c : α} {s : List α} (h : ¬pat <+: c :: s) (i : Nat) :
    search pat (c :: s) i = search pat s (i + 1) := if_neg h

theorem search_nil {pat : List α} (h : pat ≠ []) (i : Nat) : search pat [] i = none :=
  if_neg fun hp => h (List.prefix_nil.mp hp)

theorem find_append_cons {pat : List α} {c : α} {s : List α} (h : ¬pat <+: c :: s) (p : List α) :
    find (p ++ c :: s) pat p.length = find ((p ++ [c]) ++ s) pat (p ++ [c]).length := by
  rw [find_append, find_append, search_cons_of_not_isPrefix h, List.length_append]
  rfl

theorem search_append_of_not_mem {c : α} (pat s : List α) : (p : List α) → (i : Nat) →
    c ∉ p → search (c :: pat) (p ++ s) i = search (c :: pat) s (i + p.length)
  | [], _, _ => rfl
  | d :: p, i, h => by
    obtain ⟨hd, hp⟩ := not_or.mp (List.mem_cons.not.mp h)
    have hne : ¬c :: pat <+: d :: (p ++ s) := fun h => hd (List.cons_prefix_cons.mp h).1
    rw [List.cons_append, search_cons_of_not_isPrefix hne, search_append_of_not_mem pat s p (i + 1) hp,
      List.length_cons]
    congr 1
    omega

theorem find_singleton {c : α} {p : List α} (h : c ∉ p) (s : List α) :
    find (p ++ c :: s) [c] 0 = some p.length := by
  rw [find, if_pos (Nat.zero_le _), List.drop_zero, search_append_of_not_mem [] _ p 0 h,
    Nat.zero_add, search_of_isPrefix _ (List.cons_prefix_cons.mpr ⟨rfl, List.nil_prefix⟩)]

theorem find_singleton_of_not_mem {c : α} {s : List α} (h : c ∉ s) : find s [c] 0 = none := by
  rw [find, if_pos (Nat.zero_le _), List.drop_zero, ← List.append_nil s,
    search_append_of_not_mem [] [] s 0 h, search_nil (List.cons_ne_nil _ _)]

theorem find_singleton_eq_some {c : α} {s : List α} {k : Nat} (h : find s [c] 0 = some k) :
    ∃ p r, s = p ++ c :: r ∧ c ∉ p ∧ k = p.length := by
  by_cases hc : c ∈ s
  · obtain ⟨p, r, rfl, hp⟩ := List.eq_append_cons_of_mem hc
    rw [find_singleton hp] at h
    cases h
    exact ⟨p, r, rfl, hp, rfl⟩
  · rw [find_singleton_of_not_mem hc] at h
    cases h

end StdString

end DolphinCore
