import Mathlib.Data.List.Perm.Lattice
import DolphinCore.Lib.Endian

/-!
# DolphinCore.Lib.FileImage

The bytes of a file that is written at its end and, later, in places that were
reserved before.
-/

namespace DolphinCore

/-! ## writing at a position -/

/-- The contents with `bs` at a position; a gap before it is filled with zeros. -/
def putAt (data : List Byte) (pos : Nat) (bs : List Byte) : List Byte :=
  if bs = [] then data
  else
    data.take pos ++ (List.replicate (pos - data.length) 0 ++ (bs ++ data.drop (pos + bs.length)))

theorem putAt_end (data bs : List Byte) : putAt data data.length bs = data ++ bs := by
  unfold putAt
  split
  · next h => rw [h, List.append_nil]
  · rw [List.take_length, Nat.sub_self, List.drop_eq_nil_of_le (Nat.le_add_right _ _),
      List.append_nil]
    rfl

theorem putAt_middle {p m s bs : List Byte} {pos : Nat} (hpos : p.length = pos)
    (hlen : m.length = bs.length) : putAt (p ++ (m ++ s)) pos bs = p ++ (bs ++ s) := by
  subst hpos
  unfold putAt
  split
  · next h =>
    rw [h, List.length_nil, List.length_eq_zero_iff] at hlen
    rw [h, hlen]
  · rw [List.take_left, List.length_append, Nat.sub_eq_zero_of_le (Nat.le_add_right _ _),
      List.replicate_zero, List.nil_append, ← List.drop_drop, List.drop_left, ← hlen,
      List.drop_left]

/-! ## extents -/

/-- Some bytes of a file. -/
structure Extent where
  start : Nat
  length : Nat
deriving DecidableEq

namespace Extent

def stop (e : Extent) : Nat := e.start + e.length

/-- No byte is in both. -/
def Disjoint (e e' : Extent) : Prop :=
  ∀ i, ¬ ((e.start ≤ i ∧ i < e.stop) ∧ e'.start ≤ i ∧ i < e'.stop)

theorem Disjoint.symm {e e' : Extent} (h : Disjoint e e') : Disjoint e' e :=
  fun i hi => h i ⟨hi.2, hi.1⟩

theorem disjoint_of_le {e e' : Extent} (h : e.stop ≤ e'.start) : Disjoint e e' :=
  fun i hi => by omega

end Extent

/-- What was written, and what is reserved for later, of a file of this size: no byte twice. -/
structure Written (log holes : List Extent) (size : Nat) : Prop where
  disjoint : (log ++ holes).Pairwise Extent.Disjoint
  within : ∀ e ∈ log ++ holes, e.stop ≤ size

namespace Written

variable {log holes : List Extent} {size : Nat}

theorem empty : Written [] [] 0 := ⟨.nil, nofun⟩

theorem perm {log' holes' : List Extent} (h : Written log holes size)
    (hperm : (log ++ holes).Perm (log' ++ holes')) : Written log' holes' size :=
  ⟨(hperm.pairwise_iff fun h => h.symm).mp h.disjoint, fun e he =>
    h.within e (hperm.mem_iff.mpr he)⟩

theorem reserve (h : Written log holes size) (n : Nat) :
    Written log (⟨size, n⟩ :: holes) (size + n) := by
  have hcons : Written (⟨size, n⟩ :: log) holes (size + n) := by
    refine ⟨List.pairwise_cons.mpr ⟨fun e he => ?_, h.disjoint⟩, fun e he => ?_⟩
    · exact (Extent.disjoint_of_le (h.within e he)).symm
    · rcases List.mem_cons.mp he with rfl | he
      · exact Nat.le_refl _
      · exact Nat.le_add_right_of_le (h.within e he)
  exact hcons.perm List.perm_middle.symm

theorem append (h : Written log holes size) (n : Nat) :
    Written (log ++ [⟨size, n⟩]) holes (size + n) := by
  refine (h.reserve n).perm ?_
  rw [List.append_assoc]
  rfl

theorem fill {s a b : Nat} (h : Written log (⟨s, a + b⟩ :: holes) size) :
    Written (log ++ [⟨s, a⟩]) (⟨s + a, b⟩ :: holes) size := by
  have hfront : Written (⟨s, a + b⟩ :: log) holes size := h.perm List.perm_middle
  obtain ⟨hall, hdisjoint⟩ := List.pairwise_cons.mp hfront.disjoint
  have hsize : s + (a + b) ≤ size := hfront.within _ (List.mem_cons_self ..)
  have hsplit : Written (⟨s, a⟩ :: ⟨s + a, b⟩ :: log) holes size := by
    refine ⟨List.pairwise_cons.mpr ⟨fun e he => ?_, List.pairwise_cons.mpr ⟨fun e he => ?_,
      hdisjoint⟩⟩, fun e he => ?_⟩
    · rcases List.mem_cons.mp he with rfl | he
      · exact Extent.disjoint_of_le (Nat.le_refl _)
      · refine fun i hi => hall e he i ⟨⟨hi.1.1, ?_⟩, hi.2⟩
        exact Nat.lt_of_lt_of_le hi.1.2 (Nat.add_le_add_left (Nat.le_add_right a b) s)
    · refine fun i hi => hall e he i ⟨⟨Nat.le_of_add_right_le hi.1.1, ?_⟩, hi.2⟩
      exact Nat.lt_of_lt_of_eq hi.1.2 (Nat.add_assoc s a b)
    · rcases List.mem_cons.mp he with rfl | he
      · exact Nat.le_trans (Nat.add_le_add_left (Nat.le_add_right a b) s) hsize
      · rcases List.mem_cons.mp he with rfl | he
        · exact Nat.le_trans (Nat.le_of_eq (Nat.add_assoc s a b)) hsize
        · exact hfront.within e (List.mem_cons_of_mem _ he)
  refine hsplit.perm ?_
  rw [List.append_assoc]
  refine List.Perm.trans ?_ List.perm_middle.symm
  exact .cons _ List.perm_middle.symm

theorem done {e : Extent} (h : Written log (e :: holes) size) : Written log holes size := by
  have hfront : Written (e :: log) holes size := h.perm List.perm_middle
  exact ⟨(List.pairwise_cons.mp hfront.disjoint).2, fun e he =>
    hfront.within e (List.mem_cons_of_mem _ he)⟩

end Written

/-! ## fields -/

namespace Endian

/-- Numbers one after another, each with its number of bytes. -/
def putFields : List Nat → List Nat → List Byte
  | w :: ws, v :: vs => toLE w v ++ putFields ws vs
  | _, _ => []

def getFields : List Nat → List Byte → List Nat
  | [], _ => []
  | w :: ws, bs => fromLE (bs.take w) :: getFields ws (bs.drop w)

variable {ws vs : List Nat}

theorem length_putFields (h : ws.length = vs.length) : (putFields ws vs).length = ws.sum := by
  induction ws generalizing vs with
  | nil => rfl
  | cons w ws ih =>
    cases vs with
    | nil => cases h
    | cons v vs =>
      rw [putFields, List.length_append, length_toLE, ih (Nat.succ.inj h), List.sum_cons]

theorem getD_putFields_append (h : ws.length = vs.length) {n : Nat} (r : Fin n → Byte) (i : Fin n) :
    (putFields ws vs ++ List.ofFn r).getD (ws.sum + i) 0 = r i := by
  rw [← length_putFields h, List.getD_eq_getElem?_getD,
    List.getElem?_append_right (Nat.le_add_right _ _), Nat.add_sub_cancel_left, List.getElem?_ofFn,
    dif_pos i.isLt, Option.getD_some]

theorem getFields_putFields (h : List.Forall₂ (fun w v => v < 256 ^ w) ws vs) (rest : List Byte) :
    getFields ws (putFields ws vs ++ rest) = vs := by
  induction h with
  | nil => rfl
  | @cons w v ws vs hv _ ih =>
    have hlen := length_toLE w v
    rw [putFields, getFields, List.append_assoc, List.take_left' hlen, List.drop_left' hlen,
      fromLE_toLE_of_lt hv, ih]

end Endian

end DolphinCore
