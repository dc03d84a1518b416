import Mathlib.Data.Nat.Basic

/-!
# DolphinCore.Lib.WordFields

Words that are cut into fields of one width, counted from the low end: reading a field, replacing
one, and words that are put together from fields.
-/

namespace DolphinCore.WordFields

variable {w k : Nat}

/-- A field of a word. -/
def get (k : Nat) (v : BitVec w) (i : Nat) : BitVec k := (v >>> (k * i)).setWidth k

/-- A word with one field replaced. -/
def put (v : BitVec w) (i : Nat) (x : BitVec k) : BitVec w :=
  (v &&& ~~~((BitVec.allOnes k).setWidth w <<< (k * i))) ||| (x.setWidth w <<< (k * i))

theorem getLsbD_get (v : BitVec w) (i j : Nat) :
    (get k v i).getLsbD j = (decide (j < k) && v.getLsbD (k * i + j)) := by
  unfold get
  rw [BitVec.getLsbD_setWidth, BitVec.getLsbD_ushiftRight]

theorem getLsbD_shift (x : BitVec k) (i : Nat) {j : Nat} (hj : j < w) :
    (x.setWidth w <<< (k * i)).getLsbD j = (decide (j / k = i) && x.getLsbD (j % k)) := by
  rw [BitVec.getLsbD_shiftLeft, BitVec.getLsbD_setWidth, decide_eq_true hj, Bool.true_and]
  obtain rfl | hk := Nat.eq_zero_or_pos k
  · simp
  by_cases hi : j / k = i
  · subst hi
    have hdiv := Nat.div_add_mod j k
    have hge : ¬ j < k * (j / k) := by omega
    have hsub : j - k * (j / k) = j % k := by omega
    simp only [hge, decide_false, Bool.not_false, Bool.true_and, hsub, decide_true]
    rw [decide_eq_true (by omega), Bool.true_and]
  · rw [decide_eq_false hi, Bool.false_and, Bool.and_eq_false_iff]
    by_cases hlt : j < k * i
    · exact .inl (by simp [hlt])
    · refine .inr (Bool.and_eq_false_iff.mpr (.inr (BitVec.getLsbD_of_ge x _ ?_)))
      refine Nat.le_of_not_lt fun hsmall => hi ?_
      rw [Nat.mul_comm] at hlt hsmall
      exact Nat.div_eq_of_lt_le (by omega) (by rw [Nat.succ_mul]; omega)

theorem getLsbD_put (v : BitVec w) (i : Nat) (x : BitVec k) (hk : 0 < k) {j : Nat} (hj : j < w) :
    (put v i x).getLsbD j = if j / k = i then x.getLsbD (j % k) else v.getLsbD j := by
  unfold put
  rw [BitVec.getLsbD_or, BitVec.getLsbD_and, BitVec.getLsbD_not, getLsbD_shift _ i hj,
    getLsbD_shift _ i hj, BitVec.getLsbD_allOnes, decide_eq_true (Nat.mod_lt j hk)]
  by_cases hi : j / k = i <;> simp [hi, hj]

theorem get_put {v : BitVec w} {i : Nat} {x : BitVec k} (hk : 0 < k) (i' : Nat)
    (hi' : k * i' + k ≤ w) : get k (put v i x) i' = if i' = i then x else get k v i' := by
  apply BitVec.eq_of_getLsbD_eq
  intro j hj
  have hdiv : (k * i' + j) / k = i' := by
    rw [Nat.mul_add_div hk, Nat.div_eq_of_lt hj, Nat.add_zero]
  have hmod : (k * i' + j) % k = j := by
    rw [Nat.mul_add_mod, Nat.mod_eq_of_lt hj]
  rw [getLsbD_get, decide_eq_true hj, Bool.true_and, getLsbD_put _ _ _ hk (by omega), hdiv, hmod]
  split
  · rfl
  · rw [getLsbD_get, decide_eq_true hj, Bool.true_and]

theorem ext {n : Nat} {v v' : BitVec w} (hk : 0 < k) (hw : w = k * n)
    (h : ∀ i, i < n → get k v i = get k v' i) : v = v' := by
  apply BitVec.eq_of_getLsbD_eq
  intro j hj
  have hi : j / k < n := Nat.div_lt_of_lt_mul (by omega)
  have hbit := congrArg (·.getLsbD (j % k)) (h _ hi)
  simp only [getLsbD_get, decide_eq_true (Nat.mod_lt j hk), Bool.true_and, Nat.div_add_mod] at hbit
  exact hbit

theorem getLsbD_foldl_or {ι : Type _} (g : ι → BitVec w) (l : List ι) (v : BitVec w) (j : Nat) :
    (l.foldl (fun acc i => acc ||| g i) v).getLsbD j =
      (v.getLsbD j || l.any fun i => (g i).getLsbD j) := by
  induction l generalizing v with
  | nil => exact (Bool.or_false _).symm
  | cons i l ih =>
    rw [List.foldl_cons, ih, BitVec.getLsbD_or, List.any_cons, Bool.or_assoc]

end DolphinCore.WordFields
