import Mathlib.Data.List.Basic

/-!
# DolphinCore.Lib.Liveness

What a straight line of instructions does with one value: whether the value it starts with is still
wanted, found by a scan from the end, and whether it is read before it is replaced, where two
accounts of the instructions may differ.
-/

namespace DolphinCore

variable {α : Type*}

/-! ## the scan from the end -/

section

variable (uses ends kills : α → Bool)

/-- Whether the value in front of the instructions is wanted; what follows them wants it. -/
def liveBefore : List α → Bool
  | [] => true
  | x :: l => (liveBefore l || (uses x || ends x)) && (!kills x || uses x)

/-- An instruction replaces the value, and nothing before uses it or ends the line. -/
def Replaced (l : List α) : Prop :=
  ∃ front x back, l = front ++ x :: back ∧ kills x = true ∧ uses x = false ∧
    ∀ y ∈ front, uses y = false ∧ ends y = false

theorem replaced_cons {x : α} {l : List α} : Replaced uses ends kills (x :: l) ↔
    kills x = true ∧ uses x = false ∨
      (uses x = false ∧ ends x = false) ∧ Replaced uses ends kills l := by
  constructor
  · rintro ⟨front, y, back, heq, hkills, huses, hfront⟩
    cases front with
    | nil =>
      obtain ⟨rfl, -⟩ := List.cons.inj heq
      exact .inl ⟨hkills, huses⟩
    | cons z front =>
      obtain ⟨rfl, rfl⟩ := List.cons.inj heq
      obtain ⟨hz, hfront⟩ := List.forall_mem_cons.mp hfront
      exact .inr ⟨hz, front, y, back, rfl, hkills, huses, hfront⟩
  · rintro (⟨hkills, huses⟩ | ⟨hx, front, y, back, rfl, hkills, huses, hfront⟩)
    · exact ⟨[], x, l, rfl, hkills, huses, fun _ h => absurd h List.not_mem_nil⟩
    · exact ⟨x :: front, y, back, rfl, hkills, huses, List.forall_mem_cons.mpr ⟨hx, hfront⟩⟩

theorem liveBefore_eq_false (l : List α) :
    liveBefore uses ends kills l = false ↔ Replaced uses ends kills l := by
  induction l with
  | nil =>
    refine ⟨nofun, ?_⟩
    rintro ⟨front, x, back, heq, -⟩
    cases front <;> cases heq
  | cons x l ih =>
    rw [replaced_cons, ← ih, liveBefore]
    cases uses x <;> cases ends x <;> cases kills x <;> simp

variable {uses ends kills}

theorem Replaced.before {l : List α} (h : Replaced uses ends kills l)
    (hends : ∀ x ∈ l, kills x = true → ends x = false) {j : Nat} {y : α} (hj : l[j]? = some y)
    (hy : uses y = true ∨ ends y = true) :
    ∃ k x, k < j ∧ l[k]? = some x ∧ kills x = true ∧ uses x = false := by
  obtain ⟨front, x, back, rfl, hkills, huses, hfront⟩ := h
  have hat : (front ++ x :: back)[front.length]? = some x := by
    rw [List.getElem?_append_right (Nat.le_refl _), Nat.sub_self]
    rfl
  obtain hlt | rfl | hgt := Nat.lt_trichotomy j front.length
  · rw [List.getElem?_append_left hlt] at hj
    obtain ⟨huses', hends'⟩ := hfront y (List.mem_of_getElem? hj)
    rw [huses', hends'] at hy
    obtain hy | hy := hy <;> cases hy
  · obtain rfl := Option.some.inj (hat.symm.trans hj)
    rw [huses, hends x (List.mem_of_getElem? hj) hkills] at hy
    obtain hy | hy := hy <;> cases hy
  · exact ⟨front.length, x, hgt, hat, hkills, huses⟩

end

/-! ## reads that are exposed -/

section

variable (reads writes : α → Prop)

/-- The value in front of the instructions is read before it is replaced. -/
def ExposedRead (l : List α) : Prop :=
  ∃ front x back, l = front ++ x :: back ∧ reads x ∧ ∀ y ∈ front, ¬ writes y

theorem not_exposedRead_nil : ¬ ExposedRead reads writes [] := by
  rintro ⟨front, x, back, heq, -⟩
  cases front <;> cases heq

theorem exposedRead_cons {x : α} {l : List α} : ExposedRead reads writes (x :: l) ↔
    reads x ∨ ¬ writes x ∧ ExposedRead reads writes l := by
  constructor
  · rintro ⟨front, y, back, heq, hreads, hfront⟩
    cases front with
    | nil =>
      obtain ⟨rfl, -⟩ := List.cons.inj heq
      exact .inl hreads
    | cons z front =>
      obtain ⟨rfl, rfl⟩ := List.cons.inj heq
      obtain ⟨hz, hfront⟩ := List.forall_mem_cons.mp hfront
      exact .inr ⟨hz, front, y, back, rfl, hreads, hfront⟩
  · rintro (hreads | ⟨hwrites, front, y, back, rfl, hreads, hfront⟩)
    · exact ⟨[], x, l, rfl, hreads, fun _ h => absurd h List.not_mem_nil⟩
    · exact ⟨x :: front, y, back, rfl, hreads, List.forall_mem_cons.mpr ⟨hwrites, hfront⟩⟩

/-- An instruction has nothing to do with the value. -/
def Unused (x : α) : Prop := ¬ reads x ∧ ¬ writes x

variable {reads writes}

theorem exposedRead_cons_of_unused {x : α} {l : List α} (h : Unused reads writes x) :
    ExposedRead reads writes (x :: l) ↔ ExposedRead reads writes l := by
  rw [exposedRead_cons]
  exact ⟨fun hor => hor.elim (absurd · h.1) And.right, fun hl => .inr ⟨h.2, hl⟩⟩

end

section

variable {reads writes reads' writes' : α → Prop}

/-- Two accounts of what an instruction does with the value first are the same. -/
def SameUse (reads writes reads' writes' : α → Prop) (x : α) : Prop :=
  (reads x ↔ reads' x) ∧ (¬ reads x → (writes x ↔ writes' x))

theorem exposedRead_iff (l : List α) : (ExposedRead reads writes l ↔ ExposedRead reads' writes' l) ↔
      ∀ front x back, l = front ++ x :: back →
        (∀ y ∈ front, Unused reads writes y ∧ Unused reads' writes' y) →
        ¬ SameUse reads writes reads' writes' x →
        (ExposedRead reads writes (x :: back) ↔ ExposedRead reads' writes' (x :: back)) := by
  constructor
  · rintro h front x back rfl hfront -
    induction front with
    | nil => exact h
    | cons y front ih =>
      obtain ⟨hy, hfront⟩ := List.forall_mem_cons.mp hfront
      refine ih ?_ hfront
      rwa [List.cons_append, exposedRead_cons_of_unused hy.1, exposedRead_cons_of_unused hy.2] at h
  · intro h
    induction l with
    | nil => exact iff_of_false (not_exposedRead_nil _ _) (not_exposedRead_nil _ _)
    | cons x l ih =>
      by_cases hsame : SameUse reads writes reads' writes' x
      · by_cases hreads : reads x
        · exact iff_of_true ((exposedRead_cons _ _).mpr (.inl hreads))
            ((exposedRead_cons _ _).mpr (.inl (hsame.1.mp hreads)))
        · have hreads' : ¬ reads' x := fun h => hreads (hsame.1.mpr h)
          rw [exposedRead_cons, exposedRead_cons, ← hsame.2 hreads]
          by_cases hwrites : writes x
          · simp [hreads, hreads', hwrites]
          · have hunused : Unused reads writes x ∧ Unused reads' writes' x :=
              ⟨⟨hreads, hwrites⟩, hreads', fun h => hwrites ((hsame.2 hreads).mpr h)⟩
            have hl := ih fun front y back heq hfront hy =>
              h (x :: front) y back (by rw [heq]; rfl)
                (List.forall_mem_cons.mpr ⟨hunused, hfront⟩) hy
            simp [hreads, hreads', hwrites, hl]
      · exact h [] x l rfl (fun _ hy => absurd hy List.not_mem_nil) hsame

end

end DolphinCore
