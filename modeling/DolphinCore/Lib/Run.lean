/-!
# DolphinCore.Lib.Run

Runs of a labelled transition system given by a partial step function, with a
condition on every step taken.  One induction, proved here once, turns what a
step preserves into what a whole run preserves.
-/

namespace DolphinCore

/-- The states reached from `s` by steps whose state and action meet `ok`. -/
inductive Run (step : σ → α → Option σ) (ok : σ → α → Prop) (s : σ) : σ → Prop
  | refl : Run step ok s s
  | tail {t u : σ} (a : α) : Run step ok s t → ok t a → step t a = some u → Run step ok s u

namespace Run

variable {step : σ → α → Option σ} {ok ok' : σ → α → Prop} {s t u : σ}

theorem single (a : α) (hok : ok s a) (h : step s a = some t) : Run step ok s t :=
  .tail a .refl hok h

theorem trans (h : Run step ok s t) (h' : Run step ok t u) : Run step ok s u := by
  induction h' with
  | refl => exact h
  | tail a _ hok hs ih => exact .tail a ih hok hs

/-- **Invariant rule**: what every admissible step preserves holds after every run. -/
theorem invariant {I : σ → Prop} (h : Run step ok s t) (h0 : I s)
    (hstep : ∀ s a t, I s → ok s a → step s a = some t → I t) : I t := by
  induction h with
  | refl => exact h0
  | tail a _ hok hs ih => exact hstep _ a _ ih hok hs

/-- The state after a list of actions. -/
def exec (step : σ → α → Option σ) : σ → List α → Option σ
  | s, [] => some s
  | s, a :: as => (step s a).bind fun t => exec step t as

theorem of_exec (as : List α) (hok : ∀ s, ∀ a ∈ as, ok s a) (h : exec step s as = some t) :
    Run step ok s t := by
  induction as generalizing s with
  | nil =>
    cases h
    exact .refl
  | cons a as ih =>
    rw [exec, Option.bind_eq_some_iff] at h
    obtain ⟨u, hu, h⟩ := h
    have ha := hok s a (List.mem_cons_self ..)
    exact (single a ha hu).trans (ih (fun s b hb => hok s b (List.mem_cons_of_mem _ hb)) h)

theorem of_exec_guarded [∀ s a, Decidable (ok s a)] (as : List α)
    (h : exec (fun s a => if ok s a then step s a else none) s as = some t) : Run step ok s t := by
  induction as generalizing s with
  | nil =>
    cases h
    exact .refl
  | cons a as ih =>
    rw [exec, Option.bind_eq_some_iff] at h
    obtain ⟨u, hu, h⟩ := h
    rw [Option.ite_none_right_eq_some] at hu
    exact (single a hu.1 hu.2).trans (ih h)

/-- **Simulation rule**: a system that matches every step of another one does what the
other one does on every list of actions. -/
theorem exec_simulate {τ : Type _} {step' : τ → α → Option τ} {R : σ → τ → Prop}
    (hstep : ∀ s a t s', R s s' → step s a = some t → ∃ t', step' s' a = some t' ∧ R t t') :
    (as : List α) → {s : σ} → {s' : τ} → R s s' → exec step s as = some t →
    ∃ t', exec step' s' as = some t' ∧ R t t'
  | [], s, s', hR, h => by
    cases h
    exact ⟨s', rfl, hR⟩
  | a :: as, s, s', hR, h => by
    rw [exec, Option.bind_eq_some_iff] at h
    obtain ⟨u, hu, h⟩ := h
    obtain ⟨u', hu', hRu⟩ := hstep s a u s' hR hu
    obtain ⟨t', ht', hRt⟩ := exec_simulate hstep as hRu h
    exact ⟨t', by rw [exec, hu', Option.bind_some, ht'], hRt⟩

end Run

end DolphinCore
