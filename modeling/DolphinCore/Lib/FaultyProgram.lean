import Mathlib.Order.Defs.Unbundled

/-!
# DolphinCore.Lib.FaultyProgram

Programs over a state that attempt actions of a world in which an action may fail, or may be
the last thing that happens.  An oracle says what becomes of an action, by its number and its
name, so that a condition can be put on the actions that matter.

The weakest precondition of a program has a postcondition for a return, one for a stop and one
for undefined behaviour.
-/

namespace DolphinCore

/-- What becomes of an action. -/
inductive Outcome
  | done
  | fails
  | crash
deriving DecidableEq

/-- What becomes of the actions of a run, by their number and their name. -/
abbrev Faults (α : Type) := Nat → α → Outcome

/-- No action fails. -/
def noFaults {α : Type} : Faults α := fun _ _ => .done

/-- An action succeeds somewhere. -/
def Faults.may {α : Type} (F : Faults α) (a : α) : Prop := ∃ n, F n a = .done

/-- An action succeeds wherever it is attempted. -/
def Faults.must {α : Type} (F : Faults α) (a : α) : Prop := ∀ n, F n a = .done

/-- The end of a run: a result, with the number of actions attempted so far, a stop in the
middle, or undefined behaviour. -/
inductive Ending (σ β : Type)
  | returns (b : β) (s : σ) (n : Nat)
  | crashed (s : σ)
  | undefined

/-- A program with actions `α` over the state `σ`. -/
def Prog (α σ β : Type) := Faults α → Nat → σ → Ending σ β

namespace Prog

variable {α σ β γ : Type}

instance : Monad (Prog α σ) where
  pure b := fun _ n s => .returns b s n
  bind p f := fun F n s =>
    match p F n s with
    | .returns b s n => f b F n s
    | .crashed s => .crashed s
    | .undefined => .undefined

/-- The state. -/
def get : Prog α σ σ := fun _ n s => .returns s s n

/-- A change of the state that is no action. -/
def modify (f : σ → σ) : Prog α σ Unit := fun _ n s => .returns () (f s) n

/-- A change of the state with a result. -/
def modifyGet (f : σ → β × σ) : Prog α σ β := fun _ n s => .returns (f s).1 (f s).2 n

/-- An action, which has an effect if it is possible and does not fail. -/
def attempt (a : α) (f : σ → Option σ) : Prog α σ Bool := fun F n s =>
  match F n a, f s with
  | .done, some t => .returns true t (n + 1)
  | .done, none => .returns false s (n + 1)
  | .fails, _ => .returns false s (n + 1)
  | .crash, _ => .crashed s

/-- Undefined behaviour. -/
def undefined : Prog α σ β := fun _ _ _ => .undefined

/-- A loop that is left as soon as its body says so; the result says whether it was not. -/
def forWhile (body : γ → Prog α σ Bool) : List γ → Prog α σ Bool
  | [] => pure true
  | x :: xs => do
    if ← body x then forWhile body xs else pure false

/-! ## weakest preconditions -/

/-- Every run of the program from the state ends as the postconditions say. -/
def wp (F : Faults α) (C : σ → Prop) (U : Prop) (p : Prog α σ β) (s : σ) (Q : β → σ → Prop) :
    Prop :=
  ∀ n, match p F n s with
    | .returns b t _ => Q b t
    | .crashed t => C t
    | .undefined => U

section

variable {F : Faults α} {C : σ → Prop} {U : Prop} {p : Prog α σ β} {s : σ} {Q Q' : β → σ → Prop}

theorem wp_weaken {C' : σ → Prop} {U' : Prop} (h : wp F C U p s Q) (hC : ∀ t, C t → C' t)
    (hU : U → U') (hQ : ∀ b t, Q b t → Q' b t) : wp F C' U' p s Q' := by
  intro n
  have hn := h n
  cases hp : p F n s with
  | returns b t m =>
    rw [hp] at hn
    exact hQ b t hn
  | crashed t =>
    rw [hp] at hn
    exact hC t hn
  | undefined =>
    rw [hp] at hn
    exact hU hn

theorem wp_mono (h : wp F C U p s Q) (himp : ∀ b t, Q b t → Q' b t) : wp F C U p s Q' :=
  wp_weaken h (fun _ => id) id himp

theorem wp_pure {b : β} (h : Q b s) : wp F C U (pure b : Prog α σ β) s Q := fun _ => h

theorem wp_bind {f : β → Prog α σ γ} {R : γ → σ → Prop}
    (h : wp F C U p s fun b t => wp F C U (f b) t R) : wp F C U (p >>= f) s R := by
  intro n
  have hn := h n
  change match (match p F n s with
    | .returns b s n => f b F n s
    | .crashed s => .crashed s
    | .undefined => .undefined : Ending σ γ) with
    | .returns b t _ => R b t
    | .crashed t => C t
    | .undefined => U
  cases hp : p F n s with
  | returns b t m =>
    rw [hp] at hn
    exact hn m
  | crashed t =>
    rw [hp] at hn
    exact hn
  | undefined =>
    rw [hp] at hn
    exact hn

theorem wp_get {Q : σ → σ → Prop} (h : Q s s) : wp F C U (get : Prog α σ σ) s Q := fun _ => h

theorem wp_modify {f : σ → σ} {Q : Unit → σ → Prop} (h : Q () (f s)) :
    wp F C U (modify f : Prog α σ Unit) s Q := fun _ => h

theorem wp_modifyGet {f : σ → β × σ} (h : Q (f s).1 (f s).2) :
    wp F C U (modifyGet f : Prog α σ β) s Q := fun _ => h

theorem wp_undefined (h : U) : wp F C U (undefined : Prog α σ β) s Q := fun _ => h

theorem wp_ite {c : Prop} [Decidable c] {q : Prog α σ β} (h : c → wp F C U p s Q)
    (h' : ¬ c → wp F C U q s Q) : wp F C U (if c then p else q) s Q := by
  split
  · next hc => exact h hc
  · next hc => exact h' hc

theorem wp_attempt {a : α} {f : σ → Option σ} {Q : Bool → σ → Prop}
    (hdone : ∀ n t, F n a = .done → f s = some t → Q true t)
    (hfails : ∀ n, F n a = .fails ∨ F n a = .done ∧ f s = none → Q false s)
    (hcrash : ∀ n, F n a = .crash → C s) : wp F C U (attempt a f) s Q := by
  intro n
  unfold attempt
  cases hF : F n a with
  | done =>
    cases hf : f s with
    | some t => exact hdone n t hF hf
    | none => exact hfails n (.inr ⟨hF, hf⟩)
  | fails => exact hfails n (.inl hF)
  | crash => exact hcrash n hF

/-- **Loop rule**: the invariant says what is left to do. -/
theorem wp_forWhile {body : γ → Prog α σ Bool} {Q : Bool → σ → Prop} (I : List γ → σ → Prop)
    (hend : ∀ t, I [] t → Q true t)
    (hbody : ∀ x xs t, I (x :: xs) t →
      wp F C U (body x) t fun more u => if more then I xs u else Q false u) :
    (xs : List γ) → {s : σ} → I xs s → wp F C U (forWhile body xs) s Q
  | [], _, h => wp_pure (hend _ h)
  | x :: xs, _, h => by
    refine wp_bind (wp_mono (hbody x xs _ h) ?_)
    intro more u hu
    cases more with
    | true => exact wp_forWhile I hend hbody xs hu
    | false => exact wp_pure hu

end

/-- What holds of whatever is returned. -/
abbrev Post (F : Faults α) (p : Prog α σ β) (s : σ) (Q : β → σ → Prop) : Prop :=
  wp F (fun _ => True) True p s Q

variable {s : σ} {C : σ → Prop}

theorem wp.and {F : Faults α} {C C' : σ → Prop} {U U' : Prop} {p : Prog α σ β} {Q Q' : β → σ → Prop}
    (h : wp F C U p s Q) (h' : wp F C' U' p s Q') :
    wp F (fun t => C t ∧ C' t) (U ∧ U') p s fun b t => Q b t ∧ Q' b t := by
  intro n
  have hn := h n
  have hn' := h' n
  cases hrun : p F n s with
  | returns b t m =>
    rw [hrun] at hn hn'
    exact ⟨hn, hn'⟩
  | crashed t =>
    rw [hrun] at hn hn'
    exact ⟨hn, hn'⟩
  | undefined =>
    rw [hrun] at hn hn'
    exact ⟨hn, hn'⟩

theorem wp.and_post {F : Faults α} {U : Prop} {p : Prog α σ β} {Q Q' : β → σ → Prop}
    (h : wp F C U p s Q) (h' : Post F p s Q') :
    wp F C U p s fun b t => Q b t ∧ Q' b t :=
  wp_weaken (h.and h') (fun _ => And.left) And.left fun _ _ => id

theorem post_of_forall {F : Faults α} {p : Prog α σ β} {Q : β → σ → Prop} (h : ∀ b t, Q b t) :
    Post F p s Q := by
  intro n
  cases p F n s with
  | returns b t m => exact h b t
  | crashed t => trivial
  | undefined => trivial

/-- A program can return so, after some number of actions. -/
def MayReturn (F : Faults α) (p : Prog α σ β) (s : σ) (b : β) (t : σ) : Prop :=
  ∃ n m, p F n s = .returns b t m

theorem post_mayReturn (F : Faults α) (p : Prog α σ β) (s : σ) :
    Post F p s fun b t => MayReturn F p s b t := by
  intro n
  cases hrun : p F n s with
  | returns b t m => exact ⟨n, m, hrun⟩
  | crashed t => trivial
  | undefined => trivial

/-- A program returns if nothing fails, with what holds then. -/
abbrev Total (p : Prog α σ β) (s : σ) (Q : β → σ → Prop) : Prop :=
  wp noFaults (fun _ => False) False p s Q

/-! ## programs that keep to a relation -/

/-- Whatever happens, the states before and after are in a relation. -/
def Keeps (R : σ → σ → Prop) (p : Prog α σ β) : Prop :=
  ∀ F s, wp F (R s) True p s fun _ t => R s t

section

variable {R : σ → σ → Prop} {p q : Prog α σ β}

theorem Keeps.post (h : Keeps R p) (F : Faults α) (s : σ) : Post F p s fun _ t => R s t :=
  wp_weaken (h F s) (fun _ _ => trivial) id fun _ _ => id

theorem Keeps.and (h : Keeps R p) {F : Faults α} {U : Prop} {Q : β → σ → Prop}
    (hp : wp F C U p s Q) : wp F C U p s fun b t => Q b t ∧ R s t :=
  hp.and_post (h.post F s)

theorem keeps_undefined : Keeps R (undefined : Prog α σ β) := fun _ _ => wp_undefined trivial

theorem keeps_modify {f : σ → σ} (h : ∀ s, R s (f s)) : Keeps R (modify f : Prog α σ Unit) :=
  fun _ s => wp_modify (h s)

theorem keeps_modifyGet {f : σ → β × σ} (h : ∀ s, R s (f s).2) :
    Keeps R (modifyGet f : Prog α σ β) := fun _ s => wp_modifyGet (h s)

theorem keeps_ite {c : Prop} [Decidable c] (h : Keeps R p) (h' : Keeps R q) :
    Keeps R (if c then p else q) := fun F s => wp_ite (fun _ => h F s) fun _ => h' F s

variable [IsPreorder σ R]

theorem keeps_pure (b : β) : Keeps R (pure b : Prog α σ β) := fun _ s => wp_pure (refl_of R s)

theorem keeps_get : Keeps R (get : Prog α σ σ) := fun _ s => wp_get (refl_of R s)

theorem keeps_attempt {a : α} {f : σ → Option σ} (h : ∀ s t, f s = some t → R s t) :
    Keeps R (attempt a f) := fun _ s =>
  wp_attempt (fun _ t _ ht => h s t ht) (fun _ _ => refl_of R s) fun _ _ => refl_of R s

theorem keeps_bind {f : β → Prog α σ γ} (h : Keeps R p) (hf : ∀ b, Keeps R (f b)) :
    Keeps R (p >>= f) := fun F s =>
  wp_bind (wp_mono (h F s) fun b t hst =>
    wp_weaken (hf b F t) (fun _ => trans_of R hst) id fun _ _ => trans_of R hst)

theorem keeps_forWhile {body : γ → Prog α σ Bool} (h : ∀ x, Keeps R (body x)) :
    (xs : List γ) → Keeps R (forWhile body xs)
  | [] => keeps_pure true
  | x :: xs => keeps_bind (h x) fun _ => keeps_ite (keeps_forWhile h xs) (keeps_pure false)

end

/-! ## programs that are defined -/

/-- A program without undefined behaviour. -/
def Defined (p : Prog α σ β) : Prop := ∀ F s, wp F (fun _ => True) False p s fun _ _ => True

theorem defined_pure (b : β) : Defined (pure b : Prog α σ β) := fun _ _ => wp_pure trivial

theorem defined_attempt (a : α) (f : σ → Option σ) : Defined (attempt a f) := fun _ _ =>
  wp_attempt (fun _ _ _ _ => trivial) (fun _ _ => trivial) fun _ _ => trivial

theorem defined_bind {p : Prog α σ β} {f : β → Prog α σ γ} (h : Defined p)
    (hf : ∀ b, Defined (f b)) : Defined (p >>= f) := fun F s =>
  wp_bind (wp_mono (h F s) fun b t _ => hf b F t)

theorem defined_ite {c : Prop} [Decidable c] {p q : Prog α σ β} (h : Defined p) (h' : Defined q) :
    Defined (if c then p else q) := fun F s => wp_ite (fun _ => h F s) fun _ => h' F s

theorem Keeps.defined {R : σ → σ → Prop} {p : Prog α σ β} (h : Keeps R p) (hp : Defined p)
    (F : Faults α) (s : σ) : wp F (R s) False p s fun _ t => R s t :=
  wp_weaken ((h F s).and (hp F s)) (fun _ => And.left) And.right fun _ _ => And.left

/-! ## whole runs -/

/-- What a call does to the state, if it returns. -/
def exec (F : Faults α) (p : Prog α σ β) (s : σ) : Option (β × σ) :=
  match p F 0 s with
  | .returns b t _ => some (b, t)
  | _ => none

theorem wp.exec {F : Faults α} {U : Prop} {p : Prog α σ β} {s t : σ} {b : β} {Q : β → σ → Prop}
    (h : wp F C U p s Q) (hexec : p.exec F s = some (b, t)) : Q b t := by
  have hn := h 0
  unfold Prog.exec at hexec
  cases hp : p F 0 s with
  | returns b' t' m =>
    rw [hp] at hn hexec
    cases hexec
    exact hn
  | crashed t' =>
    rw [hp] at hexec
    cases hexec
  | undefined =>
    rw [hp] at hexec
    cases hexec

theorem wp.total {p : Prog α σ β} {Q : β → σ → Prop} (h : Total p s Q) :
    ∃ b t, p.exec noFaults s = some (b, t) ∧ Q b t := by
  have hn := h 0
  unfold Prog.exec
  cases hp : p noFaults 0 s with
  | returns b t m =>
    rw [hp] at hn
    exact ⟨b, t, rfl, hn⟩
  | crashed t =>
    rw [hp] at hn
    exact hn.elim
  | undefined =>
    rw [hp] at hn
    exact hn.elim

end Prog

end DolphinCore
