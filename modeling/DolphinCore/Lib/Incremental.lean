import DolphinCore.Lib.Run

/-!
# DolphinCore.Lib.Incremental

Decoders that take one item after another from the front of a list, and stop at
an item that is not complete. When more input cannot change what was done with
the input that was there, decoding piece by piece does what decoding the whole
does.
-/

namespace DolphinCore

/-- What one step of a decoder does: it stops in front of an item that is not complete, or
goes past its first element and `n` more. -/
inductive DecodeStep (σ τ : Type _) where
  | stop (s : σ)
  | next (s : σ) (n : Nat) (outs : List τ)

/-- The state at the end, the input from the item that is not complete on, and the outputs. -/
structure Decoded (σ α τ : Type _) where
  state : σ
  unread : List α
  outs : List τ

namespace Decoded

/-- Outputs that came before. -/
def prepend (outs : List τ) (r : Decoded σ α τ) : Decoded σ α τ := { r with outs := outs ++ r.outs }

theorem prepend_prepend (xs ys : List τ) (r : Decoded σ α τ) :
    (r.prepend ys).prepend xs = r.prepend (xs ++ ys) := by
  unfold prepend
  rw [List.append_assoc]

end Decoded

/-- The items of a list, one after another. -/
def decode (f : σ → α → List α → Except ε (DecodeStep σ τ)) (s : σ) :
    List α → Except ε (Decoded σ α τ)
  | [] => .ok ⟨s, [], []⟩
  | x :: xs =>
    match f s x xs with
    | .error e => .error e
    | .ok (.stop s) => .ok ⟨s, x :: xs, []⟩
    | .ok (.next s n outs) => (decode f s (xs.drop n)).map (Decoded.prepend outs)
termination_by xs => xs.length
decreasing_by
  simp only [List.length_drop, List.length_cons]
  omega

/-- Feeding one piece after another, each after what was left of those before. -/
def decodePieces (f : σ → α → List α → Except ε (DecodeStep σ τ)) (r : Decoded σ α τ) :
    List (List α) → Except ε (Decoded σ α τ)
  | [] => .ok r
  | piece :: pieces =>
    match decode f r.state (r.unread ++ piece) with
    | .error e => .error e
    | .ok r' => decodePieces f (r'.prepend r.outs) pieces

/-- More input changes nothing in what was done with the input that was there; at an item that
was not complete it is looked at as if for the first time. -/
structure DecodeStable (f : σ → α → List α → Except ε (DecodeStep σ τ)) : Prop where
  next : ∀ {s x xs s' n outs}, f s x xs = .ok (.next s' n outs) →
    n ≤ xs.length ∧ ∀ ys, f s x (xs ++ ys) = .ok (.next s' n outs)
  error : ∀ {s x xs e}, f s x xs = .error e → ∀ ys, f s x (xs ++ ys) = .error e
  stop : ∀ {s x xs s'}, f s x xs = .ok (.stop s') → ∀ ys, f s' x (xs ++ ys) = f s x (xs ++ ys)

section

variable {f : σ → α → List α → Except ε (DecodeStep σ τ)} {s s' : σ} {x : α} {xs : List α}

theorem decode_nil : decode f s [] = .ok ⟨s, [], []⟩ := by
  unfold decode
  rfl

theorem decode_of_error {e : ε} (h : f s x xs = .error e) : decode f s (x :: xs) = .error e := by
  rw [decode, h]

theorem decode_of_stop (h : f s x xs = .ok (.stop s')) :
    decode f s (x :: xs) = .ok ⟨s', x :: xs, []⟩ := by
  rw [decode, h]

theorem decode_of_next {n : Nat} {outs : List τ} (h : f s x xs = .ok (.next s' n outs)) :
    decode f s (x :: xs) = (decode f s' (xs.drop n)).map (Decoded.prepend outs) := by
  rw [decode, h]

/-- **Induction over a decoded list**, by what the first step does. -/
theorem decode_induct {motive : σ → List α → Prop} (nil : ∀ s, motive s [])
    (error : ∀ s x xs e, f s x xs = .error e → motive s (x :: xs))
    (stop : ∀ s x xs s', f s x xs = .ok (.stop s') → motive s (x :: xs))
    (next : ∀ s x xs s' n outs, f s x xs = .ok (.next s' n outs) → motive s' (xs.drop n) →
      motive s (x :: xs)) (s : σ) (xs : List α) : motive s xs := by
  induction h : xs.length using Nat.strongRecOn generalizing s xs with
  | _ len ih =>
    cases xs with
    | nil => exact nil s
    | cons x xs =>
      match hf : f s x xs with
      | .error e => exact error s x xs e hf
      | .ok (.stop s') => exact stop s x xs s' hf
      | .ok (.next s' n outs) =>
        refine next s x xs s' n outs hf (ih _ ?_ s' (xs.drop n) rfl)
        rw [← h, List.length_drop, List.length_cons]
        omega

/-- **Invariant rule**: what every step keeps, of the state and the input that is left, holds at
the end, and a step that fails has failed from there. -/
theorem decode_invariant {I : σ → List α → Prop} {E : ε → Prop}
    (hnext : ∀ s x xs s' n outs, I s (x :: xs) → f s x xs = .ok (.next s' n outs) →
      I s' (xs.drop n))
    (hstop : ∀ s x xs s', I s (x :: xs) → f s x xs = .ok (.stop s') → I s' (x :: xs))
    (herror : ∀ s x xs e, I s (x :: xs) → f s x xs = .error e → E e) (h : I s xs) :
    (∀ r, decode f s xs = .ok r → I r.state r.unread) ∧ ∀ e, decode f s xs = .error e → E e := by
  induction s, xs using decode_induct (f := f) with
  | nil s =>
    rw [decode_nil]
    refine ⟨fun r hr => ?_, nofun⟩
    cases hr
    exact h
  | error s x xs e he =>
    rw [decode_of_error he]
    refine ⟨nofun, fun e' hr => ?_⟩
    cases hr
    exact herror s x xs e h he
  | stop s x xs s' hs =>
    rw [decode_of_stop hs]
    refine ⟨fun r hr => ?_, nofun⟩
    cases hr
    exact hstop s x xs s' h hs
  | next s x xs s' n outs hs ih =>
    obtain ⟨hok, hfail⟩ := ih (hnext s x xs s' n outs h hs)
    rw [decode_of_next hs]
    constructor
    · intro r hr
      cases hd : decode f s' (xs.drop n) with
      | error e =>
        rw [hd] at hr
        cases hr
      | ok r' =>
        rw [hd] at hr
        cases hr
        exact hok r' hd
    · intro e hr
      cases hd : decode f s' (xs.drop n) with
      | error e' =>
        rw [hd] at hr
        cases hr
        exact hfail _ hd
      | ok r' =>
        rw [hd] at hr
        cases hr

/-- **Decoding in two pieces**: the second piece is decoded after what the first one left. -/
theorem decode_append (hstable : DecodeStable f) (s : σ) (xs ys : List α) :
    decode f s (xs ++ ys) = (decode f s xs).bind fun r =>
      (decode f r.state (r.unread ++ ys)).map (Decoded.prepend r.outs) := by
  induction s, xs using decode_induct (f := f) with
  | nil s =>
    rw [decode_nil, List.nil_append]
    show _ = (decode f s ys).map (Decoded.prepend [])
    cases decode f s ys <;> rfl
  | error s x xs e h =>
    rw [decode_of_error h, List.cons_append, decode_of_error (hstable.error h ys)]
    rfl
  | stop s x xs s' h =>
    rw [decode_of_stop h]
    show _ = (decode f s' (x :: xs ++ ys)).map (Decoded.prepend [])
    have hsame : decode f s' (x :: (xs ++ ys)) = decode f s (x :: (xs ++ ys)) := by
      rw [decode, decode, hstable.stop h ys]
    rw [List.cons_append, hsame]
    cases decode f s (x :: (xs ++ ys)) <;> rfl
  | next s x xs s' n outs h ih =>
    obtain ⟨hn, happ⟩ := hstable.next h
    rw [List.cons_append, decode_of_next (happ ys), decode_of_next h, List.drop_append_of_le_length hn,
      ih]
    cases decode f s' (xs.drop n) with
    | error e => rfl
    | ok r =>
      show Except.map _ (Except.map _ (decode f r.state (r.unread ++ ys))) =
        (decode f r.state (r.unread ++ ys)).map _
      cases decode f r.state (r.unread ++ ys) with
      | error e => rfl
      | ok r' => exact congrArg Except.ok (r'.prepend_prepend _ _)

theorem decode_unread_length_le {r : Decoded σ α τ} (h : decode f s xs = .ok r) :
    r.unread.length ≤ xs.length := by
  induction s, xs using decode_induct (f := f) generalizing r with
  | nil s =>
    rw [decode_nil] at h
    cases h
    exact Nat.le_refl _
  | error s x xs e he =>
    rw [decode_of_error he] at h
    cases h
  | stop s x xs s' hs =>
    rw [decode_of_stop hs] at h
    cases h
    exact Nat.le_refl _
  | next s x xs s' n outs hs ih =>
    rw [decode_of_next hs] at h
    cases hd : decode f s' (xs.drop n) with
    | error e =>
      rw [hd] at h
      cases h
    | ok r' =>
      rw [hd] at h
      cases h
      have hle := ih hd
      rw [List.length_drop] at hle
      rw [List.length_cons]
      show r'.unread.length ≤ _
      omega

theorem decode_again (hstable : DecodeStable f) {r : Decoded σ α τ}
    (h : decode f s xs = .ok r) : decode f r.state r.unread = .ok { r with outs := [] } := by
  have happ := decode_append hstable s xs []
  rw [List.append_nil, h] at happ
  have hbind : Except.ok r = (decode f r.state r.unread).map (Decoded.prepend r.outs) := by
    simpa [Except.bind] using happ
  cases hr : decode f r.state r.unread with
  | error e =>
    rw [hr] at hbind
    cases hbind
  | ok r' =>
    rw [hr] at hbind
    have heq : r = r'.prepend r.outs := Except.ok.inj hbind
    have houts : r'.outs = [] := by
      have := congrArg (fun r => r.outs) heq
      simpa [Decoded.prepend] using this
    rw [heq]
    exact congrArg Except.ok (by rw [← houts]; rfl)

/-- **Decoding piece by piece** does what decoding the whole does. -/
theorem decodePieces_eq (hstable : DecodeStable f) (pieces : List (List α)) :
    ∀ r : Decoded σ α τ, decode f r.state r.unread = .ok { r with outs := [] } →
      decodePieces f r pieces =
        (decode f r.state (r.unread ++ pieces.flatten)).map (Decoded.prepend r.outs) := by
  induction pieces with
  | nil =>
    intro r hr
    rw [List.flatten_nil, List.append_nil, hr]
    show Except.ok r = Except.ok _
    unfold Decoded.prepend
    rw [List.append_nil]
  | cons piece pieces ih =>
    intro r hr
    rw [List.flatten_cons, ← List.append_assoc, decode_append hstable]
    unfold decodePieces
    cases h : decode f r.state (r.unread ++ piece) with
    | error e => rfl
    | ok r' =>
      have hagain := decode_again hstable h
      show decodePieces f (r'.prepend r.outs) pieces = _
      rw [ih (r'.prepend r.outs) hagain]
      show (decode f r'.state (r'.unread ++ pieces.flatten)).map _ =
        Except.map _ (Except.map _ (decode f r'.state (r'.unread ++ pieces.flatten)))
      cases decode f r'.state (r'.unread ++ pieces.flatten) with
      | error e => rfl
      | ok r'' => exact congrArg Except.ok (r''.prepend_prepend _ _).symm

end

end DolphinCore
