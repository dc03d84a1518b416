/-!
# DolphinCore.Lib.Computation

Computations that may fail: what it takes for one made of parts to return.
-/

namespace DolphinCore

variable {ε α β : Type _}

theorem bind_eq_ok {x : Except ε α} {f : α → Except ε β} {r : β} :
    x >>= f = .ok r ↔ ∃ v, x = .ok v ∧ f v = .ok r := by
  cases x <;> simp [bind, Except.bind]

theorem map_eq_ok {x : Except ε α} {f : α → β} {r : β} :
    x.map f = .ok r ↔ ∃ v, x = .ok v ∧ f v = r := by
  cases x <;> simp [Except.map]

end DolphinCore
