import Mathlib.Data.List.Nodup

/-!
# DolphinCore.Lib.LinkChain

Chains that are linked through a table: every member is mapped to the one behind it, and the last one to
a mark that ends the chain.
-/

namespace DolphinCore

/-- The chain from `first` on has the members of the list, and ends with the mark `stop`. -/
inductive LinkChain {α : Type _} (next : α → α) (stop : α) : α → List α → Prop
  | last {a : α} : next a = stop → LinkChain next stop a [a]
  | cons {a b : α} {l : List α} : next a = b → LinkChain next stop b l →
    LinkChain next stop a (a :: l)

namespace LinkChain

variable {α : Type _} {next next' : α → α} {stop first : α} {l : List α}

theorem first_mem (h : LinkChain next stop first l) : first ∈ l := by
  cases h with
  | last => exact List.mem_singleton_self _
  | cons _ _ => exact List.mem_cons_self

theorem congr (h : LinkChain next stop first l) (heq : ∀ a ∈ l, next' a = next a) :
    LinkChain next' stop first l := by
  induction h with
  | last hstop => exact .last ((heq _ List.mem_cons_self).trans hstop)
  | cons hnext _ ih =>
    exact .cons ((heq _ List.mem_cons_self).trans hnext) (ih fun a ha => heq a (List.mem_cons_of_mem _ ha))

theorem next_mem (h : LinkChain next stop first l) {a : α} (ha : a ∈ l) :
    next a = stop ∨ next a ∈ l := by
  induction h with
  | last hstop =>
    rw [List.mem_singleton.mp ha]
    exact Or.inl hstop
  | cons hnext hrest ih =>
    rcases List.mem_cons.mp ha with rfl | ha
    · exact Or.inr (List.mem_cons_of_mem _ (hnext ▸ hrest.first_mem))
    · exact (ih ha).imp_right (List.mem_cons_of_mem _)

end LinkChain

end DolphinCore
