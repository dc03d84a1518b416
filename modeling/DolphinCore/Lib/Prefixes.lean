import Mathlib.Data.List.Infix

/-!
# DolphinCore.Lib.Prefixes

What holds after every part of a sequence of actions, and a condition on each
action where it comes.  If the condition is what an action needs to keep things
right, the two are the same.
-/

namespace DolphinCore

variable {α : Type u} {I P : List α → Prop} {ok : List α → α → Prop} {as : List α}

theorem prefixes_of_ok (h0 : I [])
    (hstep : ∀ before a, a ∈ as → I before → ok before a → I (before ++ [a]))
    (hok : ∀ before a, before ++ [a] <+: as → ok before a) : ∀ before, before <+: as → I before := by
  intro before hp
  induction before using List.reverseRecOn with
  | nil => exact h0
  | append_singleton before a ih =>
    have hbefore := ih ((List.prefix_append before [a]).trans hp)
    exact hstep before a (hp.subset (by simp)) hbefore (hok before a hp)

theorem prefixes_iff (h0 : I []) (hP : ∀ before, I before → P before)
    (hstep : ∀ before a, a ∈ as → I before → ok before a → I (before ++ [a]))
    (hok : ∀ before a, a ∈ as → I before → P (before ++ [a]) → ok before a) :
    (∀ before, before <+: as → P before) ↔ ∀ before a, before ++ [a] <+: as → ok before a := by
  constructor
  · intro h before a hp
    have hI : ∀ before, before <+: as → I before := by
      intro before hp
      induction before using List.reverseRecOn with
      | nil => exact h0
      | append_singleton before a ih =>
        have hbefore := ih ((List.prefix_append before [a]).trans hp)
        have ha : a ∈ as := hp.subset (by simp)
        exact hstep before a ha hbefore (hok before a ha hbefore (h _ hp))
    exact hok before a (hp.subset (by simp)) (hI before ((List.prefix_append before [a]).trans hp))
      (h _ hp)
  · intro h before hp
    exact hP before (prefixes_of_ok h0 hstep h before hp)

end DolphinCore
