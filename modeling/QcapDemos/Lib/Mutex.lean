import Mathlib.Logic.Basic

set_option autoImplicit false

/-! # A mutex and its critical sections

`Owned` says that the owner of a mutex is exactly the thread that is in a critical section. Its
consequence is mutual exclusion (`Owned.unique`). A step of one thread keeps it where the mutex
changes hands as that thread enters and leaves its sections (`Owned.step`).
-/

namespace QcapDemos.Lib

variable {ω : Type}

def Owned (lock : Option ω) (critical : ω → Bool) : Prop := ∀ o, critical o = true ↔ lock = some o

/-- How a mutex goes with a step of the thread `o`, which is in a critical section `before` the
step and `after` it. -/
inductive Passes (o : ω) (before after : Bool) (lock lock' : Option ω) : Prop where
  | keep : after = before → lock' = lock → Passes o before after lock lock'
  | take : after = true → lock = none → lock' = some o → Passes o before after lock lock'
  | release : before = true → after = false → lock' = none → Passes o before after lock lock'

namespace Owned

variable {lock lock' : Option ω} {critical critical' : ω → Bool}

/-- **Mutual exclusion.** -/
theorem unique (h : Owned lock critical) {o o' : ω} (ho : critical o = true)
    (ho' : critical o' = true) : o = o' :=
  Option.some.inj (((h o).mp ho).symm.trans ((h o').mp ho'))

theorem not_critical_of_free (h : Owned lock critical) (hfree : lock = none) (o : ω) :
    critical o = false := by
  rw [← Bool.not_eq_true, h o, hfree]
  exact fun hcon => by cases hcon

/-- Other threads than the owner are outside. -/
theorem not_critical_of_ne (h : Owned lock critical) {o p : ω} (ho : critical o = true)
    (hne : p ≠ o) : critical p = false := by
  rw [← Bool.not_eq_true]
  exact fun hp => hne (h.unique hp ho)

/-- **A step of the thread `o`.** The other threads stay where they are. -/
theorem pass (h : Owned lock critical) {o : ω} (hother : ∀ p, p ≠ o → critical' p = critical p)
    (hpass : Passes o (critical o) (critical' o) lock lock') : Owned lock' critical' := by
  intro p
  by_cases hne : p = o
  · subst hne
    cases hpass with
    | keep hsame hlock => rw [hsame, hlock, h p]
    | take hafter _ hlock => exact iff_of_true hafter hlock
    | release _ hafter hlock =>
        rw [hafter, hlock]
        exact iff_of_false Bool.false_ne_true (fun hcon => by cases hcon)
  · rw [hother p hne]
    cases hpass with
    | keep _ hlock => rw [hlock, h p]
    | take _ hfree hlock =>
        rw [h.not_critical_of_free hfree, hlock]
        exact iff_of_false Bool.false_ne_true fun hcon => hne (Option.some.inj hcon).symm
    | release hbefore _ hlock =>
        rw [h.not_critical_of_ne hbefore hne, hlock]
        exact iff_of_false Bool.false_ne_true (fun hcon => by cases hcon)

end Owned

end QcapDemos.Lib
