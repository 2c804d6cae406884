import Mathlib.Data.List.Chain

set_option autoImplicit false

/-! # Sums over the steps of a list

A list is read as the values that a quantity takes one after the other, and `stepSum` adds up a
measure of its steps. The increases of a quantity that never decreases add up to the increase from
the first value to the last.
-/

namespace QcapDemos.Lib

/-- The sum of `f` over the steps from `a` through a list. -/
def stepSum {α : Type} (f : α → α → Nat) : α → List α → Nat
  | _, [] => 0
  | a, b :: l => f a b + stepSum f b l

section StepSum

variable {α : Type} {f g : α → α → Nat} {a b : α} {l : List α}

@[simp] theorem stepSum_nil (f : α → α → Nat) (a : α) : stepSum f a [] = 0 := rfl

@[simp] theorem stepSum_cons (f : α → α → Nat) (a b : α) (l : List α) :
    stepSum f a (b :: l) = f a b + stepSum f b l := rfl

/-- The increases of a quantity add up to its whole increase. -/
theorem add_stepSum_sub (v : α → Nat) (h : (a :: l).IsChain (fun x y => v x ≤ v y)) :
    v a + stepSum (fun x y => v y - v x) a l = v (l.getLastD a) := by
  induction l generalizing a with
  | nil => rfl
  | cons b l ih =>
      rw [List.isChain_cons_cons] at h
      have hle := h.1
      rw [List.getLastD_cons, ← ih h.2, stepSum_cons]
      omega

theorem stepSum_add (f g : α → α → Nat) (a : α) (l : List α) :
    stepSum (fun x y => f x y + g x y) a l = stepSum f a l + stepSum g a l := by
  induction l generalizing a with
  | nil => rfl
  | cons b l ih =>
      rw [stepSum_cons, stepSum_cons, stepSum_cons, ih]
      omega

theorem stepSum_eq_zero_iff :
    stepSum f a l = 0 ↔ (a :: l).IsChain (fun x y => f x y = 0) := by
  induction l generalizing a with
  | nil => simp
  | cons b l ih => rw [stepSum_cons, Nat.add_eq_zero_iff, ih, List.isChain_cons_cons]

end StepSum

end QcapDemos.Lib
