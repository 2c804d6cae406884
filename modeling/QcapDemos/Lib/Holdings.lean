import Mathlib.Data.Set.Insert
import QcapDemos.Lib.Ledger

set_option autoImplicit false

/-! # What a program points at, and what exists

A program reaches the objects that it created by its pointers. `Holdings` has the objects that are
pointed at, beside the ledger of all that exist: an object whose last pointer is dropped still
exists, and is lost. A relation says which objects use which others, and a destruction is noted in
the ledger as one in use where anything that exists uses the object.

`Owns A L` says that the program points at the objects of `A`, that the objects of `L` are lost, and
that nothing was ever destroyed twice, or while dead, or under something that used it. There is one
rule for each operation.
-/

namespace QcapDemos.Lib

variable {ι : Type} [DecidableEq ι]

structure Holdings (ι : Type) where
  held : Finset ι
  ledger : Ledger ι

namespace Holdings

def empty : Holdings ι := { held := ∅, ledger := Ledger.empty }

/-- An object is created, with a pointer to it. -/
def create (h : Holdings ι) (i : ι) : Holdings ι :=
  { held := insert i h.held, ledger := h.ledger.create i }

/-- Something that exists uses the object. -/
def inUse (uses : ι → ι → Bool) (h : Holdings ι) (i : ι) : Bool :=
  decide (∃ u ∈ h.ledger.live, uses u i = true)

/-- The object is destroyed, and its pointer cleared. -/
def destroy (uses : ι → ι → Bool) (h : Holdings ι) (i : ι) : Holdings ι :=
  { held := h.held.erase i, ledger := h.ledger.destroy i (h.inUse uses i) }

/-- The object is destroyed where there is a pointer to it. -/
def destroyIfHeld (uses : ι → ι → Bool) (h : Holdings ι) (i : ι) : Holdings ι :=
  if i ∈ h.held then h.destroy uses i else h

/-- The last pointer to the object is dropped. -/
def lose (h : Holdings ι) (i : ι) : Holdings ι := { h with held := h.held.erase i }

/-! ## The rules -/

/-- The program points at `A` and has lost `L`, and all destructions were in order. -/
structure Owns (A L : Set ι) (h : Holdings ι) : Prop where
  held : ∀ i, i ∈ h.held ↔ i ∈ A
  live : ∀ i, i ∈ h.ledger.live ↔ i ∈ A ∨ i ∈ L
  accounted : h.ledger.Accounted fun _ => True

/-- The object is not used by anything of the set. -/
def Unused (uses : ι → ι → Bool) (A : Set ι) (i : ι) : Prop := ∀ u ∈ A, uses u i = false

variable {uses : ι → ι → Bool} {A L : Set ι} {h : Holdings ι} {i : ι}

theorem owns_empty : Owns ∅ ∅ (empty : Holdings ι) where
  held := by simp [empty]
  live := by simp [empty, Ledger.empty]
  accounted := Ledger.accounted_empty _

theorem Owns.create (ho : Owns A L h) (hA : i ∉ A) (hL : i ∉ L) :
    Owns (insert i A) L (h.create i) where
  held := by
    intro j
    rw [Set.mem_insert_iff, ← ho.held j]
    exact Finset.mem_insert
  live := by
    intro j
    rw [Set.mem_insert_iff, or_assoc, ← ho.live j]
    exact Finset.mem_insert
  accounted := by
    refine ho.accounted.create fun _ => ?_
    rw [ho.live]
    rintro (hi | hi)
    · exact hA hi
    · exact hL hi

theorem Owns.inUse_eq_false (ho : Owns A L h) (hA : Unused uses A i) (hL : Unused uses L i) :
    h.inUse uses i = false := by
  refine decide_eq_false ?_
  rintro ⟨u, hu, huses⟩
  rcases (ho.live u).mp hu with hu | hu
  · exact absurd huses (ne_true_of_eq_false (hA u hu))
  · exact absurd huses (ne_true_of_eq_false (hL u hu))

theorem Owns.destroy (ho : Owns A L h) (hi : i ∈ A) (hL : i ∉ L) (hA : Unused uses A i)
    (hused : Unused uses L i) : Owns (A \ {i}) L (h.destroy uses i) where
  held := by
    intro j
    rw [Set.mem_sdiff, ← ho.held j]
    exact Finset.mem_erase.trans And.comm
  live := by
    intro j
    have hj : j ∈ (h.destroy uses i).ledger.live ↔ j ≠ i ∧ j ∈ h.ledger.live := Finset.mem_erase
    rw [hj, ho.live j, Set.mem_sdiff, Set.mem_singleton_iff]
    constructor
    · rintro ⟨hne, hA | hL⟩
      · exact .inl ⟨hA, hne⟩
      · exact .inr hL
    · rintro (⟨hA, hne⟩ | hlost)
      · exact ⟨hne, .inl hA⟩
      · exact ⟨fun e => hL (e ▸ hlost), .inr hlost⟩
  accounted := by
    refine ho.accounted.destroy fun _ => ⟨?_, ho.inUse_eq_false hA hused⟩
    exact (ho.live i).mpr (.inl hi)

theorem Owns.destroyIfHeld (ho : Owns A L h) (hL : i ∉ L) (hA : Unused uses A i)
    (hused : Unused uses L i) : Owns (A \ {i}) L (h.destroyIfHeld uses i) := by
  by_cases hi : i ∈ A
  · rw [Holdings.destroyIfHeld, if_pos ((ho.held i).mpr hi)]
    exact ho.destroy hi hL hA hused
  · rw [Holdings.destroyIfHeld, if_neg fun hheld => hi ((ho.held i).mp hheld),
      Set.sdiff_singleton_eq_self hi]
    exact ho

theorem Owns.lose (ho : Owns A L h) (hi : i ∈ A) : Owns (A \ {i}) (insert i L) (h.lose i) where
  held := by
    intro j
    rw [Set.mem_sdiff, ← ho.held j]
    exact Finset.mem_erase.trans And.comm
  live := by
    intro j
    have hj : j ∈ (h.lose i).ledger.live ↔ j ∈ h.ledger.live := Iff.rfl
    rw [hj, ho.live j, Set.mem_sdiff, Set.mem_singleton_iff, Set.mem_insert_iff]
    by_cases hne : j = i
    · subst hne
      exact ⟨fun _ => .inr (.inl rfl), fun _ => .inl hi⟩
    · simp [hne]
  accounted := ho.accounted

end Holdings

end QcapDemos.Lib
