import Mathlib.Data.Finset.Lattice.Fold
import Mathlib.Order.Lattice.Nat

set_option autoImplicit false

/-! # A ledger of created and destroyed objects

A ledger keeps the set of live objects and the history of creations and destructions. Each
destruction notes whether the object was live and whether it was in use, so that a history can
be judged afterwards: `Accounted P` says that every object of `P` was destroyed as often as it
was created, once less while it is live, and never while dead or in use.

The last section picks names: `fresh used hint` is a name outside the finite set `used`, the
hinted one where that is possible.
-/

namespace QcapDemos.Lib

variable {ι : Type} [DecidableEq ι]

inductive LedgerEvent (ι : Type) where
  | created (i : ι)
  | destroyed (i : ι) (live used : Bool)
deriving DecidableEq

/-- The event destroys `i`. -/
def LedgerEvent.destroys (i : ι) : LedgerEvent ι → Bool
  | .created _ => false
  | .destroyed j _ _ => i == j

structure Ledger (ι : Type) where
  live : Finset ι
  events : List (LedgerEvent ι)

namespace Ledger

def empty : Ledger ι := { live := ∅, events := [] }

def create (L : Ledger ι) (i : ι) : Ledger ι :=
  { live := insert i L.live, events := L.events ++ [.created i] }

def destroy (L : Ledger ι) (i : ι) (used : Bool) : Ledger ι :=
  { live := L.live.erase i, events := L.events ++ [.destroyed i (i ∈ L.live) used] }

def creations (L : Ledger ι) (i : ι) : Nat := L.events.count (.created i)

def destructions (L : Ledger ι) (i : ι) : Nat := L.events.countP (LedgerEvent.destroys i)

@[simp] theorem live_create (L : Ledger ι) (i : ι) : (L.create i).live = insert i L.live := rfl

@[simp] theorem live_destroy (L : Ledger ι) (i : ι) (used : Bool) :
    (L.destroy i used).live = L.live.erase i := rfl

@[simp] theorem length_create (L : Ledger ι) (i : ι) :
    (L.create i).events.length = L.events.length + 1 := by
  simp [create]

@[simp] theorem length_destroy (L : Ledger ι) (i : ι) (used : Bool) :
    (L.destroy i used).events.length = L.events.length + 1 := by
  simp [destroy]

theorem creations_create (L : Ledger ι) (i j : ι) :
    (L.create i).creations j = L.creations j + if i = j then 1 else 0 := by
  simp only [creations, create, List.count_append, List.count_singleton]
  by_cases h : i = j <;> simp [h]

theorem destructions_create (L : Ledger ι) (i j : ι) :
    (L.create i).destructions j = L.destructions j := by
  simp [destructions, create, List.countP_append, LedgerEvent.destroys]

theorem creations_destroy (L : Ledger ι) (i j : ι) (used : Bool) :
    (L.destroy i used).creations j = L.creations j := by
  simp [creations, destroy, List.count_append]

theorem destructions_destroy (L : Ledger ι) (i j : ι) (used : Bool) :
    (L.destroy i used).destructions j = L.destructions j + if j = i then 1 else 0 := by
  simp only [destructions, destroy, List.countP_append, List.countP_singleton,
    LedgerEvent.destroys, beq_iff_eq]

/-! ## Judging the history -/

/-- The objects of `P` are accounted for: each was destroyed as often as it was created, once
less while it is live, and only ever while it was live and unused. -/
structure Accounted (P : ι → Prop) (L : Ledger ι) : Prop where
  balance : ∀ i, P i → L.creations i = L.destructions i + if i ∈ L.live then 1 else 0
  clean : ∀ i live used, .destroyed i live used ∈ L.events → P i → live = true ∧ used = false

theorem accounted_empty (P : ι → Prop) : Accounted P (empty : Ledger ι) where
  balance := by simp [creations, destructions, empty]
  clean := by simp [empty]

theorem Accounted.create {P : ι → Prop} {L : Ledger ι} (h : Accounted P L) {i : ι}
    (hi : P i → i ∉ L.live) : Accounted P (L.create i) where
  balance := by
    intro j hj
    rw [creations_create, destructions_create, h.balance j hj, live_create]
    by_cases hij : i = j
    · subst hij; simp [hi hj]
    · have hji : j ≠ i := fun e => hij e.symm
      simp [hij, hji]
  clean := by
    intro j live used hmem hj
    rcases List.mem_append.mp hmem with hmem | hmem
    · exact h.clean j live used hmem hj
    · simp at hmem

theorem Accounted.destroy {P : ι → Prop} {L : Ledger ι} (h : Accounted P L) {i : ι}
    {used : Bool} (hi : P i → i ∈ L.live ∧ used = false) : Accounted P (L.destroy i used) where
  balance := by
    intro j hj
    rw [creations_destroy, destructions_destroy, h.balance j hj, live_destroy]
    by_cases hij : j = i
    · subst hij; simp [(hi hj).1]
    · simp [hij]
  clean := by
    intro j live used' hmem hj
    rcases List.mem_append.mp hmem with hmem | hmem
    · exact h.clean j live used' hmem hj
    · rw [List.mem_singleton] at hmem
      obtain ⟨rfl, rfl, rfl⟩ := LedgerEvent.destroyed.inj hmem
      exact ⟨decide_eq_true (hi hj).1, (hi hj).2⟩

end Ledger

/-! ## Fresh names -/

/-- A nonzero name outside `used`: the hint, where it is one. -/
def fresh (used : Finset Nat) (hint : Nat) : Nat :=
  if hint ≠ 0 ∧ hint ∉ used then hint else used.sup id + 1

theorem fresh_ne_zero (used : Finset Nat) (hint : Nat) : fresh used hint ≠ 0 := by
  rw [fresh]; split
  · next h => exact h.1
  · exact Nat.succ_ne_zero _

theorem fresh_not_mem (used : Finset Nat) (hint : Nat) : fresh used hint ∉ used := by
  rw [fresh]; split
  · next h => exact h.2
  · intro hmem
    have hle : used.sup id + 1 ≤ used.sup id := Finset.le_sup (f := id) hmem
    omega

end QcapDemos.Lib
