import QcapDemos.Lib.Run
import Mathlib.Order.Interval.Finset.Nat

set_option autoImplicit false

/-! # Sequence numbers

The numbers of a stream go round modulo `2 ^ w`, and their order can be told as long as they are
close to each other. This file fixes what an account of the arrivals of a stream is about, in the
numbers before they go round: the highest one so far, the arrivals that are not beyond it, and the
numbers that are missing.
-/

namespace QcapDemos.Lib

/-! ## Going round -/

section Wrap

variable {w a b : Nat}

/-- Numbers that are close to each other are told apart. -/
theorem ofNat_inj_of_near (ha : a < b + 2 ^ w) (hb : b < a + 2 ^ w) :
    BitVec.ofNat w a = BitVec.ofNat w b ↔ a = b := by
  constructor
  · intro h
    have hmod : a % 2 ^ w = b % 2 ^ w := by
      have htoNat := congrArg BitVec.toNat h
      rwa [BitVec.toNat_ofNat, BitVec.toNat_ofNat] at htoNat
    rcases Nat.le_total a b with hab | hab
    · have hzero := Nat.sub_mod_eq_zero_of_mod_eq hmod.symm
      rw [Nat.mod_eq_of_lt (by omega)] at hzero
      omega
    · have hzero := Nat.sub_mod_eq_zero_of_mod_eq hmod
      rw [Nat.mod_eq_of_lt (by omega)] at hzero
      omega
  · rintro rfl
    rfl

/-- The distance to a number ahead. -/
theorem toNat_sub_of_near (hba : b ≤ a) (h : a < b + 2 ^ w) :
    (BitVec.ofNat w a - BitVec.ofNat w b).toNat = a - b := by
  obtain ⟨d, rfl⟩ := Nat.exists_eq_add_of_le hba
  have hsum : BitVec.ofNat w (b + d) - BitVec.ofNat w b = BitVec.ofNat w d := by
    rw [BitVec.ofNat_add, BitVec.add_comm, BitVec.add_sub_cancel]
  rw [hsum, BitVec.toNat_ofNat, Nat.mod_eq_of_lt (by omega)]
  omega

end Wrap

/-! ## Arrivals -/

section Arrivals

/-- The highest of the numbers `first` and `rest`. -/
def highest (first : Nat) (rest : List Nat) : Nat := rest.foldl max first

/-- The arrivals of `rest` that are not beyond the highest number before them. -/
def notBeyond : Nat → List Nat → Nat
  | _, [] => 0
  | high, a :: rest => if a ≤ high then notBeyond high rest + 1 else notBeyond a rest

/-- The numbers between the first and the highest that did not arrive. -/
def missing (first : Nat) (rest : List Nat) : Finset Nat :=
  Finset.Icc first (highest first rest) \ (first :: rest).toFinset

/-- Every arrival is less than `range` away from the highest number before it. -/
def InReach (range first : Nat) (rest : List Nat) : Prop :=
  Machine.Admissible (fun before a => a < highest first before + range ∧
    highest first before < a + range) rest

variable {first a x : Nat} {rest : List Nat}

@[simp] theorem highest_nil (first : Nat) : highest first [] = first := rfl

@[simp] theorem highest_snoc (first : Nat) (rest : List Nat) (a : Nat) :
    highest first (rest ++ [a]) = max (highest first rest) a := by
  rw [highest, List.foldl_append]
  rfl

theorem le_highest (h : x ∈ first :: rest) : x ≤ highest first rest := by
  induction rest using List.reverseRecOn with
  | nil => exact (List.mem_singleton.mp h).le
  | append_singleton rest a ih =>
      rw [highest_snoc]
      rw [← List.cons_append, List.mem_append, List.mem_singleton] at h
      rcases h with h | rfl
      · exact (ih h).trans (Nat.le_max_left _ _)
      · exact Nat.le_max_right _ _

theorem highest_mem (first : Nat) (rest : List Nat) : highest first rest ∈ first :: rest := by
  induction rest using List.reverseRecOn with
  | nil => exact List.mem_singleton_self first
  | append_singleton rest a ih =>
      rw [highest_snoc, ← List.cons_append, List.mem_append, List.mem_singleton]
      rcases Nat.le_total (highest first rest) a with h | h
      · exact .inr (Nat.max_eq_right h)
      · rw [Nat.max_eq_left h]
        exact .inl ih

theorem notBeyond_snoc (first : Nat) (rest : List Nat) (a : Nat) :
    notBeyond first (rest ++ [a])
      = notBeyond first rest + if a ≤ highest first rest then 1 else 0 := by
  induction rest generalizing first with
  | nil =>
      rw [List.nil_append, highest_nil]
      by_cases ha : a ≤ first
      · simp [notBeyond, ha]
      · simp [notBeyond, ha]
  | cons b rest ih =>
      have hhigh : highest first (b :: rest) = highest (max first b) rest := rfl
      rw [List.cons_append, notBeyond, notBeyond, hhigh]
      by_cases hb : b ≤ first
      · rw [if_pos hb, if_pos hb, ih, Nat.max_eq_left hb]
        omega
      · rw [if_neg hb, if_neg hb, ih, Nat.max_eq_right (by omega)]

/-- Arrivals in order stay in order exactly if the next one is not behind the highest. -/
theorem pairwise_snoc :
    (first :: (rest ++ [a])).Pairwise (· ≤ ·) ↔
      (first :: rest).Pairwise (· ≤ ·) ∧ highest first rest ≤ a := by
  rw [← List.cons_append, List.pairwise_append]
  constructor
  · rintro ⟨hpairs, -, hle⟩
    exact ⟨hpairs, hle _ (highest_mem first rest) a List.mem_cons_self⟩
  · rintro ⟨hpairs, hle⟩
    refine ⟨hpairs, List.pairwise_singleton _ _, fun x hx y hy => ?_⟩
    obtain rfl := List.mem_singleton.mp hy
    exact (le_highest hx).trans hle

theorem mem_missing :
    x ∈ missing first rest ↔ (first ≤ x ∧ x ≤ highest first rest) ∧ x ∉ first :: rest := by
  rw [missing, Finset.mem_sdiff, Finset.mem_Icc, List.mem_toFinset]

theorem not_mem_of_highest_lt (h : highest first rest < x) : x ∉ first :: rest :=
  fun hmem => absurd (le_highest hmem) (not_le.mpr h)

theorem toFinset_snoc (first : Nat) (rest : List Nat) (a : Nat) :
    (first :: (rest ++ [a])).toFinset = insert a (first :: rest).toFinset := by
  ext x
  rw [← List.cons_append, List.mem_toFinset, Finset.mem_insert, List.mem_toFinset,
    List.mem_append, List.mem_singleton, or_comm]

/-- An arrival beyond the highest number leaves missing what did not arrive before it. -/
theorem mem_missing_snoc (h : highest first rest < a) :
    x ∈ missing first (rest ++ [a]) ↔ first ≤ x ∧ x < a ∧ x ∉ first :: rest := by
  rw [mem_missing, highest_snoc, Nat.max_eq_right h.le, ← List.cons_append, List.mem_append,
    List.mem_singleton, not_or]
  constructor
  · rintro ⟨⟨hfirst, hle⟩, hnot, hne⟩
    exact ⟨hfirst, lt_of_le_of_ne hle hne, hnot⟩
  · rintro ⟨hfirst, hlt, hnot⟩
    exact ⟨⟨hfirst, hlt.le⟩, hnot, hlt.ne⟩

/-- Of arrivals in order, all but the missing numbers up to the highest are there. -/
theorem card_missing (h : (first :: rest).Pairwise (· ≤ ·)) :
    (missing first rest).card + (first :: rest).toFinset.card = highest first rest + 1 - first := by
  have hsub : (first :: rest).toFinset ⊆ Finset.Icc first (highest first rest) := by
    intro x hx
    rw [List.mem_toFinset] at hx
    refine Finset.mem_Icc.mpr ⟨?_, le_highest hx⟩
    rcases List.mem_cons.mp hx with rfl | hx
    · exact le_rfl
    · exact List.rel_of_pairwise_cons h hx
  rw [missing, Finset.card_sdiff_add_card_eq_card hsub, Nat.card_Icc]

end Arrivals

end QcapDemos.Lib
