import Mathlib.Algebra.GroupWithZero.Nat
import Mathlib.Data.List.Perm.Basic
import Mathlib.Data.List.Nodup
import Mathlib.Data.List.Range
import Mathlib.Logic.Function.Basic

set_option autoImplicit false

/-! # A ring of the latest entries, and counting in a sliding window

A ring of `k` slots that is written at index `n % k`, where `n` is the number of entries
written so far, holds the latest `k` entries in a rotating position. `Latest slots l` says so
for the history `l`, newest entry first. Counting the filled slots that meet a condition is
then counting in `l.take k` (`Latest.countP`), and for a condition that newer entries meet
whenever older ones do, comparing that count with `k` is the same as comparing the count over
the whole history (`countP_take`).

The last section is about histories of times: an event admitted only when fewer than `k`
earlier ones are younger than a window keeps every window of that length below `k + 1`.
-/

namespace QcapDemos.Lib

variable {α : Type}

/-! ## The latest entries -/

section Latest

variable {k : Nat} [NeZero k]

/-- The filled slots are the latest entries of the history `l`: slot `i` holds the newest
entry whose position in the order of writing is `i` modulo `k`. -/
def Latest (slots : Fin k → α) (l : List α) : Prop :=
  ∀ i, i < min l.length k → l[(l.length - 1 - i) % k]? = some (slots (Fin.ofNat k i))

theorem latest_nil (slots : Fin k → α) : Latest slots [] := by
  intro i hi
  simp at hi

theorem mod_succ_of_ne {k n : Nat} (hk : 0 < k) (h : (n + 1) % k ≠ 0) :
    (n + 1) % k = n % k + 1 := by
  have hlt := Nat.mod_lt n hk
  rw [Nat.add_mod] at h ⊢
  rcases Nat.eq_or_lt_of_le (Nat.succ_le_of_lt hk) with h1 | h1
  · rw [← h1] at h; simp [Nat.mod_one] at h
  · rw [Nat.mod_eq_of_lt h1] at h ⊢
    rcases Nat.eq_or_lt_of_le (Nat.succ_le_of_lt hlt) with h2 | h2
    · rw [Nat.succ_eq_add_one] at h2; rw [h2] at h; simp at h
    · exact Nat.mod_eq_of_lt h2

/-- Writing one more entry. -/
theorem Latest.push {slots : Fin k → α} {l : List α} (h : Latest slots l) (a : α) :
    Latest (Function.update slots (Fin.ofNat k l.length) a) (a :: l) := by
  have hk : 0 < k := Nat.pos_of_neZero k
  intro i hi
  rw [List.length_cons] at hi
  have hik : i < k := lt_of_lt_of_le hi (Nat.min_le_right _ _)
  have hin : i ≤ l.length := by
    have := lt_of_lt_of_le hi (Nat.min_le_left _ _); omega
  have hsub : (a :: l).length - 1 - i = l.length - i := by simp
  rw [hsub]
  by_cases hslot : l.length % k = i
  · -- The slot just written: the entries between `i` and the end fill whole turns.
    have hturn : (l.length - i) % k = 0 := by
      rw [← hslot]; exact Nat.sub_mod_eq_zero_of_mod_eq (Nat.mod_mod _ _).symm |>.symm ▸ rfl
    have heq : (Fin.ofNat k i) = Fin.ofNat k l.length := by
      apply Fin.ext; simp [Fin.ofNat, hslot, Nat.mod_eq_of_lt hik]
    rw [hturn, heq, Function.update_self]
    rfl
  · have hlt : i < l.length := by
      rcases Nat.lt_or_ge i l.length with h1 | h1
      · exact h1
      · exfalso
        have : l.length = i := by omega
        exact hslot (by rw [this]; exact Nat.mod_eq_of_lt hik)
    have hne : (l.length - 1 - i + 1) % k ≠ 0 := by
      intro h0
      apply hslot
      obtain ⟨c, hc⟩ := Nat.dvd_of_mod_eq_zero h0
      have : l.length = i + k * c := by omega
      rw [this, Nat.add_mul_mod_self_left, Nat.mod_eq_of_lt hik]
    have hstep : (l.length - i) % k = (l.length - 1 - i) % k + 1 := by
      rw [← mod_succ_of_ne hk hne]
      congr 1; omega
    have hfin : (Fin.ofNat k i) ≠ Fin.ofNat k l.length := by
      intro he
      have := congrArg Fin.val he
      simp only [Fin.ofNat, Nat.mod_eq_of_lt hik] at this
      exact hslot this.symm
    rw [hstep, List.getElem?_cons_succ, Function.update_of_ne hfin]
    exact h i (Nat.lt_min.mpr ⟨hlt, hik⟩)

/-- Reading the slots from position `i` to the age of its entry and back is the identity. -/
theorem age_involutive {k n i : Nat} (hi : i < min n k) :
    (n - 1 - (n - 1 - i) % k) % k = i := by
  have hik : i < k := lt_of_lt_of_le hi (Nat.min_le_right _ _)
  have hin : i < n := lt_of_lt_of_le hi (Nat.min_le_left _ _)
  have hdm := Nat.div_add_mod (n - 1 - i) k
  have hback : n - 1 - (n - 1 - i) % k = i + k * ((n - 1 - i) / k) := by omega
  rw [hback, Nat.add_mul_mod_self_left, Nat.mod_eq_of_lt hik]

theorem age_lt {k n i : Nat} (hi : i < min n k) : (n - 1 - i) % k < min n k := by
  have hik : i < k := lt_of_lt_of_le hi (Nat.min_le_right _ _)
  have hin : i < n := lt_of_lt_of_le hi (Nat.min_le_left _ _)
  exact Nat.lt_min.mpr ⟨lt_of_le_of_lt (Nat.mod_le _ _) (by omega), Nat.mod_lt _ (by omega)⟩

/-- The ages of the filled slots are a permutation of their positions. -/
theorem ages_perm (n k : Nat) :
    ((List.range (min n k)).map fun i => (n - 1 - i) % k).Perm (List.range (min n k)) := by
  refine (List.perm_ext_iff_of_nodup ?_ List.nodup_range).mpr ?_
  · refine List.Nodup.map_on ?_ List.nodup_range
    intro i hi j hj hij
    rw [List.mem_range] at hi hj
    rw [← age_involutive hi, ← age_involutive hj, hij]
  · intro j
    simp only [List.mem_map, List.mem_range]
    constructor
    · rintro ⟨i, hi, rfl⟩; exact age_lt hi
    · intro hj; exact ⟨_, age_lt hj, age_involutive hj⟩

/-- **Counting in the ring is counting among the latest `k` entries.** -/
theorem Latest.countP {slots : Fin k → α} {l : List α} (h : Latest slots l) (p : α → Bool) :
    (List.range (min l.length k)).countP (fun i => p (slots (Fin.ofNat k i)))
      = (l.take k).countP p := by
  have hslots : (List.range (min l.length k)).map (fun i => some (slots (Fin.ofNat k i)))
      = ((List.range (min l.length k)).map fun i => (l.length - 1 - i) % k).map (l[·]?) := by
    rw [List.map_map]
    refine List.map_congr_left fun i hi => ?_
    exact (h i (List.mem_range.mp hi)).symm
  have htake : (l.take k).map some = (List.range (min l.length k)).map (l[·]?) := by
    apply List.ext_getElem?
    intro j
    rw [List.getElem?_map, List.getElem?_map, List.getElem?_take]
    by_cases hj : j < min l.length k
    · have hjk := lt_of_lt_of_le hj (Nat.min_le_right _ _)
      have hjl := lt_of_lt_of_le hj (Nat.min_le_left _ _)
      simp [hjk, List.getElem?_range hj, List.getElem?_eq_getElem hjl]
    · have hnone : (List.range (min l.length k))[j]? = none :=
        List.getElem?_eq_none (by rw [List.length_range]; omega)
      rw [hnone]
      split
      · have : l.length ≤ j := by omega
        simp [this]
      · rfl
  have hperm : ((List.range (min l.length k)).map fun i => some (slots (Fin.ofNat k i))).Perm
      ((l.take k).map some) := by
    rw [hslots, htake]
    exact (ages_perm l.length k).map _
  have hcount := hperm.countP_eq (fun o => o.any p)
  rw [List.countP_map, List.countP_map] at hcount
  exact hcount

end Latest

/-- A condition that newer entries meet whenever older ones do: counting in the latest `k`
entries is counting in the whole history, up to `k`. -/
theorem countP_take (p : α → Bool) (l : List α)
    (h : l.Pairwise fun newer older => p older = true → p newer = true) (k : Nat) :
    (l.take k).countP p = min k (l.countP p) := by
  induction l generalizing k with
  | nil => simp
  | cons a l ih =>
      rw [List.pairwise_cons] at h
      cases k with
      | zero => simp
      | succ k =>
          rw [List.take_succ_cons, List.countP_cons, List.countP_cons, ih h.2 k]
          by_cases ha : p a = true
          · simp only [ha, if_true]; omega
          · -- The newest entry fails, so all do.
            have hall : l.countP p = 0 := by
              rw [List.countP_eq_zero]
              intro b hb hpb
              exact ha (h.1 b hb hpb)
            simp [hall, ha]

/-! ## Sliding windows over a history of times -/

/-- The times of the history, newest first, that are less than `w` before `now`. -/
def younger (w now : Nat) (l : List Nat) : Nat := l.countP fun t => now - t < w

/-- The times of the history in the half-open window of length `w` from `t`. -/
def inWindow (w t : Nat) (l : List Nat) : Nat := l.countP fun g => t ≤ g ∧ g < t + w

/-- Being younger than `w` is inherited by newer entries. -/
theorem pairwise_younger (w now : Nat) {l : List Nat} (h : l.Pairwise (· ≥ ·)) :
    l.Pairwise fun newer older =>
      decide (now - older < w) = true → decide (now - newer < w) = true := by
  refine h.imp fun {newer older} hge => ?_
  simp only [decide_eq_true_eq]
  omega

/-- **Admission by age bounds every window.** When the newest entry found fewer than `k`
entries younger than `w`, no window of length `w` holds more than `k`. -/
theorem inWindow_cons_le {w now k : Nat} {l : List Nat} (hlt : younger w now l < k)
    (hprev : ∀ t, inWindow w t l ≤ k) (hle : ∀ g ∈ l, g ≤ now) :
    ∀ t, inWindow w t (now :: l) ≤ k := by
  intro t
  rw [inWindow, List.countP_cons]
  by_cases ht : t ≤ now ∧ now < t + w
  · have hmono : l.countP (fun g => t ≤ g ∧ g < t + w) ≤ younger w now l := by
      refine List.countP_mono_left fun g hg hin => ?_
      have hgn := hle g hg
      simp only [decide_eq_true_eq] at hin ⊢
      omega
    simp only [ht, and_self, decide_true, if_true]
    omega
  · have := hprev t
    rw [inWindow] at this
    simp only [ht, decide_false, Bool.false_eq_true, if_false]
    omega

end QcapDemos.Lib
