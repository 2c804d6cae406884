import Mathlib.Data.List.Chain

set_option autoImplicit false

/-! # Cutting a list at positions

`cut size starts` are the ranges that begin at the given positions: each ends where the next one
begins, the last one at `size`. Positions in increasing order cut a list, from the first of them
on, into pieces without loss or overlap (`flatten_cut`), and no piece holds a second position
(`eq_of_mem_cut`).
-/

namespace QcapDemos.Lib

variable {α : Type}

def cut (size : Nat) : List Nat → List (Nat × Nat)
  | [] => []
  | [a] => [(a, size)]
  | a :: b :: rest => (a, b) :: cut size (b :: rest)

/-- The elements in a range. -/
def slice (data : List α) (r : Nat × Nat) : List α := (data.drop r.1).take (r.2 - r.1)

theorem map_fst_cut (size : Nat) (starts : List Nat) :
    (cut size starts).map Prod.fst = starts := by
  fun_induction cut size starts with
  | case1 => rfl
  | case2 a => rfl
  | case3 a b rest ih => rw [List.map_cons, ih]

theorem cut_cons_eq (size b : Nat) (rest : List Nat) :
    ∃ e tail, cut size (b :: rest) = (b, e) :: tail := by
  cases rest with
  | nil => exact ⟨_, _, rfl⟩
  | cons c rest => exact ⟨_, _, rfl⟩

/-- A further position ends the last range. -/
theorem cut_snoc (size : Nat) (starts : List Nat) (a : Nat) :
    cut size (starts ++ [a]) = cut a starts ++ [(a, size)] := by
  fun_induction cut a starts with
  | case1 => rfl
  | case2 b => rfl
  | case3 b c rest ih =>
      rw [List.cons_append] at ih
      rw [List.cons_append, List.cons_append, List.cons_append, ← ih]
      rfl

theorem isChain_cut (size : Nat) (starts : List Nat) :
    (cut size starts).IsChain fun r s => r.2 = s.1 := by
  fun_induction cut size starts with
  | case1 => exact List.IsChain.nil
  | case2 a => exact List.IsChain.singleton _
  | case3 a b rest ih =>
      obtain ⟨e, tail, hcut⟩ := cut_cons_eq size b rest
      rw [hcut] at ih ⊢
      exact List.isChain_cons_cons.mpr ⟨rfl, ih⟩

theorem getLast?_cut (size : Nat) (starts : List Nat) :
    ∀ r ∈ (cut size starts).getLast?, r.2 = size := by
  fun_induction cut size starts with
  | case1 => simp
  | case2 a => simp
  | case3 a b rest ih =>
      obtain ⟨e, tail, hcut⟩ := cut_cons_eq size b rest
      rw [hcut] at ih ⊢
      rw [List.getLast?_cons_of_ne_nil (List.cons_ne_nil _ tail)]
      exact ih

section Sorted

variable {size : Nat} {starts : List Nat}

/-- The ranges are not empty, and stay within the size. -/
theorem bounds_of_mem_cut (hsorted : starts.Pairwise (· < ·)) (hsize : ∀ s ∈ starts, s < size) :
    ∀ r ∈ cut size starts, r.1 < r.2 ∧ r.2 ≤ size := by
  fun_induction cut size starts with
  | case1 => simp
  | case2 a =>
      intro r hr
      obtain rfl := List.mem_singleton.mp hr
      exact ⟨hsize a List.mem_cons_self, le_rfl⟩
  | case3 a b rest ih =>
      have hab := List.rel_of_pairwise_cons hsorted List.mem_cons_self
      have hb := hsize b (List.mem_cons_of_mem a List.mem_cons_self)
      intro r hr
      rcases List.mem_cons.mp hr with rfl | hr
      · exact ⟨hab, hb.le⟩
      · exact ih hsorted.tail (fun s hs => hsize s (List.mem_cons_of_mem a hs)) r hr

/-- The end of a range is a position, or the size. -/
theorem end_of_mem_cut : ∀ r ∈ cut size starts, r.2 ∈ starts ∨ r.2 = size := by
  fun_induction cut size starts with
  | case1 => simp
  | case2 a => simp
  | case3 a b rest ih =>
      intro r hr
      rcases List.mem_cons.mp hr with rfl | hr
      · exact .inl (List.mem_cons_of_mem a List.mem_cons_self)
      · rcases ih r hr with hmem | hend
        · exact .inl (List.mem_cons_of_mem a hmem)
        · exact .inr hend

theorem fst_mem_of_mem_cut {r : Nat × Nat} (hr : r ∈ cut size starts) : r.1 ∈ starts := by
  have hmem := List.mem_map_of_mem (f := Prod.fst) hr
  rwa [map_fst_cut] at hmem

/-- A position in a range is its beginning. -/
theorem eq_of_mem_cut (hsorted : starts.Pairwise (· < ·)) {r : Nat × Nat}
    (hr : r ∈ cut size starts) {t : Nat} (ht : t ∈ starts) (hle : r.1 ≤ t) (hlt : t < r.2) :
    t = r.1 := by
  fun_induction cut size starts with
  | case1 => cases ht
  | case2 a =>
      obtain rfl := List.mem_singleton.mp hr
      exact List.mem_singleton.mp ht
  | case3 a b rest ih =>
      have hbelow (s : Nat) (hs : s ∈ b :: rest) : a < s :=
        List.rel_of_pairwise_cons hsorted hs
      rcases List.mem_cons.mp hr with rfl | hr
      · rcases List.mem_cons.mp ht with rfl | ht
        · rfl
        · -- the positions after `a` are at `b` or beyond, where the range has ended
          rcases List.mem_cons.mp ht with rfl | ht
          · exact absurd hlt (lt_irrefl t)
          · have hbt : b < t := List.rel_of_pairwise_cons hsorted.tail ht
            have htb : t < b := hlt
            omega
      · have hr' := hbelow r.1 (fst_mem_of_mem_cut hr)
        rcases List.mem_cons.mp ht with rfl | ht
        · omega
        · exact ih hsorted.tail hr ht

/-- **Without loss or overlap.** The pieces in their order are the list from the first position
on. -/
theorem flatten_cut (data : List α) {a : Nat} {rest : List Nat}
    (hsorted : (a :: rest).Pairwise (· < ·)) :
    ((cut data.length (a :: rest)).map (slice data)).flatten = data.drop a := by
  induction rest generalizing a with
  | nil =>
      show (data.drop a).take (data.length - a) ++ [] = _
      rw [List.append_nil, ← List.length_drop, List.take_length]
  | cons b rest ih =>
      have hab : a < b := List.rel_of_pairwise_cons hsorted List.mem_cons_self
      have hb : b = a + (b - a) := by omega
      show (data.drop a).take (b - a) ++ _ = _
      rw [ih hsorted.tail]
      nth_rewrite 2 [hb]
      rw [← List.drop_drop, List.take_append_drop]

end Sorted

end QcapDemos.Lib
