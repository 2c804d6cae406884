import Mathlib.Data.List.MinMax
import QcapDemos.Lib.Run

set_option autoImplicit false

/-! # The first best element of a list

A search for the best element that keeps the one it has until a better one comes selects the first
of the best ones. This is Mathlib's `List.argmax`; here it is described by where the element stands
in the list, and recognised in two other forms of the search: a fold, and a chain of `find?`.
Whether it has a property is told from the list by comparing its elements (`FirstBest.leads_iff`).
-/

namespace QcapDemos.Lib

variable {α β : Type} [LinearOrder β] {f : α → β} {l : List α} {m : α}

/-- `m` is better than everything before it in the list, and nothing after it is better. -/
def FirstBest (f : α → β) (l : List α) (m : α) : Prop :=
  ∃ before after, l = before ++ m :: after ∧ (∀ a ∈ before, f a < f m) ∧ ∀ a ∈ after, f a ≤ f m

theorem FirstBest.mem (h : FirstBest f l m) : m ∈ l := by
  obtain ⟨before, after, rfl, -⟩ := h
  exact List.mem_append_right _ List.mem_cons_self

theorem FirstBest.le (h : FirstBest f l m) {a : α} (ha : a ∈ l) : f a ≤ f m := by
  obtain ⟨before, after, rfl, hbefore, hafter⟩ := h
  rcases List.mem_append.mp ha with ha | ha
  · exact (hbefore a ha).le
  · rcases List.mem_cons.mp ha with rfl | ha
    · exact le_rfl
    · exact hafter a ha

theorem firstBest_snoc {e : α} :
    FirstBest f (l ++ [e]) m ↔ (m = e ∧ ∀ a ∈ l, f a < f e) ∨ (FirstBest f l m ∧ f e ≤ f m) := by
  constructor
  · rintro ⟨before, after, hl, hbefore, hafter⟩
    rcases snoc_eq_append_cons hl with ⟨rfl, rfl, rfl⟩ | ⟨after, rfl, rfl⟩
    · exact .inl ⟨rfl, hbefore⟩
    · exact .inr ⟨⟨before, after, rfl, hbefore, fun a ha => hafter a (List.mem_append_left _ ha)⟩,
        hafter e (List.mem_append_right _ List.mem_cons_self)⟩
  · rintro (⟨rfl, hall⟩ | ⟨⟨before, after, rfl, hbefore, hafter⟩, he⟩)
    · exact ⟨l, [], rfl, hall, by simp⟩
    · refine ⟨before, after ++ [e], by simp, hbefore, fun a ha => ?_⟩
      rcases List.mem_append.mp ha with ha | ha
      · exact hafter a ha
      · rw [List.mem_singleton.mp ha]
        exact he

theorem argmax_eq_some_iff_firstBest : l.argmax f = some m ↔ FirstBest f l m := by
  induction l using List.reverseRecOn generalizing m with
  | nil =>
      constructor
      · intro h
        cases h
      · rintro ⟨before, after, hl, -⟩
        simp at hl
  | append_singleton l e ih =>
      -- the last element replaces the best of the others, or it does not
      rw [List.argmax_concat, firstBest_snoc]
      cases hbest : l.argmax f with
      | none =>
          rw [List.argmax_eq_none] at hbest
          subst hbest
          constructor
          · intro h
            cases h
            exact .inl ⟨rfl, by simp⟩
          · rintro (⟨rfl, -⟩ | ⟨h, -⟩)
            · rfl
            · cases h.mem
      | some c =>
          have hc : FirstBest f l c := ih.mp hbest
          show (if f c < f e then some e else some c) = some m ↔ _
          by_cases hlt : f c < f e
          · rw [if_pos hlt]
            constructor
            · intro h
              cases h
              exact .inl ⟨rfl, fun a ha => lt_of_le_of_lt (hc.le ha) hlt⟩
            · rintro (⟨rfl, -⟩ | ⟨h, he⟩)
              · rfl
              · rw [ih.mpr h] at hbest
                cases hbest
                exact absurd he (not_le.mpr hlt)
          · rw [if_neg hlt]
            constructor
            · intro h
              cases h
              exact .inr ⟨hc, not_lt.mp hlt⟩
            · rintro (⟨rfl, hall⟩ | ⟨h, -⟩)
              · exact absurd (hall c hc.mem) hlt
              · rw [← hbest]
                exact ih.mpr h

theorem FirstBest.unique {m' : α} (h : FirstBest f l m) (h' : FirstBest f l m') : m = m' := by
  rw [← argmax_eq_some_iff_firstBest] at h h'
  exact Option.some.inj (h.symm.trans h')

/-- Something with the property is better than all without it, or as good and listed earlier. -/
def Leads (f : α → β) (l : List α) (P : α → Prop) : Prop :=
  ∃ u ∈ l, P u ∧ ∀ v ∈ l, ¬ P v →
    f v < f u ∨ (f v = f u ∧ ∃ before after, l = before ++ u :: after ∧ v ∉ before)

/-- **The first best element has a property** exactly when something with the property leads. -/
theorem FirstBest.leads_iff (h : FirstBest f l m) (P : α → Prop) : Leads f l P ↔ P m := by
  obtain ⟨before, after, hl, hbefore, hafter⟩ := h
  have hmem : m ∈ l := hl ▸ List.mem_append_right before List.mem_cons_self
  constructor
  · rintro ⟨u, hu, hPu, hlead⟩
    by_contra hPm
    have hle : f u ≤ f m := FirstBest.le ⟨before, after, hl, hbefore, hafter⟩ hu
    rcases hlead m hmem hPm with hlt | ⟨heq, before', after', hl', hnot⟩
    · exact absurd hlt (not_lt.mpr hle)
    · -- two equally good elements, and each of them would come first
      have hne : u ≠ m := fun he => hPm (he ▸ hPu)
      rcases List.append_eq_append_iff.mp (hl.symm.trans hl') with
        ⟨rest, rfl, hrest⟩ | ⟨rest, rfl, hrest⟩
      · cases rest with
        | nil => exact hne (List.cons.inj hrest).1.symm
        | cons a rest =>
            obtain ⟨rfl, -⟩ := List.cons.inj hrest
            exact hnot (List.mem_append_right _ List.mem_cons_self)
      · cases rest with
        | nil => exact hne (List.cons.inj hrest).1
        | cons a rest =>
            obtain ⟨rfl, -⟩ := List.cons.inj hrest
            have hlt := hbefore u (List.mem_append_right _ List.mem_cons_self)
            exact absurd heq hlt.ne'
  · intro hPm
    refine ⟨m, hmem, hPm, fun v hv hPv => ?_⟩
    rcases (FirstBest.le ⟨before, after, hl, hbefore, hafter⟩ hv).lt_or_eq with hlt | heq
    · exact .inl hlt
    · exact .inr ⟨heq, before, after, hl, fun hvb => absurd heq (hbefore v hvb).ne⟩

/-- A search by a predicate finds the first best element, if the predicate tells the best ones. -/
theorem firstBest_of_find? {p : α → Bool} (h : l.find? p = some m) (hbest : ∀ a ∈ l, f a ≤ f m)
    (hother : ∀ a ∈ l, p a = false → f a < f m) : FirstBest f l m := by
  obtain ⟨-, before, after, rfl, hbefore⟩ := List.find?_eq_some_iff_append.mp h
  refine ⟨before, after, rfl, fun a ha => ?_, fun a ha => ?_⟩
  · exact hother a (List.mem_append_left _ ha) (by simpa using hbefore a ha)
  · exact hbest a (List.mem_append_right _ (List.mem_cons_of_mem m ha))

/-- A fold that replaces its element by better ones selects the first best. -/
theorem foldl_eq_argmax (l : List α) (better : α → α → Bool)
    (hbetter : ∀ a b, better a b = true ↔ f b < f a) :
    l.foldl (fun best a => if best.all (better a ·) then some a else best) none = l.argmax f := by
  rw [List.argmax]
  congr 1
  funext best a
  cases best with
  | none => rfl
  | some b =>
      show (if better a b = true then some a else some b) = if f b < f a then some a else some b
      simp only [hbetter]

end QcapDemos.Lib
