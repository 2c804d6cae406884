import Mathlib.Algebra.Order.Group.Defs
import Mathlib.Data.List.Induction
import Mathlib.Data.List.MinMax
import Mathlib.Data.List.Perm.Basic
import Mathlib.Tactic.Linarith

set_option autoImplicit false

/-! # Scans that keep a champion

A scan over a list that replaces the element it keeps whenever the next one is better. The
comparison need not be an order: it may be tolerant, so that being no better is not transitive, and
it may favour some elements over faster ones. Three facts hold for such scans nevertheless.

* A key that is compared first decides: only the elements with the greatest key matter
  (`champion_lex`).
* A tolerant comparison loses no more than the tolerance, over lists of any length
  (`lastRecord_near`).
* With favoured elements it does so on a list where the favour decides nothing, or where an element
  near the fastest is met that nothing displaces (`Lossless.near`). Where no element is only just
  not near the fastest, these are the only such lists (`lossless_of_near`).
-/

namespace QcapDemos.Lib

variable {α : Type}

/-- The element that a scan ends with. -/
def champion (better : α → α → Bool) (l : List α) : Option α :=
  l.foldl (fun best a => if best.all (better a ·) then some a else best) none

section Champion

variable {better : α → α → Bool} {l : List α} {m : α}

theorem champion_snoc (better : α → α → Bool) (l : List α) (a : α) :
    champion better (l ++ [a]) =
      if (champion better l).all (better a ·) then some a else champion better l := by
  unfold champion
  rw [List.foldl_append]
  rfl

theorem champion_eq_none : champion better l = none ↔ l = [] := by
  induction l using List.reverseRecOn with
  | nil => exact ⟨fun _ => rfl, fun _ => rfl⟩
  | append_singleton l a ih =>
      rw [champion_snoc]
      cases hbest : champion better l with
      | none => simp
      | some b =>
          by_cases hb : better a b = true
          · simp [hb]
          · simp [hb]

/-- **The rule of scans**: what holds of the first element, and is kept where an element takes the
place of the champion and where it does not, holds of the champion of every list. -/
theorem champion_rule {P : List α → α → Prop} (first : ∀ a, P [a] a)
    (takes : ∀ seen b a, champion better seen = some b → P seen b → better a b = true →
      P (seen ++ [a]) a)
    (keeps : ∀ seen b a, champion better seen = some b → P seen b → better a b = false →
      P (seen ++ [a]) b)
    (h : champion better l = some m) : P l m := by
  induction l using List.reverseRecOn generalizing m with
  | nil => cases h
  | append_singleton l a ih =>
      rw [champion_snoc] at h
      cases hbest : champion better l with
      | none =>
          obtain rfl : l = [] := champion_eq_none.mp hbest
          rw [hbest] at h
          cases h
          exact first a
      | some b =>
          rw [hbest, Option.all_some] at h
          cases hb : better a b with
          | true =>
              obtain rfl : a = m := by simpa [hb] using h
              exact takes l b a hbest (ih hbest) hb
          | false =>
              obtain rfl : b = m := by simpa [hb] using h
              exact keeps l b a hbest (ih hbest) hb

theorem champion_mem (h : champion better l = some m) : m ∈ l := by
  refine champion_rule (P := fun seen b => b ∈ seen) ?_ ?_ ?_ h
  · exact fun a => List.mem_singleton_self a
  · exact fun seen b a _ _ _ => List.mem_append_right seen (List.mem_singleton_self a)
  · exact fun seen b a _ hb _ => List.mem_append_left [a] hb

/-- What holds of a champion, and of whatever beats one it holds of, holds of the champion of every
continuation. -/
theorem champion_append {P : α → Prop} {rest : List α} (h : champion better l = some m) (hm : P m)
    (hrest : ∀ a ∈ rest, ∀ b, P b → better a b = true → P a) :
    ∃ m', champion better (l ++ rest) = some m' ∧ P m' := by
  induction rest using List.reverseRecOn with
  | nil => exact ⟨m, by rwa [List.append_nil], hm⟩
  | append_singleton rest a ih =>
      obtain ⟨b, hb, hPb⟩ := ih fun c hc => hrest c (List.mem_append_left [a] hc)
      have ha := hrest a (List.mem_append_right rest (List.mem_singleton_self a)) b hPb
      rw [← List.append_assoc, champion_snoc, hb, Option.all_some]
      cases hab : better a b with
      | true => exact ⟨a, by simp, ha hab⟩
      | false => exact ⟨b, by simp, hPb⟩

/-- The champion behind an element is that element, or one before it that it does not beat. -/
theorem champion_snoc_cases (better : α → α → Bool) (l : List α) (a : α) :
    ∃ c, champion better (l ++ [a]) = some c ∧ (c = a ∨ (c ∈ l ∧ better a c = false)) := by
  rw [champion_snoc]
  cases hbest : champion better l with
  | none => exact ⟨a, rfl, .inl rfl⟩
  | some c =>
      rw [Option.all_some]
      cases hac : better a c with
      | true => exact ⟨a, by simp, .inl rfl⟩
      | false => exact ⟨c, by simp, .inr ⟨champion_mem hbest, hac⟩⟩

end Champion

/-! ## A key that is compared first -/

section Key

variable {κ : Type} [LinearOrder κ]

/-- The elements whose key is greatest. -/
def greatest (key : α → κ) (l : List α) : List α := l.filter fun a => l.all fun b => key b ≤ key a

theorem mem_greatest {key : α → κ} {l : List α} {a : α} :
    a ∈ greatest key l ↔ a ∈ l ∧ ∀ b ∈ l, key b ≤ key a := by
  simp [greatest]

/-- One more element has the greatest key alone, or beside the others, or not at all. -/
theorem greatest_snoc (key : α → κ) {l : List α} {m a : α} (hm : m ∈ greatest key l) :
    greatest key (l ++ [a]) =
      if key m < key a then [a]
      else if key a = key m then greatest key l ++ [a] else greatest key l := by
  obtain ⟨hmem, hmax⟩ := mem_greatest.mp hm
  -- an old element stays if the new key is not greater, the new one comes in if it is not less
  have hold (c : α) (hc : c ∈ l) : (l ++ [a]).all (fun b => key b ≤ key c) = true ↔
      l.all (fun b => key b ≤ key c) = true ∧ key a ≤ key m := by
    simp only [List.all_append, List.all_cons, List.all_nil, Bool.and_true, Bool.and_eq_true,
      decide_eq_true_eq, List.all_eq_true]
    refine and_congr_right fun hall => ⟨fun hle => hle.trans (hmax c hc), fun hle => ?_⟩
    exact hle.trans (hall m hmem)
  have hnew : (l ++ [a]).all (fun b => key b ≤ key a) = true ↔ key m ≤ key a := by
    simp only [List.all_append, List.all_cons, List.all_nil, Bool.and_true, Bool.and_eq_true,
      decide_eq_true_eq, List.all_eq_true, le_refl, and_true]
    exact ⟨fun hall => hall m hmem, fun hle b hb => (hmax b hb).trans hle⟩
  have hfilter : l.filter (fun c => (l ++ [a]).all fun b => key b ≤ key c) =
      if key a ≤ key m then greatest key l else [] := by
    by_cases hle : key a ≤ key m
    · rw [if_pos hle, greatest]
      refine List.filter_congr fun c hc => ?_
      rw [Bool.eq_iff_iff, hold c hc]
      exact and_iff_left hle
    · rw [if_neg hle, List.filter_eq_nil_iff]
      exact fun c hc hall => hle ((hold c hc).mp hall).2
  unfold greatest at hfilter ⊢
  rw [List.filter_append, hfilter, List.filter_singleton]
  rcases lt_trichotomy (key m) (key a) with hlt | heq | hgt
  · rw [if_neg (not_le.mpr hlt), if_pos hlt, hnew.mpr hlt.le]
    rfl
  · rw [if_pos heq.ge, if_neg (heq ▸ lt_irrefl _), if_pos heq.symm, hnew.mpr heq.le]
    rfl
  · have hall : (l ++ [a]).all (fun b => key b ≤ key a) = false :=
      Bool.eq_false_iff.mpr fun hall => absurd (hnew.mp hall) (not_le.mpr hgt)
    rw [if_pos hgt.le, if_neg hgt.not_gt, if_neg hgt.ne, hall]
    exact List.append_nil _

/-- **Only the greatest keys matter** to a scan that compares a key first. -/
theorem champion_lex {better inner : α → α → Bool} (key : α → κ)
    (hbetter : ∀ a b, better a b = true ↔
      key b < key a ∨ (key a = key b ∧ inner a b = true)) (l : List α) :
    champion better l = champion inner (greatest key l) := by
  induction l using List.reverseRecOn with
  | nil => rfl
  | append_singleton l a ih =>
      rw [champion_snoc, ih]
      cases hbest : champion inner (greatest key l) with
      | none =>
          have hnil : l = [] := champion_eq_none.mp (ih.trans hbest)
          subst hnil
          simp [greatest, champion]
      | some m =>
          have hm := champion_mem hbest
          rw [greatest_snoc key hm, Option.all_some]
          rcases lt_trichotomy (key m) (key a) with hlt | heq | hgt
          · rw [if_pos ((hbetter a m).mpr (.inl hlt)), if_pos hlt]
            rfl
          · -- the inner comparison decides between equal keys
            have hinner : better a m = inner a m := by
              rw [Bool.eq_iff_iff, hbetter]
              simp [heq]
            have hnot : ¬ key m < key a := by
              rw [heq]
              exact lt_irrefl _
            rw [hinner, if_neg hnot, if_pos heq.symm, champion_snoc, hbest, Option.all_some]
          · have hno : better a m = false := by
              rw [Bool.eq_false_iff, Ne, hbetter, not_or, not_and]
              exact ⟨hgt.not_gt, fun heq => absurd heq hgt.ne⟩
            rw [hno, if_neg hgt.not_gt, if_neg hgt.ne, hbest]
            rfl

end Key

/-! ## A tolerance and a favour -/

section Tolerance

variable {β : Type} [AddCommGroup β] [LinearOrder β]

/-- The element `a` is faster than `b` by more than `ε`, or is favoured where `b` is not. -/
def fasterOrFavoured (speed : α → β) (ε : β) (favoured : α → Bool) (a b : α) : Bool :=
  speed b + ε < speed a || (favoured a && !favoured b)

/-- Nothing in the list is faster than `m` by more than `ε`. -/
def Near (speed : α → β) (ε : β) (l : List α) (m : α) : Prop := ∀ a ∈ l, speed a ≤ speed m + ε

/-- No element is only just not near the fastest: it is slower by more than `ε` than all that are
near. -/
def Separated (speed : α → β) (ε : β) (l : List α) : Prop :=
  ∀ a ∈ l, Near speed ε l a → ∀ h ∈ l, Near speed ε l h ∨ speed h + ε < speed a

/-- The last of the records of a list: the first element is one, and so is each that is faster by
more than `ε` than the record before it. -/
def lastRecord (speed : α → β) (ε : β) (l : List α) : Option α :=
  champion (fun a b => speed b + ε < speed a) l

/-- The favour decides nothing: a favoured element is a record itself where the record before it is
not favoured. -/
def FavourIdle (speed : α → β) (ε : β) (favoured : α → Bool) (l : List α) : Prop :=
  ∀ before a after b, l = before ++ a :: after → lastRecord speed ε before = some b →
    favoured a = true → favoured b = false → speed b + ε < speed a

/-- A favoured element is near the fastest, and every favoured one before it is also near, or
slower than it by more than `ε`. -/
def Secured (speed : α → β) (ε : β) (favoured : α → Bool) (l : List α) : Prop :=
  ∃ before f after, l = before ++ f :: after ∧ favoured f = true ∧ Near speed ε l f ∧
    ∀ h ∈ before, favoured h = true → Near speed ε l h ∨ speed h + ε < speed f

/-- An element with no favoured one behind it is near the fastest, and every one before it is also
near, or slower than it by more than `ε`. -/
def Restored (speed : α → β) (ε : β) (favoured : α → Bool) (l : List α) : Prop :=
  ∃ before z after, l = before ++ z :: after ∧ Near speed ε l z ∧
    (∀ a ∈ after, favoured a = false) ∧ ∀ h ∈ before, Near speed ε l h ∨ speed h + ε < speed z

/-- The favour costs no more than the tolerance. -/
def Lossless (speed : α → β) (ε : β) (favoured : α → Bool) (l : List α) : Prop :=
  FavourIdle speed ε favoured l ∨ Secured speed ε favoured l ∨ Restored speed ε favoured l

variable {speed : α → β} {ε : β} {favoured : α → Bool} {l : List α} {m : α}

theorem fasterOrFavoured_iff {a b : α} :
    fasterOrFavoured speed ε favoured a b = true ↔
      speed b + ε < speed a ∨ (favoured a = true ∧ favoured b = false) := by
  simp [fasterOrFavoured]

theorem fasterOrFavoured_eq_false {a b : α} :
    fasterOrFavoured speed ε favoured a b = false ↔
      speed a ≤ speed b + ε ∧ (favoured a = true → favoured b = true) := by
  simp [fasterOrFavoured]

/-- Something near the fastest is beaten by the favour only. -/
theorem Near.favoured_of_beats {a b : α} (h : Near speed ε l b) (ha : a ∈ l)
    (hab : fasterOrFavoured speed ε favoured a b = true) :
    favoured a = true ∧ favoured b = false := by
  rcases fasterOrFavoured_iff.mp hab with hlt | hfav
  · exact absurd hlt (not_lt.mpr (h a ha))
  · exact hfav

theorem FavourIdle.append_left {rest : List α} (h : FavourIdle speed ε favoured (l ++ rest)) :
    FavourIdle speed ε favoured l := by
  intro before a after b hl
  exact h before a (after ++ rest) b (by rw [hl]; simp)

theorem lastRecord_snoc (l : List α) (a : α) : lastRecord speed ε (l ++ [a]) =
    if (lastRecord speed ε l).all (fun b => speed b + ε < speed a) then some a
    else lastRecord speed ε l :=
  champion_snoc _ l a

/-- Where the favour decides nothing, the scan ends with the last record. -/
theorem champion_eq_lastRecord (hidle : FavourIdle speed ε favoured l) :
    champion (fasterOrFavoured speed ε favoured) l = lastRecord speed ε l := by
  induction l using List.reverseRecOn with
  | nil => rfl
  | append_singleton l a ih =>
      rw [champion_snoc, lastRecord_snoc, ih hidle.append_left]
      cases hb : lastRecord speed ε l with
      | none => rfl
      | some b =>
          have hsame : fasterOrFavoured speed ε favoured a b = decide (speed b + ε < speed a) := by
            rw [Bool.eq_iff_iff, fasterOrFavoured_iff, decide_eq_true_eq]
            refine or_iff_left_of_imp fun hfav => ?_
            exact hidle l a [] b rfl hb hfav.1 hfav.2
          rw [Option.all_some, Option.all_some, hsame]

/-- The last record loses no more than the tolerance. -/
theorem lastRecord_near [IsOrderedAddMonoid β] (hε : 0 ≤ ε) (h : lastRecord speed ε l = some m) :
    Near speed ε l m := by
  refine champion_rule (P := Near speed ε) ?_ ?_ ?_ h
  · intro a x hx
    rw [List.mem_singleton.mp hx]
    exact le_add_of_nonneg_right hε
  · intro seen b a _ ih hfaster x hx
    have hlt : speed b + ε < speed a := of_decide_eq_true hfaster
    rcases List.mem_append.mp hx with hx | hx
    · exact ((ih x hx).trans hlt.le).trans (le_add_of_nonneg_right hε)
    · rw [List.mem_singleton.mp hx]
      exact le_add_of_nonneg_right hε
  · intro seen b a _ ih hslow x hx
    rcases List.mem_append.mp hx with hx | hx
    · exact ih x hx
    · rw [List.mem_singleton.mp hx]
      exact not_lt.mp (of_decide_eq_false hslow)

/-- Behind the favoured element the champion is favoured and near, and nothing displaces it. -/
theorem Secured.near (h : Secured speed ε favoured l)
    (hm : champion (fasterOrFavoured speed ε favoured) l = some m) : Near speed ε l m := by
  obtain ⟨before, f, after, hl, hfav, hnear, hbefore⟩ := h
  obtain ⟨c, hc, hcases⟩ := champion_snoc_cases (fasterOrFavoured speed ε favoured) before f
  have hPc : Near speed ε l c ∧ favoured c = true := by
    rcases hcases with rfl | ⟨hmem, hno⟩
    · exact ⟨hnear, hfav⟩
    · obtain ⟨hle, hfavc⟩ := fasterOrFavoured_eq_false.mp hno
      refine ⟨(hbefore c hmem (hfavc hfav)).resolve_right (not_lt.mpr hle), hfavc hfav⟩
  have hkept : ∀ a ∈ after, ∀ b, Near speed ε l b ∧ favoured b = true →
      fasterOrFavoured speed ε favoured a b = true → Near speed ε l a ∧ favoured a = true := by
    intro a ha b ⟨hb, hfavb⟩ hab
    have hal : a ∈ l := hl ▸ List.mem_append_right before (List.mem_cons_of_mem f ha)
    rw [(hb.favoured_of_beats hal hab).2] at hfavb
    cases hfavb
  obtain ⟨m', hm', hP⟩ := champion_append hc hPc hkept
  rw [List.append_assoc, List.singleton_append, ← hl, hm] at hm'
  obtain rfl := Option.some.inj hm'
  exact hP.1

/-- Behind the element the champion is near, and only a favoured one would displace it. -/
theorem Restored.near (h : Restored speed ε favoured l)
    (hm : champion (fasterOrFavoured speed ε favoured) l = some m) : Near speed ε l m := by
  obtain ⟨before, z, after, hl, hnear, hafter, hbefore⟩ := h
  obtain ⟨c, hc, hcases⟩ := champion_snoc_cases (fasterOrFavoured speed ε favoured) before z
  have hPc : Near speed ε l c := by
    rcases hcases with rfl | ⟨hmem, hno⟩
    · exact hnear
    · exact (hbefore c hmem).resolve_right (not_lt.mpr (fasterOrFavoured_eq_false.mp hno).1)
  have hkept : ∀ a ∈ after, ∀ b, Near speed ε l b →
      fasterOrFavoured speed ε favoured a b = true → Near speed ε l a := by
    intro a ha b hb hab
    have hal : a ∈ l := hl ▸ List.mem_append_right before (List.mem_cons_of_mem z ha)
    have hfav := (hb.favoured_of_beats hal hab).1
    rw [hafter a ha] at hfav
    cases hfav
  obtain ⟨m', hm', hP⟩ := champion_append hc hPc hkept
  rw [List.append_assoc, List.singleton_append, ← hl, hm] at hm'
  obtain rfl := Option.some.inj hm'
  exact hP

/-- Where the favour costs no more than the tolerance, the scan loses no more than that. -/
theorem Lossless.near [IsOrderedAddMonoid β] (h : Lossless speed ε favoured l) (hε : 0 ≤ ε)
    (hm : champion (fasterOrFavoured speed ε favoured) l = some m) : Near speed ε l m := by
  rcases h with hidle | hsecured | hrestored
  · rw [champion_eq_lastRecord hidle] at hm
    exact lastRecord_near hε hm
  · exact hsecured.near hm
  · exact hrestored.near hm

/-- The last element of a list with a property. -/
theorem exists_last {p : α → Bool} (h : ∃ a ∈ l, p a = true) :
    ∃ before f after, l = before ++ f :: after ∧ p f = true ∧ ∀ a ∈ after, p a = false := by
  induction l with
  | nil => simp at h
  | cons b l ih =>
      by_cases hl : ∃ a ∈ l, p a = true
      · obtain ⟨before, f, after, rfl, hf, hafter⟩ := ih hl
        exact ⟨b :: before, f, after, rfl, hf, hafter⟩
      · have hno : ∀ a ∈ l, p a = false := fun a ha =>
          Bool.eq_false_iff.mpr fun hp => hl ⟨a, ha, hp⟩
        obtain ⟨a, ha, hpa⟩ := h
        rcases List.mem_cons.mp ha with rfl | ha
        · exact ⟨[], a, l, rfl, hpa, hno⟩
        · rw [hno a ha] at hpa
          cases hpa

/-- A scan that ends near the fastest does so for one of the reasons of `Lossless`. -/
theorem lossless_of_near (hsep : Separated speed ε l)
    (hm : champion (fasterOrFavoured speed ε favoured) l = some m) (hnear : Near speed ε l m) :
    Lossless speed ε favoured l := by
  have hbefore {a h : α} {before after : List α} (hl : l = before ++ a :: after)
      (ha : Near speed ε l a) (hh : h ∈ before) : Near speed ε l h ∨ speed h + ε < speed a :=
    hsep a (hl ▸ List.mem_append_right before List.mem_cons_self) ha h
      (hl ▸ List.mem_append_left _ hh)
  by_cases hsome : ∃ a ∈ l, favoured a = true
  swap
  · -- nothing is favoured, and the champion itself is near
    obtain ⟨before, after, hl⟩ := List.append_of_mem (champion_mem hm)
    refine .inr (.inr ⟨before, m, after, hl, hnear, fun a ha => ?_,
      fun h hh => hbefore hl hnear hh⟩)
    refine Bool.eq_false_iff.mpr fun hfav => hsome ⟨a, ?_, hfav⟩
    exact hl ▸ List.mem_append_right before (List.mem_cons_of_mem m ha)
  by_cases hboth : ∃ f ∈ l, favoured f = true ∧ Near speed ε l f
  · obtain ⟨f, hf, hfav, hfnear⟩ := hboth
    obtain ⟨before, after, hl⟩ := List.append_of_mem hf
    exact .inr (.inl ⟨before, f, after, hl, hfav, hfnear, fun h hh _ => hbefore hl hfnear hh⟩)
  · -- behind the last favoured element the champion is favoured, hence not near
    obtain ⟨before, f, after, hl, hfav, hafter⟩ := exists_last hsome
    obtain ⟨c, hc, hcases⟩ := champion_snoc_cases (fasterOrFavoured speed ε favoured) before f
    have hfar : ¬ Near speed ε l c := by
      intro hcnear
      rcases hcases with rfl | ⟨hmem, hno⟩
      · exact hboth ⟨c, hl ▸ List.mem_append_right before List.mem_cons_self, hfav, hcnear⟩
      · exact hboth ⟨c, hl ▸ List.mem_append_left _ hmem,
          (fasterOrFavoured_eq_false.mp hno).2 hfav, hcnear⟩
    by_cases hrest : ∃ z ∈ after, Near speed ε l z
    · obtain ⟨z, hz, hznear⟩ := hrest
      obtain ⟨front, back, rfl⟩ := List.append_of_mem hz
      have hl' : l = (before ++ f :: front) ++ z :: back := by rw [hl]; simp
      refine .inr (.inr ⟨_, z, back, hl', hznear, fun a ha => ?_,
        fun h hh => hbefore hl' hznear hh⟩)
      exact hafter a (List.mem_append_right front (List.mem_cons_of_mem z ha))
    · -- so nothing that follows makes the champion near
      obtain ⟨m', hm', hP⟩ := champion_append (P := fun b => ¬ Near speed ε l b) hc hfar
        fun a ha _ _ _ hanear => hrest ⟨a, ha, hanear⟩
      rw [List.append_assoc, List.singleton_append, ← hl, hm] at hm'
      obtain rfl := Option.some.inj hm'
      exact absurd hnear hP

end Tolerance

end QcapDemos.Lib
