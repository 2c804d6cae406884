import Mathlib.Data.Prod.Lex
import QcapDemos.Lib.FirstBest
import QcapDemos.Drm.Mode

set_option autoImplicit false

/-! # What the mode searches select

The two searches behind a modeset, as choices of a first best mode: `find_matching_mode` among the
modes of the wanted size, by how well they match, and the fallback among the supported modes, by
size and rate. From this follow what a modeset selects at all (`Qualified`) and when it selects a
mode of the source's own size and rate (`unscaled_iff`). A rate in these statements about the
selected mode need not be computed as the program does.
-/

namespace QcapDemos.Drm

open QcapDemos.Lib

/-! ## The searches as choices -/

/-- 2160p at 594 MHz, where 2160p is wanted. -/
def preferredTiming (width height : Nat) (interlaced : Bool) (c : ModeInfo) : Bool :=
  width == 3840 && height == 2160 && !interlaced && c.clock == 594000

/-- How well a mode of the wanted size answers: 2 with the preferred timing and the wanted rate, 1
with another timing of that rate, 0 with another rate. -/
def preference (ar : Arithmetic) (width height : Nat) (framerate : ℚ) (interlaced : Bool)
    (c : ModeInfo) : Nat :=
  if refreshMatched ar framerate c then
    if preferredTiming width height interlaced c then 2 else 1
  else 0

section Search

variable {ar : Arithmetic} {modes : List ModeInfo} {width height : Nat} {framerate : ℚ}
  {interlaced : Bool} {m : ModeInfo}

theorem preference_le_two (c : ModeInfo) :
    preference ar width height framerate interlaced c ≤ 2 := by
  unfold preference
  split
  · split <;> decide
  · decide

theorem preference_of_preferred
    (h : (refreshMatched ar framerate m && preferredTiming width height interlaced m) = true) :
    preference ar width height framerate interlaced m = 2 := by
  rw [Bool.and_eq_true] at h
  rw [preference, if_pos h.1, if_pos h.2]

theorem preference_le_one
    (h : (refreshMatched ar framerate m && preferredTiming width height interlaced m) = false) :
    preference ar width height framerate interlaced m ≤ 1 := by
  unfold preference
  split
  · rename_i hrate
    rw [hrate, Bool.true_and] at h
    rw [if_neg (by simp [h])]
  · exact Nat.zero_le 1

theorem preference_of_matched (h : refreshMatched ar framerate m = true) :
    1 ≤ preference ar width height framerate interlaced m := by
  rw [preference, if_pos h]
  split <;> decide

theorem preference_of_unmatched (h : refreshMatched ar framerate m = false) :
    preference ar width height framerate interlaced m = 0 := by
  rw [preference, h]
  rfl

/-- The search, on the modes of the wanted size alone. -/
theorem findMatchingMode_eq :
    findMatchingMode ar modes width height framerate interlaced =
      (((modes.filter (sameSize width height interlaced)).find? fun c =>
          refreshMatched ar framerate c && preferredTiming width height interlaced c)
        <|> (modes.filter (sameSize width height interlaced)).find? (refreshMatched ar framerate)
        <|> (modes.filter (sameSize width height interlaced)).head?) := by
  rw [List.find?_filter, List.find?_filter, List.head?_filter, findMatchingMode]
  simp only [preferredTiming, Bool.and_assoc, Bool.decide_and, Bool.decide_eq_true]

theorem findMatchingMode_none
    (h : findMatchingMode ar modes width height framerate interlaced = none) :
    modes.filter (sameSize width height interlaced) = [] := by
  rw [findMatchingMode_eq, Option.orElse_eq_none, Option.orElse_eq_none] at h
  exact List.head?_eq_none_iff.mp h.2.2

theorem firstBest_of_findMatchingMode
    (h : findMatchingMode ar modes width height framerate interlaced = some m) :
    FirstBest (preference ar width height framerate interlaced)
      (modes.filter (sameSize width height interlaced)) m := by
  rw [findMatchingMode_eq] at h
  generalize modes.filter (sameSize width height interlaced) = same at h ⊢
  simp only [Option.orElse_eq_some] at h
  rcases h with hpreferred | ⟨hnone, hmatched | ⟨hnone', hhead⟩⟩
  · -- the first pass found a mode, and no mode answers better than its kind
    have hm := List.find?_some hpreferred
    refine firstBest_of_find? hpreferred (fun a _ => ?_) (fun a _ ha => ?_)
    · rw [preference_of_preferred hm]
      exact preference_le_two a
    · rw [preference_of_preferred hm]
      exact Nat.lt_succ_of_le (preference_le_one ha)
  · -- no mode has the preferred timing, so a mode of the rate is the best there is
    have hm : 1 ≤ preference ar width height framerate interlaced m :=
      preference_of_matched (List.find?_some hmatched)
    have hle : ∀ a ∈ same, preference ar width height framerate interlaced a ≤ 1 := fun a ha =>
      preference_le_one (Bool.eq_false_iff.mpr (List.find?_eq_none.mp hnone a ha))
    refine firstBest_of_find? hmatched (fun a ha => (hle a ha).trans hm) (fun a _ ha => ?_)
    rw [preference_of_unmatched ha]
    exact hm
  · -- no mode has the rate, so all answer alike and the first of them is taken
    obtain ⟨rest, rfl⟩ := List.head?_eq_some_iff.mp hhead
    refine ⟨[], rest, rfl, by simp, fun a ha => ?_⟩
    have hrate := List.find?_eq_none.mp hnone' a (List.mem_cons_of_mem m ha)
    rw [preference_of_unmatched (Bool.eq_false_iff.mpr hrate)]
    exact Nat.zero_le _

/-- **`find_matching_mode`** selects the first mode of the size that answers best. -/
theorem findMatchingMode_iff :
    findMatchingMode ar modes width height framerate interlaced = some m ↔
      FirstBest (preference ar width height framerate interlaced)
        (modes.filter (sameSize width height interlaced)) m := by
  refine ⟨firstBest_of_findMatchingMode, fun h => ?_⟩
  cases hfound : findMatchingMode ar modes width height framerate interlaced with
  | none =>
      have hmem := h.mem
      rw [findMatchingMode_none hfound] at hmem
      cases hmem
  | some a => rw [(firstBest_of_findMatchingMode hfound).unique h]

end Search

/-- Size first, then rate. -/
def extent (ar : Arithmetic) (m : ModeInfo) : ℕ ×ₗ ℚ := toLex (m.area, modeVrefresh ar m)

theorem larger_iff (ar : Arithmetic) (c best : ModeInfo) :
    larger ar c best = true ↔ extent ar best < extent ar c := by
  rw [extent, extent, Prod.Lex.toLex_lt_toLex]
  simp only [larger, Bool.or_eq_true, Bool.and_eq_true, decide_eq_true_eq, beq_iff_eq]
  rw [eq_comm]

/-- **The fallback** selects the first mode of the greatest extent among the eligible ones. -/
theorem bestMode_iff {ar : Arithmetic} {sdi : Bool} {modes : List ModeInfo} {m : ModeInfo} :
    bestMode ar sdi (larger ar) modes = some m ↔
      FirstBest (extent ar) (modes.filter (eligible ar sdi)) m := by
  have hfold : bestMode ar sdi (larger ar) modes =
      (modes.filter (eligible ar sdi)).argmax (extent ar) := by
    rw [← foldl_eq_argmax _ (larger ar) (larger_iff ar), List.foldl_filter, bestMode]
    congr 1
    funext best c
    cases eligible ar sdi c <;> rfl
  rw [hfold, argmax_eq_some_iff_firstBest]

/-! ## What is selected at all -/

/-- A timing that the transmitter and the mixer can carry, and on the SDI output one of its two. -/
structure Qualified (ar : Arithmetic) (sdi : Bool) (m : ModeInfo) : Prop where
  progressive : m.interlaced = false
  hdisplay : m.hdisplay ≤ 3840
  vdisplay : m.vdisplay ≤ 2160
  clock : m.clock ≤ 594000
  refresh : modeVrefresh ar m ≤ 121 / 2
  timing : sdi = true → isSdiMode ar m = true

/-- However the rate was computed, the exact one keeps the bound up to its `2 ^ 21`th part. -/
theorem Qualified.exact_refresh {ar : Arithmetic} {sdi : Bool} {m : ModeInfo}
    (h : Qualified ar sdi m) : modeVrefresh .rational m ≤ 121 / 2 * (1 + 1 / 2 ^ 21) :=
  (modeVrefresh_rational_le ar m).trans
    (mul_le_mul_of_nonneg_right h.refresh (by norm_num))

theorem tooFast_eq_false {ar : Arithmetic} {m : ModeInfo} :
    tooFast ar m = false ↔ m.clock ≤ 594000 ∧ modeVrefresh ar m ≤ 121 / 2 := by
  simp [tooFast]

theorem qualified_of_eligible {ar : Arithmetic} {sdi : Bool} {m : ModeInfo}
    (h : eligible ar sdi m = true) : Qualified ar sdi m := by
  simp only [eligible, supported, Bool.and_eq_true, Bool.or_eq_true, Bool.not_eq_true',
    decide_eq_true_eq] at h
  obtain ⟨hsdi, ⟨⟨⟨⟨-, hwidth⟩, hheight⟩, hslow⟩, -⟩, hscan⟩ := h
  obtain ⟨hclock, hrefresh⟩ := tooFast_eq_false.mp hslow
  exact ⟨hscan, hwidth, hheight, hclock, hrefresh, fun hs => hsdi.resolve_left (by simp [hs])⟩

/-- The two timings of the SDI output are qualified on any output. -/
theorem qualified_of_isSdiMode {ar : Arithmetic} {sdi : Bool} {m : ModeInfo}
    (h : isSdiMode ar m = true) : Qualified ar sdi m := by
  have htiming := h
  simp only [isSdiMode, sdiMode, sdiSize, isSixty, Bool.and_eq_true, Bool.or_eq_true,
    Bool.not_eq_true', Bool.or_eq_false_iff, beq_iff_eq, decide_eq_true_eq] at h
  obtain ⟨⟨⟨hsize, hscan, -⟩, hrate⟩, hclock⟩ := h
  have hrefresh : modeVrefresh ar m ≤ 121 / 2 := by
    have := (abs_lt.mp hrate).2
    linarith
  refine ⟨hscan, by omega, by omega, ?_, hrefresh, fun _ => htiming⟩
  rw [hclock]
  split <;> decide

section Select

variable {ar : Arithmetic} {sdi : Bool} {modes : List ModeInfo} {width height : Nat} {fps : ℚ}
  {m : ModeInfo}

theorem sameSize_iff {interlaced : Bool} :
    sameSize width height interlaced m = true ↔
      m.hdisplay = width ∧ m.vdisplay = height ∧ m.interlaced = interlaced := by
  simp [sameSize, and_assoc]

/-- **What a modeset selects** is a qualified mode of the list. -/
theorem selectMode_qualified (hwidth : width ≤ 3840) (hheight : height ≤ 2160)
    (h : selectMode ar sdi modes width height fps = some m) : m ∈ modes ∧ Qualified ar sdi m := by
  obtain ⟨hmem, hslow, hsdi⟩ := selectMode_spec h
  refine ⟨hmem, ?_⟩
  rw [selectMode] at h
  split at h
  · cases h
  · simp only [Option.orElse_eq_some] at h
    rcases h with h | ⟨-, h⟩
    · -- a mode of the source's size, whose bounds are those of the source
      obtain ⟨hfound, -⟩ := Option.filter_eq_some_iff.mp h
      have hsame := (List.mem_filter.mp (findMatchingMode_iff.mp hfound).mem).2
      obtain ⟨rfl, rfl, hscan⟩ := sameSize_iff.mp hsame
      obtain ⟨hclock, hrefresh⟩ := tooFast_eq_false.mp hslow
      exact ⟨hscan, hwidth, hheight, hclock, hrefresh, hsdi⟩
    · exact qualified_of_eligible (bestMode_mem h).2

end Select

/-! ## When the source is not scaled -/

def Sized (width height : Nat) (m : ModeInfo) : Prop := m.hdisplay = width ∧ m.vdisplay = height

/-- The rates differ by less than half a hertz. -/
def Near (ar : Arithmetic) (fps : ℚ) (m : ModeInfo) : Prop := |modeVrefresh ar m - fps| < 1 / 2

/-- The output can carry the source in its own size and at its own rate. -/
def Carried (ar : Arithmetic) (modes : List ModeInfo) (width height : Nat) (fps : ℚ) : Prop :=
  ∃ q ∈ modes, Qualified ar false q ∧ Sized width height q ∧ Near ar fps q

/-- The mode has the source's rate, if the output can carry it. -/
def Timed (ar : Arithmetic) (modes : List ModeInfo) (width height : Nat) (fps : ℚ)
    (m : ModeInfo) : Prop :=
  Carried ar modes width height fps → Near ar fps m

/-- The mode `m` scales the source and changes its rate only where it must: what a qualified mode
of the list has of the source's size and rate, it has too. -/
structure Unscaled (ar : Arithmetic) (modes : List ModeInfo) (width height : Nat) (fps : ℚ)
    (m : ModeInfo) : Prop where
  size : (∃ q ∈ modes, Qualified ar false q ∧ Sized width height q) → Sized width height m
  rate : Timed ar modes width height fps m

/-- No qualified mode is passed over: there is none of the source's size; or one within the limits
leads those of the source's size, by how well they answer; or one beyond the limits does, but one
of the source's size leads the supported modes, by their extent. In the last two cases the mode
that leads also has the source's rate, if a qualified one has. -/
def Spared (ar rates : Arithmetic) (modes : List ModeInfo) (width height : Nat) (fps : ℚ) : Prop :=
  let same := modes.filter (sameSize width height false)
  (∀ q ∈ modes, Qualified rates false q → ¬ Sized width height q) ∨
  Leads (preference ar width height fps false) same (fun m =>
    tooFast ar m = false ∧ Timed rates modes width height fps m) ∨
  (Leads (preference ar width height fps false) same (tooFast ar · = true) ∧
    Leads (extent ar) (modes.filter (eligible ar false)) fun m =>
      Sized width height m ∧ Timed rates modes width height fps m)

section Unscaled

variable {ar rates : Arithmetic} {modes : List ModeInfo} {width height : Nat} {fps : ℚ}
  {m : ModeInfo}

/-- Where nothing has the size, no qualified mode has it. -/
theorem no_qualified_of_none (h : findMatchingMode ar modes width height fps false = none) :
    ∀ q ∈ modes, Qualified rates false q → ¬ Sized width height q := by
  intro q hq hqualified hsized
  have hmem : q ∈ modes.filter (sameSize width height false) :=
    List.mem_filter.mpr ⟨hq, sameSize_iff.mpr ⟨hsized.1, hsized.2, hqualified.progressive⟩⟩
  rw [findMatchingMode_none h] at hmem
  cases hmem

theorem unscaled_of_none (h : ∀ q ∈ modes, Qualified rates false q → ¬ Sized width height q) :
    Unscaled rates modes width height fps m where
  size := by
    rintro ⟨q, hq, hqualified, hsized⟩
    exact absurd hsized (h q hq hqualified)
  rate := by
    rintro ⟨q, hq, hqualified, hsized, -⟩
    exact absurd hsized (h q hq hqualified)

/-- What is selected: nothing has the source's size, or the mode that answers best, or the largest
one where that is too fast. -/
theorem selectMode_hdmi (h : selectMode ar false modes width height fps = some m) :
    findMatchingMode ar modes width height fps false = none ∨
    ∃ a, FirstBest (preference ar width height fps false)
        (modes.filter (sameSize width height false)) a ∧
      ((tooFast ar a = false ∧ m = a) ∨
        (tooFast ar a = true ∧ FirstBest (extent ar) (modes.filter (eligible ar false)) m)) := by
  rw [selectMode] at h
  simp only [Bool.false_and, Bool.false_eq_true, if_false, Bool.not_false, Bool.true_or,
    Bool.true_and] at h
  cases hfound : findMatchingMode ar modes width height fps false with
  | none => exact .inl rfl
  | some a =>
      refine .inr ⟨a, findMatchingMode_iff.mp hfound, ?_⟩
      rw [hfound] at h
      cases hfast : tooFast ar a with
      | false =>
          simp only [Option.filter_some, hfast, Bool.not_false, if_true] at h
          cases h
          exact .inl ⟨rfl, rfl⟩
      | true =>
          simp only [Option.filter_some, hfast, Bool.not_true, Bool.false_eq_true, if_false] at h
          exact .inr ⟨rfl, bestMode_iff.mp h⟩

/-- **The selected mode does not scale needlessly** exactly where no qualified mode is passed
over. -/
theorem unscaled_iff (h : selectMode ar false modes width height fps = some m) :
    Unscaled rates modes width height fps m ↔ Spared ar rates modes width height fps := by
  have hsplit : Unscaled rates modes width height fps m ↔
      (∀ q ∈ modes, Qualified rates false q → ¬ Sized width height q) ∨
        (Sized width height m ∧ Timed rates modes width height fps m) := by
    constructor
    · intro hun
      by_cases hsome : ∃ q ∈ modes, Qualified rates false q ∧ Sized width height q
      · exact .inr ⟨hun.size hsome, hun.rate⟩
      · exact .inl fun q hq hqualified hsized => hsome ⟨q, hq, hqualified, hsized⟩
    · rintro (hno | ⟨hsized, hrate⟩)
      · exact unscaled_of_none hno
      · exact ⟨fun _ => hsized, hrate⟩
  rw [hsplit, Spared]
  rcases selectMode_hdmi h with hnone | ⟨a, ha, ⟨hslow, rfl⟩ | ⟨hfast, hlargest⟩⟩
  · have hno := @no_qualified_of_none ar rates modes width height fps hnone
    exact ⟨fun _ => .inl hno, fun _ => .inl hno⟩
  · -- the mode that answers was taken
    have hsized : Sized width height m := by
      obtain ⟨hwidth, hheight, -⟩ := sameSize_iff.mp (List.mem_filter.mp ha.mem).2
      exact ⟨hwidth, hheight⟩
    rw [ha.leads_iff, ha.leads_iff]
    simp [hsized, hslow]
  · -- the mode that answers was too fast, and the largest was taken in its place
    rw [ha.leads_iff, ha.leads_iff, hlargest.leads_iff]
    simp [hfast]

end Unscaled

end QcapDemos.Drm
