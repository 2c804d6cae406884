import QcapDemos.Drm.Mode
import QcapDemos.Lib.Champion

set_option autoImplicit false

/-! # The mode at startup

In auto mode the receiver starts with the best mode of the monitor: the largest supported one, and
among these the fastest, up to 0.005 Hz. But the 594 MHz timing takes the place of any other of the
same size, also of a faster one. The lists on which this costs a faster mode are characterised here,
by the order in which their largest modes come.
-/

namespace QcapDemos.Drm

open QcapDemos.Lib

/-- The timing that the transmitter is validated for. -/
def cea594 (m : ModeInfo) : Bool := m.clock == 594000

/-- The rates that the scan tells apart differ by more than this. -/
def rateTolerance : ℚ := 5 / 1000

section Scan

variable {ar : Arithmetic} {sdi : Bool} {modes : List ModeInfo} {m : ModeInfo}

/-- A search for the best mode is a scan of the eligible ones. -/
theorem bestMode_eq_champion (ar : Arithmetic) (sdi : Bool) (better : ModeInfo → ModeInfo → Bool)
    (modes : List ModeInfo) :
    bestMode ar sdi better modes = champion better (modes.filter (eligible ar sdi)) := by
  rw [champion, List.foldl_filter, bestMode]
  congr 1
  funext best c
  cases eligible ar sdi c <;> rfl

/-- The largest of the eligible modes. -/
def largest (ar : Arithmetic) (sdi : Bool) (modes : List ModeInfo) : List ModeInfo :=
  greatest ModeInfo.area (modes.filter (eligible ar sdi))

theorem mem_largest :
    m ∈ largest ar sdi modes ↔ (m ∈ modes ∧ eligible ar sdi m = true) ∧
      ∀ c ∈ modes, eligible ar sdi c = true → c.area ≤ m.area := by
  rw [largest, mem_greatest]
  simp only [List.mem_filter, and_imp]

theorem largerStartup_iff (ar : Arithmetic) (c best : ModeInfo) :
    largerStartup ar c best = true ↔ best.area < c.area ∨
      (c.area = best.area ∧
        fasterOrFavoured (modeVrefresh ar) rateTolerance cea594 c best = true) := by
  rw [fasterOrFavoured_iff]
  simp [largerStartup, cea594, rateTolerance]

/-- The startup scan looks for speed and for 594 MHz among the largest modes only. -/
theorem bestMode_startup (ar : Arithmetic) (sdi : Bool) (modes : List ModeInfo) :
    bestMode ar sdi (largerStartup ar) modes =
      champion (fasterOrFavoured (modeVrefresh ar) rateTolerance cea594)
        (largest ar sdi modes) := by
  rw [bestMode_eq_champion, champion_lex ModeInfo.area (largerStartup_iff ar)]
  rfl

end Scan

/-! ## The best supported mode -/

/-- A mode that can be carried, none of which is larger, and none as large is faster by more than
0.005 Hz. -/
structure BestSupported (ar : Arithmetic) (sdi : Bool) (modes : List ModeInfo) (m : ModeInfo) :
    Prop where
  listed : m ∈ modes
  supported : eligible ar sdi m = true
  area : ∀ c ∈ modes, eligible ar sdi c = true → c.area ≤ m.area
  rate : ∀ c ∈ modes, eligible ar sdi c = true → c.area = m.area →
    modeVrefresh ar c ≤ modeVrefresh ar m + 5 / 1000

/-- The scan at startup selects the best supported mode of the list, and nothing only where no mode
is supported. -/
structure StartsBest (ar : Arithmetic) (sdi : Bool) (modes : List ModeInfo) : Prop where
  best : ∀ m, bestMode ar sdi (largerStartup ar) modes = some m → BestSupported ar sdi modes m
  unsupported : bestMode ar sdi (largerStartup ar) modes = none →
    ∀ c ∈ modes, eligible ar sdi c = false

/-- The exception for 594 MHz costs no faster mode: on the largest supported modes, in the order of
the list, it decides nothing, or what it decides is within the tolerance. -/
def Cea594Lossless (ar : Arithmetic) (sdi : Bool) (modes : List ModeInfo) : Prop :=
  Lossless (modeVrefresh ar) rateTolerance cea594 (largest ar sdi modes)

/-- None of the largest supported modes is only just more than 0.005 Hz slower than the fastest. -/
def RatesSeparated (ar : Arithmetic) (sdi : Bool) (modes : List ModeInfo) : Prop :=
  Separated (modeVrefresh ar) rateTolerance (largest ar sdi modes)

section Best

variable {ar : Arithmetic} {sdi : Bool} {modes : List ModeInfo} {m : ModeInfo}

/-- Being the best is being among the largest and near the fastest of them. -/
theorem bestSupported_iff :
    BestSupported ar sdi modes m ↔ m ∈ largest ar sdi modes ∧
      Lib.Near (modeVrefresh ar) rateTolerance (largest ar sdi modes) m := by
  constructor
  · intro h
    refine ⟨mem_largest.mpr ⟨⟨h.listed, h.supported⟩, h.area⟩, fun c hc => ?_⟩
    obtain ⟨⟨hmem, helig⟩, hmax⟩ := mem_largest.mp hc
    exact h.rate c hmem helig (le_antisymm (h.area c hmem helig) (hmax m h.listed h.supported))
  · rintro ⟨hm, hnear⟩
    obtain ⟨⟨hmem, helig⟩, hmax⟩ := mem_largest.mp hm
    refine ⟨hmem, helig, hmax, fun c hc hcelig harea => hnear c ?_⟩
    refine mem_largest.mpr ⟨⟨hc, hcelig⟩, ?_⟩
    rw [harea]
    exact hmax

theorem rateTolerance_nonneg : 0 ≤ rateTolerance := by decide +kernel

end Best

/-- **The startup mode is the best supported one** where the exception for 594 MHz costs no faster
mode, and only there if the rates are separated. -/
theorem startsBest_iff (ar : Arithmetic) (sdi : Bool) (modes : List ModeInfo) :
    (Cea594Lossless ar sdi modes → StartsBest ar sdi modes) ∧
      (RatesSeparated ar sdi modes → StartsBest ar sdi modes → Cea594Lossless ar sdi modes) := by
  constructor
  · intro hlossless
    refine ⟨fun m hm => ?_, fun hnone c hc => ?_⟩
    · rw [bestMode_startup] at hm
      exact bestSupported_iff.mpr ⟨champion_mem hm, hlossless.near rateTolerance_nonneg hm⟩
    · rw [bestMode_eq_champion, champion_eq_none, List.filter_eq_nil_iff] at hnone
      exact Bool.eq_false_iff.mpr (hnone c hc)
  · intro hsep hbest
    cases hm : bestMode ar sdi (largerStartup ar) modes with
    | none =>
        -- no mode is supported, and the scan meets nothing
        rw [bestMode_startup, champion_eq_none] at hm
        refine .inl fun before a after b hl => ?_
        rw [hm] at hl
        simp at hl
    | some m =>
        have hnear := (bestSupported_iff.mp (hbest.best m hm)).2
        rw [bestMode_startup] at hm
        exact lossless_of_near hsep hm hnear

/-- 2160p60 with reduced blanking, at 533.25 MHz. -/
def mode2160Reduced : ModeInfo :=
  { clock := 533250, hdisplay := 3840, htotal := 4000, vdisplay := 2160, vtotal := 2222,
    vrefresh := 60, name := "3840x2160" }

/-- 2160p50 at 594 MHz. -/
def mode2160Fifty : ModeInfo :=
  { clock := 594000, hdisplay := 3840, htotal := 5280, vdisplay := 2160, vtotal := 2250,
    vrefresh := 50, name := "3840x2160" }

/-- 2160p50 is selected where the monitor also lists 2160p60, also if rates are exact. -/
theorem not_startsBest :
    (bestMode .single false (largerStartup .single) [mode2160Reduced, mode2160Fifty] =
        some mode2160Fifty ∧ ¬ StartsBest .single false [mode2160Reduced, mode2160Fifty]) ∧
      ¬ StartsBest .rational false [mode2160Reduced, mode2160Fifty] := by
  have hselected (ar : Arithmetic) : bestMode ar false (largerStartup ar)
      [mode2160Reduced, mode2160Fifty] = some mode2160Fifty := by
    cases ar <;> decide +kernel
  have hnot (ar : Arithmetic) : ¬ StartsBest ar false [mode2160Reduced, mode2160Fifty] := by
    intro h
    have hrate := (h.best _ (hselected ar)).rate mode2160Reduced List.mem_cons_self
      (by cases ar <;> decide +kernel) (by decide)
    exact absurd hrate (by cases ar <;> decide +kernel)
  exact ⟨⟨hselected .single, hnot .single⟩, hnot .rational⟩

end QcapDemos.Drm
