import Mathlib.Data.List.Induction
import Mathlib.Data.Rat.Floor
import Mathlib.Algebra.Order.Ring.Rat
import QcapDemos.Lib.Binary32

set_option autoImplicit false

/-! # Display modes and their selection

The embedding of the mode helpers of the receiver: the refresh rate of a mode, the two timings
of the SDI output, the search for a mode of a given size and rate, the fallback to the largest
supported one, and the letterbox rectangle. The refresh rate of a mode is computed in single
precision, as the source does, or exactly. All other operations on rates are exact in the double
precision of the source, or too far from a bound for their rounding to matter.
-/

namespace QcapDemos.Drm

open QcapDemos.Lib

/-- `drmModeModeInfo`. The default value is the zeroed structure. -/
structure ModeInfo where
  clock : Nat := 0
  hdisplay : Nat := 0
  hsyncStart : Nat := 0
  hsyncEnd : Nat := 0
  htotal : Nat := 0
  hskew : Nat := 0
  vdisplay : Nat := 0
  vsyncStart : Nat := 0
  vsyncEnd : Nat := 0
  vtotal : Nat := 0
  vscan : Nat := 0
  vrefresh : Nat := 0
  flags : Nat := 0
  type : Nat := 0
  name : String := ""
deriving DecidableEq

/-- `DRM_MODE_FLAG_INTERLACE`. -/
def ModeInfo.interlaced (m : ModeInfo) : Bool := m.flags.testBit 4

/-- `DRM_MODE_FLAG_DBLSCAN`. -/
def ModeInfo.doubleScan (m : ModeInfo) : Bool := m.flags.testBit 5

def ModeInfo.area (m : ModeInfo) : Nat := m.hdisplay * m.vdisplay

/-- How a refresh rate is computed: in the 32-bit floats of the program, or exactly. -/
inductive Arithmetic where
  | single
  | rational
deriving DecidableEq

/-- The result of one operation. -/
def Arithmetic.round : Arithmetic → ℚ → ℚ
  | .single => roundSingle
  | .rational => id

section Rates

variable (ar : Arithmetic)

/-- `mode_vrefresh`: frames per second; zero for a mode without totals. Both integers are converted,
and the product and the quotient are rounded. The totals multiply below `2 ^ 31`. -/
def modeVrefresh (m : ModeInfo) : ℚ :=
  if m.htotal = 0 ∨ m.vtotal = 0 then 0
  else ar.round (ar.round (ar.round m.clock * 1000) / ar.round (m.htotal * m.vtotal))

/-! ## The SDI output -/

def sdiSize (width height : Nat) : Bool :=
  (width == 1920 && height == 1080) || (width == 3840 && height == 2160)

/-- The rate is 60 Hz and not a fractional neighbour of it. -/
def isSixty (fps : ℚ) : Bool := |fps - 60| < 5 / 1000

def sdiMode (width height : Nat) (fps : ℚ) (clockKhz : Nat) (interlaced : Bool) : Bool :=
  sdiSize width height && !interlaced && isSixty fps &&
    clockKhz == (if width = 1920 then 148500 else 594000)

def isSdiMode (m : ModeInfo) : Bool :=
  sdiMode m.hdisplay m.vdisplay (modeVrefresh ar m) m.clock (m.interlaced || m.doubleScan)

/-! ## Searching the modes of a connector -/

/-- The candidate has the wanted size and scan. -/
def sameSize (width height : Nat) (interlaced : Bool) (c : ModeInfo) : Bool :=
  c.hdisplay == width && c.vdisplay == height && c.interlaced == interlaced

def refreshMatched (framerate : ℚ) (c : ModeInfo) : Bool :=
  framerate ≤ 0 || |modeVrefresh ar c - framerate| < 1 / 2 || (c.vrefresh : ℤ) == ⌊framerate⌋

/-- `find_matching_mode`: the 594 MHz timing first where 2160p is wanted, then the first mode of
the wanted size and rate, then the first of the wanted size. -/
def findMatchingMode (modes : List ModeInfo) (width height : Nat) (framerate : ℚ)
    (interlaced : Bool) : Option ModeInfo :=
  let preferred := width == 3840 && height == 2160 && !interlaced
  let matched (c : ModeInfo) := sameSize width height interlaced c && refreshMatched ar framerate c
  (modes.find? fun c => matched c && preferred && c.clock == 594000)
    <|> modes.find? matched
    <|> modes.find? (sameSize width height interlaced)

/-- The mode is beyond the transmitter or the mixer. -/
def tooFast (m : ModeInfo) : Bool := 594000 < m.clock || 121 / 2 < modeVrefresh ar m

/-- The shared VProcSS and the transmitter can carry the mode. -/
def supported (c : ModeInfo) : Bool :=
  c.hdisplay != 0 && c.vdisplay != 0 && c.hdisplay ≤ 3840 && c.vdisplay ≤ 2160 &&
    !tooFast ar c && 0 < modeVrefresh ar c && !c.interlaced

/-- The candidate may be chosen on this output. -/
def eligible (sdi : Bool) (c : ModeInfo) : Bool := (!sdi || isSdiMode ar c) && supported ar c

/-- The fold shared by the searches for the best mode: `better` compares a candidate with the
mode selected so far. -/
def bestMode (sdi : Bool) (better : ModeInfo → ModeInfo → Bool) (modes : List ModeInfo) :
    Option ModeInfo :=
  modes.foldl (fun best c =>
    if eligible ar sdi c && best.all (better c ·) then some c else best) none

/-- Larger, or as large and faster. -/
def larger (c best : ModeInfo) : Bool :=
  best.area < c.area || (c.area == best.area && modeVrefresh ar best < modeVrefresh ar c)

/-- The order of the startup mode: as large and noticeably faster, or as large with the 594 MHz
timing. -/
def largerStartup (c best : ModeInfo) : Bool :=
  best.area < c.area || (c.area == best.area &&
    (modeVrefresh ar best + 5 / 1000 < modeVrefresh ar c ||
      (c.clock == 594000 && best.clock != 594000)))

/-- The mode of a modeset: an exact one the output can carry, or the largest supported one. -/
def selectMode (sdi : Bool) (modes : List ModeInfo) (width height : Nat) (fps : ℚ) :
    Option ModeInfo :=
  if sdi && !(sdiSize width height && isSixty fps) then none
  else
    let exact := (findMatchingMode ar modes width height fps false).filter fun m =>
      (!sdi || isSdiMode ar m) && !tooFast ar m
    exact <|> bestMode ar sdi (larger ar) modes

end Rates

/-- `x & ~1u`. -/
def even (x : Nat) : Nat := x / 2 * 2

/-- The largest even rectangle of the source's aspect ratio in the output. -/
def letterbox (width height outputW outputH : Nat) : Nat × Nat :=
  if height * outputW < width * outputH then (even outputW, even (outputW * height / width))
  else (even (outputH * width / height), even outputH)

/-! ## Rates in single precision -/

theorem modeVrefresh_nonneg (ar : Arithmetic) (m : ModeInfo) : 0 ≤ modeVrefresh ar m := by
  have hround : ∀ {q : ℚ}, 0 ≤ q → 0 ≤ ar.round q := by
    intro q hq
    cases ar with
    | single => exact roundSingle_nonneg hq
    | rational => exact hq
  rw [modeVrefresh]
  split_ifs
  · exact le_rfl
  · exact hround (div_nonneg (hround (mul_nonneg (hround (Nat.cast_nonneg _)) (by norm_num)))
      (hround (by positivity)))

/-- A rate that is computed in single precision is at most the `2 ^ 21`th part too small. -/
theorem modeVrefresh_rational_le (ar : Arithmetic) (m : ModeInfo) :
    modeVrefresh .rational m ≤ modeVrefresh ar m * (1 + 1 / 2 ^ 21) := by
  have hnonneg := modeVrefresh_nonneg ar m
  cases ar with
  | rational => linarith
  | single =>
      revert hnonneg
      simp only [modeVrefresh, Arithmetic.round, id]
      split_ifs with hzero
      · norm_num
      intro hnonneg
      rw [not_or] at hzero
      have hT : (0 : ℚ) < m.htotal * m.vtotal :=
        mul_pos (Nat.cast_pos.mpr (Nat.pos_of_ne_zero hzero.1))
          (Nat.cast_pos.mpr (Nat.pos_of_ne_zero hzero.2))
      have hclock := mul_le_roundSingle (Nat.cast_nonneg (α := ℚ) m.clock)
      have hscaled : 0 ≤ roundSingle m.clock * 1000 :=
        mul_nonneg (roundSingle_nonneg (Nat.cast_nonneg _)) (by norm_num)
      have hnum := mul_le_roundSingle hscaled
      have hquot := mul_le_roundSingle_div (roundSingle_nonneg hscaled) hT
      -- two roundings of the numerator, one of the denominator and one of the quotient
      generalize roundSingle (roundSingle (roundSingle m.clock * 1000) /
        roundSingle (m.htotal * m.vtotal)) = rate at hquot hnonneg ⊢
      have hpos : 0 ≤ rate * (m.htotal * m.vtotal) := mul_nonneg hnonneg hT.le
      rw [div_le_iff₀ hT]
      linarith

/-! ## What is selected -/

section Selected

variable {ar : Arithmetic}

/-- A mode the fold selects is an eligible one of the list. -/
theorem bestMode_mem {sdi : Bool} {better : ModeInfo → ModeInfo → Bool} {modes : List ModeInfo}
    {m : ModeInfo} (h : bestMode ar sdi better modes = some m) :
    m ∈ modes ∧ eligible ar sdi m = true := by
  induction modes using List.reverseRecOn with
  | nil => simp [bestMode] at h
  | append_singleton modes c ih =>
      rw [bestMode, List.foldl_append, List.foldl_cons, List.foldl_nil] at h
      split at h
      · next hc =>
        rw [Bool.and_eq_true] at hc
        rw [← Option.some.inj h]
        exact ⟨by simp, hc.1⟩
      · obtain ⟨hm, he⟩ := ih h
        exact ⟨List.mem_append_left _ hm, he⟩

theorem findMatchingMode_mem {modes : List ModeInfo} {width height : Nat} {framerate : ℚ}
    {interlaced : Bool} {m : ModeInfo}
    (h : findMatchingMode ar modes width height framerate interlaced = some m) : m ∈ modes := by
  rw [findMatchingMode] at h
  simp only [Option.orElse_eq_some] at h
  rcases h with h | ⟨-, h | ⟨-, h⟩⟩ <;> exact List.mem_of_find?_eq_some h

/-- The selected mode is one of the connector's, within the output's limits, and an SDI timing on
the SDI output. -/
theorem selectMode_spec {sdi : Bool} {modes : List ModeInfo} {width height : Nat} {fps : ℚ}
    {m : ModeInfo} (h : selectMode ar sdi modes width height fps = some m) :
    m ∈ modes ∧ tooFast ar m = false ∧ (sdi = true → isSdiMode ar m = true) := by
  rw [selectMode] at h
  split at h
  · cases h
  · simp only [Option.orElse_eq_some] at h
    rcases h with h | ⟨-, h⟩
    · obtain ⟨hm, hok⟩ := Option.filter_eq_some_iff.mp h
      rw [Bool.and_eq_true] at hok
      exact ⟨findMatchingMode_mem hm, by simpa using hok.2, fun hs => by simpa [hs] using hok.1⟩
    · obtain ⟨hm, he⟩ := bestMode_mem h
      rw [eligible, Bool.and_eq_true] at he
      refine ⟨hm, ?_, fun hs => by simpa [hs] using he.1⟩
      have hsup := he.2
      simp only [supported, Bool.and_eq_true] at hsup
      simpa using hsup.1.1.2

end Selected

end QcapDemos.Drm
