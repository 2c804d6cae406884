import Mathlib.Algebra.Order.Ring.Nat
import Mathlib.Algebra.Order.Ring.Rat
import Mathlib.Data.List.Dedup

set_option autoImplicit false

/-! # The axis probe: the verdict of a session

A session is a list of captured samples, read back from their JSON lines. `summarize` drops the
first sample, whose statistics cover an unknown window, decides which of the others are eligible,
counts what each point shows in its eligible windows, and reports `NO_COUNTER_ANOMALY` or not.
-/

namespace QcapDemos.Probe.Session

def POINTS : List String := ["dante_out", "cdc_out", "vproc_in", "vproc_out", "mixer_overlay_in"]

def LAYOUTS : List ((String × String) × List String) :=
  [(("0x26102005", "2.0"), POINTS),
    (("0x26102101", "3.0"),
      ["dante_out", "mixer_overlay_in", "mixer_out", "csc_out", "packer_out"])]

/-! ## The samples -/

/-- The JSON object of a point. What is read with `.get` may be missing. -/
structure PointRecord where
  measurementComplete : Option Bool
  compactEncodingValid : Option Bool
  overflowFlags : Option Nat
  periodSampleOverrun : Option Nat
  periodUpdatePending : Option Bool
  acceptedBeats : Nat
  stallCycles : Nat
  localCycles : Nat
  sof : Nat
  eol : Nat
  geometryErrorBeats : Nat
  stallViolationCycles : Nat
  observedResetAssertions : Nat
  lineBeatsLast : Nat
  frameLinesLast : Nat
  frameBeatsLast : Nat
  sofPeriodRefTicksLast : Nat
  expectedLineBeats : Nat
  expectedFrameLines : Nat
  flags : Option Nat
  snapshotRefTicks : Option Nat
  sofAgeRefTicks : Option Nat
deriving DecidableEq

structure Record where
  fpga : Option String
  abi : Option String
  sequence : Nat
  busy : Option Bool
  timedOut : Option Bool
  isPartial : Option Bool
  validMask : Option Nat
  measurementComplete : Option Bool
  clearAfterCaptureRequested : Option Bool
  points : Option (List (String × Option PointRecord))
deriving DecidableEq

/-- The truth value of what `.get` gives: a missing flag counts as false. -/
def truthy (flag : Option Bool) : Bool := flag.getD false

/-- A missing number counts as false, like 0. -/
def nonzero (n : Option Nat) : Bool := n.getD 0 != 0

def Record.identity (s : Record) : Option String × Option String := (s.fpga, s.abi)

def Record.keys (s : Record) : List String := (s.points.getD []).map Prod.fst

def Record.point (s : Record) (name : String) : Option PointRecord :=
  ((s.points.getD []).lookup name).join

/-- What a valid measurement of a point shows. -/
def PointRecord.valid (p : PointRecord) : Bool :=
  truthy p.measurementComplete && truthy p.compactEncodingValid && !nonzero p.overflowFlags &&
    !nonzero p.periodSampleOverrun && !truthy p.periodUpdatePending

/-! ## The summary -/

inductive Status where
  | noCounterAnomaly
  | attention
  | attentionOrIncomplete
deriving DecidableEq

structure Bounds where
  min : ℚ
  median : ℚ
  max : ℚ
deriving DecidableEq

def median (values : List ℚ) : ℚ :=
  let sorted := values.mergeSort (· ≤ ·)
  let n := sorted.length
  if n % 2 = 1 then sorted.getD (n / 2) 0
  else (sorted.getD (n / 2 - 1) 0 + sorted.getD (n / 2) 0) / 2

/-- The fractions of the summary are floats in the source and exact here. -/
def bounds (values : List ℚ) : Option Bounds :=
  match values with
  | [] => none
  | v :: vs => some { min := vs.foldl min v, median := median values, max := vs.foldl max v }

structure Expected where
  lineBeats : Int
  frameLines : Int
  frameBeats : Int
deriving DecidableEq

def expectedGeometry (width height : Int) : Expected :=
  { lineBeats := width / 2, frameLines := height, frameBeats := width / 2 * height }

structure Counts where
  missingOrIncompleteWindows : Nat
  noTransferWindows : Nat
  noSofWindows : Nat
  geometryMismatchWindows : Nat
  configuredGeometryMismatchWindows : Nat
deriving DecidableEq

def Counts.any (c : Counts) : Bool :=
  c.missingOrIncompleteWindows != 0 || c.noTransferWindows != 0 || c.noSofWindows != 0 ||
    c.geometryMismatchWindows != 0 || c.configuredGeometryMismatchWindows != 0

structure Totals where
  acceptedBeats : Nat
  sof : Nat
  eol : Nat
  geometryErrorBeats : Nat
  stallViolationCycles : Nat
  observedResetAssertions : Nat
deriving DecidableEq

structure LevelCounts where
  samples : Nat
  validLow : Nat
  validHighReadyLow : Nat
  validHighReadyHigh : Nat
  streamResetAsserted : Nat
deriving DecidableEq

structure PointSummary where
  status : Status
  completeWindows : Nat
  counts : Counts
  totals : Totals
  acceptedBeatsPerWindow : Option Bounds
  sofPerWindow : Option Bounds
  lastSofPeriodRefTicks : Option Bounds
  backpressureFraction : Option Bounds
  transferFraction : Option Bounds
  snapshotLevelCounts : LevelCounts
  observedLineBeats : List Nat
  observedFrameLines : List Nat
  observedFrameBeats : List Nat
deriving DecidableEq

structure Phase where
  samples : Nat
  signedModuloUpstreamPeriod : Option Bounds
deriving DecidableEq

structure Summary where
  captures : Nat
  discardedInitialCaptures : Nat
  freshWindows : Nat
  expectedGeometry : Expected
  identity : String × String
  pointOrder : List String
  invalidCaptureWindows : Nat
  points : List (String × PointSummary)
  limitations : List String
  adjacentPipelineSofPhaseRefTicks : Option (List (String × Phase))
  status : Status
deriving DecidableEq

/-- The `ValueError` that names a layout which is not one of `LAYOUTS`. -/
inductive Error where
  | unknownLayout (identity : Option String × Option String)
deriving DecidableEq

/-! ## Eligible windows -/

section Windows

variable (names : List String) (identity : String × String)

/-- The condition that makes a fresh sample an invalid capture window. -/
def invalid (prior : Option Nat) (s : Record) : Bool :=
  (match prior with
    | none => true
    | some q => s.sequence != (q + 1) &&& 0xffffffff) ||
  truthy s.busy || truthy s.timedOut || truthy s.isPartial || s.validMask != some 31 ||
  !truthy s.measurementComplete || s.identity != (some identity.1, some identity.2) ||
  !(s.keys.all (· ∈ names) && names.all (· ∈ s.keys)) ||
  !truthy s.clearAfterCaptureRequested

/-- Each sample is compared with the sequence number before it, eligible or not. -/
def eligibility : Option Nat → List Record → List Bool
  | _, [] => []
  | prior, s :: rest => (!invalid names identity prior s) :: eligibility (some s.sequence) rest

end Windows

/-- What the point shows in its eligible windows, as far as it is valid. -/
def validPoints (windows : List (Record × Bool)) (name : String) : List PointRecord :=
  (windows.filterMap fun w => if w.2 then w.1.point name else none).filter PointRecord.valid

def geometryMismatch (e : Expected) (p : PointRecord) : Bool :=
  p.lineBeatsLast != e.lineBeats || p.frameLinesLast != e.frameLines ||
    p.frameBeatsLast != e.frameBeats

def configuredMismatch (e : Expected) (p : PointRecord) : Bool :=
  p.expectedLineBeats != e.lineBeats || p.expectedFrameLines != e.frameLines

def countsOf (e : Expected) (fresh : Nat) (valid : List PointRecord) : Counts :=
  { missingOrIncompleteWindows := fresh - valid.length
    noTransferWindows := valid.countP (·.acceptedBeats == 0)
    noSofWindows := valid.countP (·.sof == 0)
    geometryMismatchWindows := valid.countP (geometryMismatch e)
    configuredGeometryMismatchWindows := valid.countP (configuredMismatch e) }

def totalsOf (valid : List PointRecord) : Totals :=
  let total (field : PointRecord → Nat) : Nat := (valid.map field).sum
  { acceptedBeats := total (·.acceptedBeats)
    sof := total (·.sof)
    eol := total (·.eol)
    geometryErrorBeats := total (·.geometryErrorBeats)
    stallViolationCycles := total (·.stallViolationCycles)
    observedResetAssertions := total (·.observedResetAssertions) }

def levelCountsOf (valid : List PointRecord) : LevelCounts :=
  let levels := valid.filterMap (·.flags)
  { samples := levels.length
    validLow := levels.countP (· &&& 1 == 0)
    validHighReadyLow := levels.countP (· &&& 3 == 1)
    validHighReadyHigh := levels.countP (· &&& 3 == 3)
    streamResetAsserted := levels.countP (· &&& 4 == 0) }

/-- The values without repetition, in increasing order. -/
def observed (values : List Nat) : List Nat := values.dedup.mergeSort (· ≤ ·)

def summarizePoint (e : Expected) (fresh : Nat) (valid : List PointRecord) : PointSummary :=
  let counts := countsOf e fresh valid
  let totals := totalsOf valid
  let issue := valid.isEmpty || counts.any || totals.geometryErrorBeats != 0 ||
    totals.stallViolationCycles != 0 || totals.observedResetAssertions != 0
  let clocked := valid.filter (·.localCycles != 0)
  { status := if issue then .attention else .noCounterAnomaly
    completeWindows := valid.length
    counts := counts
    totals := totals
    acceptedBeatsPerWindow := bounds (valid.map (·.acceptedBeats))
    sofPerWindow := bounds (valid.map (·.sof))
    lastSofPeriodRefTicks := bounds
      ((valid.filter fun p => p.sof != 0 && decide (0 < p.sofPeriodRefTicksLast)).map
        (·.sofPeriodRefTicksLast))
    backpressureFraction := bounds (clocked.map fun p => p.stallCycles / p.localCycles)
    transferFraction := bounds (clocked.map fun p => p.acceptedBeats / p.localCycles)
    snapshotLevelCounts := levelCountsOf valid
    observedLineBeats := observed (valid.map (·.lineBeatsLast))
    observedFrameLines := observed (valid.map (·.frameLinesLast))
    observedFrameBeats := observed (valid.map (·.frameBeatsLast)) }

/-! ## The phase between neighbouring points -/

/-- The signed distance of the last SOFs of two points, modulo the period of the first. -/
def phaseDelta (a b : PointRecord) : Option Int :=
  if a.valid && a.sof != 0 && b.valid && b.sof != 0 && a.sofPeriodRefTicksLast != 0 &&
      b.sofPeriodRefTicksLast != 0 then do
    let aTime : Int := (← a.snapshotRefTicks) - (← a.sofAgeRefTicks)
    let bTime : Int := (← b.snapshotRefTicks) - (← b.sofAgeRefTicks)
    let period : Int := a.sofPeriodRefTicksLast
    let delta := (bTime - aTime) % period
    pure (if period < 2 * delta then delta - period else delta)
  else none

def phase (windows : List (Record × Bool)) (upstream downstream : String) : Phase :=
  let deltas := windows.filterMap fun w =>
    if w.2 && truthy w.1.measurementComplete then do
      phaseDelta (← w.1.point upstream) (← w.1.point downstream)
    else none
  { samples := deltas.length, signedModuloUpstreamPeriod := bounds (deltas.map (↑·)) }

def phases (windows : List (Record × Bool)) (names : List String) : List (String × Phase) :=
  (names.tail.dropLast.zip (names.drop 2)).map fun x =>
    (x.1 ++ "->" ++ x.2, phase windows x.1 x.2)

/-! ## The session -/

def limitations (downstream : Bool) : List String :=
  [if downstream then
      "ABI3 taps end at SDI VIDEO_IN; no direct serializer/GT observation."
    else "All five ABI2 taps are upstream of the mixer output.",
    "Healthy counters do not prove correct picture or valid SDI output.",
    "Nonzero stall cycles are backpressure, not a protocol violation.",
    "SOF period is in reference ticks; no assumed 60Hz pass criterion.",
    "Compact ABI2/3 does not measure within-window minima/maxima or maximum gap lengths."]

/-- The identity of a session is that of its first sample. -/
def identityOf (samples : List Record) : Option String × Option String :=
  match samples with
  | [] => (some "0x26102005", some "2.0")
  | s :: _ => s.identity

/-- The identity and the points of a known layout. -/
def layoutOf (identity : Option String × Option String) :
    Option ((String × String) × List String) :=
  match identity with
  | (some fpga, some abi) => (LAYOUTS.lookup (fpga, abi)).map fun names => ((fpga, abi), names)
  | _ => none

def summarize (samples : List Record) (width height : Int) : Except Error Summary :=
  match layoutOf (identityOf samples) with
  | none => .error (.unknownLayout (identityOf samples))
  | some (identity, names) =>
      let fresh := samples.tail
      let downstream := identity.2 == "3.0"
      let expected := expectedGeometry width height
      let eligible := eligibility names identity (samples.head?.map (·.sequence)) fresh
      let windows := fresh.zip eligible
      let invalidWindows := eligible.countP (!·)
      let points := names.map fun name =>
        (name, summarizePoint expected fresh.length (validPoints windows name))
      .ok
        { captures := samples.length
          discardedInitialCaptures := min 1 samples.length
          freshWindows := fresh.length
          expectedGeometry := expected
          identity := identity
          pointOrder := names
          invalidCaptureWindows := invalidWindows
          points := points
          limitations := limitations downstream
          adjacentPipelineSofPhaseRefTicks :=
            if downstream then some (phases windows names) else none
          status :=
            if 2 ≤ fresh.length && invalidWindows == 0 &&
                points.all (·.2.status == .noCounterAnomaly) then .noCounterAnomaly
            else .attentionOrIncomplete }

/-! ## What the verdict certifies -/

/-- A fresh sample that counts: one that follows the sequence number `q`. -/
structure Eligible (names : List String) (identity : String × String) (q : Nat) (s : Record) :
    Prop where
  follows : s.sequence = (q + 1) % 2 ^ 32
  notBusy : truthy s.busy = false
  notTimedOut : truthy s.timedOut = false
  notPartial : truthy s.isPartial = false
  mask : s.validMask = some 31
  complete : truthy s.measurementComplete = true
  identity : s.identity = (some identity.1, some identity.2)
  keys : ∀ name, name ∈ s.keys ↔ name ∈ names
  cleared : truthy s.clearAfterCaptureRequested = true

structure PointHealthy (width height : Int) (p : PointRecord) : Prop where
  complete : truthy p.measurementComplete = true
  encoding : truthy p.compactEncodingValid = true
  noOverflow : nonzero p.overflowFlags = false
  noOverrun : nonzero p.periodSampleOverrun = false
  noPending : truthy p.periodUpdatePending = false
  beats : p.acceptedBeats ≠ 0
  sof : p.sof ≠ 0
  measured : (p.lineBeatsLast : Int) = width / 2 ∧ (p.frameLinesLast : Int) = height ∧
    (p.frameBeatsLast : Int) = width / 2 * height
  configured : (p.expectedLineBeats : Int) = width / 2 ∧ (p.expectedFrameLines : Int) = height
  noGeometryError : p.geometryErrorBeats = 0
  noStallViolation : p.stallViolationCycles = 0
  noReset : p.observedResetAssertions = 0

/-- A session without an anomaly: enough fresh samples, all eligible, all their points healthy. -/
structure Healthy (names : List String) (identity : String × String) (width height : Int)
    (samples : List Record) : Prop where
  enough : 2 ≤ samples.tail.length
  eligible : samples.IsChain fun s s' => Eligible names identity s.sequence s'
  points : ∀ s ∈ samples.tail, ∀ name ∈ names,
    ∃ p, s.point name = some p ∧ PointHealthy width height p

theorem eligible_iff {names : List String} {identity : String × String} {q : Nat} {s : Record} :
    invalid names identity (some q) s = false ↔ Eligible names identity q s := by
  have hkeys : (s.keys.all (· ∈ names) && names.all (· ∈ s.keys)) = true ↔
      ∀ name, name ∈ s.keys ↔ name ∈ names := by
    rw [Bool.and_eq_true, List.all_eq_true, List.all_eq_true]
    constructor
    · rintro ⟨hsub, hsup⟩ name
      exact ⟨fun h => of_decide_eq_true (hsub name h), fun h => of_decide_eq_true (hsup name h)⟩
    · intro h
      exact ⟨fun name hname => decide_eq_true ((h name).mp hname),
        fun name hname => decide_eq_true ((h name).mpr hname)⟩
  have hmask : (q + 1) &&& 0xffffffff = (q + 1) % 2 ^ 32 :=
    Nat.and_two_pow_sub_one_eq_mod (q + 1) 32
  unfold invalid
  simp only [Bool.or_eq_false_iff, Bool.not_eq_false', bne_eq_false_iff_eq, hmask, hkeys]
  constructor
  · rintro ⟨⟨⟨⟨⟨⟨⟨⟨h₁, h₂⟩, h₃⟩, h₄⟩, h₅⟩, h₆⟩, h₇⟩, h₈⟩, h₉⟩
    exact ⟨h₁, h₂, h₃, h₄, h₅, h₆, h₇, h₈, h₉⟩
  · rintro ⟨h₁, h₂, h₃, h₄, h₅, h₆, h₇, h₈, h₉⟩
    exact ⟨⟨⟨⟨⟨⟨⟨⟨h₁, h₂⟩, h₃⟩, h₄⟩, h₅⟩, h₆⟩, h₇⟩, h₈⟩, h₉⟩

/-- No window is invalid exactly when each sample follows the one before. -/
theorem eligibility_iff {names : List String} {identity : String × String} (first : Record)
    (fresh : List Record) :
    (∀ b ∈ eligibility names identity (some first.sequence) fresh, b = true) ↔
      (first :: fresh).IsChain fun s s' => Eligible names identity s.sequence s' := by
  induction fresh generalizing first with
  | nil => simp [eligibility]
  | cons s rest ih =>
      rw [List.isChain_cons_cons, ← ih s, ← eligible_iff]
      simp [eligibility]

theorem length_eligibility (names : List String) (identity : String × String)
    (prior : Option Nat) (fresh : List Record) :
    (eligibility names identity prior fresh).length = fresh.length := by
  induction fresh generalizing prior with
  | nil => rfl
  | cons s rest ih =>
      show (eligibility names identity (some s.sequence) rest).length + 1 = rest.length + 1
      rw [ih]

theorem pointHealthy_iff {width height : Int} {p : PointRecord} :
    PointHealthy width height p ↔ p.valid = true ∧ p.acceptedBeats ≠ 0 ∧ p.sof ≠ 0 ∧
      geometryMismatch (expectedGeometry width height) p = false ∧
      configuredMismatch (expectedGeometry width height) p = false ∧
      p.geometryErrorBeats = 0 ∧ p.stallViolationCycles = 0 ∧ p.observedResetAssertions = 0 := by
  unfold PointRecord.valid geometryMismatch configuredMismatch expectedGeometry
  simp only [Bool.and_eq_true, Bool.not_eq_true', Bool.or_eq_false_iff, bne_eq_false_iff_eq]
  constructor
  · rintro ⟨h₁, h₂, h₃, h₄, h₅, h₆, h₇, ⟨h₈, h₉, h₁₀⟩, h₁₁, h₁₂, h₁₃, h₁₄⟩
    exact ⟨⟨⟨⟨⟨h₁, h₂⟩, h₃⟩, h₄⟩, h₅⟩, h₆, h₇, ⟨⟨h₈, h₉⟩, h₁₀⟩, h₁₁, h₁₂, h₁₃, h₁₄⟩
  · rintro ⟨⟨⟨⟨⟨h₁, h₂⟩, h₃⟩, h₄⟩, h₅⟩, h₆, h₇, ⟨⟨h₈, h₉⟩, h₁₀⟩, h₁₁, h₁₂, h₁₃, h₁₄⟩
    exact ⟨h₁, h₂, h₃, h₄, h₅, h₆, h₇, ⟨h₈, h₉, h₁₀⟩, h₁₁, h₁₂, h₁₃, h₁₄⟩

theorem counts_any_iff {e : Expected} {n : Nat} {valid : List PointRecord} :
    (countsOf e n valid).any = false ↔ n ≤ valid.length ∧
      ∀ p ∈ valid, p.acceptedBeats ≠ 0 ∧ p.sof ≠ 0 ∧ geometryMismatch e p = false ∧
        configuredMismatch e p = false := by
  unfold Counts.any countsOf
  simp only [Bool.or_eq_false_iff, bne_eq_false_iff_eq, Nat.sub_eq_zero_iff_le,
    List.countP_eq_zero, beq_iff_eq, Bool.not_eq_true]
  constructor
  · rintro ⟨⟨⟨⟨hlen, hbeats⟩, hsof⟩, hgeometry⟩, hconfigured⟩
    exact ⟨hlen, fun p hp => ⟨hbeats p hp, hsof p hp, hgeometry p hp, hconfigured p hp⟩⟩
  · rintro ⟨hlen, hall⟩
    exact ⟨⟨⟨⟨hlen, fun p hp => (hall p hp).1⟩, fun p hp => (hall p hp).2.1⟩,
      fun p hp => (hall p hp).2.2.1⟩, fun p hp => (hall p hp).2.2.2⟩

/-- A total of counters is zero where each of them is. -/
theorem total_eq_zero_iff (field : PointRecord → Nat) (valid : List PointRecord) :
    (valid.map field).sum = 0 ↔ ∀ p ∈ valid, field p = 0 := by
  rw [List.sum_eq_zero_iff_forall_eq_nat]
  simp

theorem summarizePoint_iff {width height : Int} {n : Nat} {valid : List PointRecord}
    (hvalid : ∀ p ∈ valid, p.valid = true) :
    (summarizePoint (expectedGeometry width height) n valid).status = .noCounterAnomaly ↔
      valid ≠ [] ∧ n ≤ valid.length ∧ ∀ p ∈ valid, PointHealthy width height p := by
  have hstatus (issue : Bool) : (if issue then Status.attention else .noCounterAnomaly)
      = .noCounterAnomaly ↔ issue = false := by cases issue <;> simp
  unfold summarizePoint
  rw [hstatus]
  simp only [Bool.or_eq_false_iff, bne_eq_false_iff_eq, counts_any_iff, totalsOf,
    total_eq_zero_iff, List.isEmpty_eq_false_iff]
  constructor
  · rintro ⟨⟨⟨⟨hne, hlen, hcounts⟩, hgeometry⟩, hstall⟩, hreset⟩
    refine ⟨hne, hlen, fun p hp => pointHealthy_iff.mpr ?_⟩
    obtain ⟨hbeats, hsof, hmeasured, hconfigured⟩ := hcounts p hp
    exact ⟨hvalid p hp, hbeats, hsof, hmeasured, hconfigured, hgeometry p hp, hstall p hp,
      hreset p hp⟩
  · rintro ⟨hne, hlen, hall⟩
    have hpoint (p : PointRecord) (hp : p ∈ valid) := (pointHealthy_iff.mp (hall p hp)).2
    refine ⟨⟨⟨⟨hne, hlen, ?_⟩, ?_⟩, ?_⟩, ?_⟩
    · intro p hp
      obtain ⟨hbeats, hsof, hmeasured, hconfigured, -⟩ := hpoint p hp
      exact ⟨hbeats, hsof, hmeasured, hconfigured⟩
    · exact fun p hp => (hpoint p hp).2.2.2.2.1
    · exact fun p hp => (hpoint p hp).2.2.2.2.2.1
    · exact fun p hp => (hpoint p hp).2.2.2.2.2.2

/-- The valid measurement of a point in a window, if there is one. -/
def windowPoint (name : String) (w : Record × Bool) : Option PointRecord :=
  if w.2 then (w.1.point name).filter PointRecord.valid else none

theorem validPoints_eq (windows : List (Record × Bool)) (name : String) :
    validPoints windows name = windows.filterMap (windowPoint name) := by
  unfold validPoints
  rw [List.filter_filterMap]
  congr 1
  funext w
  unfold windowPoint
  cases w.2
  · rfl
  · rfl

theorem windowPoint_eq_some {name : String} {w : Record × Bool} {p : PointRecord} :
    windowPoint name w = some p ↔ w.2 = true ∧ w.1.point name = some p ∧ p.valid = true := by
  unfold windowPoint
  by_cases hw : w.2 = true
  · rw [if_pos hw, Option.filter_eq_some_iff]
    simp [hw]
  · rw [if_neg hw]
    simp [hw]

/-- A filtered-out window counts against the point: the verdict on a point is good exactly when
all windows are eligible and show it healthy. -/
theorem point_status_iff {width height : Int} {windows : List (Record × Bool)} {name : String}
    (hne : windows ≠ []) :
    (summarizePoint (expectedGeometry width height) windows.length
        (validPoints windows name)).status = .noCounterAnomaly ↔
      ∀ w ∈ windows, w.2 = true ∧
        ∃ p, w.1.point name = some p ∧ PointHealthy width height p := by
  rw [validPoints_eq, summarizePoint_iff]
  · constructor
    · -- as many valid points as windows: no window was filtered out
      rintro ⟨-, hlen, hall⟩ w hw
      have hevery : ∀ w ∈ windows, (windowPoint name w).isSome = true :=
        List.filterMap_length_eq_length.mp (le_antisymm (List.length_filterMap_le _ _) hlen)
      obtain ⟨p, hp⟩ := Option.isSome_iff_exists.mp (hevery w hw)
      obtain ⟨helig, hpoint, -⟩ := windowPoint_eq_some.mp hp
      exact ⟨helig, p, hpoint, hall p (List.mem_filterMap.mpr ⟨w, hw, hp⟩)⟩
    · intro hall
      -- every window gives a valid point
      have hsome (w : Record × Bool) (hw : w ∈ windows) :
          ∃ p, windowPoint name w = some p ∧ PointHealthy width height p := by
        obtain ⟨helig, p, hpoint, hhealthy⟩ := hall w hw
        exact ⟨p, windowPoint_eq_some.mpr ⟨helig, hpoint, (pointHealthy_iff.mp hhealthy).1⟩,
          hhealthy⟩
      have hlen : (windows.filterMap (windowPoint name)).length = windows.length := by
        refine List.filterMap_length_eq_length.mpr fun w hw => ?_
        obtain ⟨p, hp, -⟩ := hsome w hw
        rw [hp]
        rfl
      refine ⟨?_, hlen.ge, ?_⟩
      · rw [← List.length_pos_iff, hlen]
        exact List.length_pos_iff.mpr hne
      · intro p hp
        obtain ⟨w, hw, hwp⟩ := List.mem_filterMap.mp hp
        obtain ⟨p', hwp', hhealthy⟩ := hsome w hw
        rw [hwp] at hwp'
        cases hwp'
        exact hhealthy
  · intro p hp
    obtain ⟨w, -, hwp⟩ := List.mem_filterMap.mp hp
    exact (windowPoint_eq_some.mp hwp).2.2

/-- The verdict of a session that starts with `first`, in terms of its windows. -/
theorem status_iff {names : List String} {identity : String × String} {width height : Int}
    {first : Record} {fresh : List Record} {windows : List (Record × Bool)}
    (hwindows : windows =
      fresh.zip (eligibility names identity (some first.sequence) fresh)) :
    (2 ≤ fresh.length ∧
      (eligibility names identity (some first.sequence) fresh).countP (!·) = 0 ∧
      ∀ name ∈ names, (summarizePoint (expectedGeometry width height) fresh.length
        (validPoints windows name)).status = .noCounterAnomaly) ↔
    Healthy names identity width height (first :: fresh) := by
  have hlen := length_eligibility names identity (some first.sequence) fresh
  have hcount : (eligibility names identity (some first.sequence) fresh).countP (!·) = 0 ↔
      (first :: fresh).IsChain fun s s' => Eligible names identity s.sequence s' := by
    rw [List.countP_eq_zero, ← eligibility_iff]
    simp
  -- the windows are the fresh samples, each with its eligibility
  have hfst : windows.map Prod.fst = fresh := by
    rw [hwindows]
    exact List.map_fst_zip hlen.ge
  have hsnd : windows.map Prod.snd
      = eligibility names identity (some first.sequence) fresh := by
    rw [hwindows]
    exact List.map_snd_zip hlen.le
  have hwlen : windows.length = fresh.length := by rw [← hfst, List.length_map]
  have hpoint (name : String) (henough : 2 ≤ fresh.length) :
      (summarizePoint (expectedGeometry width height) fresh.length
        (validPoints windows name)).status = .noCounterAnomaly ↔ ∀ w ∈ windows, w.2 = true ∧
          ∃ p, w.1.point name = some p ∧ PointHealthy width height p := by
    rw [← hwlen]
    exact point_status_iff (List.length_pos_iff.mp (by omega))
  constructor
  · rintro ⟨henough, helig, hpoints⟩
    refine ⟨henough, hcount.mp helig, ?_⟩
    intro s hs name hname
    obtain ⟨w, hw, rfl⟩ := List.mem_map.mp (hfst ▸ hs : s ∈ windows.map Prod.fst)
    exact ((hpoint name henough).mp (hpoints name hname) w hw).2
  · rintro ⟨henough, hchain, hpoints⟩
    refine ⟨henough, hcount.mpr hchain, ?_⟩
    intro name hname
    refine (hpoint name henough).mpr fun w hw => ?_
    have hs : w.1 ∈ fresh := hfst ▸ List.mem_map_of_mem hw
    have hb : w.2 ∈ eligibility names identity (some first.sequence) fresh :=
      hsnd ▸ List.mem_map_of_mem hw
    exact ⟨eligibility_iff first fresh |>.mpr hchain _ hb, hpoints _ hs name hname⟩

/-- **The verdict is exact.** A session of a known layout gets `NO_COUNTER_ANOMALY` exactly when
it is healthy, and nothing but the sequence number and the identity of the first sample has a
part in its summary. -/
theorem summarize_exact (samples : List Record) (width height : Int) :
    (∀ identity names, layoutOf (identityOf samples) = some (identity, names) →
      ∃ r, summarize samples width height = .ok r ∧
        (r.status = .noCounterAnomaly ↔ Healthy names identity width height samples)) ∧
    (∀ first ∈ samples.head?, ∀ other : Record, other.sequence = first.sequence →
      other.identity = first.identity →
      summarize (other :: samples.tail) width height = summarize samples width height) := by
  refine ⟨?_, ?_⟩
  · intro identity names hlayout
    unfold summarize
    rw [hlayout]
    refine ⟨_, rfl, ?_⟩
    have hverdict (c : Bool) : (if c then Status.noCounterAnomaly else .attentionOrIncomplete)
        = .noCounterAnomaly ↔ c = true := by cases c <;> simp
    rw [hverdict]
    cases samples with
    | nil =>
        -- an empty session has the layout of the older FPGA, and no fresh window
        constructor
        · intro h
          simp at h
        · intro h
          exact absurd h.enough (by decide)
    | cons first fresh =>
        rw [← status_iff rfl, Bool.and_eq_true, Bool.and_eq_true, decide_eq_true_iff, and_assoc]
        simp [List.all_map]
  · intro first hfirst other hseq hid
    cases samples with
    | nil => cases hfirst
    | cons s fresh =>
        cases hfirst
        unfold summarize identityOf
        simp only [List.tail_cons, List.head?_cons, List.length_cons, Option.map_some, hseq, hid]
        rfl

/-- A healthy point of 3840x2160. -/
def goodPoint : PointRecord where
  measurementComplete := some true
  compactEncodingValid := some true
  overflowFlags := some 0
  periodSampleOverrun := some 0
  periodUpdatePending := some false
  acceptedBeats := 4147200
  stallCycles := 16
  localCycles := 5000000
  sof := 1
  eol := 2160
  geometryErrorBeats := 0
  stallViolationCycles := 0
  observedResetAssertions := 0
  lineBeatsLast := 1920
  frameLinesLast := 2160
  frameBeatsLast := 4147200
  sofPeriodRefTicksLast := 1666667
  expectedLineBeats := 1920
  expectedFrameLines := 2160
  flags := some 7
  snapshotRefTicks := some 9000000
  sofAgeRefTicks := some 100000

def goodRecord (sequence : Nat) : Record where
  fpga := some "0x26102005"
  abi := some "2.0"
  sequence := sequence
  busy := some false
  timedOut := some false
  isPartial := some false
  validMask := some 31
  measurementComplete := some true
  clearAfterCaptureRequested := some true
  points := some (POINTS.map fun name => (name, some goodPoint))

/-- A session across the end of the sequence numbers, with a first sample of any statistics. -/
theorem summarize_exact_wrap :
    ∃ r, summarize [{ goodRecord 0xffffffff with points := none }, goodRecord 0, goodRecord 1]
        3840 2160 = .ok r ∧
      (r.status = .noCounterAnomaly ↔ Healthy POINTS ("0x26102005", "2.0") 3840 2160
        [{ goodRecord 0xffffffff with points := none }, goodRecord 0, goodRecord 1]) :=
  (summarize_exact _ 3840 2160).1 _ _ rfl

example : (match summarize [goodRecord 1, goodRecord 2, goodRecord 4] 3840 2160 with
    | .ok r => some (r.status, r.invalidCaptureWindows)
    | .error _ => none) = some (.attentionOrIncomplete, 1) := by
  decide +kernel

end QcapDemos.Probe.Session
