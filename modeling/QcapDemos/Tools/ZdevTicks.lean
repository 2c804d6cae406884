import Mathlib.Algebra.Order.Ring.Rat
import Mathlib.Data.Rat.Floor
import QcapDemos.Lib.Serial
import QcapDemos.Lib.Steps

set_option autoImplicit false

/-! # The sampling loop of `zdev-ticks-stat`

The tool reads four 32-bit counters at a fixed interval and prints their rates. A sample whose
timestamp is that of the one before it is skipped, but it becomes the reference for the next
one all the same. The deadlines are 64-bit sums of a timestamp and an interval that may itself be
any 64-bit number.
-/

namespace QcapDemos.Tools

open QcapDemos.Lib

/-! ## The program -/

/-- `kCounters` counters. -/
abbrev Counter := Fin 4

structure Sample where
  ticks : Counter → BitVec 32
  timestampNs : BitVec 64

/-- What `read_sample` finds: the monotonic clock before and after, and the counters, which the
device shows modulo `2 ^ 32`. -/
structure Reading where
  before : BitVec 64
  counts : Counter → Nat
  after : BitVec 64
  before_le : before ≤ after

/-- The register reads are attributed to their midpoint. -/
def readSample (r : Reading) : Sample :=
  { timestampNs := r.before + (r.after - r.before) / 2
    ticks := fun i => BitVec.ofNat 32 (r.counts i) }

/-- The `long double` members are kept without rounding, and `none` is the infinity that a minimum
or a maximum starts from. -/
structure CounterStats where
  samples : BitVec 64 := 0
  totalTicks : BitVec 64 := 0
  mean : Rat := 0
  m2 : Rat := 0
  minimum : Option Rat := none
  maximum : Option Rat := none

def CounterStats.add (s : CounterStats) (ticks : BitVec 32) (seconds : Rat) : CounterStats :=
  let rate := ticks.toNat / seconds
  let samples := s.samples + 1
  let delta := rate - s.mean
  let mean := s.mean + delta / samples.toNat
  { samples := samples
    totalTicks := s.totalTicks + ticks.setWidth 64
    mean := mean
    m2 := s.m2 + delta * (rate - mean)
    minimum := some (s.minimum.elim rate (min rate))
    maximum := some (s.maximum.elim rate (max rate)) }

/-- The interval of `main`: out of range, or rounded to whole nanoseconds. A product of a `double`
and `10 ^ 9` is exact in a `long double` of 113 bits. -/
def intervalNs (intervalSeconds : Rat) : Option (BitVec 64) :=
  let intervalNsLd := intervalSeconds * 1000000000
  if intervalNsLd < 1 ∨ intervalNsLd > 2 ^ 64 - 1 then none
  else some (BitVec.ofNat 64 (intervalNsLd + 1 / 2).floor.toNat)

/-- An absolute time as `clock_nanosleep` takes it. -/
structure Timespec where
  tvSec : Nat
  tvNsec : Nat

def Timespec.ns (ts : Timespec) : Nat := ts.tvSec * 1000000000 + ts.tvNsec

def timespec (deadlineNs : BitVec 64) : Timespec :=
  { tvSec := deadlineNs.toNat / 1000000000, tvNsec := deadlineNs.toNat % 1000000000 }

/-- One return of `clock_nanosleep`: the error, and whether `g_stop` is set by then. -/
structure Nap where
  error : Nat
  stop : Bool

def eintr : Nat := 4

/-- The loop of `sleep_until`, or `none` if none of the returns ends it. -/
def sleepUntil : List Nap → Option Bool
  | [] => none
  | nap :: naps =>
      if nap.error = 0 ∨ nap.stop then some (decide (nap.error = 0))
      else if nap.error ≠ eintr then some false
      else sleepUntil naps

/-- What a turn of the loop meets: `g_stop` at its head, the returns of `clock_nanosleep`, and what
`read_sample` finds, if it does not fail. -/
structure Turn where
  stop : Bool
  naps : List Nap
  reading : Option Reading

/-- The variables of the loop. -/
structure Loop where
  previous : Sample
  stats : Counter → CounterStats
  totalElapsedNs : BitVec 64
  deadlineNs : BitVec 64
  sampleNumber : BitVec 64

def Loop.start (interval : BitVec 64) (first : Reading) : Loop :=
  { previous := readSample first
    stats := fun _ => {}
    totalElapsedNs := 0
    deadlineNs := (readSample first).timestampNs + interval
    sampleNumber := 0 }

/-- What a turn does with the sample that it has read. -/
def Loop.add (interval : BitVec 64) (s : Loop) (r : Reading) : Loop :=
  let current := readSample r
  let elapsedNs := current.timestampNs - s.previous.timestampNs
  -- the reference moves, but nothing is counted
  if elapsedNs = 0 then
    { s with previous := current, deadlineNs := current.timestampNs + interval }
  else
    let next := s.deadlineNs + interval
    { previous := current
      stats := fun i =>
        (s.stats i).add (current.ticks i - s.previous.ticks i) (elapsedNs.toNat / 1000000000)
      totalElapsedNs := s.totalElapsedNs + elapsedNs
      deadlineNs := if next ≤ current.timestampNs then current.timestampNs + interval else next
      sampleNumber := s.sampleNumber + 1 }

/-- The loop condition, apart from `g_stop`. -/
def Loop.goesOn (requestedSamples : BitVec 64) (s : Loop) : Bool :=
  requestedSamples = 0 || s.sampleNumber < requestedSamples

/-- How the loop is left: not yet, with the statistics printed, or by a failed read. -/
inductive Exit where
  | running
  | finished
  | failed
deriving DecidableEq

def loop (interval requestedSamples : BitVec 64) : List Turn → Loop → Exit × Loop
  | [], s => (.running, s)
  | turn :: turns, s =>
      if !turn.stop && s.goesOn requestedSamples then
        match sleepUntil turn.naps with
        | none => (.running, s)
        | some false => (.finished, s)
        | some true =>
            match turn.reading with
            | none => (.failed, s)
            | some r => loop interval requestedSamples turns (s.add interval r)
      else (.finished, s)

/-- The overall average of a counter, as it is printed at the end. -/
def Loop.overall (s : Loop) (i : Counter) : Rat :=
  (s.stats i).totalTicks.toNat / (s.totalElapsedNs.toNat / 1000000000)

/-- What is read after the sleep of a turn. -/
def Turn.taken (turn : Turn) : Option Reading :=
  match sleepUntil turn.naps with
  | some true => turn.reading
  | _ => none

/-- The calls of `sleep_until`: the state at the call, and the turn that it is made in. -/
def sleeps (interval requestedSamples : BitVec 64) : List Turn → Loop → List (Loop × Turn)
  | [], _ => []
  | turn :: turns, s =>
      if !turn.stop && s.goesOn requestedSamples then
        (s, turn) ::
          match turn.taken with
          | some r => sleeps interval requestedSamples turns (s.add interval r)
          | none => []
      else []

/-- The readings of a run after the first. -/
def readings (interval requestedSamples : BitVec 64) (turns : List Turn) (s : Loop) :
    List Reading :=
  (sleeps interval requestedSamples turns s).filterMap fun call => call.2.taken

/-- The run is a fold over its readings. -/
theorem loop_eq (interval requestedSamples : BitVec 64) (turns : List Turn) (s : Loop) :
    (loop interval requestedSamples turns s).2
      = (readings interval requestedSamples turns s).foldl (Loop.add interval) s := by
  induction turns generalizing s with
  | nil => rfl
  | cons turn turns ih =>
      rw [loop, readings, sleeps]
      by_cases hgo : (!turn.stop && s.goesOn requestedSamples) = true
      · rw [if_pos hgo, if_pos hgo]
        simp only [List.filterMap_cons, Turn.taken]
        cases sleepUntil turn.naps with
        | none => rfl
        | some slept =>
            cases slept with
            | false => rfl
            | true =>
                cases turn.reading with
                | none => rfl
                | some r => exact ih (s.add interval r)
      · rw [if_neg hgo, if_neg hgo]
        rfl

/-! ## The account of a run -/

/-- The timestamp of a reading. -/
def Reading.time (r : Reading) : Nat := (readSample r).timestampNs.toNat

/-- A reading later on: the clock does not go back, and no counter goes all the way round. -/
structure Follows (a b : Reading) : Prop where
  time : a.time ≤ b.time
  counts : ∀ i, a.counts i ≤ b.counts i
  near : ∀ i, b.counts i < a.counts i + 2 ^ 32

/-- Every tick and every nanosecond from the first reading to the last is accounted for, and the
average that is printed is that of the counter. -/
structure AllCounted (first : Reading) (rest : List Reading) (s : Loop) : Prop where
  ticks : ∀ i, first.counts i + (s.stats i).totalTicks.toNat = (rest.getLastD first).counts i
  elapsed : first.time + s.totalElapsedNs.toNat = (rest.getLastD first).time
  average : s.sampleNumber ≠ 0 → ∀ i, s.overall i =
    ((rest.getLastD first).counts i - first.counts i : Nat) /
      (((rest.getLastD first).time - first.time : Nat) / 1000000000)

/-- The ticks that a sample adds to the total of a counter. -/
def counted (i : Counter) (a b : Reading) : Nat :=
  if a.time = b.time then 0 else b.counts i - a.counts i

/-- The ticks that pass in a sample of no length. -/
def skipped (i : Counter) (a b : Reading) : Nat :=
  if a.time = b.time then b.counts i - a.counts i else 0

theorem counted_add_skipped (i : Counter) :
    (fun a b => counted i a b + skipped i a b) = fun a b => b.counts i - a.counts i := by
  funext a b
  unfold counted skipped
  by_cases h : a.time = b.time
  · rw [if_pos h, if_pos h, Nat.zero_add]
  · rw [if_neg h, if_neg h, Nat.add_zero]

section Account

variable {interval : BitVec 64} {s : Loop} {a b first : Reading} {rest : List Reading}

theorem add_of_zero (h : (readSample b).timestampNs - s.previous.timestampNs = 0) :
    s.add interval b =
      { s with
        previous := readSample b
        deadlineNs := (readSample b).timestampNs + interval } :=
  if_pos h

theorem add_of_ne (h : (readSample b).timestampNs - s.previous.timestampNs ≠ 0) :
    s.add interval b =
      { previous := readSample b
        stats := fun i =>
          (s.stats i).add ((readSample b).ticks i - s.previous.ticks i)
            (((readSample b).timestampNs - s.previous.timestampNs).toNat / 1000000000)
        totalElapsedNs :=
          s.totalElapsedNs + ((readSample b).timestampNs - s.previous.timestampNs)
        deadlineNs :=
          if s.deadlineNs + interval ≤ (readSample b).timestampNs then
            (readSample b).timestampNs + interval
          else s.deadlineNs + interval
        sampleNumber := s.sampleNumber + 1 } :=
  if_neg h

@[simp] theorem previous_add : (s.add interval b).previous = readSample b := by
  by_cases h : (readSample b).timestampNs - s.previous.timestampNs = 0
  · rw [add_of_zero h]
  · rw [add_of_ne h]

theorem elapsedNs_eq (h : Follows a b) :
    (readSample b).timestampNs - (readSample a).timestampNs = BitVec.ofNat 64 (b.time - a.time) :=
  BitVec.eq_of_toNat_eq (by
    rw [BitVec.toNat_sub_of_le (BitVec.le_def.mpr h.time), BitVec.toNat_ofNat, Nat.mod_eq_of_lt]
    · rfl
    · exact (Nat.sub_le _ _).trans_lt (readSample b).timestampNs.isLt)

theorem elapsedNs_eq_zero_iff (h : Follows a b) :
    (readSample b).timestampNs - (readSample a).timestampNs = 0 ↔ a.time = b.time := by
  have hle := h.time
  have hlt : b.time < 2 ^ 64 := (readSample b).timestampNs.isLt
  rw [elapsedNs_eq h, ← BitVec.toNat_inj, BitVec.toNat_ofNat, Nat.mod_eq_of_lt (by omega)]
  show b.time - a.time = 0 ↔ a.time = b.time
  omega

theorem ticks_sub_eq (h : Follows a b) (i : Counter) :
    ((readSample b).ticks i - (readSample a).ticks i).setWidth 64
      = BitVec.ofNat 64 (b.counts i - a.counts i) := by
  have hnat := toNat_sub_of_near (h.counts i) (h.near i)
  rw [← BitVec.ofNat_toNat, readSample, readSample, hnat]

theorem totalTicks_add (hs : s.previous = readSample a) (h : Follows a b) (i : Counter) :
    ((s.add interval b).stats i).totalTicks
      = (s.stats i).totalTicks + BitVec.ofNat 64 (counted i a b) := by
  have hzero := elapsedNs_eq_zero_iff h
  rw [← hs] at hzero
  unfold counted
  by_cases htime : a.time = b.time
  · rw [add_of_zero (hzero.mpr htime), if_pos htime]
    exact (BitVec.add_zero _).symm
  · rw [add_of_ne (mt hzero.mp htime), if_neg htime, ← ticks_sub_eq h i, hs]
    rfl

theorem totalElapsedNs_add (hs : s.previous = readSample a) (h : Follows a b) :
    (s.add interval b).totalElapsedNs
      = s.totalElapsedNs + BitVec.ofNat 64 (b.time - a.time) := by
  rw [← elapsedNs_eq h, ← hs]
  by_cases hzero : (readSample b).timestampNs - s.previous.timestampNs = 0
  · rw [add_of_zero hzero, hzero]
    exact (BitVec.add_zero _).symm
  · rw [add_of_ne hzero]

/-- What a run adds to the totals. -/
theorem totals_foldl (hs : s.previous = readSample first)
    (h : (first :: rest).IsChain Follows) :
    (∀ i, ((rest.foldl (Loop.add interval) s).stats i).totalTicks
      = (s.stats i).totalTicks + BitVec.ofNat 64 (stepSum (counted i) first rest)) ∧
    (rest.foldl (Loop.add interval) s).totalElapsedNs
      = s.totalElapsedNs + BitVec.ofNat 64 (stepSum (fun a b => b.time - a.time) first rest) := by
  induction rest generalizing first s with
  | nil => simp
  | cons b rest ih =>
      rw [List.isChain_cons_cons] at h
      obtain ⟨hticks, helapsed⟩ := ih (s := s.add interval b) previous_add h.2
      refine ⟨fun i => ?_, ?_⟩
      · rw [List.foldl_cons, hticks i, totalTicks_add hs h.1 i, stepSum_cons, BitVec.add_assoc,
          ← BitVec.ofNat_add]
      · rw [List.foldl_cons, helapsed, totalElapsedNs_add hs h.1, stepSum_cons, BitVec.add_assoc,
          ← BitVec.ofNat_add]

/-- The totals of a run, from the first reading. -/
theorem toNat_totals (interval : BitVec 64) (h : (first :: rest).IsChain Follows) :
    (∀ i, ((rest.foldl (Loop.add interval) (.start interval first)).stats i).totalTicks.toNat
      = stepSum (counted i) first rest % 2 ^ 64) ∧
    (rest.foldl (Loop.add interval) (.start interval first)).totalElapsedNs.toNat
      = stepSum (fun a b => b.time - a.time) first rest % 2 ^ 64 := by
  obtain ⟨hticks, helapsed⟩ := totals_foldl (s := Loop.start interval first) rfl h
  refine ⟨fun i => ?_, ?_⟩
  · rw [hticks i, show ((Loop.start interval first).stats i).totalTicks = 0#64 from rfl,
      BitVec.zero_add, BitVec.toNat_ofNat]
  · rw [helapsed, show (Loop.start interval first).totalElapsedNs = 0#64 from rfl,
      BitVec.zero_add, BitVec.toNat_ofNat]

/-- The ticks counted and the ticks skipped are all that pass. -/
theorem counts_split (h : (first :: rest).IsChain Follows) (i : Counter) :
    first.counts i + (stepSum (counted i) first rest + stepSum (skipped i) first rest)
      = (rest.getLastD first).counts i := by
  rw [← stepSum_add, counted_add_skipped]
  exact add_stepSum_sub (fun r => r.counts i) (h.imp fun _ _ hab => hab.counts i)

theorem time_split (h : (first :: rest).IsChain Follows) :
    first.time + stepSum (fun a b => b.time - a.time) first rest
      = (rest.getLastD first).time :=
  add_stepSum_sub Reading.time (h.imp fun _ _ hab => hab.time)

/-- No counter advances from a reading to one with the same timestamp. -/
def Still (a b : Reading) : Prop := a.time = b.time → ∀ i, a.counts i = b.counts i

theorem skipped_eq_zero_iff (h : Follows a b) : Still a b ↔ ∀ i, skipped i a b = 0 := by
  have hle := h.counts
  unfold Still skipped
  by_cases htime : a.time = b.time
  · simp only [htime, true_imp_iff, if_true]
    refine forall_congr' fun i => ?_
    have hi := hle i
    omega
  · simp [htime]

theorem isChain_still_iff (h : (first :: rest).IsChain Follows) :
    (first :: rest).IsChain Still ↔ ∀ i, stepSum (skipped i) first rest = 0 := by
  simp only [stepSum_eq_zero_iff, List.isChain_iff_getElem] at h ⊢
  constructor
  · intro hstill i k hk
    exact (skipped_eq_zero_iff (h k hk)).mp (hstill k hk) i
  · intro hzero k hk
    exact (skipped_eq_zero_iff (h k hk)).mpr fun i => hzero i k hk

end Account

/-- **A run accounts for every tick exactly if no counter advances in a sample that is skipped, and
none advances by `2 ^ 64` in all.** Nanoseconds are never lost. -/
theorem allCounted_iff (interval requestedSamples : BitVec 64) (first : Reading)
    (turns : List Turn) {rest : List Reading}
    (hrest : readings interval requestedSamples turns (Loop.start interval first) = rest)
    (h : (first :: rest).IsChain Follows) :
    AllCounted first rest
        (loop interval requestedSamples turns (Loop.start interval first)).2 ↔
      (first :: rest).IsChain Still ∧
        ∀ i, (rest.getLastD first).counts i < first.counts i + 2 ^ 64 := by
  obtain ⟨htotal, hspan⟩ := toNat_totals interval h
  have htime := time_split h
  have hlt : (rest.getLastD first).time < 2 ^ 64 := (readSample _).timestampNs.isLt
  rw [Nat.mod_eq_of_lt (by omega)] at hspan
  rw [loop_eq, hrest, isChain_still_iff h, ← forall_and]
  constructor
  · intro hall i
    have hsplit := counts_split h i
    have hi := hall.ticks i
    have hmod := Nat.mod_lt (stepSum (counted i) first rest) (show 0 < 2 ^ 64 by decide)
    have hmodLe := Nat.mod_le (stepSum (counted i) first rest) (2 ^ 64)
    rw [htotal i] at hi
    omega
  · intro hcond
    have hsum (i : Counter) : first.counts i
        + ((rest.foldl (Loop.add interval) (Loop.start interval first)).stats i).totalTicks.toNat
          = (rest.getLastD first).counts i := by
      have hsplit := counts_split h i
      obtain ⟨hzero, hbound⟩ := hcond i
      rw [htotal i, Nat.mod_eq_of_lt (by omega)]
      omega
    refine ⟨hsum, by omega, fun _ i => ?_⟩
    rw [Loop.overall, ← hsum i, ← htime, Nat.add_sub_cancel_left, Nat.add_sub_cancel_left, hspan]

/-- A reading that takes no time and finds the same number in every counter. -/
def readingAt (ns : BitVec 64) (count : Nat) : Reading where
  before := ns
  counts := fun _ => count
  after := ns
  before_le := BitVec.le_refl ns

/-- A turn that is not interrupted. -/
def turnWith (r : Reading) : Turn := { stop := false, naps := [⟨0, false⟩], reading := some r }

/-- The interval of `zdev-ticks-stat 18446744073`. One second after boot, its deadline has
wrapped, so that the second reading follows at once: on a clock that is coarse enough, with the
same timestamp. -/
def hugeNs : BitVec 64 := 18446744073000000000

/-- Five ticks in a sample of no length, and five in a second. -/
def coarseTurns : List Turn :=
  [turnWith (readingAt 1000000000 5), turnWith (readingAt 2000000000 10)]

theorem readings_coarse : readings hugeNs 1 coarseTurns (.start hugeNs (readingAt 1000000000 0))
    = [readingAt 1000000000 5, readingAt 2000000000 10] := rfl

theorem follows_coarse : [readingAt 1000000000 0, readingAt 1000000000 5,
    readingAt 2000000000 10].IsChain Follows := by
  have hfirst : Follows (readingAt 1000000000 0) (readingAt 1000000000 5) :=
    ⟨by decide, by decide, by decide⟩
  have hsecond : Follows (readingAt 1000000000 5) (readingAt 2000000000 10) :=
    ⟨by decide, by decide, by decide⟩
  exact List.isChain_cons_cons.mpr ⟨hfirst, List.isChain_cons_cons.mpr
    ⟨hsecond, List.IsChain.singleton _⟩⟩

theorem allCounted_iff_coarse :
    AllCounted (readingAt 1000000000 0) [readingAt 1000000000 5, readingAt 2000000000 10]
        (loop hugeNs 1 coarseTurns (.start hugeNs (readingAt 1000000000 0))).2 ↔
      [readingAt 1000000000 0, readingAt 1000000000 5, readingAt 2000000000 10].IsChain Still ∧
        ∀ _ : Counter, 10 < 0 + 2 ^ 64 :=
  allCounted_iff hugeNs 1 (readingAt 1000000000 0) coarseTurns readings_coarse follows_coarse

/-- The ticks of a skipped sample are lost. -/
theorem not_allCounted :
    ¬ ∀ (intervalSeconds : Rat) (interval requestedSamples : BitVec 64) (first : Reading)
        (turns : List Turn) (rest : List Reading),
      intervalNs intervalSeconds = some interval →
      readings interval requestedSamples turns (.start interval first) = rest →
      (first :: rest).IsChain Follows →
      AllCounted first rest (loop interval requestedSamples turns (.start interval first)).2 := by
  intro h
  have hinterval : intervalNs 18446744073 = some hugeNs := by decide +kernel
  have hall := h _ _ 1 _ _ _ hinterval readings_coarse follows_coarse
  exact absurd (hall.ticks 0) (by decide)

/-! ## The cadence -/

/-- The sums that a turn adds up for its deadline, before they wrap. -/
def Loop.sums (interval : BitVec 64) (s : Loop) (r : Reading) : List Nat :=
  let now := (readSample r).timestampNs
  if now - s.previous.timestampNs = 0 then [now.toNat + interval.toNat]
  else
    (s.deadlineNs.toNat + interval.toNat) ::
      if s.deadlineNs + interval ≤ now then [now.toNat + interval.toNat] else []

/-- The deadline is later than the last sample, and at most one interval later. -/
def Ahead (interval : BitVec 64) (s : Loop) : Prop :=
  s.previous.timestampNs.toNat < s.deadlineNs.toNat ∧
    s.deadlineNs.toNat ≤ s.previous.timestampNs.toNat + interval.toNat

/-- What the deadlines of a run are meant to do. -/
structure Cadence (interval : BitVec 64) (first : Reading) (calls : List (Loop × Turn)) : Prop where
  ahead : ∀ call ∈ calls, Ahead interval call.1
  sorted : (calls.map fun call => call.1.deadlineNs.toNat).IsChain (· ≤ ·)
  start : first.time + interval.toNat < 2 ^ 64
  sums : ∀ call ∈ calls, ∀ r, call.2.taken = some r →
    ∀ sum ∈ call.1.sums interval r, sum < 2 ^ 64

/-- `clock_nanosleep` does not return 0 before the clock has reached the deadline. -/
def OnTime (calls : List (Loop × Turn)) : Prop :=
  ∀ call ∈ calls, ∀ r, call.2.taken = some r →
    (timespec call.1.deadlineNs).ns ≤ r.before.toNat

@[simp] theorem ns_timespec (deadlineNs : BitVec 64) :
    (timespec deadlineNs).ns = deadlineNs.toNat := by
  show deadlineNs.toNat / 1000000000 * 1000000000 + deadlineNs.toNat % 1000000000 = _
  omega

/-- The midpoint lies between the two clock readings. -/
theorem before_le_time (r : Reading) : r.before.toNat ≤ r.time ∧ r.time ≤ r.after.toNat := by
  have hle := BitVec.le_def.mp r.before_le
  have hlt := r.after.isLt
  have hhalf : ((r.after - r.before) / 2).toNat = (r.after.toNat - r.before.toNat) / 2 := by
    rw [BitVec.toNat_udiv, BitVec.toNat_sub_of_le r.before_le]
    rfl
  have hsum : r.time = r.before.toNat + (r.after.toNat - r.before.toNat) / 2 := by
    rw [Reading.time, readSample, BitVec.toNat_add, hhalf, Nat.mod_eq_of_lt (by omega)]
  omega

/-- An interval that `main` accepts is not 0. -/
theorem one_le_of_intervalNs {seconds : Rat} {interval : BitVec 64}
    (h : intervalNs seconds = some interval) : 1 ≤ interval.toNat := by
  unfold intervalNs at h
  simp only [Option.ite_none_left_eq_some, not_or, Rat.not_lt, Option.some.injEq] at h
  obtain ⟨⟨hone, hmax⟩, rfl⟩ := h
  have hlo : 1 ≤ (seconds * 1000000000 + 1 / 2).floor :=
    Rat.le_floor_iff.mpr (by grind)
  have hhi : (seconds * 1000000000 + 1 / 2).floor < 2 ^ 64 :=
    Rat.floor_lt_iff.mpr (by grind)
  rw [BitVec.toNat_ofNat, Nat.mod_eq_of_lt (by omega)]
  omega

section Step

variable {interval requestedSamples : BitVec 64} {s : Loop} {first r : Reading}

theorem start_ahead (hone : 1 ≤ interval.toNat) (hroom : first.time + interval.toNat < 2 ^ 64) :
    Ahead interval (.start interval first) := by
  have hsum : (Loop.start interval first).deadlineNs.toNat = first.time + interval.toNat :=
    (BitVec.toNat_add _ _).trans (Nat.mod_eq_of_lt hroom)
  have hprevious : (Loop.start interval first).previous.timestampNs.toNat = first.time := rfl
  exact ⟨by omega, by omega⟩

/-- What a turn does to the deadline, as long as there is room after its timestamp for one more
interval. A sample that is not early is never one of no length. -/
theorem deadline_add (hahead : Ahead interval s) (hdue : s.deadlineNs.toNat ≤ r.time)
    (hroom : r.time + interval.toNat < 2 ^ 64) :
    (s.add interval r).deadlineNs.toNat =
        (if s.deadlineNs.toNat + interval.toNat ≤ r.time then r.time + interval.toNat
          else s.deadlineNs.toNat + interval.toNat) ∧
      ∀ sum ∈ s.sums interval r, sum < 2 ^ 64 := by
  have hlater : s.previous.timestampNs.toNat < (readSample r).timestampNs.toNat :=
    hahead.1.trans_le hdue
  have hne : (readSample r).timestampNs - s.previous.timestampNs ≠ 0 := by
    intro hzero
    have hle := BitVec.toNat_sub_of_le (BitVec.le_def.mpr hlater.le)
    rw [hzero, show (0 : BitVec 64).toNat = 0 from rfl] at hle
    omega
  have hnow : (readSample r).timestampNs.toNat = r.time := rfl
  have hsum : ((readSample r).timestampNs + interval).toNat = r.time + interval.toNat :=
    (BitVec.toNat_add _ _).trans (Nat.mod_eq_of_lt hroom)
  have hnext : (s.deadlineNs + interval).toNat = s.deadlineNs.toNat + interval.toNat :=
    (BitVec.toNat_add _ _).trans (Nat.mod_eq_of_lt (by omega))
  refine ⟨?_, fun sum hmem => ?_⟩
  · simp only [add_of_ne hne, BitVec.le_def, hnext, hnow]
    split_ifs
    · exact hsum
    · exact hnext
  · simp only [Loop.sums, if_neg hne, List.mem_cons] at hmem
    rcases hmem with rfl | hmem
    · omega
    · split_ifs at hmem
      · obtain rfl := List.mem_singleton.mp hmem
        exact hroom
      · cases hmem

theorem add_ahead (hone : 1 ≤ interval.toNat) (hahead : Ahead interval s)
    (hdue : s.deadlineNs.toNat ≤ r.time) (hroom : r.time + interval.toNat < 2 ^ 64) :
    Ahead interval (s.add interval r) ∧
      s.deadlineNs.toNat ≤ (s.add interval r).deadlineNs.toNat := by
  obtain ⟨hdeadline, -⟩ := deadline_add hahead hdue hroom
  have hprevious : (s.add interval r).previous.timestampNs.toNat = r.time := by
    rw [previous_add]
    rfl
  unfold Ahead
  rw [hprevious, hdeadline]
  split_ifs
  · omega
  · omega

end Step

theorem sleeps_of_taken {interval requestedSamples : BitVec 64} {s : Loop} {turn : Turn}
    {r : Reading} (hgo : (!turn.stop && s.goesOn requestedSamples) = true)
    (htaken : turn.taken = some r) (turns : List Turn) :
    sleeps interval requestedSamples (turn :: turns) s
      = (s, turn) :: sleeps interval requestedSamples turns (s.add interval r) := by
  rw [sleeps, if_pos hgo, htaken]

theorem readings_of_taken {interval requestedSamples : BitVec 64} {s : Loop} {turn : Turn}
    {r : Reading} (hgo : (!turn.stop && s.goesOn requestedSamples) = true)
    (htaken : turn.taken = some r) (turns : List Turn) :
    readings interval requestedSamples (turn :: turns) s
      = r :: readings interval requestedSamples turns (s.add interval r) := by
  rw [readings, sleeps_of_taken hgo htaken]
  exact List.filterMap_cons_some htaken

/-- Every call of a run whose samples are not early and leave room for an interval. -/
theorem sleeps_spec {interval requestedSamples : BitVec 64} (hone : 1 ≤ interval.toNat)
    {turns : List Turn} {s : Loop} (hahead : Ahead interval s)
    (hroom : ∀ r ∈ readings interval requestedSamples turns s, r.time + interval.toNat < 2 ^ 64)
    (htime : OnTime (sleeps interval requestedSamples turns s)) :
    (∀ call ∈ sleeps interval requestedSamples turns s, Ahead interval call.1) ∧
    (s.deadlineNs.toNat :: (sleeps interval requestedSamples turns s).map
      fun call => call.1.deadlineNs.toNat).IsChain (· ≤ ·) ∧
    ∀ call ∈ sleeps interval requestedSamples turns s, ∀ r, call.2.taken = some r →
      ∀ sum ∈ call.1.sums interval r, sum < 2 ^ 64 := by
  induction turns generalizing s with
  | nil => simp [sleeps]
  | cons turn turns ih =>
      by_cases hgo : (!turn.stop && s.goesOn requestedSamples) = true
      · cases htaken : turn.taken with
        | none =>
            rw [sleeps, if_pos hgo, htaken]
            simp [hahead, htaken]
        | some r =>
            rw [readings_of_taken hgo htaken, List.forall_mem_cons] at hroom
            rw [sleeps_of_taken hgo htaken] at htime ⊢
            rw [OnTime, List.forall_mem_cons] at htime
            have hdue : s.deadlineNs.toNat ≤ r.time := by
              have hbefore := htime.1 r htaken
              rw [ns_timespec] at hbefore
              exact hbefore.trans (before_le_time r).1
            obtain ⟨hnext, hlater⟩ := add_ahead hone hahead hdue hroom.1
            obtain ⟨hall, hsorted, hsums⟩ := ih hnext hroom.2 htime.2
            refine ⟨List.forall_mem_cons.mpr ⟨hahead, hall⟩, ?_, List.forall_mem_cons.mpr
              ⟨fun r' hr' => ?_, hsums⟩⟩
            · exact List.isChain_cons_cons.mpr ⟨le_rfl, hsorted.imp_head hlater.trans⟩
            · obtain rfl := Option.some.inj (htaken.symm.trans hr')
              exact (deadline_add hahead hdue hroom.1).2
      · rw [sleeps, if_neg hgo]
        simp

/-- **An interval keeps its cadence up to a time exactly if the sum of the two does not wrap.** -/
theorem cadence_iff {intervalSeconds : Rat} {interval : BitVec 64}
    (h : intervalNs intervalSeconds = some interval) (horizon : BitVec 64) :
    (∀ (requestedSamples : BitVec 64) (first : Reading) (turns : List Turn),
      (∀ r ∈ first :: readings interval requestedSamples turns (.start interval first),
        r.time ≤ horizon.toNat) →
      OnTime (sleeps interval requestedSamples turns (.start interval first)) →
      Cadence interval first (sleeps interval requestedSamples turns (.start interval first))) ↔
    horizon.toNat + interval.toNat < 2 ^ 64 := by
  have hone := one_le_of_intervalNs h
  constructor
  · intro hall
    have htime : (readingAt horizon 0).time = horizon.toNat := by
      have hmid := before_le_time (readingAt horizon 0)
      exact Nat.le_antisymm hmid.2 hmid.1
    -- a run that ends with its first sample, read at the horizon
    have hcadence := hall 0 (readingAt horizon 0) [] (by simp [readings, sleeps, htime])
      (by simp [OnTime, sleeps])
    rw [← htime]
    exact hcadence.start
  · intro hroom requestedSamples first turns hhorizon hon
    rw [List.forall_mem_cons] at hhorizon
    have hstart : first.time + interval.toNat < 2 ^ 64 := by omega
    obtain ⟨hahead, hsorted, hsums⟩ := sleeps_spec hone (start_ahead hone hstart)
      (fun r hr => by have hle := hhorizon.2 r hr; omega) hon
    exact ⟨hahead, (List.isChain_cons.mp hsorted).2, hstart, hsums⟩

/-- A second, up to an hour after boot. -/
theorem cadence_iff_second :
    (∀ (requestedSamples : BitVec 64) (first : Reading) (turns : List Turn),
      (∀ r ∈ first :: readings 1000000000 requestedSamples turns (.start 1000000000 first),
        r.time ≤ (3600000000000 : BitVec 64).toNat) →
      OnTime (sleeps 1000000000 requestedSamples turns (.start 1000000000 first)) →
      Cadence 1000000000 first
        (sleeps 1000000000 requestedSamples turns (.start 1000000000 first))) ↔
    (3600000000000 : BitVec 64).toNat + (1000000000 : BitVec 64).toNat < 2 ^ 64 :=
  cadence_iff (show intervalNs 1 = some 1000000000 by decide +kernel) 3600000000000

/-- One second after boot, the deadline of a huge interval is already over. -/
theorem not_cadence :
    ¬ ∀ (intervalSeconds : Rat) (interval requestedSamples : BitVec 64) (first : Reading)
        (turns : List Turn), intervalNs intervalSeconds = some interval →
      OnTime (sleeps interval requestedSamples turns (.start interval first)) →
      Cadence interval first
        (sleeps interval requestedSamples turns (.start interval first)) := by
  intro h
  have hinterval : intervalNs 18446744073 = some hugeNs := by decide +kernel
  have hcalls : sleeps hugeNs 0 [turnWith (readingAt 1000000001 5)]
      (.start hugeNs (readingAt 1000000000 0))
        = [(.start hugeNs (readingAt 1000000000 0), turnWith (readingAt 1000000001 5))] := rfl
  have hcadence := h _ _ 0 (readingAt 1000000000 0) [turnWith (readingAt 1000000001 5)] hinterval
  rw [hcalls] at hcadence
  have hon : OnTime [(.start hugeNs (readingAt 1000000000 0),
      turnWith (readingAt 1000000001 5))] := by
    intro call hcall r hr
    obtain rfl := List.mem_singleton.mp hcall
    obtain rfl := Option.some.inj hr
    decide
  exact absurd ((hcadence hon).ahead _ List.mem_cons_self).1 (by decide)

end QcapDemos.Tools
