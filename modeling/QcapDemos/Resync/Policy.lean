import QcapDemos.Lib.Run
import QcapDemos.Lib.Ring

set_option autoImplicit false

/-! # The SDI resync watchdog policy

The embedding of `sc6f0_sdi_resync::Policy`. The main loop feeds `observe` with its clock, the
FPGA alignment status word and whether the output route is eligible; the policy answers whether
one reset of the output may be attempted now.

The policy is generic in how it remembers the attempts it granted (`Limiter`): the source keeps
a three-slot ring (`ring`), the specification keeps all of them (`history`). Times and counters
are naturals with the wrap of the source's `uint64_t` and `unsigned` written out.
-/

namespace QcapDemos.Resync

open QcapDemos.Lib

def kSampleMs : Nat := 500
def kDebounceMs : Nat := 2000
def kCooldownMs : Nat := 5000
def kAttemptWindowMs : Nat := 60000
def kMaxAttempts : Nat := 3

instance : NeZero kMaxAttempts := ⟨by decide⟩

/-- The alignment register reads as this when it cannot be read. -/
def invalidStatus : UInt32 := 0xffffffff

/-- Bit 11 is sticky lost-align history; the high half is the lag. -/
def hasSuspectAlignmentHistory (status : UInt32) : Bool :=
  status != invalidStatus && (status &&& ((1 : UInt32) <<< 11)) != 0 && (status >>> 16) == 12

/-! ## Unsigned arithmetic -/

def addU64 (a b : Nat) : Nat := (a + b) % 2 ^ 64

def subU64 (a b : Nat) : Nat := (a + (2 ^ 64 - b)) % 2 ^ 64

def addU32 (a b : Nat) : Nat := (a + b) % 2 ^ 32

theorem addU64_eq {a b : Nat} (h : a + b < 2 ^ 64) : addU64 a b = a + b := Nat.mod_eq_of_lt h

theorem subU64_eq {a b : Nat} (h : b ≤ a) (ha : a < 2 ^ 64) : subU64 a b = a - b := by
  have hturn : a + (2 ^ 64 - b) = (a - b) + 2 ^ 64 := by omega
  rw [subU64, hturn, Nat.add_mod_right, Nat.mod_eq_of_lt (by omega)]

theorem addU32_eq {a b : Nat} (h : a + b < 2 ^ 32) : addU32 a b = a + b := Nat.mod_eq_of_lt h

-- Unification must not evaluate the remainders of symbolic operands.
attribute [irreducible] addU64 subU64 addU32

/-! ## The policy -/

/-- A memory of granted attempts: how many count as recent, and how one more is recorded. -/
structure Limiter (H : Type) where
  recent : H → Nat → Nat
  record : H → Nat → H

/-- The fields of the policy, with the memory `H` in place of the attempt ring. -/
structure Policy (H : Type) where
  nextSampleMs : Nat
  suspectMs : Nat
  cooldownUntilMs : Nat
  attempts : H
  samples : Nat
  failed : Bool
deriving DecidableEq

variable {H : Type}

/-- A delayed main loop is not evidence of continuously bad samples. -/
def late (p : Policy H) (now : Nat) : Bool :=
  p.nextSampleMs != 0 && addU64 p.nextSampleMs (2 * kSampleMs) < now

/-- The number of samples that still count as evidence at `now`. -/
def carried (p : Policy H) (now : Nat) : Nat := if late p now then 0 else p.samples

/-- Take a sample: drop the evidence when late, and set the gate of the next one. -/
def beginSample (p : Policy H) (now : Nat) : Policy H :=
  { p with
    samples := carried p now
    nextSampleMs := addU64 now kSampleMs }

/-- The start of the evidence: the first counted sample sets it. -/
def evidenceStart (samples suspectMs now : Nat) : Nat := if samples = 0 then now else suspectMs

/-- Count one suspect sample. -/
def countSample (p : Policy H) (now : Nat) : Policy H :=
  { p with
    suspectMs := evidenceStart p.samples p.suspectMs now
    samples := addU32 p.samples 1 }

/-- A sample that speaks for the fault. -/
def suspect (status : UInt32) (eligible : Bool) : Bool :=
  eligible && hasSuspectAlignmentHistory status

/-- The sample ends any evidence. -/
def restarts (p : Policy H) (now : Nat) (status : UInt32) (eligible : Bool) : Bool :=
  p.failed || !suspect status eligible || now < p.cooldownUntilMs

/-- Long enough and dense enough evidence. -/
def debounced (p : Policy H) (now : Nat) : Bool :=
  !(p.samples < 5 || subU64 now p.suspectMs < kDebounceMs)

/-- Record an attempt and start its cooldown. -/
def grant (L : Limiter H) (p : Policy H) (now : Nat) : Policy H :=
  { p with
    attempts := L.record p.attempts now
    cooldownUntilMs := addU64 now kCooldownMs
    samples := 0 }

/-- `Policy::observe`. -/
def observe (L : Limiter H) (p : Policy H) (now : Nat) (status : UInt32) (eligible : Bool) :
    Policy H × Bool :=
  if now < p.nextSampleMs then (p, false)
  else
    let p := beginSample p now
    if restarts p now status eligible then ({ p with samples := 0 }, false)
    else
      let p := countSample p now
      if !debounced p now then (p, false)
      else if L.recent p.attempts now ≥ kMaxAttempts then (p, false)
      else (grant L p now, true)

/-! ## The two memories -/

/-- The three-slot ring of the source and its counter of attempts. -/
structure Attempts where
  attemptsMs : Fin kMaxAttempts → Nat
  attempts : Nat

/-- The source's memory: slot `attempts % 3` is overwritten. -/
def ring : Limiter Attempts where
  recent a now := (List.range (min a.attempts kMaxAttempts)).countP fun i =>
    subU64 now (a.attemptsMs (Fin.ofNat kMaxAttempts i)) < kAttemptWindowMs
  record a now :=
    { attemptsMs := Function.update a.attemptsMs (Fin.ofNat kMaxAttempts a.attempts) now
      attempts := addU32 a.attempts 1 }

theorem ring_record_apply (a : Attempts) (now : Nat) (i : Fin kMaxAttempts) :
    (ring.record a now).attemptsMs i
      = if i = Fin.ofNat kMaxAttempts a.attempts then now else a.attemptsMs i :=
  Function.update_apply _ _ _ _

/-- The reference memory: the times of all attempts, newest first. -/
def history : Limiter (List Nat) where
  recent l now := l.countP fun t => subU64 now t < kAttemptWindowMs
  record l now := now :: l

/-- A policy before its first sample, with memory `h`. -/
def initial (h : H) : Policy H :=
  { nextSampleMs := 0, suspectMs := 0, cooldownUntilMs := 0, attempts := h, samples := 0,
    failed := false }

/-- The empty ring. -/
def noAttempts : Attempts := { attemptsMs := fun _ => 0, attempts := 0 }

/-! ## Runs -/

/-- One use of the policy by its owner. -/
inductive Event where
  | observe (now : Nat) (status : UInt32) (eligible : Bool)
  | setFailed (failed : Bool)
deriving DecidableEq

/-- The time at which the owner reads the clock for this event. -/
def Event.time? : Event → Option Nat
  | .observe now _ _ => some now
  | .setFailed _ => none

/-- The policy as a machine. Setting `failed` returns nothing, recorded as `false`. -/
def policy (L : Limiter H) : Machine (Policy H) Event Bool where
  step p
    | .observe now status eligible => observe L p now status eligible
    | .setFailed failed => ({ p with failed := failed }, false)

/-- The clock readings of a run. -/
def times (es : List Event) : List Nat := es.filterMap Event.time?

/-- The clock never goes back and stays below `2 ^ 63`. -/
def Monotonic (es : List Event) : Prop :=
  (times es).Pairwise (· ≤ ·) ∧ ∀ t ∈ times es, t < 2 ^ 63

/-- The times of the events answered `true`. -/
def grantTimes (es : List Event) (outs : List Bool) : List Nat :=
  (es.zip outs).filterMap fun (e, granted) => if granted then e.time? else none

theorem times_snoc (es : List Event) (e : Event) :
    times (es ++ [e]) = times es ++ e.time?.toList := by
  cases h : e.time? <;> simp [times, List.filterMap_append, h]

theorem mem_times_snoc {es : List Event} {e : Event} {t : Nat} (h : t ∈ times es) :
    t ∈ times (es ++ [e]) := by
  rw [times_snoc]; exact List.mem_append_left _ h

theorem now_mem_times (es : List Event) (now : Nat) (status : UInt32) (eligible : Bool) :
    now ∈ times (es ++ [.observe now status eligible]) := by
  rw [times_snoc]; exact List.mem_append_right _ (List.mem_singleton_self _)

theorem grantTimes_snoc (L : Limiter H) (p : Policy H) (es : List Event) (e : Event) :
    grantTimes (es ++ [e]) ((policy L).outputs p (es ++ [e]))
      = grantTimes es ((policy L).outputs p es)
        ++ (if ((policy L).step ((policy L).run p es) e).2 then e.time?.toList else []) := by
  rw [Machine.outputs_snoc, grantTimes, List.zip_append (by simp), List.filterMap_append]
  congr 1
  cases ((policy L).step ((policy L).run p es) e).2 <;> cases h : e.time? <;> simp [h]

theorem Monotonic.prefix {es : List Event} {e : Event} (h : Monotonic (es ++ [e])) :
    Monotonic es :=
  ⟨(List.pairwise_append.mp (times_snoc es e ▸ h.1)).1, fun t ht => h.2 t (mem_times_snoc ht)⟩

/-- What the clock condition says of one event, given the events before it. -/
def Clocked (past : List Event) (e : Event) : Prop :=
  ∀ now ∈ e.time?, now < 2 ^ 63 ∧ ∀ t ∈ times past, t ≤ now

theorem Monotonic.admissible {es : List Event} (h : Monotonic es) :
    Machine.Admissible Clocked es := by
  intro p e q hes now hnow
  have htimes : times es = times p ++ now :: times q := by
    have he : e.time? = some now := hnow
    rw [hes, times, List.filterMap_append, List.filterMap_cons, he]; rfl
  obtain ⟨hsorted, hbound⟩ := h
  rw [htimes] at hsorted hbound
  exact ⟨hbound now (by simp), fun t ht =>
    (List.pairwise_append.mp hsorted).2.2 t ht now List.mem_cons_self⟩

/-! ## What one observation does -/

/-- The outcomes of one observation, with all that is tested on the way to each. -/
inductive Observation (L : Limiter H) (p : Policy H) (now : Nat) (status : UInt32)
    (eligible : Bool) : Policy H × Bool → Prop where
  | skipped (hgate : now < p.nextSampleMs) :
      Observation L p now status eligible (p, false)
  | restarted (hgate : p.nextSampleMs ≤ now)
      (hbad : p.failed = true ∨ suspect status eligible = false ∨ now < p.cooldownUntilMs) :
      Observation L p now status eligible
        ({ p with nextSampleMs := addU64 now kSampleMs, samples := 0 }, false)
  | counted (hgate : p.nextSampleMs ≤ now) (hfailed : p.failed = false)
      (hsuspect : suspect status eligible = true) (hcool : p.cooldownUntilMs ≤ now)
      (hwait : addU32 (carried p now) 1 < 5 ∨
        subU64 now (evidenceStart (carried p now) p.suspectMs now) < kDebounceMs ∨
        kMaxAttempts ≤ L.recent p.attempts now) :
      Observation L p now status eligible
        ({ p with
            nextSampleMs := addU64 now kSampleMs
            suspectMs := evidenceStart (carried p now) p.suspectMs now
            samples := addU32 (carried p now) 1 }, false)
  | granted (hgate : p.nextSampleMs ≤ now) (hfailed : p.failed = false)
      (hsuspect : suspect status eligible = true) (hcool : p.cooldownUntilMs ≤ now)
      (hfive : 5 ≤ addU32 (carried p now) 1)
      (hlong : kDebounceMs ≤ subU64 now (evidenceStart (carried p now) p.suspectMs now))
      (hrecent : L.recent p.attempts now < kMaxAttempts) :
      Observation L p now status eligible
        ({ p with
            nextSampleMs := addU64 now kSampleMs
            suspectMs := evidenceStart (carried p now) p.suspectMs now
            attempts := L.record p.attempts now
            cooldownUntilMs := addU64 now kCooldownMs
            samples := 0 }, true)

theorem countSample_beginSample (p : Policy H) (now : Nat) :
    countSample (beginSample p now) now
      = { p with
          nextSampleMs := addU64 now kSampleMs
          suspectMs := evidenceStart (carried p now) p.suspectMs now
          samples := addU32 (carried p now) 1 } := rfl

theorem restarts_iff (p : Policy H) (now : Nat) (status : UInt32) (eligible : Bool) :
    restarts (beginSample p now) now status eligible = true ↔
      p.failed = true ∨ suspect status eligible = false ∨ now < p.cooldownUntilMs := by
  have hframe : restarts (beginSample p now) now status eligible
      = restarts p now status eligible := rfl
  rw [hframe]
  simp [restarts, or_assoc]

theorem debounced_iff (p : Policy H) (now : Nat) :
    debounced (countSample (beginSample p now) now) now = true ↔
      5 ≤ addU32 (carried p now) 1 ∧
        kDebounceMs ≤ subU64 now (evidenceStart (carried p now) p.suspectMs now) := by
  rw [countSample_beginSample]
  change (!(decide (addU32 (carried p now) 1 < 5) ||
    decide (subU64 now (evidenceStart (carried p now) p.suspectMs now) < kDebounceMs))) = true ↔ _
  simp

/-- **One observation**: it comes before the next sample is due, or its sample restarts the
evidence, or its sample is counted, or the counted sample earns a grant. -/
theorem observe_cases (L : Limiter H) (p : Policy H) (now : Nat) (status : UInt32)
    (eligible : Bool) :
    Observation L p now status eligible (observe L p now status eligible) := by
  unfold observe
  split
  · exact .skipped ‹_›
  next hgate =>
  rw [Nat.not_lt] at hgate
  dsimp only
  split
  · next hrestart => exact .restarted hgate ((restarts_iff ..).mp hrestart)
  next hrestart =>
  rw [restarts_iff] at hrestart
  obtain ⟨hfailed, hsuspect, hcool⟩ :
      p.failed = false ∧ suspect status eligible = true ∧ p.cooldownUntilMs ≤ now := by
    simpa [not_or] using hrestart
  split
  · next hdeb =>
    rw [Bool.not_eq_true', ← Bool.not_eq_true, debounced_iff, not_and_or, Nat.not_le,
      Nat.not_le] at hdeb
    rw [countSample_beginSample]
    exact .counted hgate hfailed hsuspect hcool (hdeb.imp_right Or.inl)
  next hdeb =>
  rw [Bool.not_eq_true', Bool.not_eq_false, debounced_iff] at hdeb
  rw [countSample_beginSample]
  split
  · next hrecent => exact .counted hgate hfailed hsuspect hcool (Or.inr (Or.inr hrecent))
  · next hrecent =>
    exact .granted hgate hfailed hsuspect hcool hdeb.1 hdeb.2 (Nat.lt_of_not_le hrecent)

end QcapDemos.Resync
