import QcapDemos.Fixture.Load

set_option autoImplicit false

/-! # The decode fixture: pushing access units and counting frames

The timer callback pushes one access unit per tick, tries a unit again after a timeout, sends
the end of the stream once all units are pushed, and gives the decoder five seconds to return
its frames. The decoder callback pops frames. Both run in the thread of the event handlers, one
after the other. A log of the calls and their results is kept beside the state of the fixture.
-/

namespace QcapDemos.Fixture

/-! ## The callbacks -/

/-- A `QRESULT`; `failed` stands for all errors but the timeout. -/
inductive Outcome where
  | successful
  | timeout
  | failed
deriving DecidableEq

/-- What the calls of one timer callback come back with. -/
structure TimerTurn where
  wait : Outcome
  next : Outcome
  getBuffer : Outcome
  /-- The size of the memory of the packet, if there are a packet and memory. -/
  buffer : Option Int
  push : Outcome
  flush : Outcome
  flushClock : Int
  drainClock : Int
deriving DecidableEq

structure Pop where
  outcome : Outcome
  clock : Int
deriving DecidableEq

inductive Event where
  | timer (turn : TimerTurn)
  | vdec (pops : List Pop)
deriving DecidableEq

/-- An entry of the log. -/
inductive Entry where
  | getBuffer (size : Int) (outcome : Outcome)
  | invalidBuffer
  | push (pts : Nat) (bytes : List UInt8) (outcome : Outcome)
  | flush (outcome : Outcome)
  | pop (outcome : Outcome)
  | drainTimeout
deriving DecidableEq

structure State where
  pushed : Nat
  popCount : Nat
  allPushed : Bool
  flushSent : Bool
  failed : Bool
  done : Bool
  drainDeadline : Int
  lastStatsTime : Int
  lastStatsPopCount : Nat
  log : List Entry
deriving DecidableEq

/-- The counters as `Setup` leaves them. -/
def State.initial (clock : Int) : State where
  pushed := 0
  popCount := 0
  allPushed := false
  flushSent := false
  failed := false
  done := false
  drainDeadline := 0
  lastStatsTime := clock
  lastStatsPopCount := 0
  log := []

def State.note (s : State) (e : Entry) : State := { s with log := s.log ++ [e] }

def State.fail (s : State) : State := { s with failed := true, done := true }

def State.advance (s : State) (units : Int) : State :=
  { s with
    pushed := s.pushed + 1
    allPushed := s.allPushed || decide (units ≤ (s.pushed + 1 : Nat)) }

/-- Ask for a buffer, copy the unit and push it; whether the callback goes on after that. -/
def pushUnit (fps : Nat) (nSize units : Int) (bytes : List UInt8) (t : TimerTurn) (s : State) :
    State × Bool :=
  match t.getBuffer with
  | .timeout => (s.note (.getBuffer nSize .timeout), false)
  | .failed => ((s.note (.getBuffer nSize .failed)).fail, false)
  | .successful =>
      let s := s.note (.getBuffer nSize .successful)
      if ∃ dstSize ∈ t.buffer, nSize ≤ dstSize then
        let pts := s.pushed * 1000000 / fps
        match t.push with
        | .timeout => (s.note (.push pts bytes .timeout), false)
        | .failed => ((s.note (.push pts bytes .failed)).fail, false)
        | .successful => ((s.note (.push pts bytes .successful)).advance units, true)
      else ((s.note .invalidBuffer).fail, false)

section Callbacks

variable (l : Loaded) (fps : Nat)

/-- The push phase, and whether the callback goes on after it. A read outside the vectors has no
result. -/
def pushPhase (t : TimerTurn) (s : State) : Option (State × Bool) :=
  if !s.allPushed ∧ (s.pushed : Int) < int l.austarts.length then
    match l.ausize[s.pushed]?, l.austarts[s.pushed]? with
    | some size, some start =>
        let nSize := int size
        let bytes := (l.fileData.drop start).take nSize.toNat
        some (pushUnit fps nSize (int l.austarts.length) bytes t s)
    | _, _ => none
  else some (s, true)

def flushPhase (t : TimerTurn) (s : State) : State :=
  if s.allPushed ∧ !s.flushSent then
    match t.flush with
    | .successful => { s.note (.flush .successful) with
        flushSent := true
        drainDeadline := t.flushClock + 5000000 }
    | outcome => (s.note (.flush outcome)).fail
  else s

def drainPhase (t : TimerTurn) (s : State) : State :=
  if s.flushSent ∧ !s.done then
    if int l.austarts.length ≤ (s.popCount : Int) then { s with done := true }
    else if s.drainDeadline ≤ t.drainClock then (s.note .drainTimeout).fail
    else s
  else s

/-- The timer is set to `1000000 / fps`, which has no value at 0. -/
def onTimer (t : TimerTurn) (s : State) : Option State :=
  if t.wait ≠ .successful then some s
  else if fps = 0 then none
  else if t.next ≠ .successful then some s
  else do
    let (s, goesOn) ← pushPhase l fps t s
    if goesOn then some (drainPhase l t (flushPhase t s)) else some s

def State.popped (s : State) (clock : Int) : State :=
  let s := { s.note (.pop .successful) with popCount := s.popCount + 1 }
  if 5000000 ≤ clock - s.lastStatsTime then
    { s with lastStatsTime := clock, lastStatsPopCount := s.popCount }
  else s

/-- Frames are popped until a pop does not succeed. -/
def onVdecEvent : List Pop → State → State
  | [], s => s
  | p :: pops, s =>
      match p.outcome with
      | .successful => onVdecEvent pops (s.popped p.clock)
      | outcome => s.note (.pop outcome)

def handle (s : State) : Event → Option State
  | .timer t => onTimer l fps t s
  | .vdec pops => some (onVdecEvent pops s)

def handleAll (s : State) (events : List Event) : Option State := events.foldlM (handle l fps) s

end Callbacks

/-! ## The program -/

/-- What a run of the program depends on: its environment, its arguments, the results of the
setup, and the callbacks that are handled until the wait for completion is over. That wait
ends with `mDone`, or earlier when it is interrupted. -/
structure RunInput where
  testCase : Int
  hasInput : Bool
  file : Option (List UInt8)
  fps : Nat
  startHandlers : Outcome
  execInHandlers : Outcome
  setup : Outcome
  setupClock : Int
  events : List Event
  interrupted : Bool

/-- The comparison of the counters, which is made once. Callbacks that run after it, until the
handlers are removed, have no part in the result. -/
def compareCounters (l : Loaded) (s : State) : Int :=
  if s.failed ∨ (s.pushed : Int) ≠ int l.austarts.length ∨
      (s.popCount : Int) ≠ int l.austarts.length then 1
  else 0

/-- The value that `Run` returns, if its wait is over. -/
def runLoaded (l : Loaded) (r : RunInput) : Option Int :=
  if r.startHandlers ≠ .successful ∨ r.execInHandlers ≠ .successful ∨ r.setup ≠ .successful then
    some 1
  else match handleAll l r.fps (.initial r.setupClock) r.events with
    | none => none
    | some s => if !s.done ∧ !r.interrupted then none else some (compareCounters l s)

def run (r : RunInput) : Option Int :=
  if r.testCase ≠ 0 then some 0
  else if !r.hasInput then some 2
  else match load r.file with
    | none => none
    | some none => some 1
    | some (some l) => runLoaded l r

/-! ## What the log says -/

/-- The access unit that a push hands over to the decoder. -/
def Entry.accepted : Entry → Option (List UInt8)
  | .push _ bytes .successful => some bytes
  | _ => none

/-- A request, push or flush that fails, and the end of the drain without all frames. A timeout
of a flush is a failure, that of a request or of a push is not. -/
def Entry.isFailure : Entry → Bool
  | .getBuffer _ .failed => true
  | .invalidBuffer => true
  | .push _ _ .failed => true
  | .flush .timeout => true
  | .flush .failed => true
  | .drainTimeout => true
  | _ => false

def acceptedUnits (log : List Entry) : List (List UInt8) := log.filterMap Entry.accepted

def flushCount (log : List Entry) : Nat := log.count (.flush .successful)

def frameCount (log : List Entry) : Nat := log.count (.pop .successful)

/-- The invariant of the fixture: its counters and flags say what the log says. -/
structure Inv (l : Loaded) (s : State) : Prop where
  pushed_le : s.pushed ≤ l.units.length
  units : acceptedUnits s.log = l.units.take s.pushed
  allPushed : s.allPushed = true ↔ s.pushed = l.units.length
  flushes : flushCount s.log = if s.flushSent then 1 else 0
  flushSent : s.flushSent = true → s.allPushed = true
  flushLast : ∀ k, s.log[k]? = some (.flush .successful) →
    acceptedUnits (s.log.take k) = l.units
  failed : s.failed = s.log.any Entry.isFailure
  popCount : s.popCount = frameCount s.log

@[simp] theorem acceptedUnits_snoc (log : List Entry) (e : Entry) :
    acceptedUnits (log ++ [e]) = acceptedUnits log ++ e.accepted.toList := by
  unfold acceptedUnits
  rw [List.filterMap_append]
  cases h : e.accepted <;> simp [h]

@[simp] theorem flushCount_snoc (log : List Entry) (e : Entry) :
    flushCount (log ++ [e]) = flushCount log + if e = .flush .successful then 1 else 0 := by
  unfold flushCount
  rw [List.count_append, List.count_singleton]
  simp

@[simp] theorem frameCount_snoc (log : List Entry) (e : Entry) :
    frameCount (log ++ [e]) = frameCount log + if e = .pop .successful then 1 else 0 := by
  unfold frameCount
  rw [List.count_append, List.count_singleton]
  simp

section Invariant

variable {l : Loaded} {s : State}

theorem inv_initial (hne : l.units ≠ []) (clock : Int) : Inv l (.initial clock) := by
  have hpos := List.length_pos_iff.mpr hne
  refine ⟨Nat.zero_le _, rfl, ⟨(fun h => by cases h), fun h => ?_⟩, rfl,
    (fun h => by cases h), ?_, rfl, rfl⟩
  · have hzero : 0 = l.units.length := h
    omega
  · intro k hk
    cases hk

/-- All flushes of a longer log come last, if those of the log do and the new entry is not a
flush, or comes after all units. -/
theorem flushLast_snoc (h : Inv l s) {e : Entry}
    (he : e = .flush .successful → acceptedUnits s.log = l.units) :
    ∀ k, (s.log ++ [e])[k]? = some (.flush .successful) →
      acceptedUnits ((s.log ++ [e]).take k) = l.units := by
  intro k hk
  rcases Nat.lt_trichotomy k s.log.length with hlt | heq | hgt
  · -- an earlier flush, with the same log before it
    rw [List.getElem?_append_left hlt] at hk
    rw [List.take_append_of_le_length hlt.le]
    exact h.flushLast k hk
  · subst heq
    rw [List.getElem?_concat_length, Option.some.injEq] at hk
    rw [List.take_left]
    exact he hk
  · rw [List.getElem?_eq_none (by simp; omega)] at hk
    cases hk

/-- One more entry keeps the invariant where each counter and flag moves by what the entry says. -/
theorem Inv.snoc (h : Inv l s) {s' : State} {e : Entry} (hlog : s'.log = s.log ++ [e])
    (hpushed : s'.pushed ≤ l.units.length)
    (hunits : l.units.take s'.pushed = l.units.take s.pushed ++ e.accepted.toList)
    (hall : s'.allPushed = true ↔ s'.pushed = l.units.length)
    (hflushes : (if s'.flushSent then 1 else 0)
      = (if s.flushSent then 1 else 0) + if e = .flush .successful then 1 else 0)
    (hsent : s'.flushSent = true → s'.allPushed = true)
    (hlast : e = .flush .successful → acceptedUnits s.log = l.units)
    (hfailed : s'.failed = (s.failed || e.isFailure))
    (hpops : s'.popCount = s.popCount + if e = .pop .successful then 1 else 0) : Inv l s' := by
  refine ⟨hpushed, ?_, hall, ?_, hsent, hlog ▸ flushLast_snoc h hlast, ?_, ?_⟩
  · rw [hlog, acceptedUnits_snoc, h.units, hunits]
  · rw [hlog, flushCount_snoc, h.flushes, hflushes]
  · rw [hlog, List.any_append, ← h.failed, hfailed]
    simp
  · rw [hlog, frameCount_snoc, hpops, h.popCount]

/-- An entry that the counters do not count. -/
theorem Inv.note (h : Inv l s) {e : Entry} (hunit : e.accepted = none)
    (hflush : e ≠ .flush .successful) (hpop : e ≠ .pop .successful) (hok : e.isFailure = false) :
    Inv l (s.note e) := by
  refine h.snoc rfl h.pushed_le ?_ h.allPushed ?_ h.flushSent (fun he => absurd he hflush) ?_ ?_
  · rw [hunit]
    exact (List.append_nil _).symm
  · rw [if_neg hflush]
    rfl
  · rw [hok, Bool.or_false]
    rfl
  · rw [if_neg hpop]
    rfl

/-- An entry for a failure. -/
theorem Inv.fail (h : Inv l s) {e : Entry} (hunit : e.accepted = none)
    (hflush : e ≠ .flush .successful) (hpop : e ≠ .pop .successful)
    (hbad : e.isFailure = true) : Inv l (s.note e).fail := by
  refine h.snoc rfl h.pushed_le ?_ h.allPushed ?_ h.flushSent (fun he => absurd he hflush) ?_ ?_
  · rw [hunit]
    exact (List.append_nil _).symm
  · rw [if_neg hflush]
    rfl
  · rw [hbad, Bool.or_true]
    rfl
  · rw [if_neg hpop]
    rfl

/-- The push of the next unit. -/
theorem Inv.advance (h : Inv l s) {unit : List UInt8} (hunit : l.units[s.pushed]? = some unit)
    (pts : Nat) {units : Int} (hunits : units = l.units.length) :
    Inv l ((s.note (.push pts unit .successful)).advance units) := by
  obtain ⟨hlt, hget⟩ := List.getElem?_eq_some_iff.mp hunit
  -- a unit is left to push, so neither flag is set yet
  have hnot : s.allPushed = false := by
    cases hall : s.allPushed with
    | false => rfl
    | true =>
        have heq := h.allPushed.mp hall
        omega
  have hflush : s.flushSent = false := by
    cases hsent : s.flushSent with
    | false => rfl
    | true =>
        have hall := h.flushSent hsent
        rw [hnot] at hall
        cases hall
  refine h.snoc rfl ?_ ?_ ?_ rfl ?_ (fun he => by cases he) (Bool.or_false _).symm rfl
  · show s.pushed + 1 ≤ l.units.length
    omega
  · show l.units.take (s.pushed + 1) = l.units.take s.pushed ++ [unit]
    rw [List.take_add_one, hunit]
    rfl
  · show (s.allPushed || decide (units ≤ ((s.pushed + 1 : Nat) : Int))) = true ↔
      s.pushed + 1 = l.units.length
    rw [hnot, Bool.false_or, decide_eq_true_iff, hunits]
    omega
  · intro hsent
    have hsent' : s.flushSent = true := hsent
    rw [hflush] at hsent'
    cases hsent'

end Invariant

/-! ## What one callback preserves -/

/-- A loaded file whose sizes and number of access units are values of an `int`. -/
structure FitsInt (l : Loaded) : Prop where
  paired : l.ausize.length = l.austarts.length
  nonempty : l.austarts ≠ []
  count : l.austarts.length < 2 ^ 31
  sizes : ∀ size ∈ l.ausize, size < 2 ^ 31

section Callback

variable {l : Loaded} {fps : Nat} {s : State}

theorem length_units (hl : FitsInt l) : l.units.length = l.austarts.length := by
  unfold Loaded.units
  rw [List.length_zipWith, hl.paired, Nat.min_self]

theorem units_ne_nil (hl : FitsInt l) : l.units ≠ [] := by
  rw [← List.length_pos_iff, length_units hl]
  exact List.length_pos_iff.mpr hl.nonempty

theorem int_count (hl : FitsInt l) : int l.austarts.length = l.units.length := by
  rw [int_eq hl.count, length_units hl]

/-- The vectors hold the start and the size of each unit. -/
theorem unit_eq (hl : FitsInt l) {k : Nat} (hk : k < l.austarts.length) :
    ∃ start size, l.austarts[k]? = some start ∧ l.ausize[k]? = some size ∧ int size = size ∧
      l.units[k]? = some ((l.fileData.drop start).take size) := by
  have hk' : k < l.ausize.length := by
    rw [hl.paired]
    exact hk
  refine ⟨l.austarts[k], l.ausize[k], List.getElem?_eq_getElem hk,
    List.getElem?_eq_getElem hk', int_eq (hl.sizes _ (List.getElem_mem hk')), ?_⟩
  unfold Loaded.units
  rw [List.getElem?_zipWith, List.getElem?_eq_getElem hk, List.getElem?_eq_getElem hk']

theorem pushUnit_inv (h : Inv l s) {units nSize : Int} {bytes : List UInt8}
    (hunits : units = l.units.length) (hunit : l.units[s.pushed]? = some bytes) (t : TimerTurn) :
    Inv l (pushUnit fps nSize units bytes t s).1 := by
  have hgot (outcome : Outcome) (hok : outcome ≠ .failed) :
      Inv l (s.note (.getBuffer nSize outcome)) := by
    refine h.note rfl (by simp) (by simp) ?_
    cases outcome with
    | successful => rfl
    | timeout => rfl
    | failed => exact absurd rfl hok
  fun_cases pushUnit fps nSize units bytes t s with
  -- a timeout leaves the unit to the next tick, and every failure ends the run
  | case1 hget => exact hgot .timeout (by simp)
  | case2 hget => exact h.fail rfl (by simp) (by simp) rfl
  | case3 hget noted hbuffer pts hpush =>
      exact (hgot .successful (by simp)).note rfl (by simp) (by simp) rfl
  | case4 hget noted hbuffer pts hpush =>
      exact (hgot .successful (by simp)).fail rfl (by simp) (by simp) rfl
  | case5 hget noted hbuffer pts hpush =>
      exact (hgot .successful (by simp)).advance hunit pts hunits
  | case6 hget noted hbuffer =>
      exact (hgot .successful (by simp)).fail rfl (by simp) (by simp) rfl

theorem pushPhase_inv (hl : FitsInt l) (h : Inv l s) (fps : Nat) (t : TimerTurn) :
    ∃ r, pushPhase l fps t s = some r ∧ Inv l r.1 := by
  unfold pushPhase
  by_cases hmore : (!s.allPushed) ∧ (s.pushed : Int) < int l.austarts.length
  · rw [if_pos hmore]
    rw [int_count hl, length_units hl] at hmore
    obtain ⟨start, size, hstart, hsize, hint, hunit⟩ := unit_eq hl (k := s.pushed) (by omega)
    rw [hsize, hstart]
    refine ⟨_, rfl, pushUnit_inv h (int_count hl) ?_ t⟩
    rw [hunit, hint, Int.toNat_natCast]
  · -- nothing is left to push, and the callback goes on to the flush
    rw [if_neg hmore]
    exact ⟨(s, true), rfl, h⟩

/-- The accepted flush comes after all units. -/
theorem Inv.flushed (h : Inv l s) (hall : s.allPushed = true) (hsent : s.flushSent = false)
    (deadline : Int) :
    Inv l { s.note (.flush .successful) with flushSent := true, drainDeadline := deadline } := by
  have hunits : acceptedUnits s.log = l.units := by
    rw [h.units, h.allPushed.mp hall, List.take_length]
  refine h.snoc rfl h.pushed_le (List.append_nil _).symm h.allPushed ?_ (fun _ => hall)
    (fun _ => hunits) (Bool.or_false _).symm rfl
  rw [hsent]
  rfl

theorem flushPhase_inv (h : Inv l s) (t : TimerTurn) : Inv l (flushPhase t s) := by
  fun_cases flushPhase t s with
  | case1 hready hflush => exact h.flushed hready.1 (by simpa using hready.2) _
  | case2 hready hflush =>
      -- here a timeout is a failure too
      refine h.fail rfl ?_ (by simp) ?_
      · intro heq
        exact hflush (Entry.flush.inj heq)
      · cases houtcome : t.flush with
        | successful => exact absurd houtcome hflush
        | timeout => rfl
        | failed => rfl
  | case3 hready => exact h

theorem drainPhase_inv (h : Inv l s) (t : TimerTurn) : Inv l (drainPhase l t s) := by
  fun_cases drainPhase l t s with
  | case1 hready hframes =>
      -- the run is over, which neither the counters nor the log record
      exact ⟨h.pushed_le, h.units, h.allPushed, h.flushes, h.flushSent, h.flushLast, h.failed,
        h.popCount⟩
  | case2 hready hframes hlate => exact h.fail rfl (by simp) (by simp) rfl
  | case3 hready hframes hearly => exact h
  | case4 hready => exact h

theorem popped_inv (h : Inv l s) (clock : Int) : Inv l (s.popped clock) := by
  have hpop : Inv l { s.note (.pop .successful) with popCount := s.popCount + 1 } :=
    h.snoc rfl h.pushed_le (List.append_nil _).symm h.allPushed rfl h.flushSent
      (fun he => by cases he) (Bool.or_false _).symm rfl
  fun_cases State.popped s clock with
  | case1 noted hstats =>
      exact ⟨hpop.pushed_le, hpop.units, hpop.allPushed, hpop.flushes, hpop.flushSent,
        hpop.flushLast, hpop.failed, hpop.popCount⟩
  | case2 noted hstats => exact hpop

theorem onVdecEvent_inv (pops : List Pop) (h : Inv l s) : Inv l (onVdecEvent pops s) := by
  fun_induction onVdecEvent pops s with
  | case1 s => exact h
  | case2 s p rest hpop ih => exact ih (popped_inv h _)
  | case3 s p rest hpop =>
      refine h.note rfl (by simp) ?_ rfl
      intro heq
      exact hpop (Entry.pop.inj heq)

/-- **A callback keeps the invariant**, and reads no vector outside its bounds. -/
theorem handle_inv (hl : FitsInt l) (hfps : 1 ≤ fps) (h : Inv l s) (e : Event) :
    ∃ s', handle l fps s e = some s' ∧ Inv l s' := by
  cases e with
  | vdec pops => exact ⟨_, rfl, onVdecEvent_inv pops h⟩
  | timer t =>
      obtain ⟨r, hpush, hr⟩ := pushPhase_inv hl h fps t
      show ∃ s', onTimer l fps t s = some s' ∧ _
      unfold onTimer
      -- a timer that was not waited for or not set again ends the callback
      by_cases hwait : t.wait ≠ .successful
      · rw [if_pos hwait]
        exact ⟨s, rfl, h⟩
      rw [if_neg hwait, if_neg (by omega)]
      by_cases hnext : t.next ≠ .successful
      · rw [if_pos hnext]
        exact ⟨s, rfl, h⟩
      rw [if_neg hnext, hpush]
      show ∃ s', (if r.2 then some _ else some _) = some s' ∧ _
      by_cases hgoes : r.2
      · rw [if_pos hgoes]
        exact ⟨_, rfl, drainPhase_inv (flushPhase_inv hr t) t⟩
      · rw [if_neg hgoes]
        exact ⟨_, rfl, hr⟩

theorem handleAll_inv (hl : FitsInt l) (hfps : 1 ≤ fps) (events : List Event) (h : Inv l s) :
    ∃ s', handleAll l fps s events = some s' ∧ Inv l s' := by
  induction events generalizing s with
  | nil => exact ⟨s, rfl, h⟩
  | cons e events ih =>
      obtain ⟨s', hs', h'⟩ := handle_inv hl hfps h e
      obtain ⟨s'', hs'', h''⟩ := ih h'
      refine ⟨s'', ?_, h''⟩
      show (handle l fps s e).bind (fun s => handleAll l fps s events) = _
      rw [hs', Option.bind_some, hs'']

end Callback

/-! ## Whole runs -/

/-- The units handed over are the first of the file, each once and in order, and the end of the
stream is accepted at most once and after all of them. -/
structure Submits (l : Loaded) (s : State) : Prop where
  units : acceptedUnits s.log = l.units.take s.pushed
  pushed_le : s.pushed ≤ l.units.length
  atMostOneFlush : flushCount s.log ≤ 1
  flushLast : ∀ k, s.log[k]? = some (.flush .successful) →
    acceptedUnits (s.log.take k) = l.units

theorem Inv.submits {l : Loaded} {s : State} (h : Inv l s) : Submits l s := by
  refine ⟨h.units, h.pushed_le, ?_, h.flushLast⟩
  rw [h.flushes]
  cases s.flushSent
  · exact Nat.zero_le 1
  · exact le_rfl

theorem fitsInt_of_load {data : List UInt8} {l : Loaded}
    (h : load (some data) = some (some l)) (hcount : l.austarts.length < 2 ^ 31)
    (hsizes : ∀ size ∈ l.ausize, size < 2 ^ 31) : FitsInt l := by
  obtain ⟨nals, hscan, -⟩ := scanAnnexb_spec data
  have hl := isLoaded_of_load hscan h
  refine ⟨?_, ?_, hcount, hsizes⟩
  · rw [hl.ausize, length_sizesFrom, hl.austarts]
  · obtain ⟨rest, hrest⟩ := unitStarts_cons nals
    rw [hl.austarts, hrest]
    exact List.cons_ne_nil 0 rest

/-- What the callbacks have done when a run returns 0: they pushed all units and popped as many
frames as there are units, and no call failed. -/
structure Completed (l : Loaded) (s : State) : Prop where
  pushed : s.pushed = l.austarts.length
  units : acceptedUnits s.log = l.units
  noFailure : ∀ e ∈ s.log, e.isFailure = false
  frames : frameCount s.log = l.austarts.length

theorem compareCounters_eq_zero {l : Loaded} {s : State} (h : compareCounters l s = 0) :
    s.failed = false ∧ (s.pushed : Int) = int l.austarts.length ∧
      (s.popCount : Int) = int l.austarts.length := by
  unfold compareCounters at h
  split at h
  · cases h
  · rename_i hok
    rw [not_or, not_or, not_not, not_not, Bool.not_eq_true] at hok
    exact hok

theorem runLoaded_eq_zero {l : Loaded} {r : RunInput} (hl : FitsInt l) (hfps : 1 ≤ r.fps)
    (h : runLoaded l r = some 0) :
    ∃ s, handleAll l r.fps (.initial r.setupClock) r.events = some s ∧ Completed l s := by
  obtain ⟨s, hs, hinv⟩ :=
    handleAll_inv hl hfps r.events (inv_initial (units_ne_nil hl) r.setupClock)
  unfold runLoaded at h
  rw [hs] at h
  split at h
  · cases h
  · dsimp only at h
    split at h
    · cases h
    · obtain ⟨hfailed, hpushed, hpops⟩ := compareCounters_eq_zero (Option.some.inj h)
      rw [int_eq hl.count, Nat.cast_inj] at hpushed hpops
      refine ⟨s, hs, hpushed, ?_, ?_, hinv.popCount ▸ hpops⟩
      · rw [hinv.units, hpushed, ← length_units hl, List.take_length]
      · rw [hinv.failed, List.any_eq_false] at hfailed
        exact fun e he => by simpa using hfailed e he

/-- **Each access unit once and in order**, whatever the calls return, and a run in decode mode
returns 0 only when all units were pushed, nothing failed, and exactly as many frames were popped
as there are units. -/
theorem decode_spec (data : List UInt8) (l : Loaded) (fps : Nat)
    (hload : load (some data) = some (some l)) (hcount : l.austarts.length < 2 ^ 31)
    (hsizes : ∀ size ∈ l.ausize, size < 2 ^ 31) (hfps : 1 ≤ fps) :
    (∀ clock events, ∃ s, handleAll l fps (.initial clock) events = some s ∧ Submits l s) ∧
    (∀ r : RunInput, r.testCase = 0 → r.file = some data → r.fps = fps → run r = some 0 →
      ∃ s, handleAll l fps (.initial r.setupClock) r.events = some s ∧ Completed l s) := by
  have hl := fitsInt_of_load hload hcount hsizes
  refine ⟨?_, ?_⟩
  · intro clock events
    obtain ⟨s, hs, hinv⟩ := handleAll_inv hl hfps events (inv_initial (units_ne_nil hl) clock)
    exact ⟨s, hs, hinv.submits⟩
  · intro r hcase hfile hr hzero
    have hmode : ¬ r.testCase ≠ 0 := not_not.mpr hcase
    unfold run at hzero
    rw [if_neg hmode, hfile, hload] at hzero
    split at hzero
    · cases hzero
    · rw [← hr]
      exact runLoaded_eq_zero hl (by omega) hzero

/-- A file of one access unit, as it is loaded. -/
def oneUnit : Loaded :=
  { fileData := leadingZero.tail, austarts := [0], ausize := [19], avcc := leadingZeroLoaded.avcc }

theorem decode_spec_oneUnit :
    (∀ clock events, ∃ s, handleAll oneUnit 60 (.initial clock) events = some s ∧
      Submits oneUnit s) ∧
    (∀ r : RunInput, r.testCase = 0 → r.file = some leadingZero.tail → r.fps = 60 →
      run r = some 0 →
      ∃ s, handleAll oneUnit 60 (.initial r.setupClock) r.events = some s ∧
        Completed oneUnit s) :=
  decode_spec leadingZero.tail oneUnit 60 (by decide +kernel) (by decide) (by decide) (by decide)

/-- A tick whose push times out, one that pushes the unit and the end, a frame, and the tick
that finds it. -/
example : run {
    testCase := 0
    hasInput := true
    file := some leadingZero.tail
    fps := 60
    startHandlers := .successful
    execInHandlers := .successful
    setup := .successful
    setupClock := 0
    events := [
      .timer ⟨.successful, .successful, .successful, some 64, .timeout, .successful, 0, 0⟩,
      .timer ⟨.successful, .successful, .successful, some 64, .successful, .successful, 1, 1⟩,
      .vdec [⟨.successful, 2⟩, ⟨.timeout, 2⟩],
      .timer ⟨.successful, .successful, .successful, none, .failed, .failed, 3, 3⟩]
    interrupted := false } = some 0 := by
  decide +kernel

end QcapDemos.Fixture
