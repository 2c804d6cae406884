import QcapDemos.Zz.TickCtrl

set_option autoImplicit false

/-! # The wait loop of the tests

`wait_for_test_finish` calls `idle` once in a period, and with each key that is typed meanwhile. The
periods are counted on the clock of the host from its beginning, `nTick` is the last one that is
over, and `select` waits until the next one. But `nTick` goes up at every return of `select`, not
only when the time is over.
-/

namespace QcapDemos.Zz

open QcapDemos.Lib

/-! ## The loop -/

/-- A period of `durNum/durDen` microseconds. -/
structure Period where
  durNum : Int
  durDen : Int
  num_pos : 0 < durNum
  den_pos : 0 < durDen

/-- A period in microseconds, rounded up. -/
def Period.length (p : Period) : Int := (p.durNum + p.durDen - 1) / p.durDen

/-- The time of a boundary between two periods. -/
def Period.boundary (p : Period) (k : Int) : Int := tickTime p.durDen p.durNum k

/-- The variables of the loop, with the number of times that `idle(0)` has been called. -/
structure Waiting where
  now : Int
  nTick : Int
  bStdinOpen : Bool
  served : Nat
deriving DecidableEq

def Waiting.start (p : Period) (now : Int) : Option Waiting := do
  let scaled ← int64 (now * p.durDen)
  pure { now := now, nTick := scaled.tdiv p.durNum, bStdinOpen := true, served := 0 }

structure Timeval where
  tvSec : Int
  tvUsec : Int
deriving DecidableEq

def Timeval.us (t : Timeval) : Int := t.tvSec * 1000000 + t.tvUsec

/-- The timeout for `select`. -/
def Waiting.tval (p : Period) (s : Waiting) : Option Timeval := do
  let next ← int64 (s.nTick + 1)
  let scaled ← int64 (next * p.durNum)
  let nInterval ← int64 (scaled.tdiv p.durDen - s.now)
  pure
    (if nInterval < 4000 then { tvSec := 0, tvUsec := 4000 }
    else { tvSec := nInterval.tdiv 1000000, tvUsec := nInterval.tmod 1000000 })

/-- A return of `select`: an error, the timeout, or input, with the clock then, what `getchar`
returns, and what `idle` returns. -/
inductive Wake where
  | failed
  | timer (now : Int) (idle : Bool)
  | key (now : Int) (ch : UInt8) (idle : Bool)
  | eof (now : Int)
deriving DecidableEq

/-- The rest of a turn, or `none` where it leaves the loop. -/
def Waiting.wake (s : Waiting) : Wake → Option Waiting
  | .failed => none
  | .timer now idle =>
      let s := { s with now := now, nTick := s.nTick + 1 }
      if idle then some { s with served := s.served + 1 } else none
  | .key now ch idle =>
      -- the tick is counted before it is known what woke the loop
      let s := { s with now := now, nTick := s.nTick + 1 }
      if s.bStdinOpen then
        if ch = 'q'.toUInt8 then none else if idle then some s else none
      else some s
  | .eof now =>
      let s := { s with now := now, nTick := s.nTick + 1 }
      if s.bStdinOpen then some { s with bStdinOpen := false } else some s

/-- A call of `select`. -/
structure Select where
  state : Waiting
  tval : Timeval

/-- The calls of `select` in a run, or `none` if an `int64_t` overflows. -/
def selects (p : Period) : List Wake → Waiting → Option (List Select)
  | [], s => do
      let tval ← s.tval p
      pure [⟨s, tval⟩]
  | w :: ws, s => do
      let tval ← s.tval p
      match s.wake w with
      | none => pure [⟨s, tval⟩]
      | some s' =>
          let rest ← selects p ws s'
          pure (⟨s, tval⟩ :: rest)

/-! ## What may wake the loop -/

/-- `select` does not return before its timeout without input, which comes from an open `stdin`, and
the clock does not go back. -/
def Select.Allows (call : Select) : Wake → Prop
  | .failed => True
  | .timer now _ => call.state.now + call.tval.us ≤ now
  | .key now _ _ => call.state.bStdinOpen = true ∧ call.state.now ≤ now
  | .eof now => call.state.bStdinOpen = true ∧ call.state.now ≤ now

/-- Nothing ends the test: `idle` returns true, and a key is not `q`. -/
def Wake.GoesOn : Wake → Prop
  | .failed => False
  | .timer _ idle => idle = true
  | .key _ ch idle => ch ≠ 'q'.toUInt8 ∧ idle = true
  | .eof _ => True

def Wake.isTimer : Wake → Bool
  | .timer _ _ => true
  | _ => false

/-- `select` waits for the first boundary that `idle(0)` has not been called for, which is at most a
period away. -/
structure Punctual (p : Period) (nTick0 : Int) (call : Select) : Prop where
  boundary : call.state.nTick + 1 = nTick0 + call.state.served + 1
  timeout : call.tval.us
    ≤ max 4000 (p.boundary (nTick0 + call.state.served + 1) - call.state.now)
  near : p.boundary (nTick0 + call.state.served + 1) - call.state.now ≤ p.length

/-! ## One turn -/

/-- What holds at every call of `select`: each tick that is served was over when it was served, and
`nTick` is not behind them. -/
structure Serving (nTick0 : Int) (p : Period) (s : Waiting) : Prop where
  nonneg : 0 ≤ nTick0
  ticks : nTick0 + s.served ≤ s.nTick
  passed : p.boundary (nTick0 + s.served) ≤ s.now

section Turn

variable {p : Period} {nTick0 now : Int} {s s' : Waiting} {w : Wake} {tval : Timeval}

theorem start_serving (hnow : 0 ≤ now) (h : Waiting.start p now = some s) :
    s.served = 0 ∧ Serving s.nTick p s := by
  unfold Waiting.start at h
  simp only [Option.bind_eq_bind, Option.bind_eq_some_iff] at h
  obtain ⟨scaled, hscaled, hpure⟩ := h
  obtain rfl := eq_of_int64 hscaled
  obtain rfl := Option.some.inj hpure
  have htick : (now * p.durDen).tdiv p.durNum = ticksIn p.durDen p.durNum now :=
    tdiv_ticksIn p.den_pos hnow
  refine ⟨rfl, ?_, ?_, ?_⟩
  · show 0 ≤ (now * p.durDen).tdiv p.durNum
    rw [htick]
    exact ticksIn_nonneg p.den_pos p.num_pos hnow
  · show (now * p.durDen).tdiv p.durNum + ((0 : Nat) : Int) ≤ (now * p.durDen).tdiv p.durNum
    omega
  · show p.boundary ((now * p.durDen).tdiv p.durNum + ((0 : Nat) : Int)) ≤ now
    rw [htick]
    rw [Nat.cast_zero, Int.add_zero]
    exact tickTime_ticksIn_le p.den_pos p.num_pos now

/-- The timeout is the time to the boundary after `nTick`, and at least four milliseconds. -/
theorem us_tval (h : s.tval p = some tval) (htick : 0 ≤ s.nTick) :
    tval.us = max 4000 (p.boundary (s.nTick + 1) - s.now) := by
  unfold Waiting.tval at h
  simp only [Option.bind_eq_bind, Option.bind_eq_some_iff] at h
  obtain ⟨next, hnext, scaled, hscaled, nInterval, hinterval, hpure⟩ := h
  obtain rfl := eq_of_int64 hnext
  obtain rfl := eq_of_int64 hscaled
  obtain rfl := eq_of_int64 hinterval
  have htime : ((s.nTick + 1) * p.durNum).tdiv p.durDen = p.boundary (s.nTick + 1) :=
    tdiv_tickTime p.num_pos (by omega)
  rw [htime] at hpure
  obtain rfl := Option.some.inj hpure
  split_ifs with hshort
  · show (0 : Int) * 1000000 + 4000 = _
    omega
  · show (p.boundary (s.nTick + 1) - s.now).tdiv 1000000 * 1000000
      + (p.boundary (s.nTick + 1) - s.now).tmod 1000000 = _
    rw [Int.mul_comm, Int.mul_tdiv_add_tmod]
    omega

/-- The two kinds of turns that go on: one that serves a tick, and one that takes input. -/
theorem wake_eq_some (h : s.wake w = some s') (hallows : Select.Allows ⟨s, tval⟩ w) :
    s'.nTick = s.nTick + 1 ∧
      ((w.isTimer = true ∧ s'.served = s.served + 1 ∧ s.now + tval.us ≤ s'.now) ∨
        (w.isTimer = false ∧ s'.served = s.served ∧ s.now ≤ s'.now)) := by
  cases w with
  | failed => cases h
  | timer now idle =>
      simp only [Waiting.wake] at h
      split_ifs at h
      obtain rfl := Option.some.inj h
      exact ⟨rfl, .inl ⟨rfl, rfl, hallows⟩⟩
  | key now ch idle =>
      simp only [Waiting.wake] at h
      split_ifs at h
      · obtain rfl := Option.some.inj h
        exact ⟨rfl, .inr ⟨rfl, rfl, hallows.2⟩⟩
      · obtain rfl := Option.some.inj h
        exact ⟨rfl, .inr ⟨rfl, rfl, hallows.2⟩⟩
  | eof now =>
      simp only [Waiting.wake] at h
      split_ifs at h
      · obtain rfl := Option.some.inj h
        exact ⟨rfl, .inr ⟨rfl, rfl, hallows.2⟩⟩
      · obtain rfl := Option.some.inj h
        exact ⟨rfl, .inr ⟨rfl, rfl, hallows.2⟩⟩

theorem isSome_wake (h : w.GoesOn) : (s.wake w).isSome := by
  cases w with
  | failed => exact absurd h id
  | timer now idle =>
      obtain rfl : idle = true := h
      rfl
  | key now ch idle =>
      obtain ⟨hch, rfl⟩ := h
      by_cases hopen : s.bStdinOpen = true
      · simp [Waiting.wake, hopen, hch]
      · simp [Waiting.wake, hopen]
  | eof now =>
      by_cases hopen : s.bStdinOpen = true
      · simp [Waiting.wake, hopen]
      · simp [Waiting.wake, hopen]

/-- **The invariant.** A tick is served when its boundary is over, however far `nTick` is ahead. -/
theorem Serving.wake (hs : Serving nTick0 p s) (htval : s.tval p = some tval)
    (h : s.wake w = some s') (hallows : Select.Allows ⟨s, tval⟩ w) : Serving nTick0 p s' := by
  obtain ⟨h0, hticks, hover⟩ := hs
  obtain ⟨htick, ⟨-, hserved, hnow⟩ | ⟨-, hserved, hnow⟩⟩ := wake_eq_some h hallows
  · have hus := us_tval htval (by omega)
    have hmono : p.boundary (nTick0 + (s.served + 1)) ≤ p.boundary (s.nTick + 1) :=
      tickTime_mono p.den_pos p.num_pos (by omega)
    refine ⟨h0, ?_, ?_⟩
    · rw [htick, hserved]
      push_cast
      omega
    · rw [hserved]
      push_cast
      omega
  · refine ⟨h0, ?_, ?_⟩
    · rw [htick, hserved]
      omega
    · rw [hserved]
      exact hover.trans hnow

/-- Where no input has been counted, `select` waits for the first boundary that is not served. -/
theorem Serving.punctual_state_iff (hs : Serving nTick0 p s) (htval : s.tval p = some tval) :
    Punctual p nTick0 ⟨s, tval⟩ ↔ s.nTick = nTick0 + s.served := by
  obtain ⟨h0, hticks, hover⟩ := hs
  constructor
  · intro h
    have hboundary : s.nTick + 1 = nTick0 + s.served + 1 := h.boundary
    omega
  · intro htick
    have hnext : p.boundary (nTick0 + s.served + 1) ≤ p.boundary (nTick0 + s.served) + p.length :=
      tickTime_succ_le p.den_pos p.durNum (nTick0 + s.served)
    refine ⟨?_, ?_, ?_⟩
    · show s.nTick + 1 = nTick0 + s.served + 1
      rw [htick]
    · show tval.us ≤ max 4000 (p.boundary (nTick0 + s.served + 1) - s.now)
      rw [us_tval htval (by omega), htick]
    · show p.boundary (nTick0 + s.served + 1) - s.now ≤ p.length
      omega

end Turn

/-! ## Whole runs -/

section Run

variable {p : Period} {nTick0 : Int} {s : Waiting} {calls : List Select}

/-- Input takes the count away from the ticks that are served, and nothing takes it back. -/
theorem punctual_selects_iff {wakes : List Wake} (hs : Serving nTick0 p s)
    (h : selects p wakes s = some calls) (hallows : ∀ x ∈ calls.zip wakes, x.1.Allows x.2)
    (hgoes : ∀ w ∈ wakes, w.GoesOn) :
    (∀ call ∈ calls, Punctual p nTick0 call) ↔
      s.nTick = nTick0 + s.served ∧ ∀ w ∈ wakes, w.isTimer = true := by
  induction wakes generalizing s calls with
  | nil =>
      simp only [selects, Option.bind_eq_bind, Option.bind_eq_some_iff] at h
      obtain ⟨tval, htval, hpure⟩ := h
      obtain rfl := Option.some.inj hpure
      rw [List.forall_mem_singleton, hs.punctual_state_iff htval]
      exact (and_iff_left fun w hw => absurd hw List.not_mem_nil).symm
  | cons w ws ih =>
      obtain ⟨hgoes, hgoes'⟩ := List.forall_mem_cons.mp hgoes
      obtain ⟨s', hwake⟩ := Option.isSome_iff_exists.mp (isSome_wake (s := s) hgoes)
      simp only [selects, hwake, Option.bind_eq_bind, Option.bind_eq_some_iff] at h
      obtain ⟨tval, htval, rest, hrest, hpure⟩ := h
      obtain rfl := Option.some.inj hpure
      rw [List.zip_cons_cons, List.forall_mem_cons] at hallows
      obtain ⟨hallow, hallows'⟩ := hallows
      rw [List.forall_mem_cons, List.forall_mem_cons, hs.punctual_state_iff htval,
        ih (hs.wake htval hwake hallow) hrest hallows' hgoes']
      obtain ⟨htick, ⟨htimer, hserved, -⟩ | ⟨htimer, hserved, -⟩⟩ := wake_eq_some hwake hallow
      · rw [htick, hserved]
        push_cast
        constructor
        · rintro ⟨hnow, -, hrest⟩
          exact ⟨hnow, htimer, hrest⟩
        · rintro ⟨hnow, -, hrest⟩
          exact ⟨hnow, by omega, hrest⟩
      · rw [htick, hserved]
        constructor
        · rintro ⟨hnow, hnext, -⟩
          omega
        · rintro ⟨-, hcon, -⟩
          rw [htimer] at hcon
          cases hcon

end Run

/-- The cadence is kept in exactly the runs without input. -/
theorem punctual_iff (p : Period) {start : Int} {s : Waiting} {wakes : List Wake}
    {calls : List Select} (hstart : 0 ≤ start) (h : Waiting.start p start = some s)
    (hcalls : selects p wakes s = some calls) (hallows : ∀ x ∈ calls.zip wakes, x.1.Allows x.2)
    (hgoes : ∀ w ∈ wakes, w.GoesOn) :
    (∀ call ∈ calls, Punctual p s.nTick call) ↔ ∀ w ∈ wakes, w.isTimer = true := by
  obtain ⟨hserved, hs⟩ := start_serving hstart h
  rw [punctual_selects_iff hs hcalls hallows hgoes, hserved]
  simp

/-- The period of the tone generators. -/
def tonePeriod : Period where
  durNum := 20000
  durDen := 1
  num_pos := Int.ofNat_lt.mpr (Nat.succ_pos 19999)
  den_pos := Int.one_pos

theorem punctual_iff_tick :
    (∀ call ∈ [(⟨⟨0, 0, true, 0⟩, ⟨0, 20000⟩⟩ : Select), ⟨⟨20005, 1, true, 1⟩, ⟨0, 19995⟩⟩],
      Punctual tonePeriod 0 call) ↔ ∀ w ∈ [Wake.timer 20005 true], w.isTimer = true := by
  refine punctual_iff tonePeriod (s := ⟨0, 0, true, 0⟩) (le_refl (0 : Int)) (by decide +kernel)
    rfl ?_ ?_
  · intro x hx
    obtain rfl := List.mem_singleton.mp hx
    show (0 : Int) + (0 * 1000000 + 20000) ≤ 20005
    decide
  · intro w hw
    obtain rfl := List.mem_singleton.mp hw
    rfl

/-- A key one microsecond after the start makes `select` wait for the second boundary. -/
theorem not_punctual :
    ¬ ∀ (p : Period) (start : Int) (s : Waiting) (wakes : List Wake) (calls : List Select),
      0 ≤ start → Waiting.start p start = some s → selects p wakes s = some calls →
      (∀ x ∈ calls.zip wakes, x.1.Allows x.2) → (∀ w ∈ wakes, w.GoesOn) →
      ∀ call ∈ calls, call.tval.us
        ≤ max 4000 (p.boundary (s.nTick + call.state.served + 1) - call.state.now) := by
  intro h
  have htimeout := h tonePeriod 0 ⟨0, 0, true, 0⟩ [.key 1 97 true]
    [⟨⟨0, 0, true, 0⟩, ⟨0, 20000⟩⟩, ⟨⟨1, 1, true, 0⟩, ⟨0, 39999⟩⟩] le_rfl (by decide +kernel) rfl
    ?_ ?_ _ (List.mem_cons_of_mem _ List.mem_cons_self)
  · exact absurd htimeout (by decide +kernel)
  · intro x hx
    obtain rfl := List.mem_singleton.mp hx
    exact ⟨rfl, by decide⟩
  · intro w hw
    obtain rfl := List.mem_singleton.mp hw
    exact ⟨by decide, rfl⟩

end QcapDemos.Zz
