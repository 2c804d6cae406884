import QcapDemos.Lib.Ticks
import Mathlib.Data.List.Chain

set_option autoImplicit false

/-! # The periodic tick controllers

`tick_ctrl_t` of the test kit and `FPSControl2` of the utilities compute the delay to the next tick
of a rate `num/den`, in microseconds, from a base that they advance by whole ticks. All of it is
integer arithmetic that rounds down: the tick, the next deadline, and what is added to the base.
-/

namespace QcapDemos.Zz

open QcapDemos.Lib

/-- A value that an `int64_t` holds. -/
def int64 (x : Int) : Option Int := if -2 ^ 63 ≤ x ∧ x < 2 ^ 63 then some x else none

/-- A rate of `num/den` ticks in a second, with `int` fields. -/
structure Rate where
  num : Int
  den : Int
  num_pos : 0 < num
  den_pos : 0 < den
  num_lt : num < 2 ^ 31
  den_lt : den < 2 ^ 31

/-- The microseconds that `num` ticks take. -/
def Rate.denSecs (r : Rate) : Int := r.den * 1000000

/-- One period in microseconds, rounded up. -/
def Rate.period (r : Rate) : Int := (r.denSecs + r.num - 1) / r.num

/-- The body that both controllers share: the new base, and the delay from `t` to the next deadline.
Each operation can overflow. -/
def advanceFrom (num denSecs timer t : Int) : Option (Int × Int) := do
  let nDiff ← int64 (t - timer)
  let nTicks := (← int64 (nDiff * num)).tdiv denSecs
  -- the deadline and the base are rounded down separately
  let nNextTimer ← int64 (timer + (← int64 ((← int64 (nTicks + 1)) * denSecs)).tdiv num)
  let nTimer ← int64 (timer + (← int64 (nTicks * denSecs)).tdiv num)
  let nAdvance ← int64 (nNextTimer - t)
  pure (nTimer, nAdvance)

structure TickCtrl where
  num : Int
  nDenSecs : Int
  nTimer : Int

def TickCtrl.start (r : Rate) (t : Int) : TickCtrl :=
  { num := r.num, nDenSecs := r.den * 1000000, nTimer := t }

def TickCtrl.advance (c : TickCtrl) (t : Int) : Option (TickCtrl × Int) :=
  (advanceFrom c.num c.nDenSecs c.nTimer t).map fun (nTimer, delay) =>
    ({ c with nTimer := nTimer }, delay)

structure FPSControl2 where
  mNum : Int
  mDenSecs : Int
  mTimer : Int

def FPSControl2.start (r : Rate) (t : Int) : FPSControl2 :=
  { mNum := r.num, mDenSecs := r.den * 1000000, mTimer := t }

def FPSControl2.advance (c : FPSControl2) (t : Int) : Option (FPSControl2 × Int) :=
  (advanceFrom c.mNum c.mDenSecs c.mTimer t).map fun (mTimer, delay) =>
    ({ c with mTimer := mTimer }, delay)

inductive Controller where
  | tickCtrl
  | fpsControl2
deriving DecidableEq

namespace Controller

def State : Controller → Type
  | .tickCtrl => TickCtrl
  | .fpsControl2 => FPSControl2

def start : (k : Controller) → Rate → Int → k.State
  | .tickCtrl => TickCtrl.start
  | .fpsControl2 => FPSControl2.start

def base : (k : Controller) → k.State → Int
  | .tickCtrl => TickCtrl.nTimer
  | .fpsControl2 => FPSControl2.mTimer

def advance : (k : Controller) → k.State → Int → Option (k.State × Int)
  | .tickCtrl => TickCtrl.advance
  | .fpsControl2 => FPSControl2.advance

@[simp] theorem base_start (k : Controller) (r : Rate) (timer : Int) :
    k.base (k.start r timer) = timer := by
  cases k <;> rfl

/-- A call moves the base, and nothing else of a controller. -/
theorem advance_start (k : Controller) (r : Rate) (timer t : Int) :
    k.advance (k.start r timer) t =
      (advanceFrom r.num r.denSecs timer t).map fun (timer', delay) =>
        (k.start r timer', delay) := by
  cases k <;> rfl

end Controller

/-- A call of `advance` at `t`, with the base before it and the delay that it returned. -/
structure Call where
  base : Int
  t : Int
  delay : Int

/-- The calls at the times of a list, and the state after them. -/
def Controller.calls (k : Controller) (s : k.State) : List Int → Option (List Call × k.State)
  | [] => some ([], s)
  | t :: ts => do
      let (s', delay) ← k.advance s t
      let (cs, final) ← k.calls s' ts
      pure (⟨k.base s, t, delay⟩ :: cs, final)

/-! ## One call -/

section Advance

variable {num denSecs timer t : Int}

theorem eq_of_int64 {x y : Int} (h : int64 x = some y) : x = y := by
  unfold int64 at h
  split_ifs at h
  exact Option.some.inj h

/-! No operand of a division is negative, so that the divisions of C round down as well. -/

theorem tdiv_ticksIn (hnum : 0 < num) {d : Int} (hd : 0 ≤ d) :
    (d * num).tdiv denSecs = ticksIn num denSecs d :=
  Int.tdiv_eq_ediv_of_nonneg (Int.mul_nonneg hd hnum.le)

theorem tdiv_tickTime (hden : 0 < denSecs) {k : Int} (hk : 0 ≤ k) :
    (k * denSecs).tdiv num = tickTime num denSecs k :=
  Int.tdiv_eq_ediv_of_nonneg (Int.mul_nonneg hk hden.le)

/-- What a call computes where nothing overflows. -/
theorem advanceFrom_eq (hnum : 0 < num) (hden : 0 < denSecs) (ht : timer ≤ t) {timer' delay : Int}
    (h : advanceFrom num denSecs timer t = some (timer', delay)) :
    timer' = timer + tickTime num denSecs (ticksIn num denSecs (t - timer)) ∧
      delay = tickTime num denSecs (ticksIn num denSecs (t - timer) + 1) - (t - timer) := by
  unfold advanceFrom at h
  simp only [Option.bind_eq_bind, Option.bind_eq_some_iff] at h
  obtain ⟨nDiff, hdiff, scaled, hscaled, next, hnext, span, hspan, nNextTimer, hnextTimer, added,
    hadded, nTimer, hnTimer, nAdvance, hadvance, hpure⟩ := h
  obtain rfl := eq_of_int64 hdiff
  obtain rfl := eq_of_int64 hscaled
  obtain rfl := eq_of_int64 hnext
  obtain rfl := eq_of_int64 hspan
  obtain rfl := eq_of_int64 hnextTimer
  obtain rfl := eq_of_int64 hadded
  obtain rfl := eq_of_int64 hnTimer
  obtain rfl := eq_of_int64 hadvance
  have hd : 0 ≤ t - timer := by omega
  have hq := ticksIn_nonneg hnum hden hd
  rw [tdiv_ticksIn hnum hd, tdiv_tickTime hden hq, tdiv_tickTime hden (by omega)] at hpure
  obtain ⟨rfl, rfl⟩ := Prod.mk.inj (Option.some.inj hpure)
  exact ⟨rfl, by omega⟩

theorem int64_bind {β : Type} {x : Int} (h : -2 ^ 62 ≤ x ∧ x < 2 ^ 63) (f : Int → Option β) :
    (int64 x).bind f = f x := by
  rw [int64, if_pos (by omega), Option.bind_some]

/-- Small times do not overflow. -/
theorem advanceFrom_of_small (hnum : 0 < num) (hden : 0 < denSecs) (ht : timer ≤ t)
    (htimer : 0 ≤ timer) (hsmall : t < 2 ^ 61) (hden' : denSecs < 2 ^ 61)
    (hscaled : (t - timer) * num < 2 ^ 61) :
    advanceFrom num denSecs timer t =
      some (timer + tickTime num denSecs (ticksIn num denSecs (t - timer)),
        tickTime num denSecs (ticksIn num denSecs (t - timer) + 1) - (t - timer)) := by
  have hd : 0 ≤ t - timer := by omega
  have hscaled0 : 0 ≤ (t - timer) * num := Int.mul_nonneg hd hnum.le
  have hticks : ((t - timer) * num).tdiv denSecs = ticksIn num denSecs (t - timer) :=
    tdiv_ticksIn hnum hd
  have hq := ticksIn_nonneg hnum hden hd
  have hle := ticksIn_mul_le (N := num) hden (t - timer)
  have htime0 {k : Int} (hk : 0 ≤ k) : 0 ≤ tickTime num denSecs k :=
    Int.ediv_nonneg (Int.mul_nonneg hk hden.le) hnum.le
  have htimeLe {k : Int} (hk : 0 ≤ k) : tickTime num denSecs k ≤ k * denSecs :=
    Int.ediv_le_self _ (Int.mul_nonneg hk hden.le)
  generalize ticksIn num denSecs (t - timer) = q at *
  have hqle : q ≤ q * denSecs := le_mul_of_one_le_right hq (by omega)
  have hqD : 0 ≤ q * denSecs := Int.mul_nonneg hq hden.le
  have hnext : (q + 1) * denSecs = q * denSecs + denSecs := by ring
  have hsucc : 0 ≤ q + 1 := by omega
  have h0 := htime0 hq
  have h0' := htimeLe hq
  have h1 := htime0 hsucc
  have h1' := htimeLe hsucc
  have hdelay : timer + tickTime num denSecs (q + 1) - t
      = tickTime num denSecs (q + 1) - (t - timer) := by ring
  unfold advanceFrom
  simp only [Option.bind_eq_bind]
  rw [int64_bind, int64_bind, hticks, int64_bind, int64_bind, tdiv_tickTime hden hsucc, int64_bind,
    int64_bind, tdiv_tickTime hden hq, int64_bind, int64_bind, hdelay]
  · rfl
  all_goals omega

end Advance

/-! ## Runs -/

/-- The calls of a controller, as far as its base goes. -/
def baseCalls (num denSecs timer : Int) : List Int → Option (List Call × Int)
  | [] => some ([], timer)
  | t :: ts => do
      let (timer', delay) ← advanceFrom num denSecs timer t
      let (cs, final) ← baseCalls num denSecs timer' ts
      pure (⟨timer, t, delay⟩ :: cs, final)

theorem Controller.calls_eq (k : Controller) (r : Rate) (timer : Int) (ts : List Int) :
    k.calls (k.start r timer) ts =
      (baseCalls r.num r.denSecs timer ts).map fun (cs, final) => (cs, k.start r final) := by
  induction ts generalizing timer with
  | nil => rfl
  | cons t ts ih =>
      rw [calls, baseCalls, advance_start, base_start]
      cases advanceFrom r.num r.denSecs timer t with
      | none => rfl
      | some p =>
          simp only [Option.map_some, Option.bind_eq_bind, Option.bind_some, ih]
          cases baseCalls r.num r.denSecs p.1 ts with
          | none => rfl
          | some q => rfl

/-- The whole periods that a call counts. -/
def Call.ticks (r : Rate) (call : Call) : Int := ticksIn r.num r.denSecs (call.t - call.base)

/-- The sum of a quantity over the calls. -/
def total (f : Call → Int) (cs : List Call) : Int := cs.foldr (fun call sum => f call + sum) 0

section Runs

variable {r : Rate} {ts : List Int} {cs : List Call}

theorem Rate.denSecs_pos (r : Rate) : 0 < r.denSecs := Int.mul_pos r.den_pos (by decide)

/-- What every run of calls at times that do not decrease does. -/
theorem baseCalls_spec {timer last final : Int} (hle : timer ≤ last)
    (hmono : (last :: ts).IsChain (· ≤ ·))
    (h : baseCalls r.num r.denSecs timer ts = some (cs, final)) :
    (∀ call ∈ cs, call.delay =
      tickTime r.num r.denSecs (call.ticks r + 1) - (call.t - call.base)) ∧
    final = timer + total (fun call => tickTime r.num r.denSecs (call.ticks r)) cs := by
  induction ts generalizing timer last cs with
  | nil =>
      obtain ⟨rfl, rfl⟩ := Prod.mk.inj (Option.some.inj h)
      exact ⟨by simp, by simp [total]⟩
  | cons t ts ih =>
      rw [List.isChain_cons_cons] at hmono
      simp only [baseCalls, Option.bind_eq_bind, Option.bind_eq_some_iff] at h
      obtain ⟨⟨timer', delay⟩, hadvance, ⟨rest, final'⟩, hrest, hpure⟩ := h
      obtain ⟨rfl, rfl⟩ := Prod.mk.inj (Option.some.inj hpure)
      obtain ⟨rfl, rfl⟩ := advanceFrom_eq r.num_pos r.denSecs_pos (by omega) hadvance
      -- the base never passes the time of the call
      have hbase := tickTime_ticksIn_le r.num_pos r.denSecs_pos (t - timer)
      obtain ⟨hdelays, hfinal⟩ := ih (by omega) hmono.2 hrest
      refine ⟨fun call hcall => ?_, ?_⟩
      · rcases List.mem_cons.mp hcall with rfl | hcall
        · rfl
        · exact hdelays call hcall
      · rw [hfinal, Int.add_assoc]
        rfl

end Runs

/-! ## Deadlines -/

/-- **The delay of every call is positive and at most a period exactly if no call falls between the
rounded time of the next tick and the tick itself.** -/
theorem delays_iff (k : Controller) (r : Rate) {start : Int} {ts : List Int} {cs : List Call}
    {s : k.State} (hmono : (start :: ts).IsChain (· ≤ ·))
    (hrun : k.calls (k.start r start) ts = some (cs, s)) :
    (∀ call ∈ cs, 0 < call.delay ∧ call.delay ≤ r.period) ↔
      ∀ call ∈ cs, (call.t - call.base) * r.num % r.denSecs + r.num ≤ r.denSecs := by
  rw [Controller.calls_eq] at hrun
  obtain ⟨⟨cs', final⟩, hbase, hpair⟩ := Option.map_eq_some_iff.mp hrun
  obtain ⟨rfl, -⟩ := Prod.mk.inj hpair
  obtain ⟨hdelays, -⟩ := baseCalls_spec le_rfl hmono hbase
  refine forall_congr' fun call => forall_congr' fun hcall => ?_
  have hpos := lt_tickTime_succ_iff (D := r.denSecs) r.num_pos (call.t - call.base)
  have hle := tickTime_succ_sub_le r.num_pos r.denSecs_pos (call.t - call.base)
  have hup : r.denSecs / r.num ≤ r.period :=
    Int.ediv_le_ediv r.num_pos (by have h := r.num_pos; omega)
  rw [hdelays call hcall, ← hpos, Call.ticks]
  constructor
  · rintro ⟨h, -⟩
    omega
  · intro h
    exact ⟨by omega, by omega⟩

/-- Sixty ticks in a second. -/
def sixty : Rate where
  num := 60
  den := 1
  num_pos := by decide
  den_pos := by decide
  num_lt := by decide
  den_lt := by decide

theorem delays_iff_sixty :
    (∀ call ∈ [Call.mk 0 4000 12666, Call.mk 0 16670 16663],
      0 < call.delay ∧ call.delay ≤ sixty.period) ↔
    ∀ call ∈ [Call.mk 0 4000 12666, Call.mk 0 16670 16663],
      (call.t - call.base) * sixty.num % sixty.denSecs + sixty.num ≤ sixty.denSecs :=
  @delays_iff .tickCtrl sixty 0 [4000, 16670] _ (TickCtrl.start sixty 16666) (by decide) rfl

/-- A call at the rounded time of the next tick returns no delay. -/
theorem not_delays_positive :
    ¬ ∀ (k : Controller) (r : Rate) (start : Int) (ts : List Int) (cs : List Call) (s : k.State),
      r.num ≤ 1000000 * r.den → (start :: ts).IsChain (· ≤ ·) →
      k.calls (k.start r start) ts = some (cs, s) →
      ∀ call ∈ cs, 0 < call.delay ∧ call.delay ≤ r.period := by
  intro h
  have hrun : Controller.tickCtrl.calls (TickCtrl.start sixty 0) [16666]
      = some ([⟨0, 16666, 0⟩], TickCtrl.start sixty 0) := rfl
  have hpos := h .tickCtrl sixty 0 [16666] _ _ (by decide) (by decide) hrun _
    List.mem_cons_self
  exact absurd hpos.1 (by decide)

/-! ## Drift -/

section Drift

variable {r : Rate}

theorem total_cons (f : Call → Int) (call : Call) (cs : List Call) :
    total f (call :: cs) = f call + total f cs := rfl

/-- What rounding takes off a run, in parts of a microsecond. -/
def lost (r : Rate) (cs : List Call) : Int :=
  total (fun call => call.ticks r * r.denSecs % r.num) cs

theorem mul_total_add_lost (r : Rate) (cs : List Call) :
    r.num * total (fun call => tickTime r.num r.denSecs (call.ticks r)) cs + lost r cs
      = total (Call.ticks r) cs * r.denSecs := by
  induction cs with
  | nil => simp [total, lost]
  | cons call cs ih =>
      have hcall := mul_tickTime_add_emod (N := r.num) (D := r.denSecs) (call.ticks r)
      rw [lost] at ih ⊢
      simp only [total_cons]
      linarith [mul_add r.num (tickTime r.num r.denSecs (call.ticks r))
          (total (fun call => tickTime r.num r.denSecs (call.ticks r)) cs),
        add_mul (call.ticks r) (total (Call.ticks r) cs) r.denSecs]

theorem lost_nonneg (r : Rate) (cs : List Call) : 0 ≤ lost r cs := by
  induction cs with
  | nil => exact le_rfl
  | cons call cs ih =>
      have hcall := Int.emod_nonneg (call.ticks r * r.denSecs) r.num_pos.ne'
      rw [lost, total_cons]
      exact Int.add_nonneg hcall ih

/-- The base is where the counted periods take it exactly as long as the parts that rounding takes
off do not make up a microsecond. -/
theorem base_eq_iff (k : Controller) (r : Rate) {start : Int} {ts : List Int} {cs : List Call}
    {s : k.State} (hmono : (start :: ts).IsChain (· ≤ ·))
    (hrun : k.calls (k.start r start) ts = some (cs, s)) :
    k.base s = start + tickTime r.num r.denSecs (total (Call.ticks r) cs) ↔
      lost r cs < r.num := by
  rw [Controller.calls_eq] at hrun
  obtain ⟨⟨cs', final⟩, hcalls, hpair⟩ := Option.map_eq_some_iff.mp hrun
  obtain ⟨rfl, rfl⟩ := Prod.mk.inj hpair
  obtain ⟨-, hfinal⟩ := baseCalls_spec le_rfl hmono hcalls
  have hsplit := mul_total_add_lost r cs'
  have hlost := lost_nonneg r cs'
  rw [Controller.base_start, hfinal, tickTime, ← hsplit, Int.add_comm (r.num * _),
    Int.add_mul_ediv_left _ _ r.num_pos.ne']
  constructor
  · intro h
    by_contra hge
    have hone : 1 ≤ lost r cs' / r.num := by
      rw [Int.le_ediv_iff_mul_le r.num_pos]
      omega
    omega
  · intro h
    rw [Int.ediv_eq_zero_of_lt hlost h]
    omega

theorem lost_eq_zero (h : r.num ∣ r.denSecs ∨ r.denSecs ∣ r.num) (cs : List Call) :
    lost r cs = 0 := by
  induction cs with
  | nil => rfl
  | cons call cs ih =>
      have hcall : call.ticks r * r.denSecs % r.num = 0 :=
        ticksIn_mul_emod h r.denSecs_pos _
      rw [lost] at ih ⊢
      rw [total_cons, ih, hcall]
      rfl

theorem Rate.denSecs_lt (r : Rate) : r.denSecs < 2 ^ 60 := by
  have h := r.den_lt
  rw [denSecs]
  omega

/-- `m` calls, each a microsecond after the rounded time `p` of one tick from the base. -/
def lateCalls (p timer : Int) : Nat → List Int
  | 0 => []
  | m + 1 => (timer + p + 1) :: lateCalls p (timer + p) m

theorem isChain_lateCalls {p timer last : Int} (hp : 0 ≤ p) (hlast : last ≤ timer + p + 1)
    (m : Nat) : (last :: lateCalls p timer m).IsChain (· ≤ ·) := by
  induction m generalizing timer last with
  | zero => exact List.IsChain.singleton last
  | succ m ih => exact List.isChain_cons_cons.mpr ⟨hlast, ih (by omega)⟩

/-- Each of these calls counts one period, and moves the base by its whole microseconds. -/
theorem baseCalls_lateCalls (hlt : r.num < r.denSecs) (hnot : ¬ r.num ∣ r.denSecs) (m : Nat)
    {timer : Int} (htimer : 0 ≤ timer)
    (hend : timer + m * (r.denSecs / r.num) ≤ r.denSecs) :
    ∃ cs, baseCalls r.num r.denSecs timer (lateCalls (r.denSecs / r.num) timer m)
        = some (cs, timer + m * (r.denSecs / r.num)) ∧ total (Call.ticks r) cs = m := by
  have hN := r.num_pos
  have hD := r.denSecs_pos
  have hDlt := r.denSecs_lt
  have hsplit : r.num * (r.denSecs / r.num) + r.denSecs % r.num = r.denSecs :=
    Int.mul_ediv_add_emod r.denSecs r.num
  have hrem0 := Int.emod_nonneg r.denSecs hN.ne'
  have hrem := Int.emod_lt_of_pos r.denSecs hN
  have hrem1 : r.denSecs % r.num ≠ 0 := fun h => hnot (Int.dvd_of_emod_eq_zero h)
  have hp : 1 ≤ r.denSecs / r.num := by
    rw [Int.le_ediv_iff_mul_le hN]
    omega
  have hone : tickTime r.num r.denSecs 1 = r.denSecs / r.num := by rw [tickTime, Int.one_mul]
  generalize r.denSecs / r.num = p at *
  -- a call at `p + 1` is past one tick and before two
  have hscaled : (p + 1) * r.num = r.num * p + r.num := by ring
  have hticks : ticksIn r.num r.denSecs (p + 1) = 1 := by
    have hle : 1 ≤ ticksIn r.num r.denSecs (p + 1) := by
      rw [ticksIn, Int.le_ediv_iff_mul_le hD]
      omega
    have hlt2 : ticksIn r.num r.denSecs (p + 1) < 2 := by
      rw [ticksIn, Int.ediv_lt_iff_lt_mul hD]
      omega
    omega
  have hpD : p ≤ r.num * p := le_mul_of_one_le_left (by omega) (by omega)
  induction m generalizing timer with
  | zero => exact ⟨[], by simp [lateCalls, baseCalls], rfl⟩
  | succ m ih =>
      have hnext : timer + ((m + 1 : Nat) : Int) * p = timer + p + (m : Int) * p := by
        push_cast
        ring
      rw [hnext] at hend ⊢
      obtain ⟨cs, hcalls, htotal⟩ := ih (show 0 ≤ timer + p by omega) hend
      have hmp : 0 ≤ (m : Int) * p := Int.mul_nonneg (by omega) (by omega)
      have hdiff : timer + p + 1 - timer = p + 1 := by ring
      have hadvance := advanceFrom_of_small (t := timer + p + 1) hN hD (by omega) htimer (by omega)
        (by omega) (by rw [hdiff]; omega)
      rw [hdiff, hticks, hone] at hadvance
      -- the base moves by `p` only, so that the next call is again one microsecond late
      refine ⟨⟨timer, timer + p + 1, tickTime r.num r.denSecs (1 + 1) - (p + 1)⟩ :: cs, ?_, ?_⟩
      · rw [lateCalls, baseCalls, hadvance]
        simp only [Option.bind_eq_bind, Option.bind_some, hcalls]
        rfl
      · rw [total_cons, htotal, Call.ticks, hdiff, hticks]
        push_cast
        ring

/-- Calls at the first microsecond count whole periods, and leave the base where it is. -/
theorem advanceFrom_one (hlt : r.denSecs < r.num) (hnot : ¬ r.denSecs ∣ r.num) :
    ∃ delay, advanceFrom r.num r.denSecs 0 1 = some (0, delay) := by
  have hN := r.num_lt
  have hticks : ticksIn r.num r.denSecs (1 - 0) = r.num / r.denSecs := by
    rw [ticksIn, Int.sub_zero, Int.one_mul]
  have hle := Int.ediv_mul_le r.num r.denSecs_pos.ne'
  have hne : r.num / r.denSecs * r.denSecs ≠ r.num := fun h => hnot (Dvd.intro_left _ h)
  have hq : 0 ≤ r.num / r.denSecs * r.denSecs :=
    Int.mul_nonneg (Int.ediv_nonneg r.num_pos.le r.denSecs_pos.le) r.denSecs_pos.le
  have htime : tickTime r.num r.denSecs (r.num / r.denSecs) = 0 :=
    Int.ediv_eq_zero_of_lt hq (by omega)
  have hadvance := advanceFrom_of_small r.num_pos r.denSecs_pos (show (0 : Int) ≤ 1 by decide)
    le_rfl (by decide) (by omega) (show (1 - 0) * r.num < 2 ^ 61 by omega)
  rw [hticks, htime] at hadvance
  exact ⟨_, hadvance⟩

end Drift

/-- The base is where the counted periods take it from the start, after every run. -/
def NoDrift (k : Controller) (r : Rate) : Prop :=
  ∀ (start : Int) (ts : List Int) (cs : List Call) (s : k.State),
    (start :: ts).IsChain (· ≤ ·) → k.calls (k.start r start) ts = some (cs, s) →
    k.base s = start + total (Call.ticks r) cs * r.denSecs / r.num

/-- A run of calls that moves the base to `final` shows where the base is without drift. -/
theorem NoDrift.final_eq {k : Controller} {r : Rate} (h : NoDrift k r) {start final : Int}
    {ts : List Int} {cs : List Call} (hmono : (start :: ts).IsChain (· ≤ ·))
    (hcalls : baseCalls r.num r.denSecs start ts = some (cs, final)) :
    final = start + total (Call.ticks r) cs * r.denSecs / r.num := by
  have hrun : k.calls (k.start r start) ts = some (cs, k.start r final) := by
    rw [Controller.calls_eq, hcalls]
    rfl
  have hbase := h start ts cs _ hmono hrun
  rwa [Controller.base_start] at hbase

/-- As many late calls as there are ticks in `denSecs` lose at least a microsecond. -/
theorem drifts_of_lt (k : Controller) {r : Rate} (hlt : r.num < r.denSecs)
    (hnot : ¬ r.num ∣ r.denSecs) : ¬ NoDrift k r := by
  intro h
  have hN := r.num_pos
  have hcast : (r.num.toNat : Int) = r.num := Int.toNat_of_nonneg hN.le
  have hle := Int.mul_ediv_self_le (x := r.denSecs) hN.ne'
  have hp : 0 ≤ r.denSecs / r.num := Int.ediv_nonneg r.denSecs_pos.le hN.le
  obtain ⟨cs, hcalls, htotal⟩ := baseCalls_lateCalls hlt hnot r.num.toNat le_rfl
    (by rw [hcast]; omega)
  have hfinal := h.final_eq (isChain_lateCalls hp (by omega) r.num.toNat) hcalls
  rw [htotal, hcast, Int.mul_ediv_cancel_left _ hN.ne'] at hfinal
  exact hnot (Dvd.intro (r.denSecs / r.num) (by omega))

/-- Two calls at the first microsecond count at least a microsecond's periods too many. -/
theorem drifts_of_gt (k : Controller) {r : Rate} (hlt : r.denSecs < r.num)
    (hnot : ¬ r.denSecs ∣ r.num) : ¬ NoDrift k r := by
  intro h
  have hD := r.denSecs_pos
  obtain ⟨delay, hadvance⟩ := advanceFrom_one hlt hnot
  have hcalls : baseCalls r.num r.denSecs 0 [1, 1]
      = some ([⟨0, 1, delay⟩, ⟨0, 1, delay⟩], 0) := by
    simp [baseCalls, hadvance]
  have hfinal := h.final_eq (by decide) hcalls
  -- the two calls count the same periods twice
  have hticks : total (Call.ticks r) [⟨0, 1, delay⟩, ⟨0, 1, delay⟩] * r.denSecs
      = r.num / r.denSecs * r.denSecs + r.num / r.denSecs * r.denSecs := by
    simp only [total, List.foldr_cons, List.foldr_nil, Call.ticks, ticksIn, Int.sub_zero,
      Int.one_mul]
    ring
  have hone : 1 ≤ (r.num / r.denSecs * r.denSecs + r.num / r.denSecs * r.denSecs) / r.num := by
    have hsplit := Int.ediv_mul_add_emod r.num r.denSecs
    have hrem := Int.emod_lt_of_pos r.num hD
    have hq : 1 ≤ r.num / r.denSecs := by
      rw [Int.le_ediv_iff_mul_le hD]
      omega
    have hqD : r.denSecs ≤ r.num / r.denSecs * r.denSecs := le_mul_of_one_le_left hD.le hq
    rw [Int.le_ediv_iff_mul_le r.num_pos]
    omega
  rw [hticks] at hfinal
  omega

theorem not_drifts_iff (k : Controller) (r : Rate) :
    NoDrift k r ↔ r.num ∣ r.denSecs ∨ r.denSecs ∣ r.num := by
  constructor
  · intro h
    by_contra hnot
    rw [not_or] at hnot
    rcases lt_trichotomy r.num r.denSecs with hlt | heq | hgt
    · exact drifts_of_lt k hlt hnot.1 h
    · exact hnot.1 (heq ▸ dvd_rfl)
    · exact drifts_of_gt k hgt hnot.2 h
  · intro h start ts cs s hmono hrun
    refine (base_eq_iff k r hmono hrun).mpr ?_
    rw [lost_eq_zero h cs]
    exact r.num_pos

/-- **A controller does not drift in any run exactly if a period is a whole number of microseconds,
or a microsecond a whole number of periods; and in one run exactly if the parts that rounding takes
off its calls do not make up a microsecond.** -/
theorem noDrift_iff (k : Controller) (r : Rate) :
    (NoDrift k r ↔ r.num ∣ r.denSecs ∨ r.denSecs ∣ r.num) ∧
      ∀ (start : Int) (ts : List Int) (cs : List Call) (s : k.State),
        (start :: ts).IsChain (· ≤ ·) → k.calls (k.start r start) ts = some (cs, s) →
        (k.base s = start + tickTime r.num r.denSecs (total (Call.ticks r) cs) ↔
          lost r cs < r.num) :=
  ⟨not_drifts_iff k r, fun _ _ _ _ hmono hrun => base_eq_iff k r hmono hrun⟩

/-- Three ticks in a second. -/
def three : Rate where
  num := 3
  den := 1
  num_pos := by decide
  den_pos := by decide
  num_lt := by decide
  den_lt := by decide

/-- Three calls, one for each tick of a second, lose a microsecond. -/
theorem not_noDrift : ¬ ∀ (k : Controller) (r : Rate), NoDrift k r := by
  intro h
  have hrun : Controller.tickCtrl.calls (TickCtrl.start three 0) [333334, 666667, 1000000]
      = some ([⟨0, 333334, 333332⟩, ⟨333333, 666667, 333332⟩, ⟨666666, 1000000, 333332⟩],
        TickCtrl.start three 999999) := rfl
  have hbase : (999999 : Int) = 0 + 3 * three.denSecs / three.num :=
    h .tickCtrl three 0 _ _ _ (by decide) hrun
  exact absurd hbase (by decide)

end QcapDemos.Zz