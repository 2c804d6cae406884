import Mathlib.Algebra.Order.Ring.Int
import Mathlib.Tactic.Linarith
import Mathlib.Tactic.Ring

set_option autoImplicit false

/-! # Ticks of a rational rate

`N` ticks take `D` units of time. On a clock that counts whole units, `ticksIn` is the number of
ticks that are over after a time, and `tickTime` the time of a tick, both rounded down. The two are
not inverse to each other: a time may fall between the rounded time of a tick and the tick itself.
-/

namespace QcapDemos.Lib

/-- The ticks that are over after `d` units. -/
def ticksIn (N D d : Int) : Int := d * N / D

/-- The time of tick `k`. -/
def tickTime (N D k : Int) : Int := k * D / N

section Ticks

variable {N D : Int}

theorem ticksIn_nonneg (hN : 0 < N) (hD : 0 < D) {d : Int} (hd : 0 ≤ d) : 0 ≤ ticksIn N D d :=
  Int.ediv_nonneg (Int.mul_nonneg hd hN.le) hD.le

theorem ticksIn_mul_le (hD : 0 < D) (d : Int) : ticksIn N D d * D ≤ d * N :=
  Int.ediv_mul_le _ hD.ne'

/-- No tick that is counted is still to come. -/
theorem tickTime_ticksIn_le (hN : 0 < N) (hD : 0 < D) (d : Int) :
    tickTime N D (ticksIn N D d) ≤ d := by
  have hle := Int.ediv_le_ediv hN (ticksIn_mul_le (N := N) hD d)
  rwa [Int.mul_ediv_cancel d hN.ne'] at hle

/-- The rounded time of the next tick is still to come exactly if the tick itself is more than a
unit away or falls on a unit. -/
theorem lt_tickTime_succ_iff (hN : 0 < N) (d : Int) :
    d < tickTime N D (ticksIn N D d + 1) ↔ d * N % D + N ≤ D := by
  have hsplit : D * ticksIn N D d + d * N % D = d * N := Int.mul_ediv_add_emod (d * N) D
  have hnext : (ticksIn N D d + 1) * D = D * ticksIn N D d + D := by ring
  have hunit : (d + 1) * N = d * N + N := by ring
  rw [← Int.add_one_le_iff, tickTime, Int.le_ediv_iff_mul_le hN, hnext, hunit]
  constructor
  · intro h
    omega
  · intro h
    omega

/-- The next tick is never further away than one period. -/
theorem tickTime_succ_sub_le (hN : 0 < N) (hD : 0 < D) (d : Int) :
    tickTime N D (ticksIn N D d + 1) - d ≤ D / N := by
  have hle : (ticksIn N D d + 1) * D ≤ D + d * N := by
    have hticks := ticksIn_mul_le (N := N) hD d
    linarith [add_mul (ticksIn N D d) 1 D]
  have hdiv : tickTime N D (ticksIn N D d + 1) ≤ (D + d * N) / N := Int.ediv_le_ediv hN hle
  rw [Int.add_mul_ediv_right D d hN.ne'] at hdiv
  omega

theorem tickTime_mono (hN : 0 < N) (hD : 0 < D) {j k : Int} (h : j ≤ k) :
    tickTime N D j ≤ tickTime N D k :=
  Int.ediv_le_ediv hN (Int.mul_le_mul_of_nonneg_right h hD.le)

/-- From one tick to the next it is at most one period, rounded up. -/
theorem tickTime_succ_le (hN : 0 < N) (D k : Int) :
    tickTime N D (k + 1) ≤ tickTime N D k + (D + N - 1) / N := by
  have hsplit : (k + 1) * D = N * (k * D / N) + (k * D % N + D) := by
    have hdiv := Int.mul_ediv_add_emod (k * D) N
    linarith [add_mul k 1 D]
  have hrem := Int.emod_lt_of_pos (k * D) hN
  rw [tickTime, tickTime, hsplit, Int.add_comm (N * _), Int.add_mul_ediv_left _ _ hN.ne',
    Int.add_comm]
  exact Int.add_le_add_left (Int.ediv_le_ediv hN (by omega)) _

/-- The time of a tick in units, with what rounding takes off. -/
theorem mul_tickTime_add_emod (k : Int) : N * tickTime N D k + k * D % N = k * D :=
  Int.mul_ediv_add_emod (k * D) N

/-- A rate whose period is a whole number of units, or of which a unit is a whole number of periods,
loses nothing by rounding. -/
theorem ticksIn_mul_emod (h : N ∣ D ∨ D ∣ N) (hD : 0 < D) (d : Int) :
    ticksIn N D d * D % N = 0 := by
  rcases h with hND | ⟨m, rfl⟩
  · exact Int.emod_eq_zero_of_dvd (hND.mul_left _)
  · have hticks : ticksIn (D * m) D d = d * m := by
      rw [ticksIn, show d * (D * m) = d * m * D by ring, Int.mul_ediv_cancel _ hD.ne']
    rw [hticks, show d * m * D = D * m * d by ring]
    exact Int.mul_emod_right _ _

end Ticks

end QcapDemos.Lib
