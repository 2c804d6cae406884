import Mathlib.Algebra.Order.Field.Power
import Mathlib.Data.Rat.Floor
import Mathlib.Tactic.Linarith
import Mathlib.Tactic.Ring

set_option autoImplicit false

/-! # Rounding to single precision

The nearest number with a significand of 24 bits, ties to even, for positive numbers away from
underflow and overflow. The rounding moves a number by at most the `2 ^ 24`th part of it.
-/

namespace QcapDemos.Lib

/-! ## Integers -/

/-- The nearest integer, and the even one of two. -/
def roundEven (q : ℚ) : ℤ :=
  if Int.fract q < 1 / 2 then ⌊q⌋
  else if 1 / 2 < Int.fract q then ⌊q⌋ + 1
  else ⌊q⌋ + ⌊q⌋ % 2

theorem abs_roundEven_sub_le (q : ℚ) : |(roundEven q : ℚ) - q| ≤ 1 / 2 := by
  have hfract : Int.fract q = q - ⌊q⌋ := rfl
  have hlo := Int.fract_nonneg q
  have hhi := Int.fract_lt_one q
  unfold roundEven
  split
  · rw [abs_le]
    constructor <;> linarith
  · split
    · push_cast
      rw [abs_le]
      constructor <;> linarith
    · rcases Int.emod_two_eq_zero_or_one ⌊q⌋ with h | h <;>
        · rw [h]
          push_cast
          rw [abs_le]
          constructor <;> linarith

/-! ## The binary exponent -/

/-- The exponent of the leading bit. -/
def exponent (q : ℚ) : ℤ :=
  let e : ℤ := q.num.toNat.log2 - q.den.log2
  if 2 ^ e ≤ q then e else e - 1

theorem two_zpow_exponent_le {q : ℚ} (hq : 0 < q) : (2 : ℚ) ^ exponent q ≤ q := by
  unfold exponent
  dsimp only
  split
  · assumption
  · -- the numerator has its leading bit, and the denominator lies below the bit after its own
    have hnum : (2 : ℚ) ^ (q.num.toNat.log2 : ℤ) ≤ q.num := by
      have hpos : q.num.toNat ≠ 0 := by
        have := Rat.num_pos.mpr hq
        omega
      have h : ((2 ^ q.num.toNat.log2 : Nat) : ℤ) ≤ q.num := by
        have := Nat.log2_self_le hpos
        omega
      rw [zpow_natCast]
      exact_mod_cast h
    have hden : (q.den : ℚ) ≤ 2 ^ (q.den.log2 + 1 : ℤ) := by
      have h : q.den ≤ 2 ^ (q.den.log2 + 1) := Nat.lt_log2_self.le
      rw [show (q.den.log2 + 1 : ℤ) = ((q.den.log2 + 1 : Nat) : ℤ) by push_cast; rfl, zpow_natCast]
      exact_mod_cast h
    have hden0 : (0 : ℚ) < q.den := by exact_mod_cast q.den_pos
    have hsplit : (2 : ℚ) ^ ((q.num.toNat.log2 : ℤ) - q.den.log2 - 1) =
        2 ^ (q.num.toNat.log2 : ℤ) / 2 ^ (q.den.log2 + 1 : ℤ) := by
      rw [← zpow_sub₀ (by norm_num)]
      congr 1
      ring
    rw [hsplit, div_le_iff₀ (zpow_pos (by norm_num) _)]
    calc (2 : ℚ) ^ (q.num.toNat.log2 : ℤ) ≤ q.num := hnum
      _ = q * q.den := (Rat.mul_den_eq_num q).symm
      _ ≤ q * 2 ^ (q.den.log2 + 1 : ℤ) := mul_le_mul_of_nonneg_left hden hq.le

/-! ## Single precision -/

/-- The distance of neighbours around a number. -/
def unitInLastPlace (q : ℚ) : ℚ := 2 ^ (exponent q - 23)

/-- The nearest number of single precision. -/
def roundSingle (q : ℚ) : ℚ := roundEven (q / unitInLastPlace q) * unitInLastPlace q

theorem roundSingle_zero : roundSingle 0 = 0 := by
  rw [roundSingle, zero_div]
  simp [roundEven]

theorem abs_roundSingle_sub_le {q : ℚ} (hq : 0 < q) : |roundSingle q - q| ≤ q / 2 ^ 24 := by
  have hulp : 0 < unitInLastPlace q := zpow_pos (by norm_num) _
  have hle : unitInLastPlace q ≤ q / 2 ^ 23 := by
    rw [unitInLastPlace, zpow_sub₀ (by norm_num)]
    exact div_le_div_of_nonneg_right (two_zpow_exponent_le hq) (by norm_num)
  have hscale : roundSingle q - q =
      ((roundEven (q / unitInLastPlace q) : ℚ) - q / unitInLastPlace q) * unitInLastPlace q := by
    rw [sub_mul, div_mul_cancel₀ _ hulp.ne', roundSingle]
  calc |roundSingle q - q|
      = |(roundEven (q / unitInLastPlace q) : ℚ) - q / unitInLastPlace q| * unitInLastPlace q := by
        rw [hscale, abs_mul, abs_of_pos hulp]
    _ ≤ 1 / 2 * (q / 2 ^ 23) :=
        mul_le_mul (abs_roundEven_sub_le _) hle hulp.le (by norm_num)
    _ = q / 2 ^ 24 := by ring

/-- The rounding loses at most the `2 ^ 24`th part. -/
theorem mul_le_roundSingle {q : ℚ} (hq : 0 ≤ q) : q * (1 - 1 / 2 ^ 24) ≤ roundSingle q := by
  rcases hq.eq_or_lt with rfl | hpos
  · rw [roundSingle_zero, zero_mul]
  · have := (abs_le.mp (abs_roundSingle_sub_le hpos)).1
    linarith

/-- The rounding adds at most the `2 ^ 24`th part. -/
theorem roundSingle_le_mul {q : ℚ} (hq : 0 ≤ q) : roundSingle q ≤ q * (1 + 1 / 2 ^ 24) := by
  rcases hq.eq_or_lt with rfl | hpos
  · rw [roundSingle_zero, zero_mul]
  · have := (abs_le.mp (abs_roundSingle_sub_le hpos)).2
    linarith

theorem roundSingle_nonneg {q : ℚ} (hq : 0 ≤ q) : 0 ≤ roundSingle q :=
  (mul_nonneg hq (by norm_num)).trans (mul_le_roundSingle hq)

/-- The quotient by a rounded number is too small by a rounding of either. -/
theorem mul_le_roundSingle_div {n d : ℚ} (hn : 0 ≤ n) (hd : 0 < d) :
    n * (1 - 1 / 2 ^ 24) ≤ roundSingle (n / roundSingle d) * (d * (1 + 1 / 2 ^ 24)) := by
  have hpos : 0 < roundSingle d :=
    (mul_pos hd (by norm_num)).trans_le (mul_le_roundSingle hd.le)
  have hquot : 0 ≤ n / roundSingle d := div_nonneg hn hpos.le
  calc n * (1 - 1 / 2 ^ 24)
      = n / roundSingle d * (1 - 1 / 2 ^ 24) * roundSingle d := by
        rw [mul_right_comm, div_mul_cancel₀ _ hpos.ne']
    _ ≤ roundSingle (n / roundSingle d) * roundSingle d :=
        mul_le_mul_of_nonneg_right (mul_le_roundSingle hquot) hpos.le
    _ ≤ roundSingle (n / roundSingle d) * (d * (1 + 1 / 2 ^ 24)) :=
        mul_le_mul_of_nonneg_left (roundSingle_le_mul hd.le) (roundSingle_nonneg hquot)

end QcapDemos.Lib
