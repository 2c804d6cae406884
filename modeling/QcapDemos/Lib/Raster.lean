import Mathlib.Algebra.Order.Ring.Nat

set_option autoImplicit false

/-! # Rasters

The rows of a plane lie in a buffer one stride apart. A stride is the bytes of a row rounded up to a
power of two, which code does with a mask. This file has the rounding, and what it takes for all
rows of a plane to lie in a buffer: room for the last one.
-/

namespace QcapDemos.Lib

/-! ## Rounding -/

/-- The first multiple of `a` that is not below `x`. -/
def roundUp (a x : Nat) : Nat := (x + a - 1) / a * a

section Rounding

variable {w a x : Nat}

theorem le_roundUp (ha : 0 < a) (x : Nat) : x ≤ roundUp a x := by
  have hsplit := Nat.div_add_mod (x + a - 1) a
  have hmod := Nat.mod_lt (x + a - 1) ha
  rw [roundUp, Nat.mul_comm]
  omega

theorem roundUp_lt (ha : 0 < a) (x : Nat) : roundUp a x < x + a := by
  have hle := Nat.div_mul_le_self (x + a - 1) a
  rw [roundUp]
  omega

theorem dvd_roundUp (a x : Nat) : a ∣ roundUp a x := Nat.dvd_mul_left a _

/-- Masking off the low bits rounds down. -/
theorem toNat_and_not_mask {k : Nat} (x : BitVec w) (hk : k ≤ w) :
    (x &&& ~~~BitVec.ofNat w (2 ^ k - 1)).toNat = x.toNat / 2 ^ k * 2 ^ k := by
  have hlt : 2 ^ k - 1 < 2 ^ w :=
    Nat.lt_of_lt_of_le (Nat.sub_lt (Nat.two_pow_pos k) Nat.one_pos) (Nat.pow_le_pow_right
      (by decide) hk)
  apply Nat.eq_of_testBit_eq
  intro i
  rw [BitVec.testBit_toNat, BitVec.getLsbD_and, BitVec.getLsbD_not, ← BitVec.testBit_toNat,
    ← BitVec.testBit_toNat, BitVec.toNat_ofNat, Nat.mod_eq_of_lt hlt,
    Nat.testBit_two_pow_sub_one, Nat.testBit_mul_two_pow, Nat.testBit_div_two_pow]
  by_cases hi : k ≤ i
  · rw [Nat.sub_add_cancel hi]
    by_cases hiw : i < w
    · simp [hi, hiw]
    · have hzero : x.toNat.testBit i = false :=
        Nat.testBit_lt_two_pow (x.isLt.trans_le (Nat.pow_le_pow_right (by decide) (by omega)))
      simp [hzero]
  · simp [hi, Nat.lt_of_not_le hi]

end Rounding

/-! ## Planes -/

/-- A plane: where its first row is, how far its rows are apart, how many they are and how long. -/
structure Plane where
  offset : Nat
  stride : Nat
  rows : Nat
  rowBytes : Nat

/-- Every row of the plane ends at or before an address. -/
def Plane.EndsBy (p : Plane) (stop : Nat) : Prop :=
  ∀ r < p.rows, p.offset + r * p.stride + p.rowBytes ≤ stop

/-- All rows lie in the buffer if the last one does. -/
theorem Plane.endsBy_iff {p : Plane} {n : Nat} (hrows : p.rows = n + 1) (stop : Nat) :
    p.EndsBy stop ↔ p.offset + n * p.stride + p.rowBytes ≤ stop := by
  constructor
  · intro h
    exact h n (by omega)
  · intro h r hr
    have hle : r * p.stride ≤ n * p.stride := Nat.mul_le_mul_right _ (by omega)
    omega

/-- A plane whose rows are no longer than its stride takes a stride for each row at most. -/
theorem Plane.endsBy_of_le {p : Plane} (hbytes : p.rowBytes ≤ p.stride) {stop : Nat}
    (h : p.offset + p.rows * p.stride ≤ stop) : p.EndsBy stop := by
  intro r hr
  have hle : (r + 1) * p.stride ≤ p.rows * p.stride := Nat.mul_le_mul_right _ hr
  rw [Nat.add_mul, Nat.one_mul] at hle
  omega

end QcapDemos.Lib
