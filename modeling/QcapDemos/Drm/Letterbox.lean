import Mathlib.Algebra.Order.Floor.Semifield
import Mathlib.Tactic.Linarith
import Mathlib.Tactic.Positivity
import QcapDemos.Drm.Mode

set_option autoImplicit false

/-! # The letterbox rectangle in machine words

`start_vdec_sink` and `apply_drm_modeset` each compute the destination of the scaled video, in
32-bit words with 64-bit products. The two computations are embedded here in the source's types;
they agree with each other and with `letterbox`, and what they give is described over the
rationals (`Letterboxed`).
-/

namespace QcapDemos.Drm

/-! ## The two computations -/

structure Rect where
  x : UInt32
  y : UInt32
  w : UInt32
  h : UInt32
deriving DecidableEq

/-- The destination rectangle of `start_vdec_sink`, if it does not reject the geometry. -/
def vdecSinkRect (decWidth decHeight outW outH : UInt32) : Option Rect :=
  if decWidth = 0 ∨ decHeight = 0 ∨ outW = 0 ∨ outH = 0 then none
  else
    let (rectW, rectH) :=
      if decWidth.toUInt64 * outH.toUInt64 > decHeight.toUInt64 * outW.toUInt64 then
        (outW, (outW.toUInt64 * decHeight.toUInt64 / decWidth.toUInt64).toUInt32)
      else ((outH.toUInt64 * decWidth.toUInt64 / decHeight.toUInt64).toUInt32, outH)
    let rectW := rectW &&& ~~~1
    let rectH := rectH &&& ~~~1
    if rectW = 0 ∨ rectH = 0 then none
    else some { x := (outW - rectW) / 2, y := (outH - rectH) / 2, w := rectW, h := rectH }

/-- The destination rectangle of `apply_drm_modeset` on a mode of this size. -/
def modesetRect (width height outputW outputH : UInt32) : Option Rect :=
  if width = 0 ∨ height = 0 ∨ width > 3840 ∨ height > 2160 then none
  else
    let (rectW, rectH) :=
      if width.toUInt64 * outputH.toUInt64 > height.toUInt64 * outputW.toUInt64 then
        (outputW, (outputW.toUInt64 * height.toUInt64 / width.toUInt64).toUInt32)
      else ((outputH.toUInt64 * width.toUInt64 / height.toUInt64).toUInt32, outputH)
    let rectW := rectW &&& ~~~1
    let rectH := rectH &&& ~~~1
    if rectW = 0 ∨ rectH = 0 then none
    else some { x := (outputW - rectW) / 2, y := (outputH - rectH) / 2, w := rectW, h := rectH }

/-- A length as a 16.16 fixed-point source coordinate. -/
def fixed16 (x : UInt32) : UInt32 := x <<< 16

/-! ## Words and numbers -/

theorem toNat_even (x : UInt32) : (x &&& ~~~1).toNat = even x.toNat := by
  have hmask : (~~~1 : UInt32).toNat = (2 ^ 31 - 1) <<< 1 := by decide
  have heven : even x.toNat = (x.toNat >>> 1) <<< 1 := by
    rw [even, Nat.shiftLeft_eq, Nat.shiftRight_eq_div_pow]
  rw [UInt32.toNat_and, hmask, heven]
  -- bit by bit: the mask is 31 ones above a zero
  refine Nat.eq_of_testBit_eq fun i => ?_
  rw [Nat.testBit_and, Nat.testBit_shiftLeft, Nat.testBit_shiftLeft, Nat.testBit_two_pow_sub_one,
    Nat.testBit_shiftRight]
  by_cases hi : 1 ≤ i
  · by_cases hlt : i - 1 < 31
    · simp [hi, hlt, Nat.add_sub_cancel' hi]
    · -- the mask has no bit here, and neither has the word
      have hbit : x.toNat.testBit i = false := Nat.testBit_lt_two_pow
        (lt_of_lt_of_le x.toNat_lt (Nat.pow_le_pow_right (by decide) (by omega)))
      simp [hlt, Nat.add_sub_cancel' hi, hbit]
  · simp [hi]

/-- A product of two 32-bit words fits in 64 bits. -/
theorem toNat_product (a b : UInt32) :
    (a.toUInt64 * b.toUInt64).toNat = a.toNat * b.toNat := by
  have hlt : a.toNat * b.toNat < 2 ^ 32 * 2 ^ 32 := Nat.mul_lt_mul'' a.toNat_lt b.toNat_lt
  rw [UInt64.toNat_mul, UInt32.toNat_toUInt64, UInt32.toNat_toUInt64]
  exact Nat.mod_eq_of_lt hlt

theorem toNat_quotient (a b c : UInt32) :
    (a.toUInt64 * b.toUInt64 / c.toUInt64).toNat = a.toNat * b.toNat / c.toNat := by
  rw [UInt64.toNat_div, toNat_product, UInt32.toNat_toUInt64]

theorem product_lt_product (a b c d : UInt32) :
    a.toUInt64 * b.toUInt64 > c.toUInt64 * d.toUInt64 ↔ c.toNat * d.toNat < a.toNat * b.toNat := by
  rw [gt_iff_lt, UInt64.lt_iff_toNat_lt, toNat_product, toNat_product]

theorem toNat_fixed16 {x : UInt32} (h : x ≤ 3840) : (fixed16 x).toNat = x.toNat * 2 ^ 16 := by
  have hx : x.toNat ≤ 3840 := UInt32.le_iff_toNat_le.mp h
  rw [fixed16, UInt32.toNat_shiftLeft]
  show x.toNat <<< 16 % 2 ^ 32 = _
  rw [Nat.shiftLeft_eq]
  exact Nat.mod_eq_of_lt (by omega)

/-! ## What a letterbox rectangle is -/

/-- `n` is the length `q` rounded down to an even number of pixels. -/
structure EvenFloor (q : ℚ) (n : Nat) : Prop where
  floor : n = 2 * ⌊q / 2⌋₊
  le : (n : ℚ) ≤ q
  short : q - n < 2

/-- The rectangle is even and inside the output, centred up to a pixel, and as large as the aspect
ratio of the source allows: one side is the output's, the other follows from the ratio. -/
structure Letterboxed (width height outW outH x y w h : Nat) : Prop where
  nonempty : 0 < w ∧ 0 < h
  even : 2 ∣ w ∧ 2 ∣ h
  inside : x + w ≤ outW ∧ y + h ≤ outH
  centredX : x ≤ outW - (x + w) ∧ outW - (x + w) ≤ x + 1
  centredY : y ≤ outH - (y + h) ∧ outH - (y + h) ≤ y + 1
  sides : (EvenFloor outW w ∧ EvenFloor (outW * height / width) h) ∨
    (EvenFloor (outH * width / height) w ∧ EvenFloor outH h)

theorem even_le (x : Nat) : even x ≤ x := Nat.div_mul_le_self x 2

theorem even_mono {x y : Nat} (h : x ≤ y) : even x ≤ even y :=
  Nat.mul_le_mul_right 2 (Nat.div_le_div_right h)

theorem evenFloor_even {q : ℚ} (hq : 0 ≤ q) : EvenFloor q (even ⌊q⌋₊) := by
  have hfloor : even ⌊q⌋₊ = 2 * ⌊q / 2⌋₊ := by
    rw [even, ← Nat.floor_div_natCast q 2, Nat.mul_comm]
    rfl
  have hle := Nat.floor_le (div_nonneg hq zero_le_two)
  have hlt := Nat.lt_floor_add_one (q / 2)
  refine ⟨hfloor, ?_, ?_⟩ <;> rw [hfloor] <;> push_cast <;> linarith

/-- The quotient of the source, a length of the other side. -/
theorem evenFloor_quotient (a b c : Nat) : EvenFloor (a * b / c) (even (a * b / c)) := by
  have hfloor : ⌊(a * b / c : ℚ)⌋₊ = a * b / c := by
    rw [← Nat.cast_mul, Nat.floor_div_eq_div]
  rw [← hfloor]
  exact evenFloor_even (by positivity)

theorem evenFloor_side (n : Nat) : EvenFloor n (even n) := by
  have h := evenFloor_even (Nat.cast_nonneg (α := ℚ) n)
  rwa [Nat.floor_natCast] at h

/-- The middle of what is left of a side. -/
theorem centred {out side : Nat} (h : side ≤ out) :
    (out - side) / 2 + side ≤ out ∧ (out - side) / 2 ≤ out - ((out - side) / 2 + side) ∧
      out - ((out - side) / 2 + side) ≤ (out - side) / 2 + 1 := by
  omega

/-- A side that follows from the aspect ratio fits in the output. -/
theorem quotient_le {a b c out : Nat} (h : b * a ≤ c * out) : a * b / c ≤ out := by
  rw [Nat.mul_comm] at h
  exact Nat.div_le_of_le_mul h

theorem letterbox_le (width height outW outH : Nat) :
    (letterbox width height outW outH).1 ≤ even outW ∧
      (letterbox width height outW outH).2 ≤ even outH := by
  unfold letterbox
  split
  · -- the source is wider than the output, whose width it takes
    rename_i hwide
    exact ⟨le_rfl, even_mono (quotient_le hwide.le)⟩
  · rename_i htall
    exact ⟨even_mono (quotient_le (Nat.not_lt.mp htall)), le_rfl⟩

theorem letterbox_letterboxed {width height outW outH w h : Nat}
    (hrect : letterbox width height outW outH = (w, h)) (hw : w ≠ 0)
    (hh : h ≠ 0) :
    Letterboxed width height outW outH ((outW - w) / 2) ((outH - h) / 2) w h := by
  have hle := letterbox_le width height outW outH
  rw [hrect] at hle
  obtain ⟨hinX, hcentredX⟩ := centred (hle.1.trans (even_le outW))
  obtain ⟨hinY, hcentredY⟩ := centred (hle.2.trans (even_le outH))
  have hsides : (2 ∣ w ∧ 2 ∣ h) ∧ ((EvenFloor outW w ∧ EvenFloor (outW * height / width) h) ∨
      (EvenFloor (outH * width / height) w ∧ EvenFloor outH h)) := by
    unfold letterbox at hrect
    split at hrect
    · obtain ⟨rfl, rfl⟩ := Prod.mk.inj hrect
      exact ⟨⟨Nat.dvd_mul_left _ _, Nat.dvd_mul_left _ _⟩,
        .inl ⟨evenFloor_side _, evenFloor_quotient _ _ _⟩⟩
    · obtain ⟨rfl, rfl⟩ := Prod.mk.inj hrect
      exact ⟨⟨Nat.dvd_mul_left _ _, Nat.dvd_mul_left _ _⟩,
        .inr ⟨evenFloor_quotient _ _ _, evenFloor_side _⟩⟩
  exact {
    nonempty := ⟨Nat.pos_of_ne_zero hw, Nat.pos_of_ne_zero hh⟩
    even := hsides.1
    inside := ⟨hinX, hinY⟩
    centredX := hcentredX
    centredY := hcentredY
    sides := hsides.2 }

/-! ## The words compute the rectangle -/

/-- A quotient that is a side of the rectangle fits in 32 bits. -/
theorem toNat_side {a b c out : UInt32} (h : b.toNat * a.toNat ≤ c.toNat * out.toNat) :
    (a.toUInt64 * b.toUInt64 / c.toUInt64).toUInt32.toNat = a.toNat * b.toNat / c.toNat := by
  rw [UInt64.toNat_toUInt32, toNat_quotient]
  exact Nat.mod_eq_of_lt (lt_of_le_of_lt (quotient_le h) out.toNat_lt)

section Words

variable (width height outW outH : UInt32)

/-- The sides before they are made even. -/
def sides : UInt32 × UInt32 :=
  if width.toUInt64 * outH.toUInt64 > height.toUInt64 * outW.toUInt64 then
    (outW, (outW.toUInt64 * height.toUInt64 / width.toUInt64).toUInt32)
  else ((outH.toUInt64 * width.toUInt64 / height.toUInt64).toUInt32, outH)

theorem toNat_sides :
    (((sides width height outW outH).1 &&& ~~~1).toNat,
      ((sides width height outW outH).2 &&& ~~~1).toNat)
      = letterbox width.toNat height.toNat outW.toNat outH.toNat := by
  rw [toNat_even, toNat_even]
  unfold sides letterbox
  by_cases hwide : height.toNat * outW.toNat < width.toNat * outH.toNat
  · rw [if_pos ((product_lt_product _ _ _ _).mpr hwide), if_pos hwide, toNat_side hwide.le]
  · rw [if_neg (mt (product_lt_product _ _ _ _).mp hwide), if_neg hwide,
      toNat_side (Nat.not_lt.mp hwide)]

/-- The rectangle with these sides in the middle of the output. -/
def middle (w h : UInt32) : Rect := { x := (outW - w) / 2, y := (outH - h) / 2, w := w, h := h }

/-- What the two computations share: they differ in what they reject first. -/
def evenRect : Option Rect :=
  let w := (sides width height outW outH).1 &&& ~~~1
  let h := (sides width height outW outH).2 &&& ~~~1
  if w = 0 ∨ h = 0 then none else some (middle outW outH w h)

theorem vdecSinkRect_eq :
    vdecSinkRect width height outW outH =
      if width = 0 ∨ height = 0 ∨ outW = 0 ∨ outH = 0 then none
      else evenRect width height outW outH := rfl

theorem modesetRect_eq :
    modesetRect width height outW outH =
      if width = 0 ∨ height = 0 ∨ width > 3840 ∨ height > 2160 then none
      else evenRect width height outW outH := rfl

/-- The words are the numbers: a rectangle is rejected with a side that is zero, and else it is
`letterbox` in the middle of the output. -/
theorem evenRect_cases :
    (evenRect width height outW outH = none ∧
      ((letterbox width.toNat height.toNat outW.toNat outH.toNat).1 = 0 ∨
        (letterbox width.toNat height.toNat outW.toNat outH.toNat).2 = 0)) ∨
    ∃ r, evenRect width height outW outH = some r ∧
      letterbox width.toNat height.toNat outW.toNat outH.toNat = (r.w.toNat, r.h.toNat) ∧
      (r.w.toNat ≠ 0 ∧ r.h.toNat ≠ 0) ∧
      r.x.toNat = (outW.toNat - r.w.toNat) / 2 ∧ r.y.toNat = (outH.toNat - r.h.toNat) / 2 := by
  have hsides := toNat_sides width height outW outH
  have hle := letterbox_le width.toNat height.toNat outW.toNat outH.toNat
  unfold evenRect
  dsimp only
  generalize (sides width height outW outH).1 &&& ~~~1 = w at hsides ⊢
  generalize (sides width height outW outH).2 &&& ~~~1 = h at hsides ⊢
  rw [← hsides] at hle ⊢
  by_cases hzero : w = 0 ∨ h = 0
  · rw [if_pos hzero]
    refine .inl ⟨rfl, ?_⟩
    rcases hzero with rfl | rfl
    · exact .inl rfl
    · exact .inr rfl
  · rw [if_neg hzero]
    rw [not_or] at hzero
    -- the sides fit, so the two subtractions of words do not wrap
    have hw : w ≤ outW := UInt32.le_iff_toNat_le.mpr (hle.1.trans (even_le _))
    have hh : h ≤ outH := UInt32.le_iff_toNat_le.mpr (hle.2.trans (even_le _))
    refine .inr ⟨middle outW outH w h, rfl, rfl, ⟨fun h0 => hzero.1 (UInt32.toNat_inj.mp h0),
      fun h0 => hzero.2 (UInt32.toNat_inj.mp h0)⟩, ?_, ?_⟩
    · show ((outW - w) / 2).toNat = (outW.toNat - w.toNat) / 2
      rw [UInt32.toNat_div, UInt32.toNat_sub_of_le _ _ hw]
      rfl
    · show ((outH - h) / 2).toNat = (outH.toNat - h.toNat) / 2
      rw [UInt32.toNat_div, UInt32.toNat_sub_of_le _ _ hh]
      rfl

theorem evenRect_letterboxed {r : Rect} (h : evenRect width height outW outH = some r) :
    Letterboxed width.toNat height.toNat outW.toNat outH.toNat r.x.toNat r.y.toNat r.w.toNat
      r.h.toNat := by
  rcases evenRect_cases width height outW outH with ⟨hnone, -⟩ | ⟨r', hsome, hrect, hne, hx, hy⟩
  · rw [hnone] at h
    cases h
  · rw [hsome] at h
    cases h
    rw [hx, hy]
    exact letterbox_letterboxed hrect hne.1 hne.2

end Words

/-! ## The two copies -/

/-- The arithmetic of the two computations is that of the numbers: no product wraps, and neither
does the quotient that becomes a side. -/
structure Exact (width height outW outH : UInt32) : Prop where
  cross : (width.toUInt64 * outH.toUInt64).toNat = width.toNat * outH.toNat ∧
    (height.toUInt64 * outW.toUInt64).toNat = height.toNat * outW.toNat
  products : (outW.toUInt64 * height.toUInt64).toNat = outW.toNat * height.toNat ∧
    (outH.toUInt64 * width.toUInt64).toNat = outH.toNat * width.toNat
  sides : if width.toUInt64 * outH.toUInt64 > height.toUInt64 * outW.toUInt64 then
      (outW.toUInt64 * height.toUInt64 / width.toUInt64).toUInt32.toNat
        = outW.toNat * height.toNat / width.toNat
    else (outH.toUInt64 * width.toUInt64 / height.toUInt64).toUInt32.toNat
      = outH.toNat * width.toNat / height.toNat

theorem arithmetic_exact (width height outW outH : UInt32) : Exact width height outW outH where
  cross := ⟨toNat_product _ _, toNat_product _ _⟩
  products := ⟨toNat_product _ _, toNat_product _ _⟩
  sides := by
    split
    · rename_i hwide
      exact toNat_side ((product_lt_product _ _ _ _).mp hwide).le
    · rename_i htall
      exact toNat_side (Nat.not_lt.mp (mt (product_lt_product _ _ _ _).mpr htall))

/-- An output without a side has no room for a rectangle. -/
theorem evenRect_eq_none {width height outW outH : UInt32} (h : outW = 0 ∨ outH = 0) :
    evenRect width height outW outH = none := by
  have hle := letterbox_le width.toNat height.toNat outW.toNat outH.toNat
  rcases evenRect_cases width height outW outH with ⟨hnone, -⟩ | ⟨r, -, hrect, hne, -⟩
  · exact hnone
  · rw [hrect] at hle
    rcases h with rfl | rfl
    · exact absurd (Nat.le_zero.mp hle.1) hne.1
    · exact absurd (Nat.le_zero.mp hle.2) hne.2

/-- Where `apply_drm_modeset` takes the source, the two agree. -/
theorem modesetRect_eq_vdecSinkRect {width height outW outH : UInt32} (hwidth : width ≤ 3840)
    (hheight : height ≤ 2160) :
    modesetRect width height outW outH = vdecSinkRect width height outW outH := by
  rw [modesetRect_eq, vdecSinkRect_eq]
  have hwidth' : ¬ width > 3840 := UInt32.not_lt.mpr hwidth
  have hheight' : ¬ height > 2160 := UInt32.not_lt.mpr hheight
  by_cases hsource : width = 0 ∨ height = 0
  · rw [if_pos (by tauto), if_pos (by tauto)]
  · rw [if_neg (by tauto)]
    -- only `start_vdec_sink` looks at the output, and the other finds a side that is zero
    by_cases hout : outW = 0 ∨ outH = 0
    · rw [if_pos (by tauto), evenRect_eq_none hout]
    · rw [if_neg (by tauto)]

theorem vdecSinkRect_some {width height outW outH : UInt32} {r : Rect}
    (h : vdecSinkRect width height outW outH = some r) :
    evenRect width height outW outH = some r := by
  rw [vdecSinkRect_eq] at h
  split at h
  · cases h
  · exact h

theorem modesetRect_some {width height outW outH : UInt32} {r : Rect}
    (h : modesetRect width height outW outH = some r) :
    width ≤ 3840 ∧ height ≤ 2160 ∧ evenRect width height outW outH = some r := by
  rw [modesetRect_eq] at h
  split at h
  · cases h
  · rename_i hok
    rw [not_or, not_or, not_or] at hok
    exact ⟨UInt32.not_lt.mp hok.2.2.1, UInt32.not_lt.mp hok.2.2.2, h⟩

/-- **The letterbox geometry** of both computations on outputs of at most 3840x2160: what they do
not reject is the letterbox rectangle, computed without overflow, and the same in both. -/
theorem rect_letterboxed (width height outW outH : UInt32) (houtW : outW ≤ 3840)
    (houtH : outH ≤ 2160) :
    (∀ r, vdecSinkRect width height outW outH = some r ∨
        modesetRect width height outW outH = some r →
      Letterboxed width.toNat height.toNat outW.toNat outH.toNat r.x.toNat r.y.toNat r.w.toNat
        r.h.toNat) ∧
    Exact width height outW outH ∧
    ((fixed16 outW).toNat = outW.toNat * 2 ^ 16 ∧ (fixed16 outH).toNat = outH.toNat * 2 ^ 16) ∧
    (∀ r, modesetRect width height outW outH = some r →
      (fixed16 width).toNat = width.toNat * 2 ^ 16 ∧
        (fixed16 height).toNat = height.toNat * 2 ^ 16) ∧
    (∀ r r', vdecSinkRect width height outW outH = some r →
      modesetRect width height outW outH = some r' → r = r') ∧
    (width ≤ 3840 → height ≤ 2160 →
      modesetRect width height outW outH = vdecSinkRect width height outW outH) := by
  have hlong : (2160 : UInt32) ≤ 3840 := by decide
  refine ⟨?_, arithmetic_exact _ _ _ _,
    ⟨toNat_fixed16 houtW, toNat_fixed16 (UInt32.le_trans houtH hlong)⟩, ?_, ?_,
    modesetRect_eq_vdecSinkRect⟩
  · rintro r (h | h)
    · exact evenRect_letterboxed _ _ _ _ (vdecSinkRect_some h)
    · exact evenRect_letterboxed _ _ _ _ (modesetRect_some h).2.2
  · intro r h
    obtain ⟨hwidth, hheight, -⟩ := modesetRect_some h
    exact ⟨toNat_fixed16 hwidth, toNat_fixed16 (UInt32.le_trans hheight hlong)⟩
  · intro r r' h h'
    have h₁ := vdecSinkRect_some h
    rw [(modesetRect_some h').2.2] at h₁
    exact (Option.some.inj h₁).symm

/-- A 1000x563 source is a little taller than 16:9. -/
theorem rect_letterboxed_odd :
    modesetRect 1000 563 1920 1080 = some { x := 1, y := 0, w := 1918, h := 1080 } ∧
      Letterboxed 1000 563 1920 1080 1 0 1918 1080 :=
  ⟨by decide +kernel, (rect_letterboxed 1000 563 1920 1080 (by decide) (by decide)).1
    { x := 1, y := 0, w := 1918, h := 1080 } (.inr (by decide +kernel))⟩

end QcapDemos.Drm
