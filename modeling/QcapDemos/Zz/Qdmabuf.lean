import QcapDemos.Lib.Raster
import Mathlib.Algebra.Ring.Parity
import Mathlib.Data.Fin.VecNotation
import Mathlib.Tactic.Ring

set_option autoImplicit false

/-! # Video frames in dma buffers

`new_video_qdmabuf` of the test kit lays the planes of a frame out in one dma buffer: the plane
pointers start as offsets, and mapping the buffer adds its address to them. The layout is `int`
arithmetic, apart from the sizes of the semi-planar formats, which are computed in `ULONG` and
divided at the end.
-/

namespace QcapDemos.Zz

open QcapDemos.Lib

/-- A `QRESULT`. -/
inductive QResult where
  | successful
  | errorInvalidParameter
  | failed (code : Nat)
deriving DecidableEq

/-! ## The layout -/

/-- A value that an `int` holds. -/
def int32 (x : Int) : Option Int := if -2 ^ 31 ≤ x ∧ x < 2 ^ 31 then some x else none

/-- `align<int>`. -/
def align (x a : Int) : Option Int := do
  let top ← int32 ((← int32 (x + a)) - 1)
  let low ← int32 (a - 1)
  pure (BitVec.ofInt 32 top &&& ~~~BitVec.ofInt 32 low).toInt

/-- The `QCAP_COLORSPACE_TYPE_*` that are told apart. -/
inductive ColorSpaceType where
  | nv12
  | nv16
  | y444
  | rgba
  | other
deriving DecidableEq

/-- The size of the buffer, with the four plane pointers and strides of the frame. -/
structure Layout where
  nSize : Int
  pBuffer : Fin 4 → BitVec 64
  pStride : Fin 4 → Int

section Layout

variable {w : Nat}

/-- A `ULONG` of `w` bits as an `int`. -/
def toInt (x : BitVec w) : Int := (x.setWidth 32).toInt

/-- One plane, of `bytes` in a pixel. -/
def packed (bytes nWidth nHeight : BitVec w) : Option Layout := do
  let stride ← align (toInt (nWidth * bytes)) 16
  let nSize ← int32 (stride * toInt nHeight)
  pure { nSize := nSize, pBuffer := fun _ => 0, pStride := ![stride, 0, 0, 0] }

/-- Two planes of one stride, of which the second follows the first. `sizeOf` computes the size from
the stride as a `ULONG`. -/
def semiPlanar (sizeOf : BitVec w → BitVec w) (nWidth nHeight : BitVec w) : Option Layout := do
  let stride ← align (toInt nWidth) 16
  let chroma ← int32 (stride * toInt nHeight)
  pure
    { nSize := toInt (sizeOf (BitVec.ofInt w stride))
      pBuffer := ![0, BitVec.ofInt 64 chroma, 0, 0]
      pStride := ![stride, stride, 0, 0] }

/-- The layout of a frame, or `none` if an `int` overflows. -/
def layout (nWidth nHeight : BitVec w) : ColorSpaceType → Option (Except QResult Layout)
  | .nv12 => (semiPlanar (fun stride => stride * nHeight * 3 / 2) nWidth nHeight).map .ok
  | .nv16 => (semiPlanar (fun stride => stride * nHeight * 2) nWidth nHeight).map .ok
  | .y444 => (packed 3 nWidth nHeight).map .ok
  | .rgba => (packed 4 nWidth nHeight).map .ok
  | .other => some (.error .errorInvalidParameter)

end Layout

/-- A buffer with the frame in it: the bytes allocated, the address that it is mapped at, and the
plane pointers and strides. -/
structure RcBuffer where
  nSize : Int
  mapping : Option (BitVec 64)
  pBuffer : Fin 4 → BitVec 64
  pStride : Fin 4 → Int

/-- The buffer of a layout, not yet mapped. -/
def Layout.buffer (l : Layout) : RcBuffer :=
  { nSize := l.nSize, mapping := none, pBuffer := l.pBuffer, pStride := l.pStride }

/-- `new_video_qdmabuf`, where `new_qdmabuf` returns `alloc`. -/
def newVideoQdmabuf {w : Nat} (alloc : QResult) (nWidth nHeight : BitVec w)
    (nColorSpaceType : ColorSpaceType) : Option (Except QResult RcBuffer) := do
  match ← layout nWidth nHeight nColorSpaceType with
  | .error qres => pure (.error qres)
  | .ok l => if alloc ≠ .successful then pure (.error alloc) else pure (.ok l.buffer)

/-! ## Room for the planes -/

/-- The planes that a colour space has: which one, its rows and the bytes of one. -/
def ColorSpaceType.planes (width height : Nat) : ColorSpaceType → List (Fin 4 × Nat × Nat)
  | .nv12 => [(0, height, width), (1, (height + 1) / 2, (width + 1) / 2 * 2)]
  | .nv16 => [(0, height, width), (1, height, (width + 1) / 2 * 2)]
  | .y444 => [(0, height, width * 3)]
  | .rgba => [(0, height, width * 4)]
  | .other => []

def RcBuffer.planes (b : RcBuffer) (width height : Nat) (cs : ColorSpaceType) : List Plane :=
  (cs.planes width height).map fun (i, rows, rowBytes) =>
    { offset := (b.pBuffer i).toNat
      stride := (b.pStride i).toNat
      rows := rows
      rowBytes := rowBytes }

/-- Every row of every plane lies in the buffer, and each plane ends before the next one. -/
structure Room (b : RcBuffer) (planes : List Plane) : Prop where
  inside : ∀ p ∈ planes, p.EndsBy b.nSize.toNat
  apart : planes.Pairwise fun p q => p.EndsBy q.offset

section Align

theorem int32_eq {x : Int} (h : -2 ^ 31 ≤ x ∧ x < 2 ^ 31) : int32 x = some x := if_pos h

/-- `align` rounds up, where the sum does not overflow. -/
theorem align_eq {x k : Nat} (hk : k < 31) (h : x + 2 ^ k < 2 ^ 31) :
    align x (2 ^ k : Nat) = some ((roundUp (2 ^ k) x : Nat) : Int) := by
  have hpos := Nat.two_pow_pos k
  have htop : ((x : Int) + (2 ^ k : Nat) - 1) = ((x + 2 ^ k - 1 : Nat) : Int) := by omega
  have hlow : (((2 ^ k : Nat) : Int) - 1) = ((2 ^ k - 1 : Nat) : Int) := by omega
  have hround : ((BitVec.ofNat 32 (x + 2 ^ k - 1)) &&& ~~~BitVec.ofNat 32 (2 ^ k - 1)).toNat
      = roundUp (2 ^ k) x := by
    rw [toNat_and_not_mask _ (by omega), BitVec.toNat_ofNat, Nat.mod_eq_of_lt (by omega), roundUp]
  have hlt := roundUp_lt hpos x
  unfold align
  rw [int32_eq (by omega)]
  simp only [Option.bind_eq_bind, Option.bind_some]
  rw [htop, hlow, int32_eq (by omega), int32_eq (by omega)]
  simp only [Option.bind_some, BitVec.ofInt_natCast, Option.pure_def]
  rw [BitVec.toInt_eq_toNat_of_lt (by omega), hround]

theorem align_sixteen {x : Nat} (h : x < 2 ^ 30) : align x 16 = some ((roundUp 16 x : Nat) : Int) :=
  align_eq (k := 4) (by decide) (by omega)

end Align

section Sizes

variable {w : Nat} {nWidth nHeight : BitVec w}

theorem toInt_eq {x : BitVec w} (h : x.toNat < 2 ^ 31) : toInt x = x.toNat := by
  have hnarrow : (x.setWidth 32).toNat = x.toNat := by
    rw [BitVec.toNat_setWidth, Nat.mod_eq_of_lt (by omega)]
  rw [toInt, BitVec.toInt_eq_toNat_of_lt (by omega), hnarrow]

/-- A number below `2 ^ 32` as a `ULONG`. -/
theorem toNat_ofNat_small (hw : 32 ≤ w) {n : Nat} (h : n < 2 ^ 32) : (BitVec.ofNat w n).toNat = n :=
  (BitVec.toNat_ofNat _ _).trans
    (Nat.mod_eq_of_lt (h.trans_le (Nat.pow_le_pow_right (by decide) hw)))

theorem toNat_mul_small (hw : 32 ≤ w) {x y : BitVec w} (h : x.toNat * y.toNat < 2 ^ 32) :
    (x * y).toNat = x.toNat * y.toNat :=
  BitVec.toNat_mul_of_lt (h.trans_le (Nat.pow_le_pow_right (by decide) hw))

theorem packed_eq (hw : 32 ≤ w) (hwidth : nWidth.toNat ≤ 16384) (hheight : nHeight.toNat ≤ 16384)
    {n : Nat} (hn : n ≤ 4) :
    packed (BitVec.ofNat w n) nWidth nHeight = some
      { nSize := (roundUp 16 (nWidth.toNat * n) * nHeight.toNat : Nat)
        pBuffer := fun _ => 0
        pStride := ![(roundUp 16 (nWidth.toNat * n) : Nat), 0, 0, 0] } := by
  have hrow : nWidth.toNat * n ≤ 16384 * 4 := Nat.mul_le_mul hwidth hn
  have hbytes : (nWidth * BitVec.ofNat w n).toNat = nWidth.toNat * n := by
    have hsmall := toNat_ofNat_small hw (show n < 2 ^ 32 by omega)
    rw [toNat_mul_small hw (by rw [hsmall]; omega), hsmall]
  have hstride := roundUp_lt (show 0 < 16 by decide) (nWidth.toNat * n)
  have hsize : roundUp 16 (nWidth.toNat * n) * nHeight.toNat ≤ 65551 * 16384 :=
    Nat.mul_le_mul (by omega) hheight
  unfold packed
  rw [toInt_eq (by omega), toInt_eq (by omega), hbytes, align_sixteen (by omega)]
  rw [Option.bind_eq_bind, Option.bind_some, ← Int.natCast_mul, int32_eq (by omega)]
  rfl

theorem semiPlanar_eq (hwidth : nWidth.toNat ≤ 16384)
    (hheight : nHeight.toNat ≤ 16384) (sizeOf : BitVec w → BitVec w) :
    semiPlanar sizeOf nWidth nHeight = some
      { nSize := toInt (sizeOf (BitVec.ofNat w (roundUp 16 nWidth.toNat)))
        pBuffer := ![0, BitVec.ofNat 64 (roundUp 16 nWidth.toNat * nHeight.toNat), 0, 0]
        pStride := ![(roundUp 16 nWidth.toNat : Nat), (roundUp 16 nWidth.toNat : Nat), 0, 0] } := by
  have hstride := roundUp_lt (show 0 < 16 by decide) nWidth.toNat
  have hsize : roundUp 16 nWidth.toNat * nHeight.toNat ≤ 16400 * 16384 :=
    Nat.mul_le_mul (by omega) hheight
  unfold semiPlanar
  rw [toInt_eq (by omega), toInt_eq (by omega), align_sixteen (by omega)]
  rw [Option.bind_eq_bind, Option.bind_some, ← Int.natCast_mul, int32_eq (by omega)]
  rfl

/-- The area of a plane fits an `int` three times over. -/
theorem area_le (hwidth : nWidth.toNat ≤ 16384) (hheight : nHeight.toNat ≤ 16384) :
    roundUp 16 nWidth.toNat * nHeight.toNat ≤ 2 ^ 29 := by
  have hstride := roundUp_lt (show 0 < 16 by decide) nWidth.toNat
  exact (Nat.mul_le_mul (show _ ≤ 16400 by omega) hheight).trans (by decide)

theorem toNat_area (hw : 32 ≤ w) (hwidth : nWidth.toNat ≤ 16384) (hheight : nHeight.toNat ≤ 16384) :
    (BitVec.ofNat w (roundUp 16 nWidth.toNat) * nHeight).toNat
      = roundUp 16 nWidth.toNat * nHeight.toNat := by
  have harea := area_le hwidth hheight
  have hstride := roundUp_lt (show 0 < 16 by decide) nWidth.toNat
  have hsmall := toNat_ofNat_small hw (show roundUp 16 nWidth.toNat < 2 ^ 32 by omega)
  rw [toNat_mul_small hw (by rw [hsmall]; omega), hsmall]

theorem size_nv16 (hw : 32 ≤ w) (hwidth : nWidth.toNat ≤ 16384) (hheight : nHeight.toNat ≤ 16384) :
    toInt (BitVec.ofNat w (roundUp 16 nWidth.toNat) * nHeight * 2)
      = (roundUp 16 nWidth.toNat * nHeight.toNat * 2 : Nat) := by
  have harea := area_le hwidth hheight
  have hmul : (BitVec.ofNat w (roundUp 16 nWidth.toNat) * nHeight * 2).toNat
      = roundUp 16 nWidth.toNat * nHeight.toNat * 2 := by
    have htwo : (2 : BitVec w).toNat = 2 := toNat_ofNat_small hw (by decide)
    rw [toNat_mul_small hw (by rw [toNat_area hw hwidth hheight, htwo]; omega),
      toNat_area hw hwidth hheight, htwo]
  rw [toInt_eq (by omega), hmul]

theorem size_nv12 (hw : 32 ≤ w) (hwidth : nWidth.toNat ≤ 16384) (hheight : nHeight.toNat ≤ 16384) :
    toInt (BitVec.ofNat w (roundUp 16 nWidth.toNat) * nHeight * 3 / 2)
      = (roundUp 16 nWidth.toNat * nHeight.toNat * 3 / 2 : Nat) := by
  have harea := area_le hwidth hheight
  have hdiv : (BitVec.ofNat w (roundUp 16 nWidth.toNat) * nHeight * 3 / 2).toNat
      = roundUp 16 nWidth.toNat * nHeight.toNat * 3 / 2 := by
    have htwo : (2 : BitVec w).toNat = 2 := toNat_ofNat_small hw (by decide)
    have hthree : (3 : BitVec w).toNat = 3 := toNat_ofNat_small hw (by decide)
    rw [BitVec.toNat_udiv,
      toNat_mul_small hw (by rw [toNat_area hw hwidth hheight, hthree]; omega),
      toNat_area hw hwidth hheight, htwo, hthree]
  rw [toInt_eq (by omega), hdiv]

end Sizes

/-! ## The rows of each colour space -/

section Rows

variable {width height : Nat}

/-- A chroma row is no longer than a luma stride. -/
theorem chroma_le (width : Nat) : (width + 1) / 2 * 2 ≤ roundUp 16 width := by
  have hle := le_roundUp (show 0 < 16 by decide) width
  obtain ⟨m, hm⟩ := dvd_roundUp 16 width
  omega

/-- The planes of a semi-planar frame: luma, and `rows` rows of chroma behind it. -/
theorem luma_endsBy {stop : Nat} (h : roundUp 16 width * height ≤ stop) :
    Plane.EndsBy ⟨0, roundUp 16 width, height, width⟩ stop := by
  refine Plane.endsBy_of_le (le_roundUp (by decide) width) ?_
  show 0 + height * roundUp 16 width ≤ stop
  rw [Nat.zero_add, Nat.mul_comm]
  exact h

/-- Half a plane of chroma has room for all of its rows exactly if their number is not rounded up,
or if half a stride is as long as a row. -/
theorem nv12_chroma_endsBy_iff (hwidth : 1 ≤ width) (hheight : 1 ≤ height) :
    Plane.EndsBy ⟨roundUp 16 width * height, roundUp 16 width, (height + 1) / 2,
        (width + 1) / 2 * 2⟩ (roundUp 16 width * height * 3 / 2) ↔ 2 ∣ height ∨ width ≤ 8 := by
  obtain ⟨n, hn⟩ : ∃ n, (height + 1) / 2 = n + 1 := ⟨(height + 1) / 2 - 1, by omega⟩
  have hle := le_roundUp (show 0 < 16 by decide) width
  have hlt := roundUp_lt (show 0 < 16 by decide) width
  obtain ⟨m, hm⟩ := dvd_roundUp 16 width
  rw [Plane.endsBy_iff (n := n) hn, hm]
  show 16 * m * height + n * (16 * m) + (width + 1) / 2 * 2 ≤ _ ↔ _
  rcases Nat.even_or_odd' height with ⟨k, rfl | rfl⟩
  · obtain rfl : k = n + 1 := by omega
    have hluma : 16 * m * (2 * (n + 1)) = 32 * (m * n) + 32 * m := by ring
    have hchroma : n * (16 * m) = 16 * (m * n) := by ring
    rw [hluma, hchroma]
    omega
  · obtain rfl : k = n := by omega
    have hluma : 16 * m * (2 * k + 1) = 32 * (m * k) + 16 * m := by ring
    have hchroma : k * (16 * m) = 16 * (m * k) := by ring
    rw [hluma, hchroma]
    omega

end Rows

/-- No `int` overflows, and the buffer that is allocated has room for the planes. -/
def Fits {w : Nat} (nWidth nHeight : BitVec w) (cs : ColorSpaceType) : Prop :=
  ∃ b, newVideoQdmabuf .successful nWidth nHeight cs = some (.ok b) ∧
    Room b (b.planes nWidth.toNat nHeight.toNat cs)

section Fits

variable {w : Nat} {nWidth nHeight : BitVec w} {cs : ColorSpaceType}

theorem fits_iff {l : Layout} (h : layout nWidth nHeight cs = some (.ok l)) :
    Fits nWidth nHeight cs ↔ Room l.buffer (l.buffer.planes nWidth.toNat nHeight.toNat cs) := by
  have hnew : newVideoQdmabuf .successful nWidth nHeight cs = some (.ok l.buffer) := by
    rw [newVideoQdmabuf, h]
    rfl
  constructor
  · rintro ⟨b, hb, hroom⟩
    obtain rfl := Except.ok.inj (Option.some.inj (hnew.symm.trans hb))
    exact hroom
  · intro hroom
    exact ⟨l.buffer, hnew, hroom⟩

/-- A single plane fits. -/
theorem room_packed {b : RcBuffer} {stride height rowBytes : Nat} (hbytes : rowBytes ≤ stride)
    (hsize : b.nSize = (stride * height : Nat)) : Room b [⟨0, stride, height, rowBytes⟩] := by
  refine ⟨fun p hp => ?_, List.pairwise_singleton _ _⟩
  obtain rfl := List.mem_singleton.mp hp
  refine Plane.endsBy_of_le hbytes ?_
  show 0 + height * stride ≤ b.nSize.toNat
  rw [hsize, Int.toNat_natCast, Nat.zero_add, Nat.mul_comm]

/-- Luma always fits, so that it is all about chroma. -/
theorem room_semiPlanar_iff {b : RcBuffer} {width height rows size : Nat}
    (hsize : b.nSize = (size : Nat)) (hle : roundUp 16 width * height ≤ size) :
    Room b [⟨0, roundUp 16 width, height, width⟩,
        ⟨roundUp 16 width * height, roundUp 16 width, rows, (width + 1) / 2 * 2⟩] ↔
      Plane.EndsBy ⟨roundUp 16 width * height, roundUp 16 width, rows, (width + 1) / 2 * 2⟩
        size := by
  have hstop : b.nSize.toNat = size := by rw [hsize, Int.toNat_natCast]
  constructor
  · intro h
    rw [← hstop]
    exact h.inside _ (List.mem_cons_of_mem _ (List.mem_singleton_self _))
  · intro h
    refine ⟨fun p hp => ?_, ?_⟩
    · rw [hstop]
      rcases List.mem_cons.mp hp with rfl | hp
      · exact luma_endsBy hle
      · obtain rfl := List.mem_singleton.mp hp
        exact h
    · refine List.pairwise_cons.mpr ⟨fun q hq => ?_, List.pairwise_singleton _ _⟩
      obtain rfl := List.mem_singleton.mp hq
      exact luma_endsBy le_rfl

/-- The planes of a semi-planar frame, as its buffer describes them. -/
theorem planes_semiPlanar {nSize : Int} {rows rowBytes : Nat} (hwidth : nWidth.toNat ≤ 16384)
    (hheight : nHeight.toNat ≤ 16384)
    (hcs : cs.planes nWidth.toNat nHeight.toNat
      = [(0, nHeight.toNat, nWidth.toNat), (1, rows, rowBytes)]) :
    (Layout.buffer
        { nSize := nSize
          pBuffer := ![0, BitVec.ofNat 64 (roundUp 16 nWidth.toNat * nHeight.toNat), 0, 0]
          pStride := ![(roundUp 16 nWidth.toNat : Nat), (roundUp 16 nWidth.toNat : Nat), 0, 0] }
      ).planes nWidth.toNat nHeight.toNat cs =
      [⟨0, roundUp 16 nWidth.toNat, nHeight.toNat, nWidth.toNat⟩,
        ⟨roundUp 16 nWidth.toNat * nHeight.toNat, roundUp 16 nWidth.toNat, rows, rowBytes⟩] := by
  have harea := area_le hwidth hheight
  have hoffset : (BitVec.ofNat 64 (roundUp 16 nWidth.toNat * nHeight.toNat)).toNat
      = roundUp 16 nWidth.toNat * nHeight.toNat := by
    rw [BitVec.toNat_ofNat, Nat.mod_eq_of_lt (by omega)]
  rw [RcBuffer.planes, hcs]
  simp [Layout.buffer, hoffset]

/-- **A frame has room for its planes exactly if it is not an `NV12` frame of odd height, wider than
eight pixels.** -/
theorem fits_iff_even_or_narrow (hw : 32 ≤ w) (hwidth : 1 ≤ nWidth.toNat ∧ nWidth.toNat ≤ 16384)
    (hheight : 1 ≤ nHeight.toNat ∧ nHeight.toNat ≤ 16384) (hcs : cs ≠ .other) :
    Fits nWidth nHeight cs ↔ (cs = .nv12 → 2 ∣ nHeight.toNat ∨ nWidth.toNat ≤ 8) := by
  cases cs with
  | nv12 =>
      have hlayout := semiPlanar_eq hwidth.2 hheight.2 (fun stride => stride * nHeight * 3 / 2)
      rw [size_nv12 hw hwidth.2 hheight.2] at hlayout
      rw [fits_iff (by rw [layout, hlayout]; rfl), planes_semiPlanar hwidth.2 hheight.2 rfl,
        room_semiPlanar_iff rfl (by omega), nv12_chroma_endsBy_iff hwidth.1 hheight.1]
      exact ⟨fun h _ => h, fun h => h rfl⟩
  | nv16 =>
      have hlayout := semiPlanar_eq hwidth.2 hheight.2 (fun stride => stride * nHeight * 2)
      rw [size_nv16 hw hwidth.2 hheight.2] at hlayout
      rw [fits_iff (by rw [layout, hlayout]; rfl), planes_semiPlanar hwidth.2 hheight.2 rfl,
        room_semiPlanar_iff rfl (by omega)]
      refine ⟨nofun, fun _ => Plane.endsBy_of_le (chroma_le _) ?_⟩
      show roundUp 16 nWidth.toNat * nHeight.toNat + nHeight.toNat * roundUp 16 nWidth.toNat ≤ _
      rw [Nat.mul_comm nHeight.toNat]
      omega
  | y444 =>
      have hlayout := packed_eq hw hwidth.2 hheight.2 (show 3 ≤ 4 by decide)
      rw [fits_iff (by rw [layout]; exact congrArg _ hlayout)]
      exact ⟨nofun, fun _ => room_packed (le_roundUp (by decide) _) rfl⟩
  | rgba =>
      have hlayout := packed_eq hw hwidth.2 hheight.2 (show 4 ≤ 4 by decide)
      rw [fits_iff (by rw [layout]; exact congrArg _ hlayout)]
      exact ⟨nofun, fun _ => room_packed (le_roundUp (by decide) _) rfl⟩
  | other => exact absurd rfl hcs

end Fits

theorem fits_iff_even_or_narrow_hd :
    Fits (1920 : BitVec 32) 1080 .nv12 ↔ (ColorSpaceType.nv12 = .nv12 →
      2 ∣ (1080 : BitVec 32).toNat ∨ (1920 : BitVec 32).toNat ≤ 8) :=
  fits_iff_even_or_narrow (by decide) (by decide) (by decide) (by decide)

/-- The last chroma row of an odd height ends half a stride beyond the buffer. -/
theorem not_fits :
    ¬ ∀ (w : Nat) (nWidth nHeight : BitVec w) (cs : ColorSpaceType), 32 ≤ w →
      1 ≤ nWidth.toNat ∧ nWidth.toNat ≤ 16384 → 1 ≤ nHeight.toNat ∧ nHeight.toNat ≤ 16384 →
      cs ≠ .other → Fits nWidth nHeight cs := by
  intro h
  obtain ⟨b, hb, hroom⟩ := h 32 1920 1081 .nv12 (by decide) (by decide) (by decide) (by decide)
  have hsize : (newVideoQdmabuf .successful (1920 : BitVec 32) 1081 .nv12).map
      (fun r => r.toOption.map fun b => (b.nSize, b.pBuffer 1, b.pStride 1))
        = some (some (3113280, 2075520, 1920)) := by decide +kernel
  rw [hb] at hsize
  simp only [Option.map_some, Except.toOption, Option.some.injEq, Prod.mk.injEq] at hsize
  obtain ⟨hnSize, hoffset, hstride⟩ := hsize
  have hlast := hroom.inside _ (List.mem_cons_of_mem _ (List.mem_singleton_self _)) 540
    (show 540 < 541 by decide)
  rw [hnSize] at hlast
  simp only [hoffset, hstride] at hlast
  exact absurd hlast (by decide)

/-! ## Mapping -/

/-- What the calls of `map_video_qdmabuf` return: mapping the buffer, the address that it is mapped
at, and `qcap2_rcbuffer_get_qdmabuf`. -/
structure MapCalls where
  map : QResult
  virAddr : BitVec 64
  get : QResult

/-- What the calls of `unmap_video_qdmabuf` return. `noAddr` is the `pVirAddr` of a buffer that is
not mapped. -/
structure UnmapCalls where
  get : QResult
  noAddr : BitVec 64
  unmap : QResult

def mapVideoQdmabuf (calls : MapCalls) (b : RcBuffer) : QResult × RcBuffer :=
  if calls.map ≠ .successful then (calls.map, b)
  else
    let mapped := { b with mapping := some calls.virAddr }
    -- the buffer stays mapped
    if calls.get ≠ .successful then (calls.get, mapped)
    else (.successful, { mapped with pBuffer := fun i => b.pBuffer i + calls.virAddr })

def unmapVideoQdmabuf (calls : UnmapCalls) (b : RcBuffer) : QResult × RcBuffer :=
  if calls.get ≠ .successful then (calls.get, b)
  else
    let virAddr := b.mapping.getD calls.noAddr
    let rebased := { b with pBuffer := fun i => b.pBuffer i - virAddr }
    -- the planes are offsets again, although the buffer is still mapped
    if calls.unmap ≠ .successful then (calls.unmap, rebased)
    else (.successful, { rebased with mapping := none })

/-- What mapping and unmapping are meant to do. -/
structure Reversible (m : MapCalls) (u : UnmapCalls) (b : RcBuffer) : Prop where
  inverse : (mapVideoQdmabuf m b).1 = .successful →
    (unmapVideoQdmabuf u (mapVideoQdmabuf m b).2).1 = .successful →
    (unmapVideoQdmabuf u (mapVideoQdmabuf m b).2).2.pBuffer = b.pBuffer
  map : (mapVideoQdmabuf m b).1 ≠ .successful → (mapVideoQdmabuf m b).2 = b
  unmap : (unmapVideoQdmabuf u b).1 ≠ .successful → (unmapVideoQdmabuf u b).2 = b

section Map

variable {m : MapCalls} {u : UnmapCalls} {b : RcBuffer}

theorem mapVideoQdmabuf_successful :
    (mapVideoQdmabuf m b).1 = .successful ↔ m.map = .successful ∧ m.get = .successful := by
  unfold mapVideoQdmabuf
  by_cases hmap : m.map = .successful
  · by_cases hget : m.get = .successful <;> simp [hmap, hget]
  · simp [hmap]

theorem unmapVideoQdmabuf_successful :
    (unmapVideoQdmabuf u b).1 = .successful ↔ u.get = .successful ∧ u.unmap = .successful := by
  unfold unmapVideoQdmabuf
  by_cases hget : u.get = .successful
  · by_cases hunmap : u.unmap = .successful <;> simp [hget, hunmap]
  · simp [hget]

/-- A successful pair of calls takes off what it has added. -/
theorem unmap_map (hmap : (mapVideoQdmabuf m b).1 = .successful)
    (hunmap : (unmapVideoQdmabuf u (mapVideoQdmabuf m b).2).1 = .successful) :
    (unmapVideoQdmabuf u (mapVideoQdmabuf m b).2).2 = { b with mapping := none } := by
  obtain ⟨hm, hg⟩ := mapVideoQdmabuf_successful.mp hmap
  obtain ⟨hg', hu⟩ := unmapVideoQdmabuf_successful.mp hunmap
  simp only [unmapVideoQdmabuf, hg', hu, mapVideoQdmabuf, hm, hg, ne_eq, not_true_eq_false,
    if_false, Option.getD_some, BitVec.add_sub_cancel]

/-- A map that fails leaves the buffer mapped if only the second call fails. -/
theorem map_atomic_iff :
    ((mapVideoQdmabuf m b).1 ≠ .successful → (mapVideoQdmabuf m b).2 = b) ↔
      (m.map = .successful → m.get = .successful ∨ b.mapping = some m.virAddr) := by
  unfold mapVideoQdmabuf
  by_cases hmap : m.map = .successful
  · by_cases hget : m.get = .successful
    · simp [hmap, hget]
    · have hsame : { b with mapping := some m.virAddr } = b ↔ b.mapping = some m.virAddr := by
        constructor
        · intro h
          exact (congrArg RcBuffer.mapping h).symm
        · intro h
          rw [← h]
      simp [hmap, hget, hsame]
  · simp [hmap]

theorem unmap_atomic_iff :
    ((unmapVideoQdmabuf u b).1 ≠ .successful → (unmapVideoQdmabuf u b).2 = b) ↔
      (u.get = .successful → u.unmap = .successful ∨ b.mapping.getD u.noAddr = 0) := by
  unfold unmapVideoQdmabuf
  by_cases hget : u.get = .successful
  · by_cases hunmap : u.unmap = .successful
    · simp [hget, hunmap]
    · have hsame : { b with pBuffer := fun i => b.pBuffer i - b.mapping.getD u.noAddr } = b ↔
          b.mapping.getD u.noAddr = 0 := by
        constructor
        · intro h
          have hzero : b.pBuffer 0 - b.mapping.getD u.noAddr = b.pBuffer 0 :=
            congrFun (congrArg RcBuffer.pBuffer h) 0
          rw [BitVec.sub_eq_iff_eq_add] at hzero
          exact BitVec.self_eq_add_right.mp hzero
        · intro h
          rw [h]
          simp
      simp [hget, hunmap, hsame]
  · simp [hget]

end Map

/-- **Mapping and unmapping are inverse to each other, and atomic exactly if no call fails after
another one has succeeded.** The exceptions change nothing: a buffer that was mapped at the same
address before, and an address of 0. -/
theorem reversible_iff (m : MapCalls) (u : UnmapCalls) (b : RcBuffer) :
    Reversible m u b ↔
      (m.map = .successful → m.get = .successful ∨ b.mapping = some m.virAddr) ∧
      (u.get = .successful → u.unmap = .successful ∨ b.mapping.getD u.noAddr = 0) := by
  rw [← map_atomic_iff, ← unmap_atomic_iff]
  constructor
  · intro h
    exact ⟨h.map, h.unmap⟩
  · rintro ⟨hmap, hunmap⟩
    refine ⟨fun hm hu => ?_, hmap, hunmap⟩
    rw [unmap_map hm hu]

/-- The buffer is mapped, but it cannot be got. -/
theorem not_reversible :
    ¬ ∀ (m : MapCalls) (u : UnmapCalls) (b : RcBuffer), Reversible m u b := by
  intro h
  have hatomic := (h ⟨.successful, 4096, .failed 1⟩ ⟨.successful, 0, .successful⟩
    (Layout.buffer ⟨8294400, fun _ => 0, ![7680, 0, 0, 0]⟩)).map nofun
  exact absurd (congrArg RcBuffer.mapping hatomic) nofun

end QcapDemos.Zz
