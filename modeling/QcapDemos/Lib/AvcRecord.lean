import Mathlib.Data.List.Basic
import Mathlib.Data.UInt

set_option autoImplicit false

/-! # AVC decoder configuration records

The record that tells a decoder the parameter sets of a stream: version, profile, compatibility
and level, the size of the length fields of its samples, and the parameter sets, each after a
length of 16 bits. This is the form of the record that every profile has, without the fields that
may follow in the high profiles. `parse` is the reader of the format and accepts a record only as
a whole; `parse_bytes` is the round trip.
-/

namespace QcapDemos.Lib

structure AvcRecord where
  profile : UInt8
  compatibility : UInt8
  level : UInt8
  lengthSizeMinusOne : Nat
  sps : List (List UInt8)
  pps : List (List UInt8)
deriving DecidableEq

namespace AvcRecord

/-- What the fields of the format can hold. -/
structure Fits (r : AvcRecord) : Prop where
  lengthSize : r.lengthSizeMinusOne < 4
  spsCount : r.sps.length < 32
  ppsCount : r.pps.length < 256
  spsSize : ∀ set ∈ r.sps, set.length < 2 ^ 16
  ppsSize : ∀ set ∈ r.pps, set.length < 2 ^ 16

/-! ## Writing -/

def sizeBytes (size : Nat) : List UInt8 := [UInt8.ofNat (size >>> 8), UInt8.ofNat size]

def setBytes (set : List UInt8) : List UInt8 := sizeBytes set.length ++ set

def bytes (r : AvcRecord) : List UInt8 :=
  [1, r.profile, r.compatibility, r.level, 0xfc ||| UInt8.ofNat r.lengthSizeMinusOne,
    0xe0 ||| UInt8.ofNat r.sps.length] ++ r.sps.flatMap setBytes ++
    UInt8.ofNat r.pps.length :: r.pps.flatMap setBytes

/-! ## Reading -/

def parseSets : Nat → List UInt8 → Option (List (List UInt8) × List UInt8)
  | 0, rest => some ([], rest)
  | n + 1, hi :: lo :: rest =>
      let size := hi.toNat * 256 + lo.toNat
      if size ≤ rest.length then
        (parseSets n (rest.drop size)).map fun x => (rest.take size :: x.1, x.2)
      else none
  | _ + 1, _ => none

/-- Reserved bits are ones, and nothing is left at the end. -/
def parse : List UInt8 → Option AvcRecord
  | 1 :: profile :: compatibility :: level :: lengthSize :: count :: rest =>
      if lengthSize &&& 0xfc = 0xfc ∧ count &&& 0xe0 = 0xe0 then do
        let (sps, rest) ← parseSets (count &&& 0x1f).toNat rest
        match rest with
        | [] => none
        | count :: rest =>
            let (pps, rest) ← parseSets count.toNat rest
            if rest = [] then
              pure { profile := profile
                     compatibility := compatibility
                     level := level
                     lengthSizeMinusOne := (lengthSize &&& 3).toNat
                     sps := sps
                     pps := pps }
            else none
      else none
  | _ => none

/-! ## The round trip -/

theorem sizeBytes_value {size : Nat} (h : size < 2 ^ 16) :
    (UInt8.ofNat (size >>> 8)).toNat * 256 + (UInt8.ofNat size).toNat = size := by
  rw [UInt8.toNat_ofNat', UInt8.toNat_ofNat', Nat.shiftRight_eq_div_pow]
  omega

theorem lengthSize_bits : ∀ n < 4, (0xfc ||| UInt8.ofNat n) &&& 0xfc = 0xfc ∧
    ((0xfc ||| UInt8.ofNat n) &&& 3).toNat = n := by decide

theorem count_bits : ∀ n < 32, (0xe0 ||| UInt8.ofNat n) &&& 0xe0 = 0xe0 ∧
    ((0xe0 ||| UInt8.ofNat n) &&& 0x1f).toNat = n := by decide

/-- The sets that were written are read back, whatever follows them. -/
theorem parseSets_append (sets : List (List UInt8)) (rest : List UInt8)
    (h : ∀ set ∈ sets, set.length < 2 ^ 16) :
    parseSets sets.length (sets.flatMap setBytes ++ rest) = some (sets, rest) := by
  induction sets with
  | nil => rfl
  | cons set sets ih =>
      have hset := h set List.mem_cons_self
      have hsets := ih fun s hs => h s (List.mem_cons_of_mem set hs)
      show parseSets (sets.length + 1) (UInt8.ofNat (set.length >>> 8) :: UInt8.ofNat set.length ::
        (set ++ sets.flatMap setBytes ++ rest)) = _
      rw [parseSets, sizeBytes_value hset, List.append_assoc, List.drop_left, List.take_left,
        hsets, if_pos (by simp)]
      rfl

/-- **Round trip**: reading the bytes of a record gives the record. -/
theorem parse_bytes (r : AvcRecord) (h : r.Fits) : parse r.bytes = some r := by
  obtain ⟨profile, compatibility, level, lengthSizeMinusOne, sps, pps⟩ := r
  obtain ⟨hlength, hlength'⟩ := lengthSize_bits lengthSizeMinusOne h.lengthSize
  obtain ⟨hcount, hcount'⟩ := count_bits sps.length h.spsCount
  have hpps : (UInt8.ofNat pps.length).toNat = pps.length := by
    rw [UInt8.toNat_ofNat', Nat.mod_eq_of_lt h.ppsCount]
  have hsets := parseSets_append sps
    (UInt8.ofNat pps.length :: pps.flatMap setBytes) h.spsSize
  have hlast := parseSets_append pps [] h.ppsSize
  rw [List.append_nil] at hlast
  show parse (1 :: profile :: compatibility :: level :: _ :: _ ::
    (sps.flatMap setBytes ++ UInt8.ofNat pps.length :: pps.flatMap setBytes)) = _
  rw [parse, if_pos ⟨hlength, hcount⟩, hcount', hsets]
  show (parseSets (UInt8.ofNat pps.length).toNat (pps.flatMap setBytes)).bind _ = _
  rw [hpps, hlast, hlength']
  rfl

end AvcRecord

end QcapDemos.Lib
