import Mathlib.Data.List.Infix
import Mathlib.Data.UInt

set_option autoImplicit false

/-! # Byte streams of NAL units

In a byte stream each NAL unit follows a start code, `00 00 01` or `00 00 00 01`. A unit holds
no start code and does not end with a zero byte, so that a start code can be recognised
wherever it stands: `startPrefix` is the length of the start code at the head of a list of
bytes, and it is zero at every byte of a unit (`NalUnit.startPrefix_inside`).
-/

namespace QcapDemos.Lib.AnnexB

/-- The bytes of a NAL unit. -/
structure NalUnit where
  head : UInt8
  tail : List UInt8
  noStart : ¬ [0, 0, 1] <:+: head :: tail
  closed : (head :: tail).getLast (List.cons_ne_nil _ _) ≠ 0

def NalUnit.bytes (u : NalUnit) : List UInt8 := u.head :: u.tail

/-- The `nal_unit_type`, in the low five bits of the head. -/
def nalType (head : UInt8) : UInt8 := head &&& 0x1f

def startCode (long : Bool) : List UInt8 := if long then [0, 0, 0, 1] else [0, 0, 1]

/-- The length of the start code at the head of the bytes, zero where none stands there. -/
def startPrefix (bytes : List UInt8) : Nat :=
  if bytes.take 3 = [0, 0, 1] then 3
  else if bytes.take 4 = [0, 0, 0, 1] then 4
  else 0

/-- A unit and whether its start code is the long one. -/
structure Framed where
  long : Bool
  unit : NalUnit

def Framed.bytes (f : Framed) : List UInt8 := startCode f.long ++ f.unit.bytes

/-- The byte stream of a list of units. -/
def serialize (units : List Framed) : List UInt8 := units.flatMap Framed.bytes

@[simp] theorem serialize_nil : serialize [] = [] := rfl

@[simp] theorem serialize_cons (f : Framed) (units : List Framed) :
    serialize (f :: units) = f.bytes ++ serialize units := rfl

@[simp] theorem startPrefix_nil : startPrefix [] = 0 := rfl

theorem startPrefix_startCode (long : Bool) (rest : List UInt8) :
    startPrefix (startCode long ++ rest) = (startCode long).length := by
  cases long with
  | false => simp [startPrefix, startCode]
  | true => simp [startPrefix, startCode]

theorem startPrefix_ne_zero {bytes : List UInt8} :
    startPrefix bytes ≠ 0 ↔ [0, 0, 1] <+: bytes ∨ [0, 0, 0, 1] <+: bytes := by
  unfold startPrefix
  by_cases h3 : bytes.take 3 = [0, 0, 1]
  · have hprefix : [0, 0, 1] <+: bytes := h3 ▸ List.take_prefix 3 bytes
    simp [h3, hprefix]
  by_cases h4 : bytes.take 4 = [0, 0, 0, 1]
  · have hprefix : [0, 0, 0, 1] <+: bytes := h4 ▸ List.take_prefix 4 bytes
    simp [h3, h4, hprefix]
  · rw [if_neg h3, if_neg h4]
    refine ⟨fun h => absurd rfl h, ?_⟩
    rintro (h | h)
    · exact absurd (List.prefix_iff_eq_take.mp h).symm h3
    · exact absurd (List.prefix_iff_eq_take.mp h).symm h4

/-- A start code at the head of the bytes is one of the two, and is recognised as it is. -/
theorem startCode_of_startPrefix {bytes : List UInt8} {n : Nat}
    (h : startPrefix bytes = n + 1) :
    ∃ long rest, bytes = startCode long ++ rest ∧ (startCode long).length = n + 1 := by
  have hne : startPrefix bytes ≠ 0 := by omega
  have hcode : ∃ long rest, bytes = startCode long ++ rest := by
    rcases startPrefix_ne_zero.mp hne with ⟨rest, hrest⟩ | ⟨rest, hrest⟩
    · exact ⟨false, rest, hrest.symm⟩
    · exact ⟨true, rest, hrest.symm⟩
  obtain ⟨long, rest, rfl⟩ := hcode
  rw [startPrefix_startCode] at h
  exact ⟨long, rest, rfl, h⟩

/-- Inside a unit no start code begins, whatever follows the unit. -/
theorem startPrefix_inside {bytes : List UInt8} (hne : bytes ≠ [])
    (hstart : ¬ [0, 0, 1] <:+: bytes) (hlast : bytes.getLast hne ≠ 0) (rest : List UInt8) :
    startPrefix (bytes ++ rest) = 0 := by
  by_contra h
  -- the bytes of a start code that lie in the unit are zeros, or the start code is all in it
  match bytes, hne, hstart, hlast, h with
  | [a], _, _, hlast, h =>
      rcases startPrefix_ne_zero.mp h with ⟨r, hr⟩ | ⟨r, hr⟩
      · exact hlast (by simpa using (congrArg List.head? hr).symm)
      · exact hlast (by simpa using (congrArg List.head? hr).symm)
  | [a, b], _, _, hlast, h =>
      rcases startPrefix_ne_zero.mp h with ⟨r, hr⟩ | ⟨r, hr⟩
      · exact hlast (by simpa using (List.cons.inj (List.cons.inj hr).2).1.symm)
      · exact hlast (by simpa using (List.cons.inj (List.cons.inj hr).2).1.symm)
  | a :: b :: c :: l, _, hstart, hlast, h =>
      rcases startPrefix_ne_zero.mp h with ⟨r, hr⟩ | ⟨r, hr⟩
      · simp only [List.cons_append, List.cons.injEq] at hr
        obtain ⟨rfl, rfl, rfl, -⟩ := hr
        exact hstart ⟨[], l, rfl⟩
      · simp only [List.cons_append, List.cons.injEq] at hr
        obtain ⟨rfl, rfl, rfl, hl⟩ := hr
        cases l with
        | nil => exact hlast rfl
        | cons d l =>
            rw [List.cons_append, List.cons.injEq] at hl
            obtain ⟨rfl, -⟩ := hl
            exact hstart ⟨[0], l, rfl⟩

/-- What is left of a unit after some of its bytes is free of start codes as well. -/
theorem NalUnit.startPrefix_inside (u : NalUnit) {taken left : List UInt8}
    (h : u.bytes = taken ++ left) (hne : left ≠ []) (rest : List UInt8) :
    startPrefix (left ++ rest) = 0 := by
  refine AnnexB.startPrefix_inside hne ?_ ?_ rest
  · intro hpart
    refine u.noStart (hpart.trans ?_)
    exact ⟨taken, [], by rw [List.append_nil]; exact h.symm⟩
  · have hlast : left.getLast hne = u.bytes.getLast (List.cons_ne_nil _ _) := by
      simp only [h]
      exact (List.getLast_append_of_ne_nil _ hne).symm
    rw [hlast]
    exact u.closed

theorem Framed.four_le_length (f : Framed) : 4 ≤ f.bytes.length := by
  obtain ⟨long, unit⟩ := f
  cases long <;> simp [Framed.bytes, startCode, NalUnit.bytes]

/-! ## Scanning from left to right -/

/-- A scan that is at `i` comes to `j`: it goes on byte by byte, and resumes after each start
code it meets. -/
inductive Visits (bytes : List UInt8) : Nat → Nat → Prop
  | here (i : Nat) : Visits bytes i i
  | next {i j : Nat} : i < bytes.length → startPrefix (bytes.drop i) = 0 →
      Visits bytes (i + 1) j → Visits bytes i j
  | resume {i j : Nat} : startPrefix (bytes.drop i) ≠ 0 →
      Visits bytes (i + startPrefix (bytes.drop i)) j → Visits bytes i j

namespace Visits

variable {bytes : List UInt8} {i j : Nat}

theorem le (h : Visits bytes i j) : i ≤ j := by
  induction h with
  | here i => exact le_rfl
  | next hlt hnone hvisits ih => omega
  | resume hcode hvisits ih => omega

theorem of_succ (hlt : i < bytes.length) (hnone : startPrefix (bytes.drop i) = 0)
    (hcode : startPrefix (bytes.drop j) ≠ 0) : Visits bytes i j ↔ Visits bytes (i + 1) j := by
  constructor
  · intro h
    cases h with
    | here => exact absurd hnone hcode
    | next _ _ hvisits => exact hvisits
    | resume hsome _ => exact absurd hnone hsome
  · exact Visits.next hlt hnone

theorem of_code (hcode : startPrefix (bytes.drop i) ≠ 0) :
    Visits bytes i j ↔ j = i ∨ Visits bytes (i + startPrefix (bytes.drop i)) j := by
  constructor
  · intro h
    cases h with
    | here => exact .inl rfl
    | next _ hnone _ => exact absurd hnone hcode
    | resume _ hvisits => exact .inr hvisits
  · rintro (rfl | hvisits)
    · exact Visits.here _
    · exact Visits.resume hcode hvisits

end Visits

theorem three_le_startPrefix {bytes : List UInt8} (h : startPrefix bytes ≠ 0) :
    3 ≤ startPrefix bytes := by
  unfold startPrefix at h ⊢
  by_cases h3 : bytes.take 3 = [0, 0, 1]
  · rw [if_pos h3]
  · rw [if_neg h3] at h ⊢
    by_cases h4 : bytes.take 4 = [0, 0, 0, 1]
    · rw [if_pos h4]
      decide
    · rw [if_neg h4] at h
      exact absurd rfl h

theorem startPrefix_le_four (bytes : List UInt8) : startPrefix bytes ≤ 4 := by
  unfold startPrefix
  split_ifs
  · decide
  · decide
  · decide

end QcapDemos.Lib.AnnexB
