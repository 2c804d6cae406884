import QcapDemos.Fixture.AnnexB
import QcapDemos.Lib.AvcRecord

set_option autoImplicit false

/-! # The decode fixture: the configuration record of a file

`make_avcc` takes the first sequence and the first picture parameter set of a file and writes
them, field by field and by offset, into a record for the decoder. Reads and writes outside the
vectors fail here.
-/

namespace QcapDemos.Fixture

open QcapDemos.Lib

def UINT16_MAX : Nat := 65535

/-- The vector after `resize`; new elements are zero. -/
def resize (out : List UInt8) (size : Nat) : List UInt8 :=
  out.take size ++ List.replicate (size - out.length) 0

/-- Bytes written from an offset on, all within the vector. -/
def writeAt (out : List UInt8) (offset : Nat) (bytes : List UInt8) : Option (List UInt8) :=
  if offset + bytes.length ≤ out.length then
    some (out.take offset ++ bytes ++ out.drop (offset + bytes.length))
  else none

/-- Writes in their order, each with its offset. -/
def writeAll (out : List UInt8) : List (Nat × List UInt8) → Option (List UInt8)
  | [] => some out
  | (offset, bytes) :: writes => (writeAt out offset bytes).bind fun out => writeAll out writes

/-- The source range of a `memcpy`. -/
def readRange (data : List UInt8) (offset size : Nat) : Option (List UInt8) :=
  if offset + size ≤ data.length then some ((data.drop offset).take size) else none

/-- One turn of the loop that looks for the first unit of type 7 and the first of type 8. -/
def pickSet (acc : Option Nal × Option Nal) (nal : Nal) : Option Nal × Option Nal :=
  (if nal.type = 7 ∧ acc.1.isNone then some nal else acc.1,
    if nal.type = 8 ∧ acc.2.isNone then some nal else acc.2)

/-- The result and the output vector. -/
def makeAvcc (data : List UInt8) (nals : List Nal) (avcc : List UInt8) :
    Option (Bool × List UInt8) :=
  match nals.foldl pickSet (none, none) with
  | (some sps, some pps) =>
      let spsSize := sps.endAt - sps.payload
      let ppsSize := pps.endAt - pps.payload
      if spsSize < 4 ∨ ppsSize < 1 ∨ UINT16_MAX < spsSize ∨ UINT16_MAX < ppsSize then
        some (false, avcc)
      else do
        let profile ← data[sps.payload + 1]?
        let compatibility ← data[sps.payload + 2]?
        let level ← data[sps.payload + 3]?
        let spsBytes ← readRange data sps.payload spsSize
        let ppsBytes ← readRange data pps.payload ppsSize
        let ppsOffset := 8 + spsSize
        let out ← writeAll (resize avcc (11 + spsSize + ppsSize))
          [(0, [1]), (1, [profile]), (2, [compatibility]), (3, [level]), (4, [0xff]),
            (5, [0xe1]), (6, [UInt8.ofNat (spsSize >>> 8)]), (7, [UInt8.ofNat spsSize]),
            (8, spsBytes), (ppsOffset, [1]),
            (ppsOffset + 1, [UInt8.ofNat (ppsSize >>> 8)]),
            (ppsOffset + 2, [UInt8.ofNat ppsSize]), (ppsOffset + 3, ppsBytes)]
        some (true, out)
  | _ => some (false, avcc)

/-! ## Filling a vector -/

/-- Each write begins where the one before ended, the first at `offset`. -/
def Placed : Nat → List (Nat × List UInt8) → Prop
  | _, [] => True
  | offset, (position, bytes) :: writes =>
      position = offset ∧ Placed (offset + bytes.length) writes

theorem length_resize (out : List UInt8) (size : Nat) : (resize out size).length = size := by
  unfold resize
  rw [List.length_append, List.length_take, List.length_replicate]
  omega

/-- Writes that follow each other and end with the vector leave nothing else in it. -/
theorem writeAll_placed (writes : List (Nat × List UInt8)) (done rest : List UInt8)
    (hplaced : Placed done.length writes)
    (hlen : (writes.flatMap Prod.snd).length = rest.length) :
    writeAll (done ++ rest) writes = some (done ++ writes.flatMap Prod.snd) := by
  induction writes generalizing done rest with
  | nil =>
      obtain rfl : rest = [] := List.eq_nil_of_length_eq_zero hlen.symm
      rfl
  | cons w writes ih =>
      obtain ⟨position, bytes⟩ := w
      obtain ⟨rfl, hplaced⟩ := hplaced
      have hbytes : bytes.length + (writes.flatMap Prod.snd).length = rest.length := by
        rw [← hlen, List.flatMap_cons, List.length_append]
      have hin : done.length + bytes.length ≤ (done ++ rest).length := by
        rw [List.length_append]
        omega
      have hwrite : writeAt (done ++ rest) done.length bytes
          = some ((done ++ bytes) ++ rest.drop bytes.length) := by
        rw [writeAt, if_pos hin, List.take_left, List.drop_length_add_append]
      have hrest := ih (done ++ bytes) (rest.drop bytes.length)
        (by rw [List.length_append]; exact hplaced)
        (by rw [List.length_drop]; omega)
      rw [writeAll, hwrite, Option.bind_some, hrest, List.flatMap_cons, List.append_assoc]

/-! ## The first parameter sets -/

theorem foldl_pickSet (nals : List Nal) (acc : Option Nal × Option Nal) :
    nals.foldl pickSet acc
      = (acc.1.or (nals.find? (·.type == 7)), acc.2.or (nals.find? (·.type == 8))) := by
  induction nals generalizing acc with
  | nil => simp
  | cons nal nals ih =>
      rw [List.foldl_cons, ih]
      -- both places of the pair find in the same way
      have hfind (type : UInt8) (first : Option Nal) :
          (if nal.type = type ∧ first.isNone then some nal else first).or
              (nals.find? (·.type == type))
            = first.or ((nal :: nals).find? (·.type == type)) := by
        cases first with
        | some u => simp
        | none =>
            by_cases htype : nal.type = type
            · simp [htype]
            · rw [List.find?_cons_of_neg (by simpa using htype)]
              simp [htype]
      exact Prod.ext (hfind 7 acc.1) (hfind 8 acc.2)

/-- The bytes of a unit after its start code. -/
def Nal.unit (data : List UInt8) (u : Nal) : List UInt8 :=
  (data.drop u.payload).take (u.endAt - u.payload)

/-- The first unit of a type, as the scan found them. -/
def firstOf (nals : List Nal) (type : UInt8) : Option Nal := nals.find? (·.type == type)

/-- The first parameter sets exist and their sizes fit into a record. -/
structure HasSets (data : List UInt8) (nals : List Nal) (sps pps : Nal) : Prop where
  sps_first : firstOf nals 7 = some sps
  pps_first : firstOf nals 8 = some pps
  sps_size : 4 ≤ (sps.unit data).length ∧ (sps.unit data).length ≤ 65535
  pps_size : 1 ≤ (pps.unit data).length ∧ (pps.unit data).length ≤ 65535

/-- The record that holds two parameter sets. -/
def recordOf (sps pps : List UInt8) : AvcRecord where
  profile := sps.getD 1 0
  compatibility := sps.getD 2 0
  level := sps.getD 3 0
  lengthSizeMinusOne := 3
  sps := [sps]
  pps := [pps]

section Units

variable {data : List UInt8} {nals : List Nal}

theorem mem_of_firstOf {type : UInt8} {u : Nal} (h : firstOf nals type = some u) : u ∈ nals :=
  List.mem_of_find?_eq_some h

theorem length_unit (h : AgreesWithReference data nals) {u : Nal} (hu : u ∈ nals) :
    (u.unit data).length = u.endAt - u.payload := by
  have hbounds := h.consecutive.bounds u hu
  have hend := h.consecutive.endAt_le u hu
  unfold Nal.unit
  rw [List.length_take, List.length_drop]
  omega

theorem readRange_unit (h : AgreesWithReference data nals) {u : Nal} (hu : u ∈ nals) :
    readRange data u.payload (u.endAt - u.payload) = some (u.unit data) := by
  have hbounds := h.consecutive.bounds u hu
  have hend := h.consecutive.endAt_le u hu
  unfold readRange
  rw [if_pos (by omega)]
  rfl

/-- A byte of a unit is a byte of the data. -/
theorem getElem?_unit (h : AgreesWithReference data nals) {u : Nal} (hu : u ∈ nals) {k : Nat}
    (hk : k < (u.unit data).length) : data[u.payload + k]? = some ((u.unit data).getD k 0) := by
  rw [length_unit h hu] at hk
  have hend := h.consecutive.endAt_le u hu
  unfold Nal.unit
  rw [List.getD_eq_getElem?_getD, List.getElem?_take_of_lt hk, List.getElem?_drop,
    List.getElem?_eq_getElem (by omega), Option.getD_some]

theorem pick_eq (nals : List Nal) :
    nals.foldl pickSet (none, none) = (firstOf nals 7, firstOf nals 8) := by
  rw [foldl_pickSet]
  rfl

/-- The record of two parameter sets, as the writes lay it out. -/
theorem bytes_recordOf (sps pps : List UInt8) :
    (recordOf sps pps).bytes = [1, sps.getD 1 0, sps.getD 2 0, sps.getD 3 0, 0xff, 0xe1,
      UInt8.ofNat (sps.length >>> 8), UInt8.ofNat sps.length] ++ sps ++
      [1, UInt8.ofNat (pps.length >>> 8), UInt8.ofNat pps.length] ++ pps := by
  have hlengthSize : (0xfc : UInt8) ||| 3 = 0xff := by decide
  have hcount : (0xe0 : UInt8) ||| 1 = 0xe1 := by decide
  have hone : UInt8.ofNat 1 = 1 := by decide
  simp [AvcRecord.bytes, recordOf, AvcRecord.setBytes, AvcRecord.sizeBytes, hlengthSize, hcount,
    hone]

/-- With both sets the output is their record, whatever it held before. -/
theorem makeAvcc_run (h : AgreesWithReference data nals) {sps pps : Nal}
    (hs : HasSets data nals sps pps) (avcc : List UInt8) :
    makeAvcc data nals avcc
      = some (true, (recordOf (sps.unit data) (pps.unit data)).bytes) := by
  have hsps := mem_of_firstOf hs.sps_first
  have hpps := mem_of_firstOf hs.pps_first
  have hspsSize := hs.sps_size
  have hppsSize := hs.pps_size
  have hspsLen := length_unit h hsps
  have hppsLen := length_unit h hpps
  have hfits : ¬ ((sps.unit data).length < 4 ∨ (pps.unit data).length < 1 ∨
      UINT16_MAX < (sps.unit data).length ∨ UINT16_MAX < (pps.unit data).length) := by
    unfold UINT16_MAX
    omega
  have hread := readRange_unit h hsps
  have hread' := readRange_unit h hpps
  unfold makeAvcc
  rw [pick_eq, hs.sps_first, hs.pps_first]
  simp only [← hspsLen, ← hppsLen] at hread hread' ⊢
  rw [if_neg hfits, getElem?_unit h hsps (by omega), getElem?_unit h hsps (by omega),
    getElem?_unit h hsps (by omega), hread, hread']
  simp only [Option.bind_eq_bind, Option.bind_some]
  -- the offsets of the source follow each other and end with the vector
  have hfill := writeAll_placed
    [(0, [1]), (1, [(sps.unit data).getD 1 0]), (2, [(sps.unit data).getD 2 0]),
      (3, [(sps.unit data).getD 3 0]), (4, [0xff]), (5, [0xe1]),
      (6, [UInt8.ofNat ((sps.unit data).length >>> 8)]),
      (7, [UInt8.ofNat (sps.unit data).length]), (8, sps.unit data),
      (8 + (sps.unit data).length, [1]),
      (8 + (sps.unit data).length + 1, [UInt8.ofNat ((pps.unit data).length >>> 8)]),
      (8 + (sps.unit data).length + 2, [UInt8.ofNat (pps.unit data).length]),
      (8 + (sps.unit data).length + 3, pps.unit data)] []
    (resize avcc (11 + (sps.unit data).length + (pps.unit data).length))
    (by simp [Placed]) (by rw [length_resize]; simp; omega)
  rw [List.nil_append] at hfill
  rw [hfill, bytes_recordOf]
  simp

/-- Without two sets that fit the output is left as it was. -/
theorem makeAvcc_reject (h : AgreesWithReference data nals)
    (hno : ¬ ∃ sps pps, HasSets data nals sps pps) (avcc : List UInt8) :
    makeAvcc data nals avcc = some (false, avcc) := by
  unfold makeAvcc
  rw [pick_eq]
  cases hsps : firstOf nals 7 with
  | none => rfl
  | some sps =>
      cases hpps : firstOf nals 8 with
      | none => rfl
      | some pps =>
          have hspsLen := length_unit h (mem_of_firstOf hsps)
          have hppsLen := length_unit h (mem_of_firstOf hpps)
          -- both sets are there, so one of them does not fit
          refine if_pos ?_
          by_contra hfits
          unfold UINT16_MAX at hfits
          exact hno ⟨sps, pps, hsps, hpps, by omega, by omega⟩

end Units

/-- **The record round-trips**: `make_avcc` succeeds exactly when both parameter sets are there
and fit, and reading its output gives back the two sets and the three bytes after the head of
the first; otherwise the output is untouched. -/
theorem makeAvcc_spec (data avcc : List UInt8) :
    ∃ nals ok out, scanAnnexb data = some nals ∧ makeAvcc data nals avcc = some (ok, out) ∧
      (ok = true ↔ ∃ sps pps, HasSets data nals sps pps) ∧
      (∀ sps pps, HasSets data nals sps pps →
        ∃ r, AvcRecord.parse out = some r ∧ r.sps = [sps.unit data] ∧ r.pps = [pps.unit data] ∧
          [r.profile, r.compatibility, r.level] = ((sps.unit data).drop 1).take 3) ∧
      (ok = false → out = avcc) := by
  obtain ⟨nals, hscan, hagrees⟩ := scanAnnexb_spec data
  by_cases hsets : ∃ sps pps, HasSets data nals sps pps
  · obtain ⟨sps, pps, hs⟩ := hsets
    refine ⟨nals, true, _, hscan, makeAvcc_run hagrees hs avcc,
      ⟨fun _ => ⟨sps, pps, hs⟩, fun _ => rfl⟩, ?_, fun hfalse => by cases hfalse⟩
    intro sps' pps' hs'
    obtain rfl : sps' = sps := Option.some.inj (hs'.sps_first.symm.trans hs.sps_first)
    obtain rfl : pps' = pps := Option.some.inj (hs'.pps_first.symm.trans hs.pps_first)
    have hfits : (recordOf (sps'.unit data) (pps'.unit data)).Fits := by
      refine ⟨(by decide : 3 < 4), (by decide : 1 < 32), (by decide : 1 < 256), ?_, ?_⟩
      · intro set hset
        obtain rfl := List.mem_singleton.mp hset
        have hsize := hs.sps_size
        omega
      · intro set hset
        obtain rfl := List.mem_singleton.mp hset
        have hsize := hs.pps_size
        omega
    refine ⟨_, AvcRecord.parse_bytes _ hfits, rfl, rfl, ?_⟩
    -- a sequence parameter set has the four bytes
    match hunit : sps'.unit data, hs.sps_size.1 with
    | a :: b :: c :: d :: rest, _ => rfl
  · refine ⟨nals, false, avcc, hscan, makeAvcc_reject hagrees hsets avcc, ?_, ?_, fun _ => rfl⟩
    · exact ⟨(fun h => by cases h), fun h => absurd h hsets⟩
    · exact fun sps pps hs => absurd ⟨sps, pps, hs⟩ hsets

end QcapDemos.Fixture
