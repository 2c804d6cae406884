import QcapDemos.Fixture.AnnexB
import QcapDemos.Lib.Serial

set_option autoImplicit false

/-! # The decoder benchmark: finding the NAL units of a file

`LoadAndParse` splits the same files as `scan_annexb` of the decode fixture. It computes its bounds
by subtracting from the size, which is unsigned, and it sets the size of a unit when it comes to
the next one. As in the fixture, every access to the bytes is one that can fail.
-/

namespace QcapDemos.Fixture

open QcapDemos.Lib QcapDemos.Lib.AnnexB

/-- `nSize - k`, as a `size_t`. -/
def sizeMinus (data : List UInt8) (k : Nat) : Nat :=
  (BitVec.ofNat 64 data.length - BitVec.ofNat 64 k).toNat

/-- The `prefixLen` at `i`. The bytes are read as far as the comparisons need them. -/
def prefixLenAt (data : List UInt8) (i : Nat) : Option Nat := do
  if (← data[i]?) = 0 then
    if (← data[i + 1]?) = 0 then
      let third ← data[i + 2]?
      if third = 1 then pure 3
      else if i < sizeMinus data 4 ∧ third = 0 then
        if (← data[i + 3]?) = 1 then pure 4 else pure 0
      else pure 0
    else pure 0
  else pure 0

/-- `mNalOffsets` and `mNalSizes`. -/
structure NalTable where
  offsets : List Nat := []
  sizes : List Nat := []

/-- A start code at `i` ends the unit before it, if there is one, and begins one whose size is still
to be set. -/
def NalTable.push (t : NalTable) (i : Nat) : NalTable :=
  { offsets := t.offsets ++ [i]
    sizes :=
      (match t.offsets.getLast? with
        | none => t.sizes
        | some last => t.sizes.dropLast ++ [i - last]) ++ [0] }

/-- The loop of `LoadAndParse` from `i` on. -/
def parseLoop (data : List UInt8) (i : Nat) (t : NalTable) : Option NalTable :=
  if i < sizeMinus data 3 then
    match prefixLenAt data i with
    | none => none
    | some 0 => parseLoop data (i + 1) t
    | some (n + 1) => parseLoop data (i + (n + 1)) (t.push i)
  else some t
termination_by sizeMinus data 3 - i

/-- What `LoadAndParse` leaves of a file that it has read, or `none` if it finds no start code. -/
def loadAndParse (data : List UInt8) : Option (Option NalTable) :=
  (parseLoop data 0 {}).map fun t =>
    match t.offsets.getLast? with
    | none => none
    | some last => some { t with sizes := t.sizes.dropLast ++ [data.length - last] }

/-! ## Bounds -/

section Bounds

variable {data : List UInt8} {i : Nat}

theorem sizeMinus_eq {k : Nat} (hle : k ≤ data.length) (hlt : data.length < 2 ^ 64) :
    sizeMinus data k = data.length - k :=
  toNat_sub_of_near hle (by omega)

/-- Within its bound the loop recognises the start codes that a byte follows. -/
theorem prefixLenAt_eq (h : i + 3 < data.length) (hlt : data.length < 2 ^ 64) :
    prefixLenAt data i = some
      (if i + startPrefix (data.drop i) < data.length then startPrefix (data.drop i) else 0) := by
  obtain ⟨a, b, c, d, rest, hdrop, ha, hb, hc, hd⟩ := exists_four_bytes h
  have hfour : sizeMinus data 4 = data.length - 4 := sizeMinus_eq (by omega) hlt
  have hbound : i < sizeMinus data 4 ↔ i + 4 < data.length := by omega
  rw [hdrop]
  unfold prefixLenAt startPrefix
  simp only [ha, hb, hc, hd, hbound, Option.bind_eq_bind, Option.bind_some,
    List.take_succ_cons, List.take_zero, List.cons.injEq, and_true]
  by_cases ha0 : a = 0
  · by_cases hb0 : b = 0
    · by_cases hc1 : c = 1
      · simp [ha0, hb0, hc1, h]
      · by_cases hc0 : c = 0
        · by_cases hd1 : d = 1
          · -- the long code, of which the bound wants one byte more
            by_cases hlast : i + 4 < data.length
            · simp [ha0, hb0, hc0, hd1, hlast]
            · simp [ha0, hb0, hc0, hd1, hlast]
          · simp [ha0, hb0, hc0, hd1]
        · simp [ha0, hb0, hc1, hc0]
    · simp [ha0, hb0]
  · simp [ha0]

theorem lt_sizeMinus_iff (hle : 3 ≤ data.length) (hlt : data.length < 2 ^ 64) :
    i < sizeMinus data 3 ↔ i + 3 < data.length := by
  rw [sizeMinus_eq hle hlt]
  omega

end Bounds

/-! ## The same units -/

/-- From every position on, the loop comes to the start codes of the units that `scan_annexb`
finds. -/
theorem parseLoop_eq {data : List UInt8} (hle : 3 ≤ data.length) (hlt : data.length < 2 ^ 64)
    (i : Nat) (t : NalTable) {nals : List Nal} (hscan : scanLoop data i = some nals) :
    parseLoop data i t = some ((nals.map Nal.start).foldl NalTable.push t) := by
  induction i using scanLoop.induct data generalizing t nals with
  | case1 i hin hfail =>
      rw [startCodeAt_eq hin] at hfail
      cases hfail
  | case2 i hin hnone ih =>
      have hzero := startPrefix_of_startCodeAt hin hnone
      rw [scanLoop, if_pos hin, hnone] at hscan
      rw [parseLoop, if_pos ((lt_sizeMinus_iff hle hlt).mpr hin), prefixLenAt_eq hin hlt, hzero,
        ite_self]
      exact ih t hscan
  | case3 i hin n hcode payload hlast hfail =>
      rw [List.getElem?_eq_getElem hlast] at hfail
      cases hfail
  | case4 i hin n hcode payload hfollowed head hhead ih =>
      have hlen := startPrefix_of_startCodeAt hin hcode
      have hlast : i + (n + 1) < data.length := hfollowed
      have hread : data[i + (n + 1)]? = some head := hhead
      rw [scanLoop, if_pos hin, hcode] at hscan
      simp only [hlast, if_true, hread] at hscan
      obtain ⟨rest, hrest, rfl⟩ := Option.map_eq_some_iff.mp hscan
      rw [parseLoop, if_pos ((lt_sizeMinus_iff hle hlt).mpr hin), prefixLenAt_eq hin hlt, hlen,
        if_pos hlast]
      exact ih (t.push i) hrest
  | case5 i hin n hcode payload hend ih =>
      -- a start code at the very end: `scan_annexb` passes over it, and this loop does not see it
      have hlen := startPrefix_of_startCodeAt hin hcode
      have hfour := startPrefix_le_four (data.drop i)
      have hlast : ¬ i + (n + 1) < data.length := hend
      rw [scanLoop, if_pos hin, hcode] at hscan
      simp only [hlast, if_false] at hscan
      rw [scanLoop, if_neg (by omega)] at hscan
      obtain rfl := Option.some.inj hscan
      rw [parseLoop, if_pos ((lt_sizeMinus_iff hle hlt).mpr hin), prefixLenAt_eq hin hlt, hlen,
        if_neg hlast]
      show parseLoop data (i + 1) t = some t
      rw [parseLoop, if_neg (mt (lt_sizeMinus_iff hle hlt).mp (by omega))]
  | case6 i hge =>
      rw [scanLoop, if_neg hge] at hscan
      obtain rfl := Option.some.inj hscan
      rw [parseLoop, if_neg (mt (lt_sizeMinus_iff hle hlt).mp hge)]
      rfl

/-- The lengths of the ranges that the positions cut. -/
def lengths (size : Nat) (starts : List Nat) : List Nat :=
  (cut size starts).map fun r => r.2 - r.1

theorem lengths_snoc (size : Nat) (starts : List Nat) (a : Nat) :
    lengths size (starts ++ [a]) = lengths a starts ++ [size - a] := by
  rw [lengths, cut_snoc, List.map_append]
  rfl

theorem zip_lengths (size : Nat) (starts : List Nat) :
    starts.zip (lengths size starts) = (cut size starts).map fun r => (r.1, r.2 - r.1) := by
  have hzip := List.zip_map' (f := Prod.fst) (g := fun r => r.2 - r.1) (l := cut size starts)
  rwa [map_fst_cut] at hzip

theorem length_lengths (size : Nat) (starts : List Nat) :
    (lengths size starts).length = starts.length := by
  have hlen := congrArg List.length (map_fst_cut size starts)
  rw [List.length_map] at hlen
  exact (List.length_map _).trans hlen

/-- A table in the loop: all units have their sizes but the last, whose size is still 0. -/
def NalTable.upTo (starts : List Nat) : NalTable :=
  { offsets := starts, sizes := lengths 0 starts }

theorem NalTable.push_upTo (starts : List Nat) (i : Nat) :
    (NalTable.upTo starts).push i = NalTable.upTo (starts ++ [i]) := by
  rcases List.eq_nil_or_concat starts with rfl | ⟨before, last, rfl⟩
  · simp [NalTable.push, NalTable.upTo, lengths, cut]
  · rw [List.concat_eq_append]
    rw [NalTable.push, NalTable.upTo, NalTable.upTo, List.getLast?_concat, lengths_snoc,
      lengths_snoc, List.dropLast_concat, lengths_snoc, Nat.zero_sub, Nat.zero_sub]

theorem NalTable.foldl_push (starts new : List Nat) :
    new.foldl NalTable.push (NalTable.upTo starts) = NalTable.upTo (starts ++ new) := by
  induction new generalizing starts with
  | nil => rw [List.foldl_nil, List.append_nil]
  | cons i new ih => rw [List.foldl_cons, push_upTo, ih, List.append_assoc, List.singleton_append]

/-- What a file of at least three bytes leaves: the starts of the units that are found, and the
lengths of the ranges that they cut. -/
theorem loadAndParse_eq {data : List UInt8} (hle : 3 ≤ data.length) (hlt : data.length < 2 ^ 64)
    {nals : List Nal} (hscan : scanLoop data 0 = some nals) :
    loadAndParse data = some
      (if nals = [] then none
        else some
          { offsets := nals.map Nal.start
            sizes := lengths data.length (nals.map Nal.start) }) := by
  have htable : parseLoop data 0 {} = some (NalTable.upTo (nals.map Nal.start)) := by
    rw [parseLoop_eq hle hlt 0 {} hscan]
    exact congrArg some (NalTable.foldl_push [] _)
  rw [loadAndParse, htable]
  rcases List.eq_nil_or_concat nals with rfl | ⟨before, last, rfl⟩
  · rfl
  · rw [List.concat_eq_append]
    simp [NalTable.upTo, lengths_snoc]

/-! ## Very short files -/

/-- In a file of less than three bytes the comparisons find nothing, as long as they stay inside. -/
theorem prefixLenAt_of_short {data : List UInt8} {i n : Nat} (hshort : data.length < 3)
    (h : prefixLenAt data i = some n) : n = 0 ∧ i < data.length := by
  unfold prefixLenAt at h
  simp only [Option.bind_eq_bind, Option.bind_eq_some_iff] at h
  obtain ⟨a, ha, h⟩ := h
  refine ⟨?_, (List.getElem?_eq_some_iff.mp ha).1⟩
  split_ifs at h
  · obtain ⟨b, -, h⟩ := Option.bind_eq_some_iff.mp h
    split_ifs at h
    · obtain ⟨c, hc, -⟩ := Option.bind_eq_some_iff.mp h
      have hlt := (List.getElem?_eq_some_iff.mp hc).1
      omega
    · exact (Option.some.inj h).symm
  · exact (Option.some.inj h).symm

/-- The bound has wrapped, so that only a read outside ends the loop. -/
theorem parseLoop_of_short {data : List UInt8} (hshort : data.length < 3) (i : Nat)
    (hi : i ≤ data.length) (t : NalTable) : parseLoop data i t = none := by
  have hbound : i < sizeMinus data 3 := by
    have hcases : data.length = 0 ∨ data.length = 1 ∨ data.length = 2 := by omega
    have hbig : 3 ≤ sizeMinus data 3 := by
      unfold sizeMinus
      rcases hcases with h | h | h <;> rw [h] <;> decide
    omega
  rw [parseLoop, if_pos hbound]
  cases hcode : prefixLenAt data i with
  | none => rfl
  | some n =>
      obtain ⟨rfl, hin⟩ := prefixLenAt_of_short hshort hcode
      exact parseLoop_of_short hshort (i + 1) hin t
termination_by data.length - i

/-! ## The two splitters -/

/-- `LoadAndParse` stays inside the file, succeeds exactly if `scan_annexb` finds a unit, and then
has the same units. -/
def AgreesWithScan (data : List UInt8) : Prop :=
  ∃ nals result, scanAnnexb data = some nals ∧ loadAndParse data = some result ∧
    (result.isSome ↔ nals ≠ []) ∧
    ∀ t, result = some t →
      t.offsets.zip t.sizes = nals.map (fun u => (u.start, u.endAt - u.start)) ∧
        t.offsets.length = t.sizes.length

/-- **The two splitters agree on a file exactly if it has at least three bytes.** -/
theorem agreesWithScan_iff {data : List UInt8} (hlt : data.length < 2 ^ 64) :
    AgreesWithScan data ↔ 3 ≤ data.length := by
  constructor
  · rintro ⟨nals, result, -, hload, -⟩
    by_contra hshort
    rw [loadAndParse, parseLoop_of_short (by omega) 0 (Nat.zero_le _)] at hload
    cases hload
  · intro hle
    obtain ⟨nals, hscan, hagrees⟩ := scanAnnexb_spec data
    obtain ⟨found, hloop, rfl⟩ := Option.map_eq_some_iff.mp hscan
    have hstarts : (setEnds data.length found).map Nal.start = found.map Nal.start := by
      have hfst := congrArg (List.map Prod.fst) (map_setEnds data.length found)
      rwa [List.map_map, List.map_map] at hfst
    have hnil : setEnds data.length found = [] ↔ found = [] := by
      rw [← List.map_eq_nil_iff (f := Nal.start), hstarts, List.map_eq_nil_iff]
    refine ⟨_, _, hscan, loadAndParse_eq hle hlt hloop, ?_, fun t ht => ?_⟩
    · rw [Ne, hnil]
      by_cases hfound : found = []
      · simp [hfound]
      · simp [hfound]
    · by_cases hfound : found = []
      · rw [if_pos hfound] at ht
        cases ht
      · rw [if_neg hfound] at ht
        obtain rfl := Option.some.inj ht
        have hranges := hagrees.consecutive.ranges
        rw [hstarts] at hranges
        refine ⟨?_, (length_lengths _ _).symm⟩
        show (found.map Nal.start).zip (lengths data.length (found.map Nal.start)) = _
        rw [zip_lengths, ← hranges, List.map_map]
        rfl

theorem agreesWithScan_iff_small : AgreesWithScan [0, 0, 1, 9] ↔ 3 ≤ [0, 0, 1, 9].length :=
  agreesWithScan_iff (by decide)

/-- An empty file is read outside its bytes. -/
theorem not_agreesWithScan :
    ¬ ∀ data : List UInt8, data.length < 2 ^ 64 → AgreesWithScan data := by
  intro h
  obtain ⟨nals, result, -, hload, -⟩ := h [] (by decide)
  rw [loadAndParse, parseLoop_of_short (by decide) 0 le_rfl] at hload
  cases hload

end QcapDemos.Fixture
