import QcapDemos.Fixture.AnnexB

set_option autoImplicit false

/-! # Keyframe detection on the receiver

The receiver looks for an IDR slice in every access unit, twice: the sink counts what it finds for
the statistics, and the feed of the decoder decides by it whether decoding can start. Both walk over
the bytes by index without skipping what they have matched, the sink only over the first 4096
bytes. The two find the same, and exactly the IDR slices of the unit.
-/

namespace QcapDemos.Rx

open QcapDemos.Lib.AnnexB QcapDemos.Fixture

/-- The types of the NAL units of `data`, each noted in `s`: the loop of both scans from `i` on.
The start code is compared as in `scan_annexb`. -/
def scanTypes {σ : Type} (data : List UInt8) (note : σ → UInt8 → σ) (maxScan i : Nat) (s : σ) :
    Option σ :=
  if i + 3 < maxScan then
    match startCodeAt data i with
    | none => none
    | some 0 => scanTypes data note maxScan (i + 1) s
    | some (n + 1) =>
        -- the next turn is at the next byte: the short code inside a long one counts again
        let off := i + (n + 1)
        if off < data.length then
          match data[off]? with
          | none => none
          | some head => scanTypes data note maxScan (i + 1) (note s (head &&& 0x1f))
        else scanTypes data note maxScan (i + 1) s
  else some s
termination_by maxScan - i

/-- The scan of `rx_video_feed_decoder`. -/
def feedHasIdr (data : List UInt8) : Option Bool :=
  scanTypes data (fun hasIdr nalType => if nalType = 5 then true else hasIdr) data.length 0 false

/-- What the scan of the sink looks for. -/
structure Classified where
  foundNal : Bool := false
  hasSpsPps : Bool := false
  hasIdr : Bool := false
  hasNonIdr : Bool := false
deriving DecidableEq

def Classified.note (found : Classified) (nalType : UInt8) : Classified :=
  let found := { found with foundNal := true }
  if nalType = 7 ∨ nalType = 8 then { found with hasSpsPps := true }
  else if nalType = 5 then { found with hasIdr := true }
  else if nalType = 1 then { found with hasNonIdr := true }
  else found

def classify (data : List UInt8) : Option Classified :=
  scanTypes data Classified.note (if data.length < 4096 then data.length else 4096) 0 {}

structure VideoStats where
  totalPackets : Nat := 0
  totalBytes : Nat := 0
  keyframes : Nat := 0
  spsPps : Nat := 0
  idrSlices : Nat := 0
  nonIdrSlices : Nat := 0
  noSc : Nat := 0
  nalOther : Nat := 0
  lastPts : Nat := 0
  firstPts : Nat := 0
deriving DecidableEq

structure VideoBuffer where
  data : List UInt8
  pts : Nat
  keyframe : Bool

/-- The counters that every unit moves. -/
def VideoStats.received (stats : VideoStats) (buf : VideoBuffer) : VideoStats :=
  { stats with
    totalPackets := stats.totalPackets + 1
    totalBytes := stats.totalBytes + buf.data.length
    firstPts := if stats.firstPts = 0 ∧ 0 < buf.pts then buf.pts else stats.firstPts
    lastPts := buf.pts }

def VideoStats.count (stats : VideoStats) (found : Classified) (keyframe : Bool) : VideoStats :=
  let stats :=
    if found.foundNal = false then { stats with noSc := stats.noSc + 1 }
    else if found.hasSpsPps then { stats with spsPps := stats.spsPps + 1 }
    else stats
  let stats :=
    if found.hasIdr then
      { stats with idrSlices := stats.idrSlices + 1, keyframes := stats.keyframes + 1 }
    else if keyframe then { stats with keyframes := stats.keyframes + 1 }
    else stats
  if found.hasNonIdr then { stats with nonIdrSlices := stats.nonIdrSlices + 1 }
  else if found.hasSpsPps = false ∧ found.hasIdr = false then
    { stats with nalOther := stats.nalOther + 1 }
  else stats

/-- What `rx_video_sink_push` does to the statistics. A unit of less than four bytes is counted
but not looked at. -/
def rxVideoSinkPush (stats : VideoStats) (buf : VideoBuffer) : Option VideoStats :=
  let stats := stats.received buf
  if buf.data.length < 4 then some stats
  else (classify buf.data).map (stats.count · buf.keyframe)

/-! ## The scan -/

section Scan

variable {σ : Type} {data : List UInt8} {note : σ → UInt8 → σ} {maxScan i : Nat}

/-- The type of the NAL unit whose start code is at `i`, where there is one and a byte follows. -/
def typeAt (data : List UInt8) (i : Nat) : Option UInt8 :=
  if startPrefix (data.drop i) = 0 then none
  else data[i + startPrefix (data.drop i)]?.map (· &&& 0x1f)

/-- The types that a scan of the positions from `i` on below `stop` comes across. -/
def typesFrom (data : List UInt8) (i stop : Nat) : List UInt8 :=
  (List.range' i (stop - i)).filterMap (typeAt data)

theorem typesFrom_self (data : List UInt8) {i stop : Nat} (h : stop ≤ i) :
    typesFrom data i stop = [] := by
  rw [typesFrom, Nat.sub_eq_zero_of_le h]
  rfl

theorem typesFrom_succ {stop : Nat} (h : i < stop) :
    typesFrom data i stop = (typeAt data i).toList ++ typesFrom data (i + 1) stop := by
  obtain ⟨n, hn⟩ : ∃ n, stop - i = n + 1 := ⟨stop - i - 1, by omega⟩
  have hrest : stop - (i + 1) = n := by omega
  rw [typesFrom, typesFrom, hn, hrest, List.range'_succ]
  cases h : typeAt data i with
  | none => rw [List.filterMap_cons_none h]; rfl
  | some t => rw [List.filterMap_cons_some h]; rfl

theorem mem_typesFrom {stop : Nat} {t : UInt8} :
    t ∈ typesFrom data i stop ↔ ∃ j, i ≤ j ∧ j < stop ∧ typeAt data j = some t := by
  rw [typesFrom, List.mem_filterMap]
  constructor
  · rintro ⟨j, hj, ht⟩
    rw [List.mem_range'_1] at hj
    exact ⟨j, hj.1, by omega, ht⟩
  · rintro ⟨j, hij, hj, ht⟩
    refine ⟨j, ?_, ht⟩
    rw [List.mem_range'_1]
    omega

/-- The loop runs to its end within the bounds of the data, and notes the types in their order. -/
theorem scanTypes_eq (h : maxScan ≤ data.length) (i : Nat) (s : σ) :
    scanTypes data note maxScan i s
      = some ((typesFrom data i (maxScan - 3)).foldl note s) := by
  induction i, s using scanTypes.induct data note maxScan with
  | case1 i s hlt hfail =>
      -- below the bound of the loop all four reads are inside
      rw [startCodeAt_eq (by omega)] at hfail
      cases hfail
  | case2 i s hlt hnone ih =>
      have hzero : startPrefix (data.drop i) = 0 :=
        startPrefix_of_startCodeAt (by omega) hnone
      have htype : typeAt data i = none := by rw [typeAt, if_pos hzero]
      rw [scanTypes, if_pos hlt, hnone, typesFrom_succ (by omega), htype]
      exact ih
  | case3 i s hlt n hcode off hin hfail =>
      rw [List.getElem?_eq_getElem hin] at hfail
      cases hfail
  | case4 i s hlt n hcode off hin head hhead ih =>
      have hcodeLen : startPrefix (data.drop i) = n + 1 :=
        startPrefix_of_startCodeAt (by omega) hcode
      have hread : data[i + (n + 1)]? = some head := hhead
      have htype : typeAt data i = some (head &&& 0x1f) := by
        rw [typeAt, hcodeLen, if_neg (by omega), hread]
        rfl
      rw [scanTypes, if_pos hlt, hcode, typesFrom_succ (by omega), htype]
      show (if off < data.length then _ else _) = _
      rw [if_pos hin, hhead]
      exact ih
  | case5 i s hlt n hcode off hin ih =>
      have hcodeLen : startPrefix (data.drop i) = n + 1 :=
        startPrefix_of_startCodeAt (by omega) hcode
      have hread : data[i + (n + 1)]? = none := List.getElem?_eq_none (by omega)
      have htype : typeAt data i = none := by
        rw [typeAt, hcodeLen, if_neg (by omega), hread]
        rfl
      rw [scanTypes, if_pos hlt, hcode, typesFrom_succ (by omega), htype]
      show (if off < data.length then _ else _) = _
      rw [if_neg hin]
      exact ih
  | case6 i s hge =>
      rw [scanTypes, if_neg hge, typesFrom_self data (by omega)]
      rfl

end Scan

/-! ## IDR slices -/

/-- Some `00 00 01` of the data is followed by a byte whose low five bits are 5. -/
def HasIdr (data : List UInt8) : Prop :=
  ∃ i head, [0, 0, 1, head] <+: data.drop i ∧ head &&& 0x1f = 5

section Idr

variable {data : List UInt8}

/-- The byte that follows a start code, whichever of the two codes it is. -/
theorem typeAt_eq_some {i : Nat} {t : UInt8} :
    typeAt data i = some t ↔
      ∃ long head rest, data.drop i = startCode long ++ head :: rest ∧ head &&& 0x1f = t := by
  have hread (k : Nat) : data[i + k]? = (data.drop i)[k]? := by rw [List.getElem?_drop]
  unfold typeAt
  rw [hread]
  generalize data.drop i = l
  constructor
  · intro h
    split_ifs at h with hzero
    obtain ⟨n, hn⟩ := Nat.exists_eq_succ_of_ne_zero hzero
    obtain ⟨long, rest, rfl, -⟩ := startCode_of_startPrefix hn
    rw [startPrefix_startCode, List.getElem?_append_right le_rfl, Nat.sub_self] at h
    cases rest with
    | nil => cases h
    | cons head rest => exact ⟨long, head, rest, rfl, Option.some.inj h⟩
  · rintro ⟨long, head, rest, rfl, rfl⟩
    have hne : (startCode long).length ≠ 0 := by
      cases long <;> decide
    rw [startPrefix_startCode, if_neg hne, List.getElem?_append_right le_rfl, Nat.sub_self]
    rfl

theorem lt_of_typeAt {i : Nat} {t : UInt8} (h : typeAt data i = some t) : i + 3 < data.length := by
  obtain ⟨long, head, rest, hdrop, -⟩ := typeAt_eq_some.mp h
  have hcode : 3 ≤ (startCode long).length := by
    cases long <;> decide
  have hlen := congrArg List.length hdrop
  rw [List.length_drop, List.length_append, List.length_cons] at hlen
  omega

/-- Every IDR slice stands behind a start code that a scan recognises. -/
theorem hasIdr_iff_typeAt : HasIdr data ↔ ∃ i, typeAt data i = some 5 := by
  constructor
  · rintro ⟨i, head, ⟨rest, hrest⟩, hidr⟩
    exact ⟨i, typeAt_eq_some.mpr ⟨false, head, rest, hrest.symm, hidr⟩⟩
  · rintro ⟨i, htype⟩
    obtain ⟨long, head, rest, hdrop, hidr⟩ := typeAt_eq_some.mp htype
    cases long with
    | false => exact ⟨i, head, ⟨rest, hdrop.symm⟩, hidr⟩
    | true =>
        -- the long code is a short one a byte later
        refine ⟨i + 1, head, ⟨rest, ?_⟩, hidr⟩
        rw [← List.drop_drop, hdrop]
        rfl

theorem hasIdr_iff : HasIdr data ↔ 5 ∈ typesFrom data 0 (data.length - 3) := by
  rw [hasIdr_iff_typeAt, mem_typesFrom]
  constructor
  · rintro ⟨i, htype⟩
    have hlt := lt_of_typeAt htype
    exact ⟨i, by omega, by omega, htype⟩
  · rintro ⟨i, -, -, htype⟩
    exact ⟨i, htype⟩

theorem foldl_hasIdr (types : List UInt8) (hasIdr : Bool) :
    types.foldl (fun hasIdr nalType => if nalType = 5 then true else hasIdr) hasIdr = true ↔
      hasIdr = true ∨ 5 ∈ types := by
  induction types generalizing hasIdr with
  | nil => simp
  | cons t types ih =>
      rw [List.foldl_cons, ih, List.mem_cons]
      by_cases ht : t = 5
      · simp [ht]
      · have ht' : ¬ 5 = t := fun h => ht h.symm
        simp [ht, ht']

theorem note_hasIdr (found : Classified) (t : UInt8) :
    (found.note t).hasIdr = true ↔ found.hasIdr = true ∨ 5 = t := by
  simp only [Classified.note, apply_ite Classified.hasIdr, ite_self]
  split_ifs with h78 h5
  · have h5 : ¬ 5 = t := by
      rintro rfl
      exact absurd h78 (by decide)
    simp [h5]
  · simp [h5]
  · simp [Ne.symm h5]

theorem foldl_note_hasIdr (types : List UInt8) (found : Classified) :
    (types.foldl Classified.note found).hasIdr = true ↔ found.hasIdr = true ∨ 5 ∈ types := by
  induction types generalizing found with
  | nil => simp
  | cons t types ih =>
      rw [List.foldl_cons, ih, note_hasIdr, List.mem_cons, or_assoc]

theorem feedHasIdr_spec (data : List UInt8) :
    ∃ hasIdr, feedHasIdr data = some hasIdr ∧ (hasIdr = true ↔ HasIdr data) := by
  refine ⟨_, scanTypes_eq le_rfl 0 false, ?_⟩
  rw [foldl_hasIdr, hasIdr_iff]
  simp

/-- The sink finds exactly the IDR slices among the positions that it scans. -/
theorem classify_spec (data : List UInt8) :
    ∃ found, classify data = some found ∧
      (found.hasIdr = true ↔ 5 ∈ typesFrom data 0 (min data.length 4096 - 3)) := by
  have hscan : (if data.length < 4096 then data.length else 4096) = min data.length 4096 := by
    by_cases h : data.length < 4096
    · rw [if_pos h]
      omega
    · rw [if_neg h]
      omega
  rw [classify, hscan]
  refine ⟨_, scanTypes_eq (Nat.min_le_left _ _) 0 ({} : Classified), ?_⟩
  rw [foldl_note_hasIdr]
  simp

/-- A longer scan finds no less. -/
theorem typesFrom_mono {stop stop' : Nat} {t : UInt8} (h : stop ≤ stop')
    (ht : t ∈ typesFrom data 0 stop) : t ∈ typesFrom data 0 stop' := by
  obtain ⟨i, hi, hstop, htype⟩ := mem_typesFrom.mp ht
  exact mem_typesFrom.mpr ⟨i, hi, by omega, htype⟩

theorem count_idrSlices (stats : VideoStats) (found : Classified) (keyframe : Bool) :
    (stats.count found keyframe).idrSlices
      = stats.idrSlices + if found.hasIdr then 1 else 0 := by
  -- the first and the last step leave the counter as it is
  simp only [VideoStats.count, apply_ite VideoStats.idrSlices, ite_self]
  split_ifs <;> rfl

theorem count_keyframes (stats : VideoStats) (found : Classified) (keyframe : Bool) :
    (stats.count found keyframe).keyframes
      = stats.keyframes + if (found.hasIdr || keyframe) = true then 1 else 0 := by
  simp only [VideoStats.count, apply_ite VideoStats.keyframes, ite_self]
  cases found.hasIdr with
  | true => rfl
  | false => cases keyframe <;> rfl

end Idr

/-- What the feed of the decoder and the statistics of the sink make of a unit: `hasIdr` is what
the feed finds, and `counted` whether the statistics count an IDR slice. -/
structure KeyframeExact (stats : VideoStats) (buf : VideoBuffer) (hasIdr counted : Bool)
    (stats' : VideoStats) : Prop where
  feed : feedHasIdr buf.data = some hasIdr
  sink : rxVideoSinkPush stats buf = some stats'
  exact : hasIdr = true ↔ HasIdr buf.data
  idrSlices : stats'.idrSlices = stats.idrSlices + if counted then 1 else 0
  keyframes : stats'.keyframes = stats.keyframes + if counted || buf.keyframe then 1 else 0
  same : buf.data.length ≤ 4096 → counted = hasIdr
  implied : counted = true → hasIdr = true

/-- **Keyframe detection is exact**: neither scan reads outside the unit, the feed of the decoder
finds an IDR slice where there is one, and the statistics count the same up to 4096 bytes and
nothing else beyond. -/
theorem keyframe_exact (stats : VideoStats) (buf : VideoBuffer) (h : 4 ≤ buf.data.length) :
    ∃ hasIdr counted stats', KeyframeExact stats buf hasIdr counted stats' := by
  obtain ⟨hasIdr, hfeed, hexact⟩ := feedHasIdr_spec buf.data
  obtain ⟨found, hclassify, hfound⟩ := classify_spec buf.data
  have himplied : found.hasIdr = true → hasIdr = true := by
    intro hcounted
    rw [hexact, hasIdr_iff]
    exact typesFrom_mono (by omega) (hfound.mp hcounted)
  refine ⟨hasIdr, found.hasIdr, (stats.received buf).count found buf.keyframe,
    { feed := hfeed
      sink := ?_
      exact := hexact
      idrSlices := count_idrSlices (stats.received buf) found buf.keyframe
      keyframes := count_keyframes (stats.received buf) found buf.keyframe
      same := fun hle => ?_
      implied := himplied }⟩
  · rw [rxVideoSinkPush, if_neg (by omega), hclassify]
    rfl
  · have hmin : min buf.data.length 4096 = buf.data.length := by omega
    rw [hmin, ← hasIdr_iff, ← hexact] at hfound
    exact Bool.eq_iff_iff.mpr hfound

theorem keyframe_exact_idr :
    ∃ hasIdr counted stats',
      KeyframeExact {} ⟨[0, 0, 0, 1, 0x65], 40, false⟩ hasIdr counted stats' :=
  keyframe_exact {} ⟨[0, 0, 0, 1, 0x65], 40, false⟩ (by decide)

example : feedHasIdr [0, 0, 0, 0, 1, 0x65] = some true := by decide +kernel

example : feedHasIdr [9, 0, 0, 0, 1] = some false := by decide +kernel

end QcapDemos.Rx
