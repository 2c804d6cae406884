import QcapDemos.Fixture.Avcc

set_option autoImplicit false

/-! # The decode fixture: the access units of a file

`Load` reads a file, makes its configuration record, and splits its bytes at the access unit
delimiters, the NAL units of type 9. Bytes before the first delimiter become an access unit of
their own.
-/

namespace QcapDemos.Fixture

open QcapDemos.Lib

/-- What a fixture holds once a file is loaded. -/
structure Loaded where
  fileData : List UInt8
  austarts : List Nat
  ausize : List Nat
  avcc : List UInt8
deriving DecidableEq

/-- The sizes of the units: up to the next start, for the last one up to the end. -/
def sizesFrom (size : Nat) : List Nat → List Nat
  | [] => []
  | [a] => [size - a]
  | a :: b :: rest => (b - a) :: sizesFrom size (b :: rest)

/-- Where the access units of a file begin. -/
def unitStarts (nals : List Nal) : List Nat :=
  let delimiters := (nals.filter (·.type == 9)).map (·.start)
  let starts := if delimiters.isEmpty then [0] else delimiters
  if starts.head? ≠ some 0 then 0 :: starts else starts

/-- The result for the bytes of a file, or for a file that cannot be opened or read. -/
def load (file : Option (List UInt8)) : Option (Option Loaded) :=
  match file with
  | none => some none
  | some data =>
      if data.isEmpty then some none
      else do
        let nals ← scanAnnexb data
        let (ok, avcc) ← makeAvcc data nals []
        if ok then
          let starts := unitStarts nals
          some (some { fileData := data
                       austarts := starts
                       ausize := sizesFrom data.length starts
                       avcc := avcc })
        else some none

/-- The access units as ranges: start and end. -/
def Loaded.ranges (l : Loaded) : List (Nat × Nat) :=
  List.zipWith (fun start size => (start, start + size)) l.austarts l.ausize

/-- The bytes of the access units. -/
def Loaded.units (l : Loaded) : List (List UInt8) :=
  List.zipWith (fun start size => (l.fileData.drop start).take size) l.austarts l.ausize

/-! ## The starts -/

theorem mem_delimiters {nals : List Nal} {s : Nat} :
    s ∈ (nals.filter (·.type == 9)).map Nal.start ↔ ∃ u ∈ nals, u.type = 9 ∧ u.start = s := by
  simp only [List.mem_map, List.mem_filter, beq_iff_eq, and_assoc]

/-- The units begin at the delimiters, and at 0. -/
theorem mem_unitStarts {nals : List Nal} {s : Nat} :
    s ∈ unitStarts nals ↔ s = 0 ∨ ∃ u ∈ nals, u.type = 9 ∧ u.start = s := by
  rw [← mem_delimiters]
  unfold unitStarts
  cases hdelimiters : (nals.filter (·.type == 9)).map Nal.start with
  | nil => simp
  | cons a rest =>
      by_cases ha : a = 0
      · simp [ha]
      · simp [ha]

theorem unitStarts_cons (nals : List Nal) : ∃ rest, unitStarts nals = 0 :: rest := by
  unfold unitStarts
  cases hdelimiters : (nals.filter (·.type == 9)).map Nal.start with
  | nil => exact ⟨[], by simp⟩
  | cons a rest =>
      by_cases ha : a = 0
      · exact ⟨rest, by simp [ha]⟩
      · exact ⟨a :: rest, by simp [ha]⟩

theorem unitStarts_sorted {size : Nat} {nals : List Nal} (h : Consecutive size nals) :
    (unitStarts nals).Pairwise (· < ·) := by
  have hsorted : ((nals.filter (·.type == 9)).map Nal.start).Pairwise (· < ·) :=
    h.sorted.sublist (List.filter_sublist.map Nal.start)
  unfold unitStarts
  cases hdelimiters : (nals.filter (·.type == 9)).map Nal.start with
  | nil => simp
  | cons a rest =>
      rw [hdelimiters] at hsorted
      by_cases ha : a = 0
      · simpa [ha] using hsorted
      · -- the inserted start is below all delimiters
        have hpos : ∀ s ∈ a :: rest, 0 < s := by
          intro s hs
          rcases List.mem_cons.mp hs with rfl | hs
          · omega
          · have has := List.rel_of_pairwise_cons hsorted hs
            omega
        simpa [ha] using List.Pairwise.cons hpos hsorted

/-! ## The ranges -/

theorem zipWith_sizesFrom {size : Nat} {starts : List Nat} (hsorted : starts.Pairwise (· < ·))
    (hsize : ∀ s ∈ starts, s < size) :
    List.zipWith (fun start size => (start, start + size)) starts (sizesFrom size starts)
      = cut size starts := by
  fun_induction sizesFrom size starts with
  | case1 => rfl
  | case2 a =>
      have ha := hsize a List.mem_cons_self
      have hend : a + (size - a) = size := by omega
      rw [List.zipWith_cons_cons, hend]
      rfl
  | case3 a b rest ih =>
      have hab := List.rel_of_pairwise_cons hsorted List.mem_cons_self
      have hend : a + (b - a) = b := by omega
      rw [List.zipWith_cons_cons, hend,
        ih hsorted.tail fun s hs => hsize s (List.mem_cons_of_mem a hs)]
      rfl

theorem length_sizesFrom (size : Nat) (starts : List Nat) :
    (sizesFrom size starts).length = starts.length := by
  fun_induction sizesFrom size starts with
  | case1 => rfl
  | case2 a => rfl
  | case3 a b rest ih =>
      rw [List.length_cons, ih]
      rfl

/-! ## What is loaded -/

/-- The access units of a file with the given NAL units. -/
structure IsLoaded (data : List UInt8) (nals : List Nal) (l : Loaded) : Prop where
  agrees : AgreesWithReference data nals
  sets : ∃ sps pps, HasSets data nals sps pps
  fileData : l.fileData = data
  austarts : l.austarts = unitStarts nals
  ausize : l.ausize = sizesFrom data.length (unitStarts nals)

theorem isLoaded_of_load {data : List UInt8} {nals : List Nal} {l : Loaded}
    (hscan : scanAnnexb data = some nals) (h : load (some data) = some (some l)) :
    IsLoaded data nals l := by
  obtain ⟨nals', hscan', hagrees⟩ := scanAnnexb_spec data
  obtain rfl : nals' = nals := Option.some.inj (hscan'.symm.trans hscan)
  change (if data.isEmpty then some none else _) = _ at h
  by_cases hempty : data.isEmpty = true
  · rw [if_pos hempty] at h
    cases h
  · rw [if_neg hempty, hscan] at h
    by_cases hsets : ∃ sps pps, HasSets data nals' sps pps
    · obtain ⟨sps, pps, hs⟩ := hsets
      rw [Option.bind_eq_bind, Option.bind_some, makeAvcc_run hagrees hs] at h
      cases h
      exact ⟨hagrees, ⟨sps, pps, hs⟩, rfl, rfl, rfl⟩
    · rw [Option.bind_eq_bind, Option.bind_some, makeAvcc_reject hagrees hsets] at h
      cases h

/-- The access units of a file, against its NAL units. -/
structure SplitsWell (nals : List Nal) (l : Loaded) : Prop where
  paired : l.ausize.length = l.austarts.length
  nonempty : ∀ size ∈ l.ausize, 0 < size
  first : l.austarts.head? = some 0
  consecutive : l.ranges.IsChain fun r s => r.2 = s.1
  last : ∀ r ∈ l.ranges.getLast?, r.2 = l.fileData.length
  concatenation : l.units.flatten = l.fileData
  delimited : ∀ s ∈ l.austarts.tail, ∃ u ∈ nals, u.type = 9 ∧ u.start = s
  oneDelimiter : ∀ r ∈ l.ranges, ∀ u ∈ nals, u.type = 9 → r.1 ≤ u.start → u.start < r.2 →
    u.start = r.1
  hasNal : ∀ r ∈ l.ranges, ∃ u ∈ nals, r.1 ≤ u.start ∧ u.endAt ≤ r.2

section Loaded

variable {data : List UInt8} {nals : List Nal} {l : Loaded}

/-- The first NAL unit is a delimiter with other bytes before it. -/
def StrayBytes (nals : List Nal) : Prop := ∃ u ∈ nals.head?, u.type = 9 ∧ u.start ≠ 0

theorem IsLoaded.start_lt (h : IsLoaded data nals l) :
    ∀ s ∈ unitStarts nals, s < data.length := by
  intro s hs
  have hunit (u : Nal) (hu : u ∈ nals) : u.start < data.length := by
    have hbounds := h.agrees.consecutive.bounds u hu
    have hend := h.agrees.consecutive.endAt_le u hu
    omega
  rcases mem_unitStarts.mp hs with rfl | ⟨u, hu, -, rfl⟩
  · obtain ⟨sps, pps, hsets⟩ := h.sets
    exact Nat.lt_of_le_of_lt (Nat.zero_le _) (hunit sps (mem_of_firstOf hsets.sps_first))
  · exact hunit u hu

theorem IsLoaded.ranges_eq (h : IsLoaded data nals l) :
    l.ranges = cut data.length (unitStarts nals) := by
  unfold Loaded.ranges
  rw [h.austarts, h.ausize]
  exact zipWith_sizesFrom (unitStarts_sorted h.agrees.consecutive) h.start_lt

theorem IsLoaded.units_eq (h : IsLoaded data nals l) :
    l.units = (cut data.length (unitStarts nals)).map (slice data) := by
  rw [← h.ranges_eq]
  unfold Loaded.units Loaded.ranges
  rw [List.map_zipWith, h.fileData]
  congr 1
  funext start size
  unfold slice
  rw [Nat.add_sub_cancel_left]

theorem IsLoaded.bounds (h : IsLoaded data nals l) :
    ∀ r ∈ cut data.length (unitStarts nals), r.1 < r.2 ∧ r.2 ≤ data.length :=
  bounds_of_mem_cut (unitStarts_sorted h.agrees.consecutive) h.start_lt

/-- A NAL unit that starts at or after a start, and before an end of an access unit, ends with
the access unit at the latest. -/
theorem IsLoaded.endAt_le (h : IsLoaded data nals l) {r : Nat × Nat}
    (hr : r ∈ cut data.length (unitStarts nals)) {u : Nal} (hu : u ∈ nals)
    (hlt : u.start < r.2) : u.endAt ≤ r.2 := by
  have hconsecutive := h.agrees.consecutive
  rcases end_of_mem_cut r hr with hmem | hend
  · -- the access unit ends at a delimiter, and no NAL unit crosses the start of another
    rcases mem_unitStarts.mp hmem with hzero | ⟨v, hv, -, hstart⟩
    · omega
    · have hle := hconsecutive.endAt_le_start hu hv (by omega)
      omega
  · rw [hend]
    exact hconsecutive.endAt_le u hu

theorem IsLoaded.head_le (h : IsLoaded data nals l) {u v : Nal} (hu : u ∈ nals.head?)
    (hv : v ∈ nals) : u = v ∨ u.start < v.start := by
  obtain ⟨rest, rfl⟩ := List.head?_eq_some_iff.mp hu
  rcases List.mem_cons.mp hv with rfl | hv
  · exact .inl rfl
  · exact .inr (List.rel_of_pairwise_cons h.agrees.ordered hv)

/-- Every access unit contains a NAL unit unless stray bytes make up the first one. -/
theorem IsLoaded.hasNal_iff (h : IsLoaded data nals l) :
    (∀ r ∈ cut data.length (unitStarts nals), ∃ u ∈ nals, r.1 ≤ u.start ∧ u.endAt ≤ r.2) ↔
      ¬ StrayBytes nals := by
  have hsorted := unitStarts_sorted h.agrees.consecutive
  constructor
  · rintro hall ⟨u, hu, htype, hstart⟩
    have humem : u ∈ nals := List.mem_of_mem_head? hu
    have hdelimiter : u.start ∈ unitStarts nals := mem_unitStarts.mpr (.inr ⟨u, humem, htype, rfl⟩)
    -- the first access unit ends where the first NAL unit starts
    obtain ⟨rest, hrest⟩ := unitStarts_cons nals
    obtain ⟨e, tail, hcut⟩ := cut_cons_eq data.length 0 rest
    have hfirst : (0, e) ∈ cut data.length (unitStarts nals) := by
      rw [hrest, hcut]
      exact List.mem_cons_self
    have hend : e ≤ u.start := by
      by_contra hlt
      exact hstart (eq_of_mem_cut hsorted hfirst hdelimiter (Nat.zero_le _) (by omega))
    obtain ⟨v, hv, -, hvend⟩ := hall _ hfirst
    have hbounds := h.agrees.consecutive.bounds v hv
    have hvend' : v.endAt ≤ e := hvend
    rcases h.head_le hu hv with rfl | hlt
    · omega
    · omega
  · intro hstray r hr
    have hbounds := h.bounds r hr
    rcases mem_unitStarts.mp (fst_mem_of_mem_cut hr) with hzero | ⟨u, hu, -, hstart⟩
    · -- the access unit at 0 holds the first NAL unit, and there is one with the parameter sets
      obtain ⟨sps, pps, hsets⟩ := h.sets
      have hsps := mem_of_firstOf hsets.sps_first
      obtain ⟨u, hu⟩ : ∃ u, u ∈ nals.head? := by
        cases nals with
        | nil => cases hsps
        | cons u rest => exact ⟨u, rfl⟩
      have humem : u ∈ nals := List.mem_of_mem_head? hu
      refine ⟨u, humem, by omega, h.endAt_le hr humem ?_⟩
      rcases end_of_mem_cut r hr with hmem | hend
      · rcases mem_unitStarts.mp hmem with hzero' | ⟨v, hv, htype, hstart⟩
        · omega
        · -- it ends at a delimiter, which is not the first NAL unit itself
          rcases h.head_le hu hv with rfl | hlt
          · exact absurd ⟨u, hu, htype, by omega⟩ hstray
          · omega
      · have hend' := h.agrees.consecutive.endAt_le u humem
        have hubounds := h.agrees.consecutive.bounds u humem
        omega
    · exact ⟨u, hu, hstart.ge, h.endAt_le hr hu (by omega)⟩

theorem IsLoaded.delimited (h : IsLoaded data nals l) :
    ∀ s ∈ l.austarts.tail, ∃ u ∈ nals, u.type = 9 ∧ u.start = s := by
  intro s hs
  obtain ⟨rest, hrest⟩ := unitStarts_cons nals
  have hsorted := unitStarts_sorted h.agrees.consecutive
  rw [h.austarts, hrest] at hs
  rw [hrest] at hsorted
  have hpos : 0 < s := List.rel_of_pairwise_cons hsorted hs
  have hmem : s ∈ unitStarts nals := by
    rw [hrest]
    exact List.mem_cons_of_mem 0 hs
  rcases mem_unitStarts.mp hmem with hzero | hdelimiter
  · omega
  · exact hdelimiter

theorem IsLoaded.oneDelimiter (h : IsLoaded data nals l) :
    ∀ r ∈ cut data.length (unitStarts nals), ∀ u ∈ nals, u.type = 9 → r.1 ≤ u.start →
      u.start < r.2 → u.start = r.1 := by
  intro r hr u hu htype hle hlt
  exact eq_of_mem_cut (unitStarts_sorted h.agrees.consecutive) hr
    (mem_unitStarts.mpr (.inr ⟨u, hu, htype, rfl⟩)) hle hlt

theorem IsLoaded.nonempty (h : IsLoaded data nals l) : ∀ size ∈ l.ausize, 0 < size := by
  intro size hsize
  obtain ⟨k, hk, rfl⟩ := List.getElem_of_mem hsize
  have hk' : k < l.austarts.length := by
    rw [h.ausize, length_sizesFrom, ← h.austarts] at hk
    exact hk
  have hmem : (l.austarts[k], l.austarts[k] + l.ausize[k]) ∈ l.ranges := by
    refine List.mem_iff_getElem.mpr ⟨k, ?_, ?_⟩
    · unfold Loaded.ranges
      rw [List.length_zipWith]
      omega
    · exact List.getElem_zipWith
  rw [h.ranges_eq] at hmem
  have hbounds := (h.bounds _ hmem).1
  show 0 < l.ausize[k]
  omega

end Loaded

/-- **Splitting loses and invents nothing**, and each access unit begins with the one delimiter
it holds, but every unit contains a NAL unit only where no stray bytes stand before a delimiter
that is the first NAL unit. -/
theorem splitsWell_iff (data : List UInt8) (l : Loaded)
    (h : load (some data) = some (some l)) :
    ∃ nals, scanAnnexb data = some nals ∧ (SplitsWell nals l ↔ ¬ StrayBytes nals) := by
  obtain ⟨nals, hscan, hagrees⟩ := scanAnnexb_spec data
  have hl := isLoaded_of_load hscan h
  refine ⟨nals, hscan, ?_⟩
  rw [← hl.hasNal_iff, ← hl.ranges_eq]
  constructor
  · exact fun hsplits => hsplits.hasNal
  · intro hnal
    obtain ⟨rest, hrest⟩ := unitStarts_cons nals
    refine ⟨?_, hl.nonempty, ?_, ?_, ?_, ?_, hl.delimited, ?_, hnal⟩
    · rw [hl.ausize, length_sizesFrom, hl.austarts]
    · rw [hl.austarts, hrest]
      rfl
    · rw [hl.ranges_eq]
      exact isChain_cut _ _
    · rw [hl.ranges_eq, hl.fileData]
      exact getLast?_cut _ _
    · have hsorted := unitStarts_sorted hagrees.consecutive
      rw [hrest] at hsorted
      rw [hl.units_eq, hl.fileData, hrest, flatten_cut data hsorted]
      rfl
    · rw [hl.ranges_eq]
      exact hl.oneDelimiter

/-- A zero byte before the first delimiter, and two parameter sets. -/
def leadingZero : List UInt8 :=
  [0, 0, 0, 0, 1, 9, 0xf0, 0, 0, 1, 0x67, 0x64, 0, 0x28, 0xac, 0, 0, 1, 0x68, 0xee]

/-- What is loaded from these bytes: the zero byte is the first access unit. -/
def leadingZeroLoaded : Loaded where
  fileData := leadingZero
  austarts := [0, 1]
  ausize := [1, 19]
  avcc := [1, 0x64, 0, 0x28, 0xff, 0xe1, 0, 5, 0x67, 0x64, 0, 0x28, 0xac, 1, 0, 2, 0x68, 0xee]

theorem not_splitsWell : ∃ nals, scanAnnexb leadingZero = some nals ∧
    load (some leadingZero) = some (some leadingZeroLoaded) ∧
    ¬ SplitsWell nals leadingZeroLoaded := by
  refine ⟨[⟨1, 5, 7, 9⟩, ⟨7, 10, 15, 7⟩, ⟨15, 18, 20, 8⟩], by decide +kernel,
    by decide +kernel, fun h => ?_⟩
  obtain ⟨u, hu, -, hend⟩ := h.hasNal (0, 1) (by decide)
  simp only [List.mem_cons, List.not_mem_nil, or_false] at hu
  rcases hu with rfl | rfl | rfl
  · exact absurd hend (by decide)
  · exact absurd hend (by decide)
  · exact absurd hend (by decide)

/-- A file that begins with its first delimiter. -/
theorem splitsWell_iff_delimiter :
    load (some leadingZero.tail)
      = some (some ⟨leadingZero.tail, [0], [19], leadingZeroLoaded.avcc⟩) ∧
    ∃ nals, scanAnnexb leadingZero.tail = some nals ∧
      (SplitsWell nals ⟨leadingZero.tail, [0], [19], leadingZeroLoaded.avcc⟩
        ↔ ¬ StrayBytes nals) := by
  have hload : load (some leadingZero.tail)
      = some (some ⟨leadingZero.tail, [0], [19], leadingZeroLoaded.avcc⟩) := by decide +kernel
  exact ⟨hload, splitsWell_iff _ _ hload⟩

end QcapDemos.Fixture
