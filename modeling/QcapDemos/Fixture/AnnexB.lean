import QcapDemos.Lib.AnnexB
import QcapDemos.Lib.Cut

set_option autoImplicit false

/-! # The decode fixture: finding the NAL units of a file

`scan_annexb` walks over the bytes of a file by index and notes each start code that a byte
follows; a second pass ends each unit where the next one starts. Every access to the bytes is an
access that can fail here, so that a scan which succeeds stayed within the bounds.
-/

namespace QcapDemos.Fixture

open QcapDemos.Lib QcapDemos.Lib.AnnexB

/-- The conversion of a `size_t` to `int`. -/
def int (n : Nat) : Int := Int.bmod n (2 ^ 32)

theorem int_eq {n : Nat} (h : n < 2 ^ 31) : int n = n := by
  unfold int
  rw [Int.bmod_eq_of_le (by omega) (by omega)]

structure Nal where
  start : Nat
  payload : Nat
  endAt : Nat
  type : UInt8
deriving DecidableEq

/-- The length of the start code at `i`, zero where there is none. The bytes are read one after
the other, as far as the comparisons need them. -/
def startCodeAt (data : List UInt8) (i : Nat) : Option Nat := do
  if (← data[i]?) = 0 then
    if (← data[i + 1]?) = 0 then
      let third ← data[i + 2]?
      if third = 1 then pure 3
      else if i + 4 ≤ data.length ∧ third = 0 then
        if (← data[i + 3]?) = 1 then pure 4 else pure 0
      else pure 0
    else pure 0
  else pure 0

/-- The loop of `scan_annexb` from `i` on, with the ends still to be set. -/
def scanLoop (data : List UInt8) (i : Nat) : Option (List Nal) :=
  if i + 3 < data.length then
    match startCodeAt data i with
    | none => none
    | some 0 => scanLoop data (i + 1)
    | some (n + 1) =>
        let payload := i + (n + 1)
        if payload < data.length then
          match data[payload]? with
          | none => none
          | some head => (scanLoop data payload).map
              ({ start := i, payload := payload, endAt := 0, type := head &&& 0x1f } :: ·)
        else scanLoop data payload
  else some []
termination_by data.length - i

/-- The second pass: a unit ends where the next one starts, the last one at the end. -/
def setEnds (size : Nat) : List Nal → List Nal
  | [] => []
  | [u] => [{ u with endAt := size }]
  | u :: v :: rest => { u with endAt := v.start } :: setEnds size (v :: rest)

def scanAnnexb (data : List UInt8) : Option (List Nal) :=
  (scanLoop data 0).map (setEnds data.length)

/-! ## One start code -/

/-- The four bytes at a position within the bound of the loop. -/
theorem exists_four_bytes {data : List UInt8} {i : Nat} (h : i + 3 < data.length) :
    ∃ a b c d rest, data.drop i = a :: b :: c :: d :: rest ∧ data[i]? = some a ∧
      data[i + 1]? = some b ∧ data[i + 2]? = some c ∧ data[i + 3]? = some d := by
  obtain ⟨a, b, c, d, rest, hdrop⟩ : ∃ a b c d rest, data.drop i = a :: b :: c :: d :: rest := by
    have hlen : 4 ≤ (data.drop i).length := by
      rw [List.length_drop]
      omega
    match hd : data.drop i, hlen with
    | a :: b :: c :: d :: rest, _ => exact ⟨a, b, c, d, rest, rfl⟩
  have hread (k : Nat) : data[i + k]? = (a :: b :: c :: d :: rest)[k]? := by
    rw [← hdrop, List.getElem?_drop]
  exact ⟨a, b, c, d, rest, hdrop, hread 0, hread 1, hread 2, hread 3⟩

/-- Within the bound of the loop the comparisons recognise a start code, and read no byte
beyond the data. -/
theorem startCodeAt_eq {data : List UInt8} {i : Nat} (h : i + 3 < data.length) :
    startCodeAt data i = some (startPrefix (data.drop i)) := by
  obtain ⟨a, b, c, d, rest, hdrop, ha, hb, hc, hd⟩ := exists_four_bytes h
  have hfour : i + 4 ≤ data.length := by omega
  rw [hdrop]
  unfold startCodeAt startPrefix
  simp only [ha, hb, hc, hd, Option.bind_eq_bind, Option.bind_some, hfour, true_and,
    List.take_succ_cons, List.take_zero, List.cons.injEq, and_true]
  -- the source tests the longer code first, and the two differ in the third byte
  by_cases ha0 : a = 0
  · by_cases hb0 : b = 0
    · by_cases hc1 : c = 1
      · simp [ha0, hb0, hc1]
      · by_cases hc0 : c = 0
        · by_cases hd1 : d = 1
          · simp [ha0, hb0, hc0, hd1]
          · simp [ha0, hb0, hc0, hd1]
        · simp [ha0, hb0, hc1, hc0]
    · simp [ha0, hb0]
  · simp [ha0]

theorem startPrefix_of_startCodeAt {data : List UInt8} {i n : Nat} (h : i + 3 < data.length)
    (hcode : startCodeAt data i = some n) : startPrefix (data.drop i) = n :=
  Option.some.inj ((startCodeAt_eq h).symm.trans hcode)

/-- Beyond the bound of the loop no start code has a byte after it. -/
theorem length_le_of_code {data : List UInt8} {i : Nat} (h : ¬ i + 3 < data.length)
    (hcode : startPrefix (data.drop i) ≠ 0) :
    data.length ≤ i + startPrefix (data.drop i) := by
  have hthree := three_le_startPrefix hcode
  omega

/-! ## The units of a scan -/

/-- What the reference says of a unit: a scan from `i` comes to its start code, a byte follows
the code, and the type is in the low five bits of that byte. -/
structure IsUnit (data : List UInt8) (i start payload : Nat) (type : UInt8) : Prop where
  visited : Visits data i start
  code : startPrefix (data.drop start) ≠ 0
  payload_eq : payload = start + startPrefix (data.drop start)
  followed : ∃ head, data[payload]? = some head ∧ type = head &&& 0x1f

theorem IsUnit.payload_lt {data : List UInt8} {i start payload : Nat} {type : UInt8}
    (h : IsUnit data i start payload type) : payload < data.length := by
  obtain ⟨head, hhead, -⟩ := h.followed
  exact (List.getElem?_eq_some_iff.mp hhead).1

theorem IsUnit.start_lt {data : List UInt8} {i start payload : Nat} {type : UInt8}
    (h : IsUnit data i start payload type) : start < payload := by
  have hthree := three_le_startPrefix h.code
  have heq := h.payload_eq
  omega

/-- The loop finds the units of the reference, in the order of their starts. -/
structure ScanSpec (data : List UInt8) (i : Nat) (nals : List Nal) : Prop where
  mem : ∀ start payload type, (∃ u ∈ nals, u.start = start ∧ u.payload = payload ∧
    u.type = type) ↔ IsUnit data i start payload type
  ordered : nals.Pairwise fun u v => u.payload ≤ v.start

theorem ScanSpec.of_mem {data : List UInt8} {i : Nat} {nals : List Nal}
    (h : ScanSpec data i nals) {u : Nal} (hu : u ∈ nals) :
    IsUnit data i u.start u.payload u.type :=
  (h.mem _ _ _).mp ⟨u, hu, rfl, rfl, rfl⟩

/-- Where the loop ends the reference finds nothing more. -/
theorem scanSpec_end {data : List UInt8} {i : Nat} (h : ¬ i + 3 < data.length) :
    ScanSpec data i [] := by
  refine ⟨fun start payload type => ⟨?_, fun hunit => ?_⟩, List.Pairwise.nil⟩
  · rintro ⟨u, hu, -⟩
    cases hu
  · have hle := hunit.visited.le
    have hlt := hunit.payload_lt
    have hend := length_le_of_code (by omega) hunit.code
    have heq := hunit.payload_eq
    omega

theorem scanSpec_next {data : List UInt8} {i : Nat} {nals : List Nal}
    (hlt : i < data.length) (hnone : startPrefix (data.drop i) = 0)
    (h : ScanSpec data (i + 1) nals) : ScanSpec data i nals := by
  refine ⟨fun start payload type => ?_, h.ordered⟩
  rw [h.mem]
  constructor
  · rintro ⟨hvisited, hcode, hpayload, hfollowed⟩
    exact ⟨(Visits.of_succ hlt hnone hcode).mpr hvisited, hcode, hpayload, hfollowed⟩
  · rintro ⟨hvisited, hcode, hpayload, hfollowed⟩
    exact ⟨(Visits.of_succ hlt hnone hcode).mp hvisited, hcode, hpayload, hfollowed⟩

/-- A start code at `i` that no byte follows adds nothing. -/
theorem scanSpec_last {data : List UInt8} {i : Nat} {nals : List Nal}
    (hcode : startPrefix (data.drop i) ≠ 0)
    (hlast : ¬ i + startPrefix (data.drop i) < data.length)
    (h : ScanSpec data (i + startPrefix (data.drop i)) nals) : ScanSpec data i nals := by
  refine ⟨fun start payload type => ?_, h.ordered⟩
  rw [h.mem]
  constructor
  · rintro ⟨hvisited, hc, hpayload, hfollowed⟩
    exact ⟨(Visits.of_code hcode).mpr (.inr hvisited), hc, hpayload, hfollowed⟩
  · intro hunit
    rcases (Visits.of_code hcode).mp hunit.visited with rfl | hvisited
    · exact absurd (hunit.payload_eq ▸ hunit.payload_lt) hlast
    · exact ⟨hvisited, hunit.code, hunit.payload_eq, hunit.followed⟩

/-- A start code at `i` that a byte follows is the first unit. -/
theorem scanSpec_cons {data : List UInt8} {i : Nat} {nals : List Nal} {head : UInt8}
    (hcode : startPrefix (data.drop i) ≠ 0)
    (hhead : data[i + startPrefix (data.drop i)]? = some head)
    (h : ScanSpec data (i + startPrefix (data.drop i)) nals) :
    ScanSpec data i (⟨i, i + startPrefix (data.drop i), 0, head &&& 0x1f⟩ :: nals) := by
  refine ⟨fun start payload type => ?_, List.Pairwise.cons ?_ h.ordered⟩
  · constructor
    · rintro ⟨u, hu, rfl, rfl, rfl⟩
      rcases List.mem_cons.mp hu with rfl | hu
      · exact ⟨Visits.here i, hcode, rfl, head, hhead, rfl⟩
      · have hunit := h.of_mem hu
        exact ⟨(Visits.of_code hcode).mpr (.inr hunit.visited), hunit.code, hunit.payload_eq,
          hunit.followed⟩
    · intro hunit
      rcases (Visits.of_code hcode).mp hunit.visited with rfl | hvisited
      · obtain ⟨head', hhead', rfl⟩ := hunit.followed
        rw [hunit.payload_eq, hhead] at hhead'
        cases hhead'
        exact ⟨_, List.mem_cons_self, rfl, hunit.payload_eq.symm, rfl⟩
      · obtain ⟨u, hu, hstart, hpayload, htype⟩ :=
          (h.mem start payload type).mpr ⟨hvisited, hunit.code, hunit.payload_eq, hunit.followed⟩
        exact ⟨u, List.mem_cons_of_mem _ hu, hstart, hpayload, htype⟩
  · intro v hv
    exact (h.of_mem hv).visited.le

/-- The loop runs to its end, within the bounds of the data, and finds the units of the
reference. -/
theorem scanLoop_spec (data : List UInt8) (i : Nat) :
    ∃ nals, scanLoop data i = some nals ∧ ScanSpec data i nals := by
  induction i using scanLoop.induct data with
  | case1 i hlt hfail =>
      -- below the bound of the loop all four reads are inside
      rw [startCodeAt_eq hlt] at hfail
      cases hfail
  | case2 i hlt hnone ih =>
      obtain ⟨nals, hscan, hspec⟩ := ih
      have hzero : startPrefix (data.drop i) = 0 :=
        startPrefix_of_startCodeAt hlt hnone
      refine ⟨nals, ?_, scanSpec_next (by omega) hzero hspec⟩
      rw [scanLoop, if_pos hlt, hnone]
      exact hscan
  | case3 i hlt n hcode payload hin hfail =>
      rw [List.getElem?_eq_getElem hin] at hfail
      cases hfail
  | case4 i hlt n hcode payload hin head hhead ih =>
      obtain ⟨nals, hscan, hspec⟩ := ih
      have hzeros : startPrefix (data.drop i) = n + 1 :=
        startPrefix_of_startCodeAt hlt hcode
      have hread : data[i + (n + 1)]? = some head := hhead
      have hrest : scanLoop data (i + (n + 1)) = some nals := hscan
      have hne : startPrefix (data.drop i) ≠ 0 := by omega
      have hread' : data[i + startPrefix (data.drop i)]? = some head := by rw [hzeros, hread]
      have hcons := scanSpec_cons hne hread' (by rw [hzeros]; exact hspec)
      rw [hzeros] at hcons
      refine ⟨_, ?_, hcons⟩
      rw [scanLoop, if_pos hlt, hcode]
      show (if payload < data.length then _ else _) = _
      rw [if_pos hin, hread, hrest]
      rfl
  | case5 i hlt n hcode payload hin ih =>
      obtain ⟨nals, hscan, hspec⟩ := ih
      have hzeros : startPrefix (data.drop i) = n + 1 :=
        startPrefix_of_startCodeAt hlt hcode
      have hne : startPrefix (data.drop i) ≠ 0 := by omega
      refine ⟨nals, ?_, scanSpec_last hne (by rw [hzeros]; exact hin)
        (by rw [hzeros]; exact hspec)⟩
      rw [scanLoop, if_pos hlt, hcode]
      show (if payload < data.length then _ else _) = _
      rw [if_neg hin]
      exact hscan
  | case6 i hge =>
      refine ⟨[], ?_, scanSpec_end hge⟩
      rw [scanLoop, if_neg hge]

/-! ## The ends of the units -/

theorem map_setEnds (size : Nat) (nals : List Nal) :
    (setEnds size nals).map (fun u => (u.start, u.payload, u.type))
      = nals.map fun u => (u.start, u.payload, u.type) := by
  fun_induction setEnds size nals with
  | case1 => rfl
  | case2 u => rfl
  | case3 u v rest ih =>
      rw [List.map_cons, ih]
      rfl

/-- The same units, whatever their ends. -/
theorem exists_mem_setEnds {size : Nat} {nals : List Nal} {start payload : Nat} {type : UInt8} :
    (∃ u ∈ setEnds size nals, u.start = start ∧ u.payload = payload ∧ u.type = type) ↔
      ∃ u ∈ nals, u.start = start ∧ u.payload = payload ∧ u.type = type := by
  have hmem (l : List Nal) :
      (∃ u ∈ l, u.start = start ∧ u.payload = payload ∧ u.type = type) ↔
        (start, payload, type) ∈ l.map fun u => (u.start, u.payload, u.type) := by
    simp only [List.mem_map, Prod.mk.injEq]
  rw [hmem, hmem, map_setEnds]

/-- The bytes of a unit, start code included. -/
def Nal.bytes (data : List UInt8) (u : Nal) : List UInt8 := slice data (u.start, u.endAt)

/-- The ranges of the units follow each other up to the end of the data. -/
structure Consecutive (size : Nat) (nals : List Nal) : Prop where
  bounds : ∀ u ∈ nals, u.start < u.payload ∧ u.payload ≤ u.endAt
  chained : nals.IsChain fun u v => u.endAt = v.start
  last : ∀ u ∈ nals.getLast?, u.endAt = size

theorem Consecutive.tail {size : Nat} {u : Nal} {rest : List Nal} (hne : rest ≠ [])
    (h : Consecutive size (u :: rest)) : Consecutive size rest := by
  refine ⟨fun v hv => h.bounds v (List.mem_cons_of_mem u hv), h.chained.tail, ?_⟩
  rw [← List.getLast?_cons_of_ne_nil hne]
  exact h.last

theorem setEnds_consecutive {size : Nat} {nals : List Nal}
    (hordered : nals.Pairwise fun u v => u.payload ≤ v.start)
    (hbounds : ∀ u ∈ nals, u.start < u.payload ∧ u.payload < size) :
    Consecutive size (setEnds size nals) := by
  fun_induction setEnds size nals with
  | case1 => exact ⟨by simp, List.IsChain.nil, by simp⟩
  | case2 u =>
      have hu := hbounds u List.mem_cons_self
      refine ⟨?_, List.IsChain.singleton _, by simp⟩
      intro v hv
      obtain rfl := List.mem_singleton.mp hv
      exact ⟨hu.1, hu.2.le⟩
  | case3 u v rest ih =>
      have hrest := ih hordered.tail fun w hw => hbounds w (List.mem_cons_of_mem u hw)
      have hu := hbounds u List.mem_cons_self
      have huv := List.rel_of_pairwise_cons hordered List.mem_cons_self
      -- the second pass keeps the start of the next unit
      obtain ⟨w, tail, hw, hstart⟩ : ∃ w tail, setEnds size (v :: rest) = w :: tail ∧
          w.start = v.start := by
        cases rest with
        | nil => exact ⟨_, _, rfl, rfl⟩
        | cons x rest => exact ⟨_, _, rfl, rfl⟩
      rw [hw] at hrest ⊢
      refine ⟨?_, List.isChain_cons_cons.mpr ⟨hstart.symm, hrest.chained⟩, ?_⟩
      · intro x hx
        rcases List.mem_cons.mp hx with rfl | hx
        · exact ⟨hu.1, huv⟩
        · exact hrest.bounds x hx
      · rw [List.getLast?_cons_of_ne_nil (List.cons_ne_nil w tail)]
        exact hrest.last

theorem Consecutive.pairwise_start {size : Nat} {nals : List Nal} (h : Consecutive size nals) :
    nals.Pairwise fun u v => u.start < v.start := by
  let before (u v : Nal) : Prop := u.start < v.start
  have htrans : Trans before before before := ⟨fun huv hvw => Nat.lt_trans huv hvw⟩
  refine List.isChain_iff_pairwise.mp (h.chained.imp_of_mem_imp ?_)
  intro u v hu _ huv
  have hbounds := h.bounds u hu
  show u.start < v.start
  omega

theorem Consecutive.sorted {size : Nat} {nals : List Nal} (h : Consecutive size nals) :
    (nals.map Nal.start).Pairwise (· < ·) := List.pairwise_map.mpr h.pairwise_start

/-- The ranges of the units are those that the starts cut. -/
theorem Consecutive.ranges {size : Nat} {nals : List Nal} (h : Consecutive size nals) :
    nals.map (fun u => (u.start, u.endAt)) = cut size (nals.map Nal.start) := by
  induction nals with
  | nil => rfl
  | cons u rest ih =>
      cases rest with
      | nil =>
          have hlast : u.endAt = size := h.last u rfl
          rw [List.map_singleton, hlast]
          rfl
      | cons v rest =>
          have huv : u.endAt = v.start := (List.isChain_cons_cons.mp h.chained).1
          rw [List.map_cons, ih (h.tail (List.cons_ne_nil v rest)), huv]
          rfl

/-- The units hold all bytes from the first of them on. -/
theorem Consecutive.flatten {data : List UInt8} {nals : List Nal}
    (h : Consecutive data.length nals) :
    ∀ u ∈ nals.head?, (nals.map (Nal.bytes data)).flatten = data.drop u.start := by
  intro u hu
  obtain ⟨rest, rfl⟩ := List.head?_eq_some_iff.mp hu
  have hmap : (u :: rest).map (Nal.bytes data)
      = ((u :: rest).map fun u => (u.start, u.endAt)).map (slice data) := by
    rw [List.map_map]
    rfl
  rw [hmap, h.ranges]
  exact flatten_cut data h.sorted

theorem Consecutive.mem_cut {size : Nat} {nals : List Nal} (h : Consecutive size nals) {u : Nal}
    (hu : u ∈ nals) : (u.start, u.endAt) ∈ cut size (nals.map Nal.start) :=
  h.ranges ▸ List.mem_map_of_mem (f := fun u => (u.start, u.endAt)) hu

theorem Consecutive.endAt_le {size : Nat} {nals : List Nal} (h : Consecutive size nals) :
    ∀ u ∈ nals, u.endAt ≤ size := by
  induction nals with
  | nil => simp
  | cons v rest ih =>
      cases rest with
      | nil =>
          intro u hu
          obtain rfl := List.mem_singleton.mp hu
          exact (h.last u rfl).le
      | cons w rest =>
          have hrest := ih (h.tail (List.cons_ne_nil w rest))
          have hvw : v.endAt = w.start := (List.isChain_cons_cons.mp h.chained).1
          have hw := h.bounds w (List.mem_cons_of_mem v List.mem_cons_self)
          have hwend := hrest w List.mem_cons_self
          intro u hu
          rcases List.mem_cons.mp hu with rfl | hu
          · omega
          · exact hrest u hu

/-- A unit ends before any later one starts. -/
theorem Consecutive.endAt_le_start {size : Nat} {nals : List Nal} (h : Consecutive size nals)
    {u v : Nal} (hu : u ∈ nals) (hv : v ∈ nals) (huv : u.start < v.start) :
    u.endAt ≤ v.start := by
  by_contra hlt
  have heq := eq_of_mem_cut h.sorted (h.mem_cut hu) (List.mem_map_of_mem hv) huv.le (by omega)
  have hstart : v.start = u.start := heq
  omega

/-! ## The whole scan -/

/-- A split of the data into the units of the reference. -/
structure AgreesWithReference (data : List UInt8) (nals : List Nal) : Prop where
  ordered : nals.Pairwise fun u v => u.start < v.start
  consecutive : Consecutive data.length nals
  units : ∀ start payload type, (∃ u ∈ nals, u.start = start ∧ u.payload = payload ∧
    u.type = type) ↔ IsUnit data 0 start payload type
  partition : ∀ u ∈ nals.head?, (nals.map (Nal.bytes data)).flatten = data.drop u.start

/-- **The scan agrees with the reference split**, for all data, and never reads outside. -/
theorem scanAnnexb_spec (data : List UInt8) :
    ∃ nals, scanAnnexb data = some nals ∧ AgreesWithReference data nals := by
  obtain ⟨nals, hscan, hspec⟩ := scanLoop_spec data 0
  have hconsecutive : Consecutive data.length (setEnds data.length nals) := by
    refine setEnds_consecutive hspec.ordered fun u hu => ?_
    have hunit := hspec.of_mem hu
    exact ⟨hunit.start_lt, hunit.payload_lt⟩
  refine ⟨setEnds data.length nals, by rw [scanAnnexb, hscan]; rfl, ?_⟩
  refine ⟨hconsecutive.pairwise_start, hconsecutive, ?_, ?_⟩
  · intro start payload type
    rw [exists_mem_setEnds, hspec.mem]
  · exact hconsecutive.flatten

example : scanAnnexb [0, 0, 1, 9, 0, 0, 0, 1, 7] = some [⟨0, 3, 4, 9⟩, ⟨4, 8, 9, 7⟩] := by
  decide +kernel

end QcapDemos.Fixture
