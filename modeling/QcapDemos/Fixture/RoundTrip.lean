import QcapDemos.Fixture.Encode

set_option autoImplicit false

/-! # From the encode fixture to the decode fixture

The encoder's packets are access units: byte streams of NAL units of which the first is a delimiter,
and no other one. The decode fixture has only the bytes of the file, in which nothing says where a
packet ends. It still finds the packets again, and gives them to the decoder as they were popped.
-/

namespace QcapDemos.Fixture

open QcapDemos.Lib QcapDemos.Lib.AnnexB

/-! ## The scan of a byte stream -/

/-- The NAL units of a byte stream that begins at `i`, with the ends still to be set. -/
def found (i : Nat) : List Framed → List Nal
  | [] => []
  | f :: units =>
      ⟨i, i + (startCode f.long).length, 0, nalType f.unit.head⟩ :: found (i + f.bytes.length) units

theorem scanLoop_next {data : List UInt8} {i : Nat} (h : startPrefix (data.drop i) = 0) :
    scanLoop data i = scanLoop data (i + 1) := by
  by_cases hlt : i + 3 < data.length
  · rw [scanLoop, if_pos hlt, startCodeAt_eq hlt, h]
  · rw [scanLoop, if_neg hlt, scanLoop, if_neg (by omega)]

/-- The scan passes over the bytes of a unit. -/
theorem scanLoop_inside {data rest : List UInt8} {u : NalUnit} (left : List UInt8) :
    ∀ i taken, u.bytes = taken ++ left → data.drop i = left ++ rest →
      scanLoop data i = scanLoop data (i + left.length) := by
  induction left with
  | nil => exact fun i _ _ _ => rfl
  | cons b left ih =>
      intro i taken hunit hdrop
      have hnone : startPrefix (data.drop i) = 0 := by
        rw [hdrop]
        exact u.startPrefix_inside hunit (List.cons_ne_nil _ _) rest
      have hdrop' : data.drop (i + 1) = left ++ rest := by
        rw [← List.drop_drop, hdrop, List.cons_append, List.drop_one, List.tail_cons]
      calc
        scanLoop data i = scanLoop data (i + 1) := scanLoop_next hnone
        _ = scanLoop data (i + 1 + left.length) := by
          refine ih (i + 1) (taken ++ [b]) ?_ hdrop'
          rw [hunit, List.append_assoc, List.singleton_append]
        _ = scanLoop data (i + (b :: left).length) := by
          rw [List.length_cons, Nat.add_assoc, Nat.add_comm 1]

theorem length_framed (f : Framed) :
    f.bytes.length = (startCode f.long).length + f.unit.bytes.length :=
  List.length_append

/-- The scan notes a unit at its start code, and goes on behind it. -/
theorem scanLoop_framed {data rest : List UInt8} {f : Framed} {i : Nat}
    (hdrop : data.drop i = f.bytes ++ rest) :
    scanLoop data i = (scanLoop data (i + f.bytes.length)).map
      (⟨i, i + (startCode f.long).length, 0, nalType f.unit.head⟩ :: ·) := by
  have hlen : data.length - i = f.bytes.length + rest.length := by
    rw [← List.length_drop, hdrop, List.length_append]
  have hfour := f.four_le_length
  have hcode : startPrefix (data.drop i) = (startCode f.long).length := by
    rw [hdrop, Framed.bytes, List.append_assoc]
    exact startPrefix_startCode f.long _
  have hpayload : data.drop (i + (startCode f.long).length) = f.unit.bytes ++ rest := by
    rw [← List.drop_drop, hdrop, Framed.bytes, List.append_assoc, List.drop_left]
  have hhead : data[i + (startCode f.long).length]? = some f.unit.head := by
    have hfirst := congrArg List.head? hpayload
    rwa [List.head?_drop] at hfirst
  have hinside := scanLoop_inside f.unit.bytes (i + (startCode f.long).length) [] rfl hpayload
  rw [Nat.add_assoc, ← length_framed] at hinside
  rw [scanLoop, if_pos (by omega), startCodeAt_eq (by omega), hcode, ← hinside]
  obtain ⟨n, hn⟩ : ∃ n, (startCode f.long).length = n + 1 := by
    cases f.long with
    | false => exact ⟨2, rfl⟩
    | true => exact ⟨3, rfl⟩
  have hin : i + (n + 1) < data.length := by
    rw [← hn]
    exact (List.getElem?_eq_some_iff.mp hhead).1
  rw [hn] at hhead ⊢
  dsimp only
  rw [if_pos hin, hhead]
  rfl

theorem scanLoop_serialize {data : List UInt8} (units : List Framed) :
    ∀ i, data.drop i = serialize units → scanLoop data i = some (found i units) := by
  induction units with
  | nil =>
      intro i hdrop
      have hend : data.length ≤ i := List.drop_eq_nil_iff.mp hdrop
      rw [scanLoop, if_neg (by omega)]
      rfl
  | cons f units ih =>
      intro i hdrop
      rw [scanLoop_framed hdrop, ih]
      · rfl
      · rw [← List.drop_drop, hdrop, serialize_cons, List.drop_left]

/-! ## The NAL units of a byte stream -/

/-- The NAL units of a byte stream that begins at `i`. -/
def placed (i : Nat) : List Framed → List Nal
  | [] => []
  | f :: units =>
      ⟨i, i + (startCode f.long).length, i + f.bytes.length, nalType f.unit.head⟩ ::
        placed (i + f.bytes.length) units

theorem setEnds_found (units : List Framed) :
    ∀ i size, i + (serialize units).length = size →
      setEnds size (found i units) = placed i units := by
  induction units with
  | nil => exact fun _ _ _ => rfl
  | cons f units ih =>
      intro i size hsize
      rw [serialize_cons, List.length_append, ← Nat.add_assoc] at hsize
      have hrest := ih (i + f.bytes.length) size hsize
      cases units with
      | nil =>
          rw [serialize_nil, List.length_nil, Nat.add_zero] at hsize
          rw [found, found, setEnds, placed, placed, ← hsize]
      | cons g units =>
          rw [placed, ← hrest]
          rfl

theorem scan_serialize (units : List Framed) :
    scanLoop (serialize units) 0 = some (found 0 units) :=
  scanLoop_serialize units 0 rfl

theorem scanAnnexb_serialize (units : List Framed) :
    scanAnnexb (serialize units) = some (placed 0 units) := by
  rw [scanAnnexb, scan_serialize, Option.map_some, setEnds_found units 0 _ (Nat.zero_add _)]

theorem agrees_serialize (units : List Framed) :
    AgreesWithReference (serialize units) (placed 0 units) := by
  obtain ⟨nals, hscan, hspec⟩ := scanLoop_spec (serialize units) 0
  obtain rfl : found 0 units = nals := Option.some.inj ((scan_serialize units).symm.trans hscan)
  have hconsecutive : Consecutive (serialize units).length
      (setEnds (serialize units).length (found 0 units)) :=
    setEnds_consecutive hspec.ordered fun u hu =>
      ⟨(hspec.of_mem hu).start_lt, (hspec.of_mem hu).payload_lt⟩
  rw [← setEnds_found units 0 _ (Nat.zero_add _)]
  refine ⟨hconsecutive.pairwise_start, hconsecutive, fun start payload type => ?_,
    hconsecutive.flatten⟩
  rw [exists_mem_setEnds, hspec.mem]

theorem placed_append (before after : List Framed) :
    ∀ i, placed i (before ++ after)
      = placed i before ++ placed (i + (serialize before).length) after := by
  induction before with
  | nil => exact fun _ => rfl
  | cons f before ih =>
      intro i
      rw [List.cons_append, placed, placed, ih, serialize_cons, List.length_append, Nat.add_assoc,
        List.cons_append]

/-- The first unit of a type, among the units and in the byte stream. -/
theorem exists_firstOf {data : List UInt8} {type : UInt8} {f : Framed} (units : List Framed) :
    ∀ i, data.drop i = serialize units →
      units.find? (fun g => nalType g.unit.head == type) = some f →
      ∃ u, firstOf (placed i units) type = some u ∧ u.unit data = f.unit.bytes := by
  induction units with
  | nil =>
      intro i _ h
      cases h
  | cons g units ih =>
      intro i hdrop h
      rw [serialize_cons] at hdrop
      rw [firstOf, placed]
      cases htype : nalType g.unit.head == type with
      | true =>
          rw [List.find?_cons, htype] at h
          obtain rfl : g = f := Option.some.inj h
          refine ⟨_, by rw [List.find?_cons, htype], ?_⟩
          unfold Nal.unit
          rw [Nat.add_sub_add_left, length_framed, Nat.add_sub_cancel_left, ← List.drop_drop, hdrop,
            Framed.bytes, List.append_assoc, List.drop_left, List.take_left]
      | false =>
          rw [List.find?_cons, htype] at h
          rw [List.find?_cons, htype]
          refine ih (i + g.bytes.length) ?_ h
          rw [← List.drop_drop, hdrop, List.drop_left]

/-! ## Access units -/

/-- An access unit: a delimiter, and units that are no delimiters. -/
structure AccessUnit where
  delimiter : Framed
  rest : List Framed
  isDelimiter : nalType delimiter.unit.head = 9
  noOther : ∀ f ∈ rest, nalType f.unit.head ≠ 9

def AccessUnit.units (a : AccessUnit) : List Framed := a.delimiter :: a.rest

def AccessUnit.bytes (a : AccessUnit) : List UInt8 := serialize a.units

/-- The NAL units of access units that follow each other. -/
def stream (aus : List AccessUnit) : List Framed := aus.flatMap AccessUnit.units

/-- Where the access units begin, the first of them at `i`. -/
def starts (i : Nat) : List AccessUnit → List Nat
  | [] => []
  | a :: aus => i :: starts (i + a.bytes.length) aus

theorem serialize_append (before after : List Framed) :
    serialize (before ++ after) = serialize before ++ serialize after :=
  List.flatMap_append

theorem serialize_stream_cons (a : AccessUnit) (aus : List AccessUnit) :
    serialize (stream (a :: aus)) = a.bytes ++ serialize (stream aus) :=
  serialize_append a.units (stream aus)

theorem flatten_bytes (aus : List AccessUnit) :
    (aus.map AccessUnit.bytes).flatten = serialize (stream aus) := by
  induction aus with
  | nil => rfl
  | cons a aus ih => rw [List.map_cons, List.flatten_cons, ih, serialize_stream_cons]

theorem filter_placed {units : List Framed} (h : ∀ f ∈ units, nalType f.unit.head ≠ 9) :
    ∀ i, (placed i units).filter (·.type == 9) = [] := by
  induction units with
  | nil => exact fun _ => rfl
  | cons f units ih =>
      intro i
      have hhead : (nalType f.unit.head == 9) = false :=
        beq_eq_false_iff_ne.mpr (h f List.mem_cons_self)
      rw [placed, List.filter_cons, hhead]
      exact ih (fun g hg => h g (List.mem_cons_of_mem f hg)) _

/-- The delimiters of the stream are the ones of the access units. -/
theorem delimiters_stream (aus : List AccessUnit) :
    ∀ i, ((placed i (stream aus)).filter (·.type == 9)).map Nal.start = starts i aus := by
  induction aus with
  | nil => exact fun _ => rfl
  | cons a aus ih =>
      intro i
      have hdelimiter : (nalType a.delimiter.unit.head == 9) = true :=
        beq_iff_eq.mpr a.isDelimiter
      rw [show stream (a :: aus) = a.units ++ stream aus from rfl, placed_append,
        List.filter_append, AccessUnit.units, placed, List.filter_cons, hdelimiter,
        filter_placed a.noOther, starts, ← ih]
      rfl

theorem unitStarts_stream {aus : List AccessUnit} (hne : aus ≠ []) :
    unitStarts (placed 0 (stream aus)) = starts 0 aus := by
  unfold unitStarts
  rw [delimiters_stream]
  cases aus with
  | nil => exact absurd rfl hne
  | cons a aus => rfl

theorem sizesFrom_starts (aus : List AccessUnit) :
    ∀ i size, i + (serialize (stream aus)).length = size →
      sizesFrom size (starts i aus) = aus.map (·.bytes.length) := by
  induction aus with
  | nil => exact fun _ _ _ => rfl
  | cons a aus ih =>
      intro i size hsize
      rw [serialize_stream_cons, List.length_append] at hsize
      have hrest := ih (i + a.bytes.length) size (by omega)
      cases aus with
      | nil =>
          have hend : size - i = a.bytes.length := by
            have hnil : (serialize (stream [])).length = 0 := rfl
            omega
          rw [starts, starts, sizesFrom, hend]
          rfl
      | cons b aus =>
          rw [starts, starts, sizesFrom, Nat.add_sub_cancel_left, ← starts, hrest]
          rfl

theorem slices_starts {data : List UInt8} (aus : List AccessUnit) :
    ∀ i, data.drop i = serialize (stream aus) →
      List.zipWith (fun start size => (data.drop start).take size) (starts i aus)
        (aus.map (·.bytes.length)) = aus.map AccessUnit.bytes := by
  induction aus with
  | nil => exact fun _ _ => rfl
  | cons a aus ih =>
      intro i hdrop
      rw [serialize_stream_cons] at hdrop
      rw [starts, List.map_cons, List.zipWith_cons_cons, ih, hdrop, List.take_left, List.map_cons]
      rw [← List.drop_drop, hdrop, List.drop_left]

/-! ## The file -/

/-- The first parameter sets among the access units, of a size that a record holds. -/
structure Sets (aus : List AccessUnit) (sps pps : NalUnit) : Prop where
  sps_first : ∃ f, (stream aus).find? (fun g => nalType g.unit.head == 7) = some f ∧ f.unit = sps
  pps_first : ∃ f, (stream aus).find? (fun g => nalType g.unit.head == 8) = some f ∧ f.unit = pps
  sps_size : 4 ≤ sps.bytes.length ∧ sps.bytes.length ≤ 65535
  pps_size : pps.bytes.length ≤ 65535

/-- What is loaded from the access units. -/
def loadedStream (aus : List AccessUnit) (sps pps : NalUnit) : Loaded where
  fileData := serialize (stream aus)
  austarts := starts 0 aus
  ausize := aus.map (·.bytes.length)
  avcc := (recordOf sps.bytes pps.bytes).bytes

section File

variable {aus : List AccessUnit} {sps pps : NalUnit}

theorem Sets.ne_nil (h : Sets aus sps pps) : aus ≠ [] := by
  rintro rfl
  obtain ⟨f, hfind, -⟩ := h.sps_first
  cases hfind

theorem Sets.hasSets (h : Sets aus sps pps) :
    ∃ u v, HasSets (serialize (stream aus)) (placed 0 (stream aus)) u v ∧
      u.unit (serialize (stream aus)) = sps.bytes ∧
      v.unit (serialize (stream aus)) = pps.bytes := by
  obtain ⟨f, hsps, rfl⟩ := h.sps_first
  obtain ⟨g, hpps, rfl⟩ := h.pps_first
  have hdrop : (serialize (stream aus)).drop 0 = serialize (stream aus) := rfl
  obtain ⟨u, hu, hubytes⟩ := exists_firstOf (stream aus) 0 hdrop hsps
  obtain ⟨v, hv, hvbytes⟩ := exists_firstOf (stream aus) 0 hdrop hpps
  have hone : 1 ≤ g.unit.bytes.length := Nat.succ_le_succ (Nat.zero_le _)
  refine ⟨u, v, ⟨hu, hv, ?_, ?_⟩, hubytes, hvbytes⟩
  · rw [hubytes]
    exact h.sps_size
  · rw [hvbytes]
    exact ⟨hone, h.pps_size⟩

theorem load_stream (h : Sets aus sps pps) :
    load (some (serialize (stream aus))) = some (some (loadedStream aus sps pps)) := by
  obtain ⟨u, v, hsets, hu, hv⟩ := h.hasSets
  have hagrees := agrees_serialize (stream aus)
  have hnonempty : ¬ (serialize (stream aus)).isEmpty = true := by
    intro hempty
    have hin := hagrees.consecutive.endAt_le u (mem_of_firstOf hsets.sps_first)
    have hbounds := hagrees.consecutive.bounds u (mem_of_firstOf hsets.sps_first)
    rw [List.isEmpty_iff.mp hempty, List.length_nil] at hin
    omega
  have hsizes := sizesFrom_starts aus 0 _ (Nat.zero_add _)
  rw [load, if_neg hnonempty, scanAnnexb_serialize, Option.bind_eq_bind, Option.bind_some,
    makeAvcc_run hagrees hsets, hu, hv]
  simp only [Option.bind_eq_bind, Option.bind_some, if_true]
  rw [unitStarts_stream h.ne_nil, hsizes, loadedStream]

theorem units_loadedStream : (loadedStream aus sps pps).units = aus.map AccessUnit.bytes :=
  slices_starts aus 0 rfl

theorem length_starts (aus : List AccessUnit) : ∀ i, (starts i aus).length = aus.length := by
  induction aus with
  | nil => exact fun _ => rfl
  | cons a aus ih => exact fun i => congrArg (· + 1) (ih _)

theorem fitsInt_loadedStream (hne : aus ≠ []) (hcount : aus.length < 2 ^ 31)
    (hsizes : ∀ a ∈ aus, a.bytes.length < 2 ^ 31) : FitsInt (loadedStream aus sps pps) := by
  have hlength : (starts 0 aus).length = aus.length := length_starts aus 0
  refine ⟨?_, ?_, ?_, fun size hsize => ?_⟩
  · exact List.length_map _ |>.trans hlength.symm
  · rw [← List.length_pos_iff]
    exact hlength ▸ List.length_pos_iff.mpr hne
  · exact hlength ▸ hcount
  · obtain ⟨a, ha, rfl⟩ := List.mem_map.mp hsize
    exact hsizes a ha

end File

/-- What the decode fixture makes of a file with the given packets. -/
structure Restores (packets : List (List UInt8)) (file : List UInt8) (l : Loaded) : Prop where
  loads : load (some file) = some (some l)
  units : l.units = packets
  /-- Whatever the calls return, the decoder accepts the packets from the first one on. -/
  inOrder : ∀ fps clock events, 1 ≤ fps → ∃ s, handleAll l fps (.initial clock) events = some s ∧
    acceptedUnits s.log <+: packets
  /-- A run that returns 0 has given it all of them, and has popped a frame for each. -/
  complete : ∀ r : RunInput, r.testCase = 0 → r.file = some file → 1 ≤ r.fps → run r = some 0 →
    ∃ s, handleAll l r.fps (.initial r.setupClock) r.events = some s ∧
      acceptedUnits s.log = packets ∧ frameCount s.log = packets.length

theorem restores {aus : List AccessUnit} {sps pps : NalUnit} (h : Sets aus sps pps)
    (hcount : aus.length < 2 ^ 31) (hsizes : ∀ a ∈ aus, a.bytes.length < 2 ^ 31) :
    Restores (aus.map AccessUnit.bytes) (serialize (stream aus)) (loadedStream aus sps pps) := by
  have hl : FitsInt (loadedStream aus sps pps) := fitsInt_loadedStream h.ne_nil hcount hsizes
  refine ⟨load_stream h, units_loadedStream, fun fps clock events hfps => ?_,
    fun r hcase hfile hfps hzero => ?_⟩
  · obtain ⟨s, hs, hinv⟩ := handleAll_inv hl hfps events (inv_initial (units_ne_nil hl) clock)
    refine ⟨s, hs, ?_⟩
    rw [hinv.submits.units, units_loadedStream]
    exact List.take_prefix _ _
  · rw [run, if_neg (not_not.mpr hcase), hfile, load_stream h] at hzero
    split_ifs at hzero
    · exact absurd (Option.some.inj hzero) (by decide)
    obtain ⟨s, hs, hcompleted⟩ := runLoaded_eq_zero hl hfps hzero
    refine ⟨s, hs, hcompleted.units.trans units_loadedStream, ?_⟩
    rw [hcompleted.frames, List.length_map]
    exact length_starts aus 0

/-- **The packets survive the file.** Where the first packets that the encoder pops, one for each
picture, are access units, the file that the encode fixture leaves is loaded as exactly these
packets, and the decode fixture gives them to the decoder as they were popped. -/
theorem fixture_roundTrip (pictures slices : Int) (c : Encode.Calls) (aus : List AccessUnit)
    (sps pps : NalUnit) (hcode : (Encode.main pictures slices c).1 = 0)
    (hpictures : pictures < 2 ^ 31)
    (hpackets : ((c.popped pictures.toNat).take pictures.toNat).map Encode.Popped.data =
      aus.map AccessUnit.bytes)
    (hsets : Sets aus sps pps) :
    Restores (aus.map AccessUnit.bytes) (Encode.main pictures slices c).2.file
      (loadedStream aus sps pps) := by
  obtain ⟨hfails, -⟩ | ⟨-, hcomplete⟩ := Encode.main_cases pictures slices c
  · exact absurd hcode hfails
  obtain ⟨ps, hps, hlen, hfile, -⟩ := hcomplete.file
  obtain rfl : ps = (c.popped pictures.toNat).take pictures.toNat := by
    rw [List.prefix_iff_eq_take.mp hps, hlen]
  have hbytes : Encode.bytesOf ((c.popped pictures.toNat).take pictures.toNat) =
      serialize (stream aus) := by
    rw [Encode.bytesOf, List.flatMap_def, hpackets, flatten_bytes]
  have hcount : aus.length = pictures.toNat := by
    rw [← hlen, ← List.length_map (f := Encode.Popped.data), hpackets, List.length_map]
  have hsizes : ∀ a ∈ aus, a.bytes.length < 2 ^ 31 := by
    intro a ha
    have hmem := List.mem_map_of_mem (f := AccessUnit.bytes) ha
    rw [← hpackets] at hmem
    obtain ⟨p, -, hdata⟩ := List.mem_map.mp hmem
    exact hdata ▸ p.fits
  rw [hfile, hbytes]
  exact restores hsets (by omega) hsizes

/-- A unit without a zero byte. -/
def plainUnit (head : UInt8) (tail : List UInt8) (hzero : 0 ∉ head :: tail) : NalUnit where
  head := head
  tail := tail
  noStart := fun h => hzero (h.subset List.mem_cons_self)
  closed := fun h => hzero (h ▸ List.getLast_mem (List.cons_ne_nil head tail))

def smallSps : NalUnit := plainUnit 0x67 [0x64, 0x01, 0x28] (by decide)

def smallPps : NalUnit := plainUnit 0x68 [0xee] (by decide)

/-- A delimiter, and the units of a packet. -/
def smallPacket (rest : List Framed) (h : ∀ f ∈ rest, nalType f.unit.head ≠ 9) : AccessUnit where
  delimiter := ⟨true, plainUnit 9 [0xf0] (by decide)⟩
  rest := rest
  isDelimiter := by decide
  noOther := h

def smallPackets : List AccessUnit :=
  [smallPacket [⟨true, smallSps⟩, ⟨false, smallPps⟩] (by decide), smallPacket [] (by decide)]

/-- The encoder pops the first packet after the second picture, and the second one at the end. The
stream passes most of the bytes on with the second one, and the rest when it is flushed. -/
def smallCalls : Encode.Calls where
  opened := true
  started := true
  frame k :=
    { waits := []
      got := true
      filled := true
      push := true
      drain :=
        ⟨if k = 1 then [⟨serialize (stream (smallPackets.take 1)), by decide, 19, 0⟩] else [],
          true⟩ }
  flush := true
  last k := ⟨if k = 2 then [⟨serialize (stream (smallPackets.drop 1)), by decide, 6, 16⟩] else [],
    true⟩
  fflush := true
  flushed := 0
  closed := 0

theorem fixture_roundTrip_small :
    Restores (smallPackets.map AccessUnit.bytes) (Encode.main 2 4 smallCalls).2.file
      (loadedStream smallPackets smallSps smallPps) := by
  refine fixture_roundTrip 2 4 smallCalls smallPackets smallSps smallPps ?_ (by decide) ?_ ?_
  · decide +kernel
  · decide +kernel
  · exact ⟨⟨_, rfl, rfl⟩, ⟨_, rfl, rfl⟩, by decide, by decide⟩

end QcapDemos.Fixture
