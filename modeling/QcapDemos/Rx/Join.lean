import QcapDemos.Tx.Venc
import QcapDemos.Rx.Keyframe

set_option autoImplicit false

/-! # The video stream from the sender to a receiver

What the sender puts on its pads is what the scans of the receiver read. A receiver joins at any
point, and its decoder waits for an IDR slice and for the parameter sets in the stream. The types
that the receiver finds in a unit of the stream are those that the sender put there, so that the
first unit its decoder is given holds all that is needed to decode it.
-/

namespace QcapDemos.Rx

open QcapDemos.Lib QcapDemos.Lib.AnnexB
open QcapDemos.Tx (EncoderPacket VideoPads Emission DanteTx unitType isParameterSet SPS PPS IDR)

/-! ## Reading what was serialized -/

/-- No start code begins inside a unit. -/
theorem drop_unit_ne {u : NalUnit} {rest after : List UInt8} {code : Bool} {k : Nat}
    (hk : k < u.bytes.length) : (u.bytes ++ rest).drop k ≠ startCode code ++ after := by
  intro h
  have hne : u.bytes.drop k ≠ [] := List.ne_nil_of_length_pos (by rw [List.length_drop]; omega)
  have hnone := u.startPrefix_inside (List.take_append_drop k u.bytes).symm hne rest
  rw [← List.drop_append_of_le_length hk.le, h, startPrefix_startCode] at hnone
  cases code with
  | false => cases hnone
  | true => cases hnone

/-- A scan that stands on the start code of a unit, or on the short one inside a long one, finds the
type of the unit; elsewhere in it the scan finds nothing. -/
theorem typeAt_framed {f : Framed} {rest : List UInt8} {i : Nat} {t : UInt8}
    (h : typeAt (f.bytes ++ rest) i = some t) (hi : i < f.bytes.length) : unitType f = t := by
  obtain ⟨long, unit⟩ := f
  obtain ⟨code, head, after, hdrop, rfl⟩ := typeAt_eq_some.mp h
  have hbytes : Framed.bytes ⟨long, unit⟩ ++ rest = startCode long ++ (unit.bytes ++ rest) :=
    List.append_assoc _ _ _
  have hlen : (Framed.bytes ⟨long, unit⟩).length = (startCode long).length + unit.bytes.length :=
    List.length_append
  rw [hbytes] at hdrop
  rcases Nat.lt_or_ge i (startCode long).length with hcode | hcode
  · cases long with
    | false =>
        have hcases : i = 0 ∨ i = 1 ∨ i = 2 := by
          simp only [startCode, Bool.false_eq_true, if_false, List.length_cons,
            List.length_nil] at hcode
          omega
        rcases hcases with rfl | rfl | rfl <;> cases code <;>
          simp [startCode, NalUnit.bytes] at hdrop
        exact congrArg nalType hdrop.1
    | true =>
        have hcases : i = 0 ∨ i = 1 ∨ i = 2 ∨ i = 3 := by
          simp only [startCode, if_true, List.length_cons, List.length_nil] at hcode
          omega
        rcases hcases with rfl | rfl | rfl | rfl <;> cases code <;>
          simp [startCode, NalUnit.bytes] at hdrop
        · exact congrArg nalType hdrop.1
        · exact congrArg nalType hdrop.1
  · obtain ⟨k, rfl⟩ := Nat.exists_eq_add_of_le hcode
    rw [← List.drop_drop, List.drop_left] at hdrop
    exact absurd hdrop (drop_unit_ne (by omega))

/-- The types that a scan finds in a byte stream are those of its units. -/
theorem exists_typeAt_serialize {units : List Framed} {t : UInt8} :
    (∃ i, typeAt (serialize units) i = some t) ↔ ∃ f ∈ units, unitType f = t := by
  constructor
  · rintro ⟨i, h⟩
    induction units generalizing i with
    | nil => exact absurd (lt_of_typeAt h) (by simp)
    | cons f units ih =>
        rw [serialize_cons] at h
        rcases Nat.lt_or_ge i f.bytes.length with hi | hi
        · exact ⟨f, List.mem_cons_self, typeAt_framed h hi⟩
        · obtain ⟨k, rfl⟩ := Nat.exists_eq_add_of_le hi
          obtain ⟨code, head, after, hdrop, ht⟩ := typeAt_eq_some.mp h
          rw [← List.drop_drop, List.drop_left] at hdrop
          obtain ⟨g, hg, htype⟩ := ih k (typeAt_eq_some.mpr ⟨code, head, after, hdrop, ht⟩)
          exact ⟨g, List.mem_cons_of_mem f hg, htype⟩
  · rintro ⟨f, hf, rfl⟩
    obtain ⟨before, after, rfl⟩ := List.append_of_mem hf
    refine ⟨(serialize before).length, typeAt_eq_some.mpr
      ⟨f.long, f.unit.head, f.unit.tail ++ serialize after, ?_, rfl⟩⟩
    have hsplit : serialize (before ++ f :: after) =
        serialize before ++ (f.bytes ++ serialize after) := List.flatMap_append
    rw [hsplit, List.drop_left]
    simp [Framed.bytes, NalUnit.bytes]

theorem mem_typesFrom_serialize {units : List Framed} {t : UInt8} :
    t ∈ typesFrom (serialize units) 0 ((serialize units).length - 3) ↔
      ∃ f ∈ units, unitType f = t := by
  rw [mem_typesFrom, ← exists_typeAt_serialize]
  constructor
  · rintro ⟨i, -, -, h⟩
    exact ⟨i, h⟩
  · rintro ⟨i, h⟩
    have hlt := lt_of_typeAt h
    exact ⟨i, Nat.zero_le i, by omega, h⟩

/-- The feed of the decoder finds an IDR slice exactly if one of the units is one. -/
theorem feedHasIdr_serialize (units : List Framed) :
    feedHasIdr (serialize units) = some (units.any fun f => unitType f == IDR) := by
  obtain ⟨hasIdr, hfeed, hexact⟩ := feedHasIdr_spec (serialize units)
  rw [hasIdr_iff, mem_typesFrom_serialize] at hexact
  rw [hfeed, Option.some.injEq, Bool.eq_iff_iff, hexact, List.any_eq_true]
  simp [IDR]

/-! ## What is sent -/

/-- The parameter sets of the latest packet with both an SPS and a PPS, behind long start codes. -/
def configUnits (ps : List EncoderPacket) : List Framed :=
  ((ps.filter EncoderPacket.hasConfig).getLast?.map fun q =>
    (q.units.filter isParameterSet).map fun f => ⟨true, f.unit⟩).getD []

/-- The units that are to be sent for `p` after the packets `ps`. -/
def sentUnits (ps : List EncoderPacket) (p : EncoderPacket) : List Framed :=
  (if p.isKey ∧ p.hasConfig = false then configUnits ps else []) ++ p.units

/-- What is put on the pads. -/
def onPads : Tx.Output → Option Emission
  | .pushed e => some e
  | .none | .broadcast _ => none

/-- What the sender puts on its pads, in order. -/
def emissions (pads : VideoPads) (ps : List EncoderPacket) : List Emission :=
  ((Tx.venc false).outputs (some (Tx.danteTx pads)) (ps.map fun p => some p.popped)).filterMap
    onPads

/-- The encoder ends no packet with a parameter set, which the sender would cut. -/
def Whole (ps : List EncoderPacket) : Prop :=
  ∀ p ∈ ps, p.hasConfig = true → ¬ p.EndsInParameterSet

section Sent

variable {pads : VideoPads} {ps : List EncoderPacket} {p : EncoderPacket}

theorem latestConfig_eq (ps : List EncoderPacket) :
    Tx.latestConfig ps = serialize (configUnits ps) := by
  unfold Tx.latestConfig configUnits
  cases (ps.filter EncoderPacket.hasConfig).getLast? with
  | none => rfl
  | some q =>
      show (q.units.filter isParameterSet).flatMap (fun f => Tx.parameterSet f.unit.bytes) =
        ((q.units.filter isParameterSet).map fun f => ⟨true, f.unit⟩).flatMap Framed.bytes
      rw [List.flatMap_map]
      rfl

/-- What is put in front of the bytes of `p`, as far as the scan has kept it. -/
def prefixed (ps : List EncoderPacket) (p : EncoderPacket) : List UInt8 :=
  if p.isKey ∧ p.hasConfig = false then Tx.seenConfig ps else []

theorem prefixed_eq (hwhole : Whole ps) :
    prefixed ps p ++ p.bytes = serialize (sentUnits ps p) := by
  unfold prefixed sentUnits
  rw [Tx.seenConfig_eq hwhole, latestConfig_eq]
  split_ifs with hput
  · exact List.flatMap_append.symm
  · rfl

theorem emissions_step (pads : VideoPads) (ps : List EncoderPacket) (p : EncoderPacket) :
    emissions pads (ps ++ [p]) = emissions pads ps ++
      (onPads ((Tx.venc false).step (Tx.afterPackets pads ps) (some p.popped)).2).toList := by
  unfold emissions
  rw [List.map_append, List.map_singleton, Machine.outputs_snoc, List.filterMap_append]
  congr 1

/-- What is put on the pads for one more packet. -/
theorem emissions_snoc (hopen : pads.Open) (ps : List EncoderPacket) (p : EncoderPacket) :
    emissions pads (ps ++ [p]) = emissions pads ps ++
      if p.created && p.copied then
        [{ data := prefixed ps p ++ p.bytes, keyframe := p.isKey, pads := pads }]
      else [] := by
  obtain ⟨frames, bytes, hstate⟩ := Tx.afterPackets_spec pads hopen ps
  obtain ⟨frames', bytes', hstep⟩ :=
    Tx.onVenc_packet ⟨pads, Tx.seenConfig ps, frames, bytes⟩ p hopen
  have hout := congrArg Prod.snd hstep
  rw [← hstate] at hout
  have hdata : (if p.isKey ∧ p.hasConfig = false then Tx.seenConfig ps ++ p.bytes else p.bytes) =
      prefixed ps p ++ p.bytes := by
    unfold prefixed
    split_ifs with hput
    · rfl
    · rfl
  simp only [hdata] at hout
  rw [emissions_step]
  refine congrArg (_ ++ ·) ((congrArg (fun o => (onPads o).toList) hout).trans ?_)
  split_ifs with halloc
  · rfl
  · rfl

/-- Every unit of the stream was sent for one of the packets. -/
theorem exists_of_mem_emissions (hopen : pads.Open) {e : Emission} (he : e ∈ emissions pads ps) :
    ∃ before p after, ps = before ++ p :: after ∧
      e = { data := prefixed before p ++ p.bytes, keyframe := p.isKey, pads := pads } := by
  induction ps using List.reverseRecOn with
  | nil => cases he
  | append_singleton ps p ih =>
      rw [emissions_snoc hopen, List.mem_append] at he
      rcases he with hold | hnew
      · obtain ⟨before, q, after, rfl, heq⟩ := ih hold
        exact ⟨before, q, after ++ [p], by simp, heq⟩
      · split_ifs at hnew with halloc
        · exact ⟨ps, p, [], rfl, List.mem_singleton.mp hnew⟩
        · cases hnew

end Sent

/-! ## Joining -/

/-- The feed of the decoder finds an IDR slice in the unit, and a scan finds the types of an SPS and
of a PPS in it as well. -/
structure SelfContained (e : Emission) : Prop where
  idr : feedHasIdr e.data = some true
  sps : SPS ∈ typesFrom e.data 0 (e.data.length - 3)
  pps : PPS ∈ typesFrom e.data 0 (e.data.length - 3)

section Join

variable {pads : VideoPads} {ps : List EncoderPacket} {p : EncoderPacket}

theorem configUnits_noIdr (ps : List EncoderPacket) :
    (configUnits ps).any (fun f => unitType f == IDR) = false := by
  unfold configUnits
  cases (ps.filter EncoderPacket.hasConfig).getLast? with
  | none => rfl
  | some q =>
      rw [List.any_eq_false]
      intro f hf
      obtain ⟨g, hg, rfl⟩ := List.mem_map.mp hf
      have hset := (List.mem_filter.mp hg).2
      rw [isParameterSet, Bool.or_eq_true, decide_eq_true_eq, decide_eq_true_eq] at hset
      show ¬ (unitType g == IDR) = true
      rcases hset with htype | htype
      · rw [htype]
        decide
      · rw [htype]
        decide

/-- Once an SPS and a PPS were sent, those sent last are put in front of a keyframe without its
own. -/
theorem exists_set_of_config {t : UInt8} (ht : t = SPS ∨ t = PPS) (hkey : p.isKey = true)
    (hconfig : ∃ q ∈ ps ++ [p], q.hasConfig = true) : ∃ f ∈ sentUnits ps p, unitType f = t := by
  have hset : ∀ q : EncoderPacket, q.hasConfig = true → ∃ f ∈ q.units, unitType f = t := by
    intro q hq
    rw [EncoderPacket.hasConfig, Bool.and_eq_true, EncoderPacket.has, EncoderPacket.has,
      List.any_eq_true, List.any_eq_true] at hq
    rcases ht with rfl | rfl
    · obtain ⟨f, hf, htype⟩ := hq.1
      exact ⟨f, hf, beq_iff_eq.mp htype⟩
    · obtain ⟨f, hf, htype⟩ := hq.2
      exact ⟨f, hf, beq_iff_eq.mp htype⟩
  cases hown : p.hasConfig with
  | true =>
      obtain ⟨f, hf, htype⟩ := hset p hown
      exact ⟨f, List.mem_append_right _ hf, htype⟩
  | false =>
      obtain ⟨q, hq, hqconfig⟩ := hconfig
      have hne : ps.filter EncoderPacket.hasConfig ≠ [] := by
        rcases List.mem_append.mp hq with hq | hq
        · exact List.ne_nil_of_mem (List.mem_filter.mpr ⟨hq, hqconfig⟩)
        · obtain rfl := List.mem_singleton.mp hq
          rw [hown] at hqconfig
          cases hqconfig
      obtain ⟨f, hf, htype⟩ := hset _ (List.mem_filter.mp (List.getLast_mem hne)).2
      have hisSet : isParameterSet f = true := by
        rw [isParameterSet, htype]
        rcases ht with rfl | rfl
        · decide
        · decide
      refine ⟨⟨true, f.unit⟩, List.mem_append_left _ ?_, htype⟩
      rw [if_pos ⟨hkey, hown⟩, configUnits, List.getLast?_eq_some_getLast hne]
      exact List.mem_map_of_mem (List.mem_filter.mpr ⟨hf, hisSet⟩)

/-- **A receiver can join at every IDR slice.** Where no packet with both an SPS and a PPS ends with
a parameter set, a unit of the stream is that of its packet, behind the latest parameter sets where
it is a keyframe without its own. The feed of the decoder takes it for an IDR exactly if the packet
has one, and it then holds an SPS and a PPS as soon as the encoder has put both into a packet. -/
theorem emissions_selfContained (hopen : pads.Open) (hwhole : Whole ps) {e : Emission}
    (he : e ∈ emissions pads ps) : ∃ before p after, ps = before ++ p :: after ∧
      e.data = serialize (sentUnits before p) ∧ feedHasIdr e.data = some (p.has IDR) ∧
      (p.has IDR = true → (∃ q ∈ before ++ [p], q.hasConfig = true) → SelfContained e) := by
  obtain ⟨before, p, after, rfl, rfl⟩ := exists_of_mem_emissions hopen he
  have hdata : prefixed before p ++ p.bytes = serialize (sentUnits before p) :=
    prefixed_eq fun q hq => hwhole q (List.mem_append_left _ hq)
  have hfeed : feedHasIdr (prefixed before p ++ p.bytes) = some (p.has IDR) := by
    rw [hdata, feedHasIdr_serialize, sentUnits, List.any_append]
    split_ifs with hput
    · rw [configUnits_noIdr]
      rfl
    · rfl
  refine ⟨before, p, after, rfl, hdata, hfeed, fun hidr hconfig => ?_⟩
  have hkey : p.isKey = true := by
    rw [EncoderPacket.isKey, hidr, Bool.or_true]
  refine ⟨hidr ▸ hfeed, ?_, ?_⟩
  · simp only [hdata]
    exact mem_typesFrom_serialize.mpr (exists_set_of_config (.inl rfl) hkey hconfig)
  · simp only [hdata]
    exact mem_typesFrom_serialize.mpr (exists_set_of_config (.inr rfl) hkey hconfig)

/-- A packet with its parameter sets, and a keyframe without. -/
def twoKeyframes : List EncoderPacket :=
  [Tx.packetOf [⟨true, Tx.spsUnit⟩, ⟨true, Tx.ppsUnit⟩, ⟨false, Tx.idrUnit⟩] (by decide) true,
    Tx.packetOf [⟨false, Tx.idrUnit⟩] (by decide) true]

theorem whole_twoKeyframes : Whole twoKeyframes := by
  intro p hp hconfig hends
  rcases List.mem_cons.mp hp with rfl | hp
  · exact absurd hends.1 (by decide)
  · obtain rfl := List.mem_singleton.mp hp
    exact absurd hconfig (by decide)

/-- What is sent for the second one. -/
def secondEmission : Emission where
  data := serialize [⟨true, Tx.spsUnit⟩, ⟨true, Tx.ppsUnit⟩, ⟨false, Tx.idrUnit⟩]
  keyframe := true
  pads := Tx.videoPads

theorem emissions_selfContained_second :
    ∃ before p after, twoKeyframes = before ++ p :: after ∧
      secondEmission.data = serialize (sentUnits before p) ∧
      feedHasIdr secondEmission.data = some (p.has IDR) ∧
      (p.has IDR = true → (∃ q ∈ before ++ [p], q.hasConfig = true) →
        SelfContained secondEmission) := by
  have hsent : secondEmission ∈ emissions Tx.videoPads twoKeyframes := by decide
  exact emissions_selfContained (.inl rfl) whole_twoKeyframes hsent

end Join

/-! ## Counting -/

/-- The statistics after the units of a list. -/
def receive (stats : VideoStats) (bufs : List VideoBuffer) : Option VideoStats :=
  bufs.foldlM rxVideoSinkPush stats

/-- The statistics have moved on by these units, all of which begin with a NAL unit. -/
structure Counted (stats : VideoStats) (bufs : List VideoBuffer) (stats' : VideoStats) : Prop where
  packets : stats'.totalPackets = stats.totalPackets + bufs.length
  bytes : stats'.totalBytes = stats.totalBytes + (bufs.map fun b => b.data.length).sum
  noSc : stats'.noSc = stats.noSc
  idrSlices : stats'.idrSlices ≤ stats.idrSlices +
    bufs.countP fun b => feedHasIdr b.data == some true

section Counting

variable {stats : VideoStats} {buf : VideoBuffer} {bufs : List VideoBuffer}

theorem note_foundNal (types : List UInt8) (found : Classified) :
    (types.foldl Classified.note found).foundNal = true ↔ found.foundNal = true ∨ types ≠ [] := by
  induction types generalizing found with
  | nil => simp
  | cons t types ih =>
      rw [List.foldl_cons, ih]
      have hfound : (found.note t).foundNal = true := by
        simp only [Classified.note, apply_ite Classified.foundNal, ite_self]
      simp [hfound]

/-- A unit that begins with a NAL unit is classified. -/
theorem classify_found {t : UInt8} (h : typeAt buf.data 0 = some t) :
    ∃ found, classify buf.data = some found ∧ found.foundNal = true ∧
      (found.hasIdr = true → feedHasIdr buf.data = some true) := by
  have hlen := lt_of_typeAt h
  have hscan : (if buf.data.length < 4096 then buf.data.length else 4096) =
      min buf.data.length 4096 := by
    split_ifs with hshort
    · exact (Nat.min_eq_left hshort.le).symm
    · exact (Nat.min_eq_right (by omega)).symm
  obtain ⟨hasIdr, hfeed, hexact⟩ := feedHasIdr_spec buf.data
  have hclassify : classify buf.data = some
      ((typesFrom buf.data 0 (min buf.data.length 4096 - 3)).foldl Classified.note
        ({} : Classified)) := by
    rw [classify, hscan]
    exact scanTypes_eq (Nat.min_le_left _ _) 0 ({} : Classified)
  refine ⟨_, hclassify, ?_, fun hidr => ?_⟩
  · rw [note_foundNal]
    exact .inr (List.ne_nil_of_mem (mem_typesFrom.mpr ⟨0, le_rfl, by omega, h⟩))
  · rw [foldl_note_hasIdr] at hidr
    have hmem : 5 ∈ typesFrom buf.data 0 (buf.data.length - 3) :=
      typesFrom_mono (by omega) (hidr.resolve_left (by decide))
    rw [hfeed, hexact.mpr (hasIdr_iff.mpr hmem)]

theorem count_packets (stats : VideoStats) (found : Classified) (keyframe : Bool) :
    (stats.count found keyframe).totalPackets = stats.totalPackets ∧
      (stats.count found keyframe).totalBytes = stats.totalBytes := by
  refine ⟨?_, ?_⟩
  · simp only [VideoStats.count, apply_ite VideoStats.totalPackets, ite_self]
  · simp only [VideoStats.count, apply_ite VideoStats.totalBytes, ite_self]

theorem count_noSc (stats : VideoStats) {found : Classified} (keyframe : Bool)
    (h : found.foundNal = true) : (stats.count found keyframe).noSc = stats.noSc := by
  simp only [VideoStats.count, apply_ite VideoStats.noSc, ite_self, h, Bool.true_eq_false, if_false]

/-- One unit that begins with a NAL unit. -/
theorem counted_push (stats : VideoStats) {t : UInt8} (h : typeAt buf.data 0 = some t) :
    ∃ stats', rxVideoSinkPush stats buf = some stats' ∧ Counted stats [buf] stats' := by
  obtain ⟨found, hclassify, hfound, hidr⟩ := classify_found h
  have hlen := lt_of_typeAt h
  refine ⟨(stats.received buf).count found buf.keyframe, ?_, ?_⟩
  · rw [rxVideoSinkPush, if_neg (by omega), hclassify]
    rfl
  · obtain ⟨hpackets, hbytes⟩ := count_packets (stats.received buf) found buf.keyframe
    refine ⟨hpackets, ?_, count_noSc _ _ hfound, ?_⟩
    · rw [hbytes]
      simp [VideoStats.received]
    · rw [count_idrSlices, List.countP_singleton]
      show stats.idrSlices + _ ≤ stats.idrSlices + _
      split_ifs with hfoundIdr hfed hfed
      · exact le_rfl
      · exact absurd (beq_iff_eq.mpr (hidr hfoundIdr)) hfed
      · exact Nat.le_add_right _ 1
      · exact le_rfl

theorem Counted.append {stats₁ stats₂ : VideoStats} {bufs' : List VideoBuffer}
    (h : Counted stats bufs stats₁) (h' : Counted stats₁ bufs' stats₂) :
    Counted stats (bufs ++ bufs') stats₂ := by
  have hidr := h.idrSlices
  have hidr' := h'.idrSlices
  refine ⟨?_, ?_, h'.noSc.trans h.noSc, ?_⟩
  · rw [h'.packets, h.packets, List.length_append, Nat.add_assoc]
  · rw [h'.bytes, h.bytes, List.map_append, List.sum_append, Nat.add_assoc]
  · rw [List.countP_append]
    omega

/-- Units that begin with a NAL unit, one after the other. -/
theorem receive_counted (stats : VideoStats)
    (hbufs : ∀ b ∈ bufs, ∃ t, typeAt b.data 0 = some t) :
    ∃ stats', receive stats bufs = some stats' ∧ Counted stats bufs stats' := by
  induction bufs generalizing stats with
  | nil => exact ⟨stats, rfl, rfl, rfl, rfl, le_rfl⟩
  | cons b bufs ih =>
      rw [List.forall_mem_cons] at hbufs
      obtain ⟨t, ht⟩ := hbufs.1
      obtain ⟨stats₁, hpush, hcounted⟩ := counted_push stats ht
      obtain ⟨stats₂, hreceive, hrest⟩ := ih stats₁ hbufs.2
      refine ⟨stats₂, ?_, hcounted.append hrest⟩
      rw [receive, List.foldlM_cons, hpush]
      exact hreceive

end Counting

/-! ## What the sender counts -/

section Totals

variable {pads : VideoPads} {ps : List EncoderPacket}

/-- The sender counts what it puts on its pads. -/
theorem emit_counts (tx : DanteTx) (p : Tx.Popped) :
    (Tx.emit tx p).1.pads = tx.pads ∧
    (Tx.emit tx p).1.txVideoFrames = tx.txVideoFrames + (Tx.emit tx p).2.toList.length ∧
    (Tx.emit tx p).1.txVideoBytes =
      tx.txVideoBytes + ((Tx.emit tx p).2.toList.map fun e => e.data.length).sum := by
  unfold Tx.emit
  dsimp only
  split_ifs <;> simp

theorem afterPackets_counts (hopen : pads.Open) (ps : List EncoderPacket) :
    ∃ tx, Tx.afterPackets pads ps = some tx ∧ tx.pads = pads ∧
      tx.txVideoFrames = (emissions pads ps).length ∧
      tx.txVideoBytes = ((emissions pads ps).map fun e => e.data.length).sum := by
  induction ps using List.reverseRecOn with
  | nil => exact ⟨Tx.danteTx pads, rfl, rfl, rfl, rfl⟩
  | append_singleton ps p ih =>
      obtain ⟨tx, htx, hpads, hframes, hbytes⟩ := ih
      have hstep : (Tx.venc false).step (Tx.afterPackets pads ps) (some p.popped) =
          (some (Tx.emit tx p.popped).1,
            ((Tx.emit tx p.popped).2.map Tx.Output.pushed).getD .none) := by
        rw [htx]
        exact Tx.onVenc_open tx p.popped (hpads ▸ hopen)
      have hout : onPads (((Tx.emit tx p.popped).2.map Tx.Output.pushed).getD .none) =
          (Tx.emit tx p.popped).2 := by
        cases (Tx.emit tx p.popped).2 with
        | none => rfl
        | some e => rfl
      obtain ⟨hsame, hframes', hbytes'⟩ := emit_counts tx p.popped
      rw [Tx.afterPackets_snoc, emissions_step, hstep, hout, List.length_append, List.map_append,
        List.sum_append, ← hframes, ← hbytes, ← hframes', ← hbytes']
      exact ⟨_, rfl, hsame.trans hpads, rfl, rfl⟩

/-- The units that a receiver gets: the data that the sender put on its pads. -/
def Link (pads : VideoPads) (ps : List EncoderPacket) (bufs : List VideoBuffer) : Prop :=
  bufs.map VideoBuffer.data = (emissions pads ps).map Emission.data

/-- Where the link loses nothing, the receiver counts what the sender counts. -/
structure Tallied (pads : VideoPads) (ps : List EncoderPacket) (tx : DanteTx) (stats : VideoStats) :
    Prop where
  packets : stats.totalPackets = tx.txVideoFrames
  bytes : stats.totalBytes = tx.txVideoBytes
  noSc : stats.noSc = 0
  idrSlices : stats.idrSlices ≤ (emissions pads ps).countP fun e => feedHasIdr e.data == some true

/-- A unit stands behind a long start code. -/
theorem typeAt_parameterSet {nal : List UInt8} (h : nal ≠ []) (rest : List UInt8) :
    typeAt (Tx.parameterSet nal ++ rest) 0 = some (nalType (nal.headD 0)) := by
  obtain ⟨head, tail, rfl⟩ := List.exists_cons_of_ne_nil h
  exact typeAt_eq_some.mpr ⟨true, head, tail ++ rest, rfl, rfl⟩

theorem typeAt_serialize_zero {units : List Framed} (h : units ≠ []) :
    ∃ t, typeAt (serialize units) 0 = some t := by
  obtain ⟨f, units, rfl⟩ := List.exists_cons_of_ne_nil h
  refine ⟨unitType f, typeAt_eq_some.mpr
    ⟨f.long, f.unit.head, f.unit.tail ++ serialize units, ?_, rfl⟩⟩
  simp [Framed.bytes, NalUnit.bytes]

/-- The scan sees at least the first byte of every unit. -/
theorem ne_nil_of_mem_seen {units : List Framed} {nal : List UInt8} (h : nal ∈ Tx.seen units) :
    nal ≠ [] := by
  induction units with
  | nil => cases h
  | cons f units ih =>
      cases units with
      | nil =>
          rw [List.mem_singleton.mp h]
          exact List.cons_ne_nil _ _
      | cons g units =>
          rcases List.mem_cons.mp h with rfl | h
          · exact List.cons_ne_nil _ _
          · exact ih h

/-- The cache is empty, or begins with a unit behind its start code. -/
theorem seenConfig_cases (ps : List EncoderPacket) : Tx.seenConfig ps = [] ∨
    ∃ nal rest, nal ≠ [] ∧ Tx.seenConfig ps = Tx.parameterSet nal ++ rest := by
  induction ps using List.reverseRecOn with
  | nil => exact .inl rfl
  | append_singleton ps p ih =>
      rw [Tx.seenConfig_snoc, Tx.nextCache]
      split_ifs with hconfig
      · unfold Tx.seenSets
        cases hsets : (Tx.seen p.units).filter Tx.isSet with
        | nil => exact .inl rfl
        | cons nal sets =>
            have hmem : nal ∈ (Tx.seen p.units).filter Tx.isSet := hsets ▸ List.mem_cons_self
            exact .inr ⟨nal, _, ne_nil_of_mem_seen (List.mem_filter.mp hmem).1, List.flatMap_cons⟩
      · exact ih

/-- Whatever the scan has kept, a unit of the stream begins with a NAL unit. -/
theorem typeAt_emission (ps : List EncoderPacket) (p : EncoderPacket) :
    ∃ t, typeAt (prefixed ps p ++ p.bytes) 0 = some t := by
  have hbytes := typeAt_serialize_zero p.nonempty
  unfold prefixed
  split_ifs with hput
  · rcases seenConfig_cases ps with hnil | ⟨nal, rest, hne, hsets⟩
    · rw [hnil]
      exact hbytes
    · rw [hsets, List.append_assoc]
      exact ⟨_, typeAt_parameterSet hne _⟩
  · exact hbytes

/-- **The receiver counts what the sender sent**: over every run of the encoder, the frames and the
bytes of the two statistics agree, the receiver finds a NAL unit in every access unit, and it counts
no IDR slice that its decoder would not see. -/
theorem receive_tallied (hopen : pads.Open) {bufs : List VideoBuffer}
    (hlink : Link pads ps bufs) : ∃ tx stats, Tx.afterPackets pads ps = some tx ∧
      receive {} bufs = some stats ∧ Tallied pads ps tx stats := by
  have hbufs : ∀ b ∈ bufs, ∃ t, typeAt b.data 0 = some t := by
    intro b hb
    have hmem := List.mem_map_of_mem (f := VideoBuffer.data) hb
    rw [hlink] at hmem
    obtain ⟨e, he, hdata⟩ := List.mem_map.mp hmem
    obtain ⟨before, p, after, -, rfl⟩ := exists_of_mem_emissions hopen he
    rw [← hdata]
    exact typeAt_emission before p
  obtain ⟨tx, htx, -, hframes, hsent⟩ := afterPackets_counts hopen ps
  obtain ⟨stats, hreceive, hcounted⟩ := receive_counted {} hbufs
  have hlen : bufs.length = (emissions pads ps).length := by
    have hlen := congrArg List.length hlink
    rwa [List.length_map, List.length_map] at hlen
  refine ⟨tx, stats, htx, hreceive, ?_, ?_, hcounted.noSc, ?_⟩
  · rw [hcounted.packets, hlen, hframes]
    exact Nat.zero_add _
  · have hsum := congrArg (fun l : List (List UInt8) => (l.map List.length).sum) hlink
    simp only [List.map_map] at hsum
    rw [hcounted.bytes, hsent]
    exact (Nat.zero_add _).trans hsum
  · have hcount := congrArg (List.countP fun d => feedHasIdr d == some true) hlink
    rw [List.countP_map, List.countP_map] at hcount
    have hidr := hcounted.idrSlices
    have hzero : ({} : VideoStats).idrSlices = 0 := rfl
    rw [hzero, Nat.zero_add] at hidr
    exact hidr.trans hcount.le

theorem receive_tallied_two : ∃ tx stats, Tx.afterPackets Tx.videoPads twoKeyframes = some tx ∧
    receive {} ((emissions Tx.videoPads twoKeyframes).map fun e => ⟨e.data, 40, false⟩) =
      some stats ∧
    Tallied Tx.videoPads twoKeyframes tx stats :=
  receive_tallied (.inl rfl) (by rw [Link, List.map_map]; rfl)

end Totals

end QcapDemos.Rx
