import QcapDemos.Lib.AnnexB
import QcapDemos.Lib.Run

set_option autoImplicit false

/-! # The TX video encoder: parameter sets and keyframes

`OnVenc` splits every encoder packet into its NAL units, keeps the parameter sets of a packet
that holds both an SPS and a PPS, and puts them in front of a keyframe that lacks its own. The
scan for the end of a unit stops three bytes before the end of the packet, so the last unit of
a packet is cut.
-/

namespace QcapDemos.Tx

open QcapDemos.Lib QcapDemos.Lib.AnnexB

/-! ## The scan of a packet -/

def SPS : UInt8 := 7
def PPS : UInt8 := 8
def IDR : UInt8 := 5

structure Scan where
  parameterSets : List UInt8
  hasSps : Bool
  hasPps : Bool
  hasIdr : Bool
deriving DecidableEq

def Scan.initial : Scan :=
  { parameterSets := [], hasSps := false, hasPps := false, hasIdr := false }

/-- The bytes of a unit that is a parameter set, behind a long start code. -/
def parameterSet (nal : List UInt8) : List UInt8 := [0, 0, 0, 1] ++ nal

/-- The type of the unit with the bytes `nal`. -/
def typeOf (nal : List UInt8) : UInt8 := nalType (nal.headD 0)

/-- The loop's body for a unit of which the bytes from `nal` to `end` are `nal`. -/
def Scan.add (acc : Scan) (nal : List UInt8) : Scan :=
  let type := typeOf nal
  if type = SPS then
    { acc with hasSps := true, parameterSets := acc.parameterSets ++ parameterSet nal }
  else if type = PPS then
    { acc with hasPps := true, parameterSets := acc.parameterSets ++ parameterSet nal }
  else if type = IDR then { acc with hasIdr := true }
  else acc

/-- The `while` loop over `end`: the bytes it passes over and those from `end` on. It goes on
only while more than three bytes are left. -/
def nalEnd : List UInt8 → List UInt8 × List UInt8
  | [] => ([], [])
  | b :: rest =>
      if 3 < (b :: rest).length ∧ startPrefix (b :: rest) = 0 then
        (b :: (nalEnd rest).1, (nalEnd rest).2)
      else ([], b :: rest)

/-- The unit that begins with the bytes given, and the bytes after it. A buffer that ends with
a long start code has no such bytes: the byte read there lies `beyond` the buffer. -/
def takeNal (beyond : UInt8) : List UInt8 → List UInt8 × List UInt8
  | [] => ([beyond], [])
  | head :: rest => (head :: (nalEnd rest).1, (nalEnd rest).2)

/-- The loop over `pos`, of which every turn advances by a byte at least; `turns` bounds their
number. -/
def scanLoop (beyond : UInt8) : Nat → List UInt8 → Scan → Scan
  | 0, _, acc => acc
  | turns + 1, bytes, acc =>
      if bytes.length < 4 then acc
      else if startPrefix bytes = 0 then scanLoop beyond turns bytes.tail acc
      else
        let nal := takeNal beyond (bytes.drop (startPrefix bytes))
        scanLoop beyond turns nal.2 (acc.add nal.1)

def scanPacket (beyond : UInt8) (bytes : List UInt8) : Scan :=
  scanLoop beyond bytes.length bytes Scan.initial

/-! ## The callback -/

/-- Which of the sender's video pads exist. -/
structure VideoPads where
  appVideoSrcPad : Bool
  rtspVideoPad : Bool
  appVideoMirrorSrcPad : Bool
deriving DecidableEq

structure DanteTx where
  pads : VideoPads
  h264ParameterSets : List UInt8
  txVideoFrames : Nat
  txVideoBytes : Nat
deriving DecidableEq

/-- A packet popped from the encoder, and whether `zst_buffer_create` and `malloc` succeed for
it. A null buffer is an empty one. -/
structure Popped where
  buffer : List UInt8
  isKeyFrame : Bool
  beyond : UInt8
  created : Bool
  copied : Bool
deriving DecidableEq

/-- A buffer pushed to the video pads. -/
structure Emission where
  data : List UInt8
  keyframe : Bool
  pads : VideoPads
deriving DecidableEq

/-- The part of the callback for the pads of the zstreamer sender. -/
def emit (tx : DanteTx) (p : Popped) : DanteTx × Option Emission :=
  if p.buffer = [] then (tx, none)
  else
    let scan := scanPacket p.beyond p.buffer
    let cached := if scan.hasSps && scan.hasPps then scan.parameterSets else tx.h264ParameterSets
    let streamBuffer :=
      if (p.isKeyFrame || scan.hasIdr) && !(scan.hasSps && scan.hasPps) && !cached.isEmpty then
        cached ++ p.buffer
      else p.buffer
    if p.created && p.copied then
      ({ tx with
          h264ParameterSets := cached
          txVideoFrames := tx.txVideoFrames + 1
          txVideoBytes := tx.txVideoBytes + streamBuffer.length },
        some { data := streamBuffer, keyframe := p.isKeyFrame || scan.hasIdr, pads := tx.pads })
    else ({ tx with h264ParameterSets := cached }, none)

/-- What `OnVenc` hands on: to the broadcast server of the QCAP sender, or to the pads. -/
inductive Output where
  | none
  | broadcast (data : List UInt8)
  | pushed (emission : Emission)
deriving DecidableEq

/-- `sender` is `pQcapDanteTx && pQcapDanteTx->sender`, and `tx` is `pDanteTx`. -/
def onVenc (sender : Bool) (tx : Option DanteTx) (popped : Option Popped) :
    Option DanteTx × Output :=
  match popped, tx with
  | none, tx => (tx, .none)
  | some p, tx =>
      if sender then (tx, .broadcast p.buffer)
      else
        match tx with
        | none => (none, .none)
        | some tx =>
            if tx.pads.appVideoSrcPad || tx.pads.rtspVideoPad then
              (some (emit tx p).1, ((emit tx p).2.map Output.pushed).getD .none)
            else (some tx, .none)

/-! ## Well-formed packets -/

def unitType (f : Framed) : UInt8 := nalType f.unit.head

def isParameterSet (f : Framed) : Bool := unitType f = SPS || unitType f = PPS

/-- A packet of whole NAL units, each behind its start code. -/
structure EncoderPacket where
  units : List Framed
  nonempty : units ≠ []
  isKeyFrame : Bool
  beyond : UInt8
  created : Bool
  copied : Bool

namespace EncoderPacket

def bytes (p : EncoderPacket) : List UInt8 := serialize p.units

def popped (p : EncoderPacket) : Popped where
  buffer := p.bytes
  isKeyFrame := p.isKeyFrame
  beyond := p.beyond
  created := p.created
  copied := p.copied

def has (p : EncoderPacket) (type : UInt8) : Bool := p.units.any fun f => unitType f == type

/-- The packet holds an SPS and a PPS. -/
def hasConfig (p : EncoderPacket) : Bool := p.has SPS && p.has PPS

def isKey (p : EncoderPacket) : Bool := p.isKeyFrame || p.has IDR

/-- The complete parameter sets of the packet, each behind a long start code. -/
def parameterSets (p : EncoderPacket) : List UInt8 :=
  (p.units.filter isParameterSet).flatMap fun f => parameterSet f.unit.bytes

/-- The packet ends with a parameter set of more than one byte. -/
def EndsInParameterSet (p : EncoderPacket) : Prop :=
  isParameterSet (p.units.getLast p.nonempty) = true ∧ (p.units.getLast p.nonempty).unit.tail ≠ []

end EncoderPacket

/-! ## What the scan finds -/

/-- What is kept of the last unit of a packet: its head, and the rest but for three bytes. -/
def cut (u : NalUnit) : List UInt8 := u.head :: u.tail.take (u.tail.length - 3)

/-- The units as the scan sees them. -/
def seen : List Framed → List (List UInt8)
  | [] => []
  | [f] => [cut f.unit]
  | f :: g :: units => f.unit.bytes :: seen (g :: units)

theorem nalEnd_cons (b : UInt8) (rest : List UInt8) :
    nalEnd (b :: rest) =
      if 3 < (b :: rest).length ∧ startPrefix (b :: rest) = 0 then
        (b :: (nalEnd rest).1, (nalEnd rest).2)
      else ([], b :: rest) := rfl

theorem nalEnd_next (u : NalUnit) (g : Framed) (rest : List UInt8) :
    nalEnd (u.tail ++ (g.bytes ++ rest)) = (u.tail, g.bytes ++ rest) := by
  have hlen := g.four_le_length
  suffices h : ∀ left taken, u.bytes = taken ++ left →
      nalEnd (left ++ (g.bytes ++ rest)) = (left, g.bytes ++ rest) from h u.tail [u.head] rfl
  intro left
  induction left with
  | nil =>
      intro taken _
      -- the start code of the next unit ends this one
      have hstart : startPrefix (g.bytes ++ rest) ≠ 0 := by
        rw [Framed.bytes, List.append_assoc, startPrefix_startCode]
        cases g.long <;> simp [startCode]
      rw [List.nil_append]
      generalize g.bytes ++ rest = next at hstart
      cases next with
      | nil => rfl
      | cons b next => exact if_neg fun h => hstart h.2
  | cons b left ih =>
      intro taken hu
      have hnone := u.startPrefix_inside hu (List.cons_ne_nil b left) (g.bytes ++ rest)
      have hlong : 3 < (b :: left ++ (g.bytes ++ rest)).length := by
        rw [List.length_append, List.length_append]
        omega
      have hrest := ih (taken ++ [b]) (by rw [hu, List.append_assoc]; rfl)
      rw [List.cons_append] at hlong hnone ⊢
      rw [nalEnd_cons, if_pos ⟨hlong, hnone⟩, hrest]

theorem nalEnd_last (u : NalUnit) :
    nalEnd u.tail = (u.tail.take (u.tail.length - 3), u.tail.drop (u.tail.length - 3)) := by
  suffices h : ∀ left taken, u.bytes = taken ++ left →
      nalEnd left = (left.take (left.length - 3), left.drop (left.length - 3)) from
    h u.tail [u.head] rfl
  intro left
  induction left with
  | nil => intro _ _; rfl
  | cons b left ih =>
      intro taken hu
      have hnone := u.startPrefix_inside hu (List.cons_ne_nil b left) []
      rw [List.append_nil] at hnone
      have hrest := ih (taken ++ [b]) (by rw [hu, List.append_assoc]; rfl)
      rw [nalEnd_cons]
      by_cases hlong : 3 < (b :: left).length
      · have hsub : (b :: left).length - 3 = (left.length - 3) + 1 := by
          rw [List.length_cons] at hlong ⊢
          omega
        rw [if_pos ⟨hlong, hnone⟩, hrest, hsub]
        rfl
      · have hsub : (b :: left).length - 3 = 0 := by omega
        rw [if_neg fun h => hlong h.1, hsub]
        rfl

theorem scanLoop_short (beyond : UInt8) (turns : Nat) {bytes : List UInt8} (acc : Scan)
    (h : bytes.length < 4) : scanLoop beyond turns bytes acc = acc := by
  cases turns with
  | zero => rfl
  | succ turns => exact if_pos h

/-- One turn of the loop at the start code of a unit. -/
theorem scanLoop_framed (beyond : UInt8) (turns : Nat) (f : Framed) (rest : List UInt8)
    (acc : Scan) :
    scanLoop beyond (turns + 1) (f.bytes ++ rest) acc
      = scanLoop beyond turns (nalEnd (f.unit.tail ++ rest)).2
          (acc.add (f.unit.head :: (nalEnd (f.unit.tail ++ rest)).1)) := by
  have hlen := f.four_le_length
  have hprefix : startPrefix (f.bytes ++ rest) = (startCode f.long).length := by
    rw [Framed.bytes, List.append_assoc, startPrefix_startCode]
  have hcode : (startCode f.long).length ≠ 0 := by cases f.long <;> simp [startCode]
  have hdrop : (f.bytes ++ rest).drop (startCode f.long).length
      = f.unit.head :: (f.unit.tail ++ rest) := by
    rw [Framed.bytes, List.append_assoc, List.drop_left]
    rfl
  show (if _ then _ else if _ then _ else _) = _
  rw [if_neg (by rw [List.length_append]; omega), hprefix, if_neg hcode, hdrop]
  rfl

theorem scanLoop_serialize (beyond : UInt8) (units : List Framed) :
    ∀ (turns : Nat) (acc : Scan), units.length ≤ turns →
      scanLoop beyond turns (serialize units) acc = (seen units).foldl Scan.add acc := by
  induction units with
  | nil => intro turns acc _; exact scanLoop_short beyond turns acc (by simp)
  | cons f units ih =>
      intro turns acc hturns
      obtain ⟨turns, rfl⟩ : ∃ n, turns = n + 1 :=
        ⟨turns - 1, by rw [List.length_cons] at hturns; omega⟩
      rw [serialize_cons, scanLoop_framed]
      cases units with
      | nil =>
          rw [serialize_nil, List.append_nil, nalEnd_last]
          refine scanLoop_short beyond turns _ ?_
          rw [List.length_drop]
          omega
      | cons g units =>
          rw [serialize_cons, nalEnd_next]
          exact ih turns _ (by simpa using hturns)

/-! ## What the scan collects -/

/-- The bytes of a unit are those of a parameter set. -/
def isSet (nal : List UInt8) : Bool :=
  typeOf nal == SPS || typeOf nal == PPS

theorem parameterSets_add (acc : Scan) (nal : List UInt8) :
    (acc.add nal).parameterSets
      = acc.parameterSets ++ if isSet nal then parameterSet nal else [] := by
  unfold Scan.add isSet
  by_cases hs : typeOf nal = SPS
  · simp [hs]
  by_cases hp : typeOf nal = PPS
  · simp [hp, show PPS ≠ SPS by decide]
  · by_cases hi : typeOf nal = IDR
    · simp [hi, show IDR ≠ SPS by decide, show IDR ≠ PPS by decide]
    · simp [hs, hp, hi]

/-- The three flags of the scan. -/
theorem flags_add (acc : Scan) (nal : List UInt8) :
    (acc.add nal).hasSps = (acc.hasSps || typeOf nal == SPS) ∧
    (acc.add nal).hasPps = (acc.hasPps || typeOf nal == PPS) ∧
    (acc.add nal).hasIdr = (acc.hasIdr || typeOf nal == IDR) := by
  unfold Scan.add
  by_cases hs : typeOf nal = SPS
  · simp [hs, show SPS ≠ PPS by decide, show SPS ≠ IDR by decide]
  by_cases hp : typeOf nal = PPS
  · simp [hp, show PPS ≠ SPS by decide, show PPS ≠ IDR by decide]
  · by_cases hi : typeOf nal = IDR
    · simp [hi, show IDR ≠ SPS by decide, show IDR ≠ PPS by decide]
    · simp [hs, hp, hi]

theorem parameterSets_foldl (nals : List (List UInt8)) :
    ∀ acc : Scan, (nals.foldl Scan.add acc).parameterSets
      = acc.parameterSets ++ (nals.filter isSet).flatMap parameterSet := by
  induction nals with
  | nil => intro acc; simp
  | cons nal nals ih =>
      intro acc
      rw [List.foldl_cons, ih, parameterSets_add]
      by_cases h : isSet nal = true
      · simp [h]
      · simp [h]

theorem flags_foldl (nals : List (List UInt8)) :
    ∀ acc : Scan,
      (nals.foldl Scan.add acc).hasSps
        = (acc.hasSps || nals.any fun nal => typeOf nal == SPS) ∧
      (nals.foldl Scan.add acc).hasPps
        = (acc.hasPps || nals.any fun nal => typeOf nal == PPS) ∧
      (nals.foldl Scan.add acc).hasIdr
        = (acc.hasIdr || nals.any fun nal => typeOf nal == IDR) := by
  induction nals with
  | nil => intro acc; simp
  | cons nal nals ih =>
      intro acc
      obtain ⟨hs, hp, hi⟩ := ih (acc.add nal)
      obtain ⟨hs', hp', hi'⟩ := flags_add acc nal
      refine ⟨?_, ?_, ?_⟩
      · rw [List.foldl_cons, hs, hs', List.any_cons, Bool.or_assoc]
      · rw [List.foldl_cons, hp, hp', List.any_cons, Bool.or_assoc]
      · rw [List.foldl_cons, hi, hi', List.any_cons, Bool.or_assoc]

/-- Cutting a unit leaves its type. -/
theorem any_seen (type : UInt8) (units : List Framed) :
    (seen units).any (fun nal => typeOf nal == type)
      = units.any fun f => unitType f == type := by
  induction units with
  | nil => rfl
  | cons f units ih =>
      cases units with
      | nil => rfl
      | cons g units =>
          rw [List.any_cons, ← ih]
          rfl

/-- The parameter sets as the scan collects them. -/
def seenSets (units : List Framed) : List UInt8 :=
  ((seen units).filter isSet).flatMap parameterSet

theorem scanPacket_spec (p : EncoderPacket) (beyond : UInt8) :
    (scanPacket beyond p.bytes).parameterSets = seenSets p.units ∧
    ((scanPacket beyond p.bytes).hasSps && (scanPacket beyond p.bytes).hasPps) = p.hasConfig ∧
    (scanPacket beyond p.bytes).hasIdr = p.has IDR := by
  have hlen : p.units.length ≤ (serialize p.units).length := by
    generalize p.units = units
    induction units with
    | nil => exact le_rfl
    | cons f units ih =>
        have hf := f.four_le_length
        rw [serialize_cons, List.length_append, List.length_cons]
        omega
  have hscan : scanPacket beyond p.bytes = (seen p.units).foldl Scan.add Scan.initial :=
    scanLoop_serialize beyond p.units _ Scan.initial hlen
  obtain ⟨hs, hp, hi⟩ := flags_foldl (seen p.units) Scan.initial
  rw [hscan]
  refine ⟨?_, ?_, ?_⟩
  · rw [parameterSets_foldl]; rfl
  · rw [hs, hp, any_seen, any_seen]; rfl
  · rw [hi, any_seen]; rfl

/-! ## What the cut loses -/

/-- The complete parameter sets of a list of units. -/
def wholeSets (units : List Framed) : List UInt8 :=
  (units.filter isParameterSet).flatMap fun f => parameterSet f.unit.bytes

theorem wholeSets_cons (f : Framed) (units : List Framed) :
    wholeSets (f :: units)
      = (if isParameterSet f then parameterSet f.unit.bytes else []) ++ wholeSets units := by
  by_cases h : isParameterSet f = true
  · simp [wholeSets, h]
  · simp [wholeSets, h]

theorem seenSets_cons (f g : Framed) (units : List Framed) :
    seenSets (f :: g :: units)
      = (if isParameterSet f then parameterSet f.unit.bytes else []) ++ seenSets (g :: units) := by
  have hset : isSet f.unit.bytes = isParameterSet f := rfl
  by_cases h : isParameterSet f = true
  · simp [seenSets, seen, hset, h]
  · simp [seenSets, seen, hset, h]

theorem seenSets_single (f : Framed) :
    seenSets [f] = if isParameterSet f then parameterSet (cut f.unit) else [] := by
  have hset : isSet (cut f.unit) = isParameterSet f := rfl
  by_cases h : isParameterSet f = true
  · simp [seenSets, seen, hset, h]
  · simp [seenSets, seen, hset, h]

/-- The scan loses nothing exactly where the last unit is not a parameter set of more than one
byte. -/
theorem seenSets_eq_iff (units : List Framed) (hne : units ≠ []) :
    seenSets units = wholeSets units ↔
      ¬ (isParameterSet (units.getLast hne) = true ∧ (units.getLast hne).unit.tail ≠ []) := by
  induction units with
  | nil => exact absurd rfl hne
  | cons f units ih =>
      cases units with
      | cons g units =>
          rw [seenSets_cons, wholeSets_cons, List.append_cancel_left_eq, ih (List.cons_ne_nil _ _),
            List.getLast_cons_cons]
      | nil =>
          rw [seenSets_single, wholeSets_cons, List.getLast_singleton]
          by_cases hset : isParameterSet f = true
          · have hwhole : wholeSets [] = [] := rfl
            rw [if_pos hset, if_pos hset, hwhole, List.append_nil, parameterSet, parameterSet,
              List.append_cancel_left_eq]
            constructor
            · rintro heq ⟨-, htail⟩
              -- the cut would have to keep the whole tail, which is longer
              have hlen := congrArg List.length (List.cons.inj heq).2
              have hpos := List.length_pos_iff.mpr htail
              rw [List.length_take] at hlen
              omega
            · intro h
              have htail : f.unit.tail = [] := by
                by_contra hne
                exact h ⟨hset, hne⟩
              simp [cut, NalUnit.bytes, htail]
          · simp [hset, wholeSets]

/-! ## Runs -/

/-- The callback fed with the packets of the encoder. -/
def venc (sender : Bool) : Machine (Option DanteTx) (Option Popped) Output where
  step tx popped := onVenc sender tx popped

def VideoPads.Open (pads : VideoPads) : Prop := pads.appVideoSrcPad ∨ pads.rtspVideoPad

/-- The sender before its first packet. -/
def danteTx (pads : VideoPads) : DanteTx :=
  { pads := pads, h264ParameterSets := [], txVideoFrames := 0, txVideoBytes := 0 }

/-- The run of the zstreamer sender on the packets. -/
def afterPackets (pads : VideoPads) (ps : List EncoderPacket) : Option DanteTx :=
  (venc false).run (some (danteTx pads)) (ps.map fun p => some p.popped)

/-- The complete parameter sets of the latest packet with both an SPS and a PPS. -/
def latestConfig (ps : List EncoderPacket) : List UInt8 :=
  ((ps.filter EncoderPacket.hasConfig).getLast?.map EncoderPacket.parameterSets).getD []

/-- What is to be emitted for `p` after the packets `ps`: a keyframe without its own parameter
sets gets the latest ones. -/
def withConfig (ps : List EncoderPacket) (p : EncoderPacket) : List UInt8 :=
  if p.isKey ∧ p.hasConfig = false then latestConfig ps ++ p.bytes else p.bytes

/-- After `ps`, the packet `p` leaves the latest parameter sets in the cache, and what is
emitted for it is as it has to be. Nothing is emitted where the buffer cannot be allocated. -/
structure Configured (pads : VideoPads) (ps : List EncoderPacket) (p : EncoderPacket) : Prop where
  cache : (afterPackets pads (ps ++ [p])).map DanteTx.h264ParameterSets
    = some (latestConfig (ps ++ [p]))
  emitted : ((venc false).step (afterPackets pads ps) (some p.popped)).2
    = if p.created && p.copied then
        .pushed { data := withConfig ps p, keyframe := p.isKey, pads := pads }
      else .none

theorem latestConfig_snoc (ps : List EncoderPacket) (p : EncoderPacket) :
    latestConfig (ps ++ [p]) = if p.hasConfig then p.parameterSets else latestConfig ps := by
  by_cases h : p.hasConfig = true
  · simp [latestConfig, h]
  · simp [latestConfig, h]

theorem EncoderPacket.bytes_ne_nil (p : EncoderPacket) : p.bytes ≠ [] := by
  intro h
  obtain ⟨f, units, hunits⟩ := List.exists_cons_of_ne_nil p.nonempty
  have hlen := f.four_le_length
  rw [EncoderPacket.bytes, hunits, serialize_cons] at h
  rw [(List.append_eq_nil_iff.mp h).1] at hlen
  exact absurd hlen (by decide)

/-- The cache after a packet, given the cache before. -/
def nextCache (p : EncoderPacket) (cached : List UInt8) : List UInt8 :=
  if p.hasConfig then seenSets p.units else cached

theorem onVenc_open (tx : DanteTx) (q : Popped) (hopen : tx.pads.Open) :
    onVenc false (some tx) (some q)
      = (some (emit tx q).1, ((emit tx q).2.map Output.pushed).getD .none) := by
  have hpads : (tx.pads.appVideoSrcPad || tx.pads.rtspVideoPad) = true := by
    simpa [VideoPads.Open] using hopen
  simp [onVenc, hpads]

/-- One packet through the pads of the sender. -/
theorem onVenc_packet (tx : DanteTx) (p : EncoderPacket) (hopen : tx.pads.Open) :
    ∃ frames bytes,
      onVenc false (some tx) (some p.popped) =
        (some { tx with
            h264ParameterSets := nextCache p tx.h264ParameterSets
            txVideoFrames := frames
            txVideoBytes := bytes },
          if p.created && p.copied then
            .pushed {
              data :=
                if p.isKey ∧ p.hasConfig = false then tx.h264ParameterSets ++ p.bytes else p.bytes
              keyframe := p.isKey
              pads := tx.pads }
          else .none) := by
  obtain ⟨hsets, hconfig, hidr⟩ := scanPacket_spec p p.beyond
  have hkey : (p.popped.isKeyFrame || (scanPacket p.beyond p.bytes).hasIdr) = p.isKey := by
    rw [hidr]; rfl
  rw [onVenc_open tx p.popped hopen]
  unfold emit
  rw [if_neg (show p.popped.buffer ≠ [] from p.bytes_ne_nil)]
  simp only [show p.popped.buffer = p.bytes from rfl, show p.popped.beyond = p.beyond from rfl,
    show p.popped.created = p.created from rfl, show p.popped.copied = p.copied from rfl,
    hconfig, hkey, hsets]
  have hcache : (if p.hasConfig = true then seenSets p.units else tx.h264ParameterSets)
      = nextCache p tx.h264ParameterSets := rfl
  rw [hcache]
  -- with an empty cache nothing is put in front, which is the packet itself
  have hdata : (if (p.isKey && !p.hasConfig && !(nextCache p tx.h264ParameterSets).isEmpty) = true
        then nextCache p tx.h264ParameterSets ++ p.bytes else p.bytes)
      = if p.isKey ∧ p.hasConfig = false then tx.h264ParameterSets ++ p.bytes else p.bytes := by
    by_cases hc : p.hasConfig = true
    · simp [hc]
    · have hsame : nextCache p tx.h264ParameterSets = tx.h264ParameterSets := if_neg hc
      rw [hsame]
      by_cases hk : p.isKey = true
      · cases hsets : tx.h264ParameterSets <;> simp [hc, hk]
      · simp [hk]
  rw [hdata]
  by_cases halloc : (p.created && p.copied) = true
  · rw [if_pos halloc, if_pos halloc]
    exact ⟨_, _, rfl⟩
  · rw [if_neg halloc, if_neg halloc]
    exact ⟨_, _, rfl⟩

/-- The cache after the packets. -/
def seenConfig (ps : List EncoderPacket) : List UInt8 :=
  ps.foldl (fun cached p => nextCache p cached) []

theorem seenConfig_snoc (ps : List EncoderPacket) (p : EncoderPacket) :
    seenConfig (ps ++ [p]) = nextCache p (seenConfig ps) := by
  simp [seenConfig]

theorem afterPackets_snoc (pads : VideoPads) (ps : List EncoderPacket) (p : EncoderPacket) :
    afterPackets pads (ps ++ [p])
      = ((venc false).step (afterPackets pads ps) (some p.popped)).1 := by
  rw [afterPackets, List.map_append, List.map_singleton, Machine.run_snoc]
  rfl

theorem afterPackets_spec (pads : VideoPads) (hopen : pads.Open) (ps : List EncoderPacket) :
    ∃ frames bytes, afterPackets pads ps = some {
      pads := pads
      h264ParameterSets := seenConfig ps
      txVideoFrames := frames
      txVideoBytes := bytes } := by
  induction ps using List.reverseRecOn with
  | nil => exact ⟨0, 0, rfl⟩
  | append_singleton ps p ih =>
      obtain ⟨frames, bytes, h⟩ := ih
      obtain ⟨frames', bytes', hstep⟩ :=
        onVenc_packet ⟨pads, seenConfig ps, frames, bytes⟩ p hopen
      refine ⟨frames', bytes', ?_⟩
      rw [afterPackets_snoc, h, seenConfig_snoc]
      exact congrArg Prod.fst hstep

/-- The state and the output of one packet, in terms of the cache. -/
theorem configured_iff (pads : VideoPads) (hopen : pads.Open) (ps : List EncoderPacket)
    (p : EncoderPacket) :
    Configured pads ps p ↔
      seenConfig (ps ++ [p]) = latestConfig (ps ++ [p]) ∧
      ((p.created && p.copied) = true → p.isKey = true → p.hasConfig = false →
        seenConfig ps = latestConfig ps) := by
  obtain ⟨frames, bytes, h⟩ := afterPackets_spec pads hopen ps
  obtain ⟨frames₁, bytes₁, h₁⟩ := afterPackets_spec pads hopen (ps ++ [p])
  obtain ⟨frames', bytes', hstep⟩ := onVenc_packet ⟨pads, seenConfig ps, frames, bytes⟩ p hopen
  have hout := congrArg Prod.snd hstep
  rw [← h] at hout
  constructor
  · rintro ⟨hcache, hemitted⟩
    rw [h₁] at hcache
    refine ⟨Option.some.inj hcache, fun halloc hkey hconfig => ?_⟩
    have hpushed := hout.symm.trans hemitted
    rw [if_pos halloc, if_pos halloc, withConfig, if_pos ⟨hkey, hconfig⟩,
      if_pos ⟨hkey, hconfig⟩] at hpushed
    have hdata := congrArg Emission.data (Output.pushed.inj hpushed)
    exact List.append_cancel_right hdata
  · rintro ⟨hcache, hkeyframe⟩
    refine ⟨?_, ?_⟩
    · rw [h₁, ← hcache]
      rfl
    · refine hout.trans ?_
      by_cases halloc : (p.created && p.copied) = true
      · rw [if_pos halloc, if_pos halloc, withConfig]
        by_cases hput : p.isKey = true ∧ p.hasConfig = false
        · rw [if_pos hput, if_pos hput, hkeyframe halloc hput.1 hput.2]
        · rw [if_neg hput, if_neg hput]
      · rw [if_neg halloc, if_neg halloc]

theorem seenConfig_eq {ps : List EncoderPacket}
    (h : ∀ p ∈ ps, p.hasConfig = true → ¬ p.EndsInParameterSet) :
    seenConfig ps = latestConfig ps := by
  induction ps using List.reverseRecOn with
  | nil => rfl
  | append_singleton ps p ih =>
      have hps := ih fun q hq => h q (List.mem_append_left _ hq)
      rw [seenConfig_snoc, latestConfig_snoc, nextCache, hps]
      by_cases hc : p.hasConfig = true
      · rw [if_pos hc, if_pos hc]
        exact (seenSets_eq_iff p.units p.nonempty).mpr (h p (by simp) hc)
      · rw [if_neg hc, if_neg hc]

/-- **When keyframes are decodable.** The cache and the emissions of a run are right after each
of its packets exactly where no packet with both an SPS and a PPS ends with a parameter set of
more than one byte. -/
theorem onVenc_configured_iff (pads : VideoPads) (hopen : pads.Open) (ps : List EncoderPacket) :
    (∀ before p after, ps = before ++ p :: after → Configured pads before p) ↔
      ∀ p ∈ ps, p.hasConfig = true → ¬ p.EndsInParameterSet := by
  constructor
  · intro hall p hp hc
    obtain ⟨before, after, hps⟩ := List.append_of_mem hp
    have hcache := ((configured_iff pads hopen before p).mp (hall before p after hps)).1
    rw [seenConfig_snoc, latestConfig_snoc, nextCache, if_pos hc, if_pos hc] at hcache
    exact (seenSets_eq_iff p.units p.nonempty).mp hcache
  · intro hok before p after hps
    have hbefore : ∀ q ∈ before ++ [p], q.hasConfig = true → ¬ q.EndsInParameterSet := by
      intro q hq
      refine hok q ?_
      rw [hps, List.append_cons]
      exact List.mem_append_left _ hq
    refine (configured_iff pads hopen before p).mpr ⟨seenConfig_eq hbefore, fun _ _ _ => ?_⟩
    exact seenConfig_eq fun q hq => hbefore q (List.mem_append_left _ hq)

/-- An SPS of four bytes. -/
def spsUnit : NalUnit where
  head := 0x67
  tail := [0x42, 0xc0, 0x1f]
  noStart := by decide
  closed := by decide

/-- A PPS of five bytes. -/
def ppsUnit : NalUnit where
  head := 0x68
  tail := [0xce, 0x3c, 0x80, 0x11]
  noStart := by decide
  closed := by decide

/-- A slice of an IDR picture. -/
def idrUnit : NalUnit where
  head := 0x65
  tail := [0x88, 0x84]
  noStart := by decide
  closed := by decide

def packetOf (units : List Framed) (hne : units ≠ []) (isKeyFrame : Bool) : EncoderPacket where
  units := units
  nonempty := hne
  isKeyFrame := isKeyFrame
  beyond := 0
  created := true
  copied := true

def videoPads : VideoPads :=
  { appVideoSrcPad := true, rtspVideoPad := false, appVideoMirrorSrcPad := false }

/-- The parameter sets before a slice are kept whole. -/
theorem onVenc_configured_before_slice :
    (videoPads.Open) ∧
    ((∀ before p after,
        [packetOf [⟨true, spsUnit⟩, ⟨true, ppsUnit⟩, ⟨false, idrUnit⟩] (by decide) true,
          packetOf [⟨false, idrUnit⟩] (by decide) true] = before ++ p :: after →
        Configured videoPads before p) ↔
      ∀ p ∈ [packetOf [⟨true, spsUnit⟩, ⟨true, ppsUnit⟩, ⟨false, idrUnit⟩] (by decide) true,
          packetOf [⟨false, idrUnit⟩] (by decide) true],
        p.hasConfig = true → ¬ p.EndsInParameterSet) :=
  ⟨Or.inl rfl, onVenc_configured_iff videoPads (Or.inl rfl) _⟩

/-- A packet of an SPS and a PPS: the PPS is cached without its last three bytes. -/
theorem onVenc_cuts_pps :
    ¬ ∀ (pads : VideoPads), pads.Open → ∀ (ps before after : List EncoderPacket)
        (p : EncoderPacket), ps = before ++ p :: after → Configured pads before p := by
  intro h
  have hconfigured := h videoPads (Or.inl rfl) _ [] []
    (packetOf [⟨true, spsUnit⟩, ⟨true, ppsUnit⟩] (by decide) false) rfl
  have hcache := hconfigured.cache
  revert hcache
  decide

end QcapDemos.Tx
