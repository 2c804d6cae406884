import QcapDemos.Rx.Modeset

set_option autoImplicit false

/-! # The AVH receiver

The part of `zst_dante_rx_t` that takes turns with the Ultra output: the flow count, the decoder
and its initialization thread, the DRM output, the video sink and the PCM. Functions of the main
loop are embedded as such, what the receiver's own threads do as one event at a time. The sink
shows a pushed frame by a page flip on the video plane. Functions answer `true` where the source
returns 0.
-/

namespace QcapDemos.Rx

open QcapDemos.Drm QcapDemos.Alsa QcapDemos.Lib

/-- How far the decoder's initialization thread has come. -/
inductive Init where
  | idle
  | display
  | setup
  | finish
deriving DecidableEq

/-- `zst_dante_rx_t` in auto mode. -/
structure Avh where
  decWidth : Nat := 0
  decHeight : Nat := 0
  decFps : ℚ := 60
  extraData : Bool := false
  autoFlowCount : Nat := 0
  decodedFrames : Nat := 0
  init : Init := .idle
  vdecStarted : Bool := false
  displayEnabled : Bool := false
  vdecSink : Bool := false
  vdecSinkStarted : Bool := false
  drmOpen : Bool := false
  drmConnectorId : Nat := 0
  drmCrtcId : Nat := 0
  drmPrimaryPlaneId : Nat := 0
  drmVideoPlaneId : Nat := 0
  drmPrimaryFbId : Nat := 0
  drmPrimaryBoHandle : Nat := 0
  drmModeBlobId : Nat := 0
  drmOutputMode : ModeInfo := {}
  drmModesetActive : Bool := false
  audioPcm : Bool := false
  audioPcmStarted : Bool := false

/-- `decoder_initializing`. -/
def Avh.decoderInitializing (avh : Avh) : Bool := avh.init != .idle

/-! ## The PCM -/

structure SinkCalls where
  route : RouteCalls
  opened : Bool
  params : Bool

/-- `start_hdmi_audio_sink`; on SDI the parameters need an active DRM mode. -/
def startHdmiAudioSink (sdi : Bool) (calls : SinkCalls) (hw : Hw) (avh : Avh) : Bool × Hw × Avh :=
  if avh.audioPcmStarted then (true, hw, avh)
  else if sdi && !avh.drmModesetActive then (true, hw, avh)
  else
    match selectHdmiAudioRoute sdi 0 calls.route hw with
    | (false, hw) => (false, hw, avh)
    | (true, hw) =>
        if !calls.opened || !calls.params then (false, hw, { avh with audioPcm := false })
        else (true, hw, { avh with audioPcm := true, audioPcmStarted := true })

/-- `stop_hdmi_audio_sink`. -/
def stopHdmiAudioSink (avh : Avh) : Avh := { avh with audioPcm := false, audioPcmStarted := false }

/-! ## The way to the display -/

/-- A plane: whether it has the source property, takes NV12, and is the primary plane of the
CRTCs in the mask. -/
structure PlaneInfo where
  id : Nat
  overlaySource : Bool
  nv12 : Bool
  primary : Bool
  possibleCrtcs : Nat

/-- A connector and the CRTCs of its encoder; `output` is `is_output_connector`. -/
structure ConnectorInfo where
  id : Nat
  output : Bool
  connector : Connector
  possibleCrtcs : Nat

/-- What the DRM device reports. -/
structure Resources where
  connectors : List ConnectorInfo
  crtcs : List Nat
  planes : List PlaneInfo

structure Choice where
  mode : ModeInfo
  exact : Bool

section Choose

variable (ar : Arithmetic)

/-- The timing is that of the decoded stream. -/
def exactMode (width height : Nat) (fps : ℚ) (c : ModeInfo) : Bool :=
  c.hdisplay == width && c.vdisplay == height && |modeVrefresh ar c - fps| < 1 / 2

/-- The candidate is preferred to the mode chosen so far. -/
def preferred (width height rate : Nat) (c : Choice) (best : Choice) : Bool :=
  (c.exact && !best.exact) || (c.exact == best.exact &&
    (best.mode.area < c.mode.area || (c.mode.area == best.mode.area &&
      (modeVrefresh ar best.mode + 5 / 1000 < modeVrefresh ar c.mode ||
        (width == 3840 && height == 2160 && rate == 60 && c.mode.clock == 594000 &&
          best.mode.clock != 594000)))))

/-- The mode of a connector for a stream of `fps`, shown in `width` by `height` at `rate`. -/
def chooseMode (sdi : Bool) (width height rate : Nat) (fps : ℚ) (modes : List ModeInfo) :
    Option Choice :=
  modes.foldl (fun best c =>
    let choice : Choice := { mode := c, exact := exactMode ar width height fps c }
    if eligible ar sdi c && best.all (preferred ar width height rate choice ·) then some choice
    else best) none

/-- The objects of the AVH output, its mode, and whether that is exact. -/
structure Path where
  connectorId : Nat
  crtcId : Nat
  primaryPlaneId : Nat
  videoPlaneId : Nat
  mode : ModeInfo
  selectedExact : Bool

/-- The searches of `start_drm_output`: the video plane, the first connected connector with a mode
and a CRTC that reaches the plane, the primary plane of that CRTC. -/
def findPath (sdi : Bool) (width height rate : Nat) (fps : ℚ) (res : Resources) : Option Path := do
  let video ← res.planes.find? fun p => p.overlaySource && p.nv12
  let (k, choice, crtc, c) ← res.connectors.findSome? fun k =>
    if !k.output || !k.connector.connected then none
    else
      (chooseMode ar sdi width height rate fps k.connector.modes).bind fun choice =>
        (res.crtcs.zipIdx.find? fun (_, c) =>
          k.possibleCrtcs.testBit c && video.possibleCrtcs.testBit c).map fun (crtc, c) =>
            (k, choice, crtc, c)
  let primary ← res.planes.find? fun p => p.possibleCrtcs.testBit c && p.primary
  return { connectorId := k.id, crtcId := crtc, primaryPlaneId := primary.id,
           videoPlaneId := video.id, mode := choice.mode, selectedExact := choice.exact }

end Choose

/-! ## The DRM output -/

structure StopCalls where
  alloc : Bool
  propId : Obj → PropName → Bool
  add : Obj → PropName → Bool
  commit : Bool

/-- The outcomes of the calls of `start_drm_output`. -/
structure OutputCalls where
  opened : Bool
  caps : Bool
  resources : Option Resources
  dumb : Option Nat
  blob : Option Nat
  addFb : Option Nat
  alloc : Bool
  propId : Obj → PropName → Bool
  add : Obj → PropName → Bool
  commit : Bool
  audio : SinkCalls
  stop : StopCalls

section Output

variable (opts : Options) (dev : Device)

/-- The request that switches the output off. -/
def stopRequest (calls : StopCalls) (avh : Avh) : Request :=
  let ask := askKnown calls.propId calls.add
  ask (.plane avh.drmPrimaryPlaneId) .crtcId 0 ++
  ask (.plane avh.drmPrimaryPlaneId) .fbId 0 ++
  ask (.crtc avh.drmCrtcId) .active 0 ++
  ask (.connector avh.drmConnectorId) .crtcId 0

/-- The receiver's view of a closed output. -/
def Avh.closed (avh : Avh) : Avh :=
  { avh with
    drmOpen := false, drmConnectorId := 0, drmCrtcId := 0, drmPrimaryPlaneId := 0
    drmVideoPlaneId := 0, drmPrimaryFbId := 0, drmPrimaryBoHandle := 0, drmModeBlobId := 0
    drmOutputMode := {}, drmModesetActive := false }

/-- `stop_drm_output`. -/
def stopDrmOutput (calls : StopCalls) (hw : Hw) (avh : Avh) : Hw × Avh :=
  let avh := if opts.sdi then stopHdmiAudioSink avh else avh
  if !avh.drmOpen then (hw, avh)
  else
    let hw := if avh.drmModesetActive && calls.alloc
      then (hw.commit .avh (stopRequest calls avh) calls.commit).2 else hw
    let hw := if avh.drmPrimaryFbId ≠ 0 then hw.rmFb dev .avh avh.drmPrimaryFbId else hw
    let hw := if avh.drmPrimaryBoHandle ≠ 0
      then hw.destroyDumb dev .avh avh.drmPrimaryBoHandle else hw
    let hw := if avh.drmModeBlobId ≠ 0 then hw.destroyBlob dev .avh avh.drmModeBlobId else hw
    (hw.closeClient .avh, avh.closed)

/-- The properties the output requires, with the values they get. -/
def outputProperties (path : Path) (fb blob : Nat) : List (Obj × PropName × Nat) :=
  let plane := Obj.plane path.primaryPlaneId
  [(.connector path.connectorId, .crtcId, path.crtcId), (.crtc path.crtcId, .modeId, blob),
    (.crtc path.crtcId, .active, 1), (plane, .crtcId, path.crtcId), (plane, .fbId, fb),
    (plane, .crtcX, 0), (plane, .crtcY, 0), (plane, .crtcW, path.mode.hdisplay),
    (plane, .crtcH, path.mode.vdisplay), (plane, .srcX, 0), (plane, .srcY, 0),
    (plane, .srcW, path.mode.hdisplay * 2 ^ 16), (plane, .srcH, path.mode.vdisplay * 2 ^ 16)]

/-- Source 2 is the decoded stream. -/
def startRequest (calls : OutputCalls) (path : Path) (fb blob : Nat) : Request :=
  (outputProperties path fb blob).flatMap (fun (o, p, v) => ask calls.propId calls.add o p v) ++
    ask calls.propId calls.add (.plane path.videoPlaneId) .overlaySource 2

/-- Build and commit the request of the output. -/
def commitOutput (calls : OutputCalls) (path : Path) (fb blob : Nat) (hw : Hw) : Bool × Hw :=
  if !calls.alloc || !(outputProperties path fb blob).all (fun (o, p, _) => calls.propId o p) then
    (false, hw)
  else
    match addOutputProperties calls.propId calls.add dev.arithmetic opts.sdi path.connectorId
        path.mode with
    | none => (false, hw)
    | some extra => hw.commit .avh (startRequest calls path fb blob ++ extra) calls.commit

/-- Create the objects of the output and commit them; the receiver's fields follow the calls. A
buffer without a mode blob is not recorded, and goes when the client closes. -/
def buildOutput (calls : OutputCalls) (path : Path) (hw : Hw) (avh : Avh) : Bool × Hw × Avh :=
  let avh := { avh with
    drmConnectorId := path.connectorId, drmCrtcId := path.crtcId
    drmPrimaryPlaneId := path.primaryPlaneId, drmVideoPlaneId := path.videoPlaneId }
  match hw.createDumb .avh calls.dumb with
  | (none, hw) => (false, hw, avh)
  | (some bo, hw) =>
      match hw.createBlob dev .avh path.mode calls.blob with
      | (none, hw) => (false, hw, avh)
      | (some blob, hw) =>
          let avh := { avh with drmPrimaryBoHandle := bo, drmModeBlobId := blob }
          match hw.addFb dev .avh .bgr888 bo calls.addFb with
          | (none, hw) => (false, hw, avh)
          | (some fb, hw) =>
              match commitOutput opts dev calls path fb blob hw with
              | (ok, hw) => (ok, hw, { avh with drmPrimaryFbId := fb })

/-- The size and rate the output is chosen for. -/
def Avh.wanted (avh : Avh) : Nat × Nat × Nat :=
  if opts.sdi then (opts.fixedW, opts.fixedH, 60)
  else (avh.decWidth, avh.decHeight, ⌊avh.decFps + 1 / 2⌋.toNat)

/-- `start_drm_output`. -/
def startDrmOutput (calls : OutputCalls) (hw : Hw) (avh : Avh) : Bool × Hw × Avh :=
  let fail (hw : Hw) (avh : Avh) := (false, stopDrmOutput opts dev calls.stop hw avh)
  if avh.drmModesetActive then (true, hw, avh)
  else if !calls.opened then fail hw avh
  else
    let avh := { avh with drmOpen := true }
    if !calls.caps then fail hw avh
    else
      let (width, height, rate) := avh.wanted opts
      match calls.resources.bind
          (findPath dev.arithmetic opts.sdi width height rate avh.decFps) with
      | none => fail hw avh
      | some path =>
          match buildOutput opts dev calls path hw avh with
          | (false, hw, avh) => fail hw avh
          | (true, hw, avh) =>
              let avh := { avh with drmModesetActive := true, drmOutputMode := path.mode }
              if opts.sdi then (true, (startHdmiAudioSink opts.sdi calls.audio hw avh).2)
              else (true, hw, avh)

end Output

/-! ## The video sink -/

/-- A commit of the library behind the video sink: any values of any properties, accepted or not.
The framebuffers and modes that it names are the library's own. -/
structure SinkCommit where
  writes : List (Obj × PropName × Nat)
  ok : Bool

/-- The value a commit of the library writes: the kernel gives its framebuffers and modes ids that
no object of the program has. -/
def sinkValue (hw : Hw) (p : PropName) (v : Nat) : Nat :=
  if v = 0 then 0
  else match p with
    | .fbId => fresh (hw.ledger.live.biUnion Object.fbIds) v
    | .modeId => fresh (hw.ledger.live.biUnion Object.blobIds) v
    | _ => v

def SinkCommit.request (hw : Hw) (c : SinkCommit) : Request :=
  c.writes.map fun (o, p, v) => { obj := o, prop := some p, value := sinkValue hw p v }

/-- What the library does to the display during a call of the sink. -/
def Hw.sinkWork (work : List SinkCommit) (hw : Hw) : Hw :=
  work.foldl (fun hw c => (hw.commit .sink (c.request hw) c.ok).2) hw

/-- The outcomes of the calls that create and start the sink, and what the library does in them. -/
structure VdecSinkCalls where
  new : Bool
  start : Bool
  work : List SinkCommit

/-- `start_vdec_sink`. -/
def startVdecSink (calls : VdecSinkCalls) (hw : Hw) (avh : Avh) : Bool × Hw × Avh :=
  if avh.vdecSinkStarted then (true, hw, avh)
  else if !calls.new then (false, hw, avh)
  else
    let hw := Hw.sinkWork calls.work hw
    let outW := avh.drmOutputMode.hdisplay
    let outH := avh.drmOutputMode.vdisplay
    if avh.decWidth = 0 ∨ avh.decHeight = 0 ∨ outW = 0 ∨ outH = 0 then (false, hw, avh)
    else
      let rect := letterbox avh.decWidth avh.decHeight outW outH
      if rect.1 = 0 ∨ rect.2 = 0 then (false, hw, avh)
      else if !calls.start then (false, hw, avh)
      else (true, hw, { avh with vdecSink := true, vdecSinkStarted := true })

/-- Stop and delete the video sink. -/
def deleteVdecSink (work : List SinkCommit) (hw : Hw) (avh : Avh) : Hw × Avh :=
  if avh.vdecSink then
    (Hw.sinkWork work hw, { avh with vdecSink := false, vdecSinkStarted := false })
  else (hw, avh)

/-! ## What the receiver's threads do -/

/-- The outcomes of the initialization thread's calls. -/
structure InitCalls where
  output : OutputCalls
  sink : VdecSinkCalls
  setup : Bool

/-- One event of the bus worker, the parser, the scheduler, the initialization thread or the
decoder. -/
inductive AvhEvent where
  | flows (count : Nat)
  | caps (width height : Nat) (fps : ℚ)
  | feed (keyframe : Bool)
  | init (calls : InitCalls)
  | frame (push : List SinkCommit)

section Events

variable (opts : Options) (dev : Device)

/-- `rx_h264_apply_caps`; the caps of a running decoder stay. -/
def Avh.applyCaps (avh : Avh) (width height : Nat) (fps : ℚ) : Avh :=
  if width = 0 ∨ height = 0 then avh
  else if avh.vdecStarted || avh.decoderInitializing then avh
  else { avh with
    extraData := true, decWidth := width, decHeight := height
    decFps := if fps < 1 ∨ 240 < fps then 60 else fps }

/-- `rx_video_feed_decoder` as far as it starts the initialization thread. -/
def Avh.feed (avh : Avh) (keyframe : Bool) : Avh :=
  if avh.decoderInitializing || avh.vdecStarted then avh
  else if !avh.extraData || avh.decWidth = 0 || avh.decHeight = 0 || !keyframe then avh
  else { avh with init := .display }

/-- One step of the thread of `start_vdec_decoder_async`. -/
def Avh.initStep (calls : InitCalls) (hw : Hw) (avh : Avh) : Hw × Avh :=
  match avh.init with
  | .idle => (hw, avh)
  | .display =>
      if !avh.displayEnabled then (hw, { avh with init := .setup })
      else
        match startDrmOutput opts dev calls.output hw avh with
        | (false, hw, avh) => (hw, { avh with init := .finish })
        | (true, hw, avh) =>
            match startVdecSink calls.sink hw avh with
            | (false, hw, avh) => (hw, { avh with init := .finish })
            | (true, hw, avh) => (hw, { avh with init := .setup })
  | .setup => (hw, { avh with init := .finish, vdecStarted := avh.vdecStarted || calls.setup })
  | .finish => (hw, { avh with init := .idle })

/-- One turn of `on_vdec_event_callback`; `push` is what the library does with the frame. -/
def Avh.frame (push : List SinkCommit) (hw : Hw) (avh : Avh) : Hw × Avh :=
  if !avh.vdecStarted then (hw, avh)
  else
    let hw :=
      if avh.displayEnabled && avh.vdecSink && avh.vdecSinkStarted then Hw.sinkWork push hw
      else hw
    (hw, { avh with decodedFrames := avh.decodedFrames + 1 })

/-- The effect of one event. -/
def Avh.step (s : Hw × Avh) : AvhEvent → Hw × Avh
  | .flows count => (s.1, { s.2 with autoFlowCount := count })
  | .caps width height fps => (s.1, s.2.applyCaps width height fps)
  | .feed keyframe => (s.1, s.2.feed keyframe)
  | .init calls => s.2.initStep opts dev calls s.1
  | .frame push => s.2.frame push s.1

/-- The effect of several events. -/
def Avh.steps (s : Hw × Avh) (es : List AvhEvent) : Hw × Avh := es.foldl (Avh.step opts dev) s

end Events

/-! ## The board's output -/

/-- What DRM reports of the board. -/
def boardResources : Resources where
  connectors := [{ id := 1, output := true, possibleCrtcs := 1,
                   connector := { connected := true, modes := [mode1080] } }]
  crtcs := [2]
  planes := [{ id := 3, overlaySource := false, nv12 := false, primary := true, possibleCrtcs := 1 },
    { id := 4, overlaySource := true, nv12 := true, primary := false, possibleCrtcs := 1 }]

/-- Every step succeeds. -/
def SinkCalls.succeed : SinkCalls := { route := .succeed, opened := true, params := true }

/-- Every step succeeds. -/
def StopCalls.succeed : StopCalls where
  alloc := true
  propId _ _ := true
  add _ _ := true
  commit := true

/-- Every call succeeds on the board. -/
def OutputCalls.succeed : OutputCalls where
  opened := true
  caps := true
  resources := some boardResources
  dumb := some 0
  blob := some 0
  addFb := some 0
  alloc := true
  propId _ _ := true
  add _ _ := true
  commit := true
  audio := .succeed
  stop := .succeed

/-- Every step succeeds. -/
def VdecSinkCalls.succeed : VdecSinkCalls := { new := true, start := true, work := [] }

end QcapDemos.Rx
