import QcapDemos.Lib.Holdings
import QcapDemos.Lib.Proc
import QcapDemos.Rx.Acquire

set_option autoImplicit false

/-! # A media receiver from its start to its end

`start_qcap_media_rx` makes a receiver that has a parser and maybe an open PCM. What it decodes and
displays with comes later and may come and go: a thread opens the DRM output, the video sink and the
decoder, any of which may fail, and a new format tears them all down again. Two clients own such a
receiver, the RTSP bridge with its eight elements and the QCAP API mode with its Dante server.

The programs below follow the code call by call, over the outcomes of the calls. Every object that
is made is noted in a ledger, and so is whether something still used it when it was destroyed. The
connection `drm_fd` stands for itself and for what is made on it, which it takes with it when it is
closed. The initialization thread is an object as well, which a join destroys. There are no locks
here: every call returns, and so does every join.
-/

namespace QcapDemos.Rx.Media

open QcapDemos.Lib Proc

/-! ## The objects -/

/-- The elements of `rtsp_playback_t`. -/
inductive Element where
  | source
  | vparser
  | aparser
  | adec
  | audioAdapter
  | aresampler
  | vsink
  | asink
deriving DecidableEq

inductive Object where
  | rx
  | videoStats
  | audioStats
  | h264Parser
  | capsPriv
  | capsSink
  | capsSinkPad
  /-- A copy of `avcC`, by its number. -/
  | extraData (copy : Nat)
  | audioPcm
  | drmFd
  | vdecSink
  | vdecEvent
  | vdecEventHandlers
  | vdecPacketPool
  | vdec
  /-- From its creation until it is joined. -/
  | vdecInitThread
  | element (e : Element)
  | priv (e : Element)
  | sinkPad (e : Element)
  | srcPad (e : Element)
  | qcapRx
  | server
  | client
deriving DecidableEq

/-! ## The state -/

/-- The fields of the receiver that say how far it is. -/
structure Fields where
  extraData : Option Nat := none
  /-- The copies of `avcC` that were made so far. -/
  copies : Nat := 0
  vdecStarted : Bool := false
  vdecSinkStarted : Bool := false
  drmModesetActive : Bool := false
  audioPcmStarted : Bool := false
  decoderInitializing : Bool := false
  /-- `vdec_init_thread.joinable()` -/
  vdecInitThread : Bool := false

/-- What works with the object for as long as it exists: reads it, pushes into it, or calls back
with it. The decoder has the copy of `avcC` that the receiver points at, and the thread gives it to
the decoder. The elements of the RTSP bridge are all stopped before one of them is destroyed. -/
def users (f : Fields) : Object → List Object
  | .rx =>
      [.capsSink, .vdecEventHandlers, .vdecInitThread, .element .vsink, .element .asink, .client]
  | .videoStats => [.element .vsink, .client]
  | .audioStats => [.client]
  | .capsSink => [.h264Parser]
  | .extraData copy =>
      if f.extraData = some copy then
        if f.decoderInitializing then [.vdec, .vdecInitThread] else [.vdec]
      else []
  | .drmFd => [.vdecSink]
  | .vdecSink => [.vdecEventHandlers]
  | .vdecEvent => [.vdecEventHandlers, .vdec]
  | .vdecPacketPool => [.vdec]
  | .qcapRx => [.server, .client]
  | .server => [.client]
  | _ => []

def uses (f : Fields) (user o : Object) : Bool := (users f o).contains user

structure State where
  holdings : Holdings Object
  fields : Fields

def State.initial : State := { holdings := .empty, fields := {} }

/-- A function that may return -1. -/
abbrev Program (α : Type) : Type := Proc State Unit α

def fields : Program Fields := call fun s => (s.fields, s)

def assign (f : Fields → Fields) : Program Unit := update fun s => { s with fields := f s.fields }

def create (o : Object) (ok : Bool) : Program Unit :=
  update fun s => if ok then { s with holdings := s.holdings.create o } else s

def destroy (o : Object) : Program Unit :=
  update fun s => { s with holdings := s.holdings.destroy (uses s.fields) o }

/-- The field is tested, and cleared after the destruction. -/
def destroyIfHeld (o : Object) : Program Unit :=
  update fun s => { s with holdings := s.holdings.destroyIfHeld (uses s.fields) o }

/-- A failure is logged at most. -/
def tolerate (p : Program Unit) : Program Unit := do
  let _ ← attempt p
  pure ()

def when (b : Bool) (p : Program Unit) : Program Unit := if b then p else pure ()

/-- `if (pointer) { … }` -/
def whenHeld (o : Object) (p : Program Unit) : Program Unit :=
  fun s => if o ∈ s.holdings.held then p s else (.ok (), s)

def destroyAll (os : List Object) : Program Unit := os.forM destroy

/-- The function returns with its local pointer to `o`. -/
def lose (o : Object) : Program Unit := update fun s => { s with holdings := s.holdings.lose o }

/-- `if (failed) { cleanup; return -1; }` -/
def failIf (failed : Bool) (cleanup : Program Unit) : Program Unit :=
  if failed then cleanup >>= fun _ => raise () else pure ()

/-- Create it, and leave the function if that fails. -/
def acquire (o : Object) (ok : Bool) (cleanup : Program Unit) : Program Unit := do
  create o ok
  failIf (!ok) cleanup

/-! ## The audio sink and the DRM output -/

def startHdmiAudioSink (sdi : Bool) (c : PcmCalls) : Program Unit := do
  let f ← fields
  if f.audioPcmStarted then pure ()
  -- the parameters of an SDI card need an active mode
  else if sdi && !f.drmModesetActive then pure ()
  else do
    failIf (!c.route) (pure ())
    create .audioPcm c.open'
    failIf (!(c.open' && c.params)) (destroyIfHeld .audioPcm)
    assign fun f => { f with audioPcmStarted := true }

def stopHdmiAudioSink : Program Unit := do
  destroyIfHeld .audioPcm
  assign fun f => { f with audioPcmStarted := false }

def stopDrmOutput (sdi : Bool) : Program Unit := do
  when sdi stopHdmiAudioSink
  whenHeld .drmFd do
    destroy .drmFd
    assign fun f => { f with drmModesetActive := false }

/-- The calls of `start_drm_output`: `selected` are the ones from the resources to the commit, each
of which ends the function alike. -/
structure DrmCalls where
  drmOpen : Bool
  capabilities : Bool
  selected : Bool
  pcm : PcmCalls

def startDrmOutput (sdi : Bool) (c : DrmCalls) : Program Unit := do
  let f ← fields
  if f.drmModesetActive then pure ()
  else do
    create .drmFd c.drmOpen
    failIf (!(c.drmOpen && c.capabilities)) (stopDrmOutput sdi)
    failIf (!c.selected) (stopDrmOutput sdi)
    assign fun f => { f with drmModesetActive := true }
    -- without PCM it goes on with video only
    when sdi (tolerate (startHdmiAudioSink sdi c.pcm))

/-- The calls of `start_vdec_sink`; `rect` is the check of the dimensions and of the rectangle. -/
structure SinkCalls where
  new : Bool
  rect : Bool
  start : Bool

def startVdecSink (c : SinkCalls) : Program Unit := do
  let f ← fields
  if f.vdecSinkStarted then pure ()
  else do
    acquire .vdecSink c.new (pure ())
    failIf (!c.rect) (destroy .vdecSink)
    failIf (!c.start) (destroy .vdecSink)
    assign fun f => { f with vdecSinkStarted := true }

def stopVdecDisplay (sdi : Bool) : Program Unit := do
  destroyIfHeld .vdecSink
  assign fun f => { f with vdecSinkStarted := false }
  stopDrmOutput sdi

/-! ## The decoder -/

def stopVdecAsync : Program Unit := do
  destroyIfHeld .vdecEventHandlers
  destroyIfHeld .vdecPacketPool
  destroyIfHeld .vdecEvent

structure SetupCalls where
  eventNew : Bool
  eventStart : Bool
  handlersNew : Bool
  handlersStart : Bool
  nativeHandle : Bool
  addHandler : Bool
  poolNew : Bool
  poolStart : Bool

def setupVdecAsync (c : SetupCalls) : Program Unit := do
  acquire .vdecEvent c.eventNew (pure ())
  failIf (!c.eventStart) stopVdecAsync
  acquire .vdecEventHandlers c.handlersNew stopVdecAsync
  failIf (!c.handlersStart) stopVdecAsync
  failIf (!c.nativeHandle) stopVdecAsync
  failIf (!c.addHandler) stopVdecAsync
  acquire .vdecPacketPool c.poolNew stopVdecAsync
  failIf (!c.poolStart) stopVdecAsync

structure DecoderCalls where
  new : Bool
  start : Bool

def initVdecDecoder (c : DecoderCalls) : Program Unit := do
  acquire .vdec c.new (pure ())
  failIf (!c.start) (destroy .vdec)
  assign fun f => { f with vdecStarted := true }

/-- The backend, and whether frames are shown. -/
structure Config where
  sdi : Bool
  displayEnabled : Bool

structure InitCalls where
  drm : DrmCalls
  sink : SinkCalls
  setup : SetupCalls
  decoder : DecoderCalls

/-- The display as far as it is enabled. -/
def startDisplay (cfg : Config) (c : InitCalls) : Program Unit :=
  when cfg.displayEnabled do
    startDrmOutput cfg.sdi c.drm
    startVdecSink c.sink

def startDecoder (c : InitCalls) : Program Unit := do
  let started ← attempt (do setupVdecAsync c.setup; initVdecDecoder c.decoder)
  when (!started) stopVdecAsync

/-- The body of `vdec_init_thread`. -/
def initThread (cfg : Config) (c : InitCalls) : Program Unit := do
  let ready ← attempt (startDisplay cfg c)
  when ready (startDecoder c)
  assign fun f => { f with decoderInitializing := false }

/-- The thread does its work, if it has not done it. -/
def finishInitThread (cfg : Config) (c : InitCalls) : Program Unit := do
  let f ← fields
  when f.decoderInitializing (initThread cfg c)

/-- The join of a thread that has done its work. -/
def reapInitThread : Program Unit := do
  destroyIfHeld .vdecInitThread
  assign fun f => { f with vdecInitThread := false }

/-- Joining a thread that still runs waits until it has done its work. -/
def joinInitThread (cfg : Config) (c : InitCalls) : Program Unit := do
  finishInitThread cfg c
  reapInitThread

def stopVdecDecoder (cfg : Config) (c : InitCalls) : Program Unit := do
  joinInitThread cfg c
  destroyIfHeld .vdecEventHandlers
  whenHeld .vdec do
    destroy .vdec
    assign fun f => { f with vdecStarted := false }
  stopVdecAsync

/-! ## The receiver -/

/-- An element takes along what it owns: its private data, and the pads that were added to it. -/
def destroyElement (o : Object) (owned : List Object) : Program Unit :=
  whenHeld o (destroyAll (owned ++ [o]))

/-- The label `fail`. -/
def failParser (owned : List Object) : Program Unit := do
  destroyIfHeld .h264Parser
  destroyElement .capsSink owned

def rxH264ParserCreate (c : ParserCalls) : Program Unit := do
  create .h264Parser c.parser
  create .capsPriv c.priv
  failIf (!(c.parser && c.priv)) (do destroyIfHeld .capsPriv; failParser [])
  acquire .capsSink c.capsSink (do destroy .capsPriv; failParser [])
  acquire .capsSinkPad c.pad (failParser [.capsPriv])
  failIf (!c.addPad) (do destroy .capsSinkPad; failParser [.capsPriv])
  failIf (!c.configured) (failParser [.capsPriv, .capsSinkPad])

def rxH264ParserDestroy : Program Unit := do
  destroyIfHeld .h264Parser
  destroyElement .capsSink [.capsPriv, .capsSinkPad]

structure MediaCalls where
  videoStats : Bool
  audioStats : Bool
  parser : ParserCalls
  pcm : PcmCalls

/-- The calls that it cannot do without. -/
def MediaCalls.ok (c : MediaCalls) : Bool := c.videoStats && c.audioStats && c.parser.ok

def startQcapMediaRx (cfg : Config) (c : MediaCalls) : Program Unit := do
  create .rx true
  create .videoStats c.videoStats
  create .audioStats c.audioStats
  failIf (!(c.videoStats && c.audioStats)) do
    destroyIfHeld .videoStats
    destroyIfHeld .audioStats
    destroy .rx
  let parsed ← attempt (rxH264ParserCreate c.parser)
  failIf (!parsed) (destroyAll [.videoStats, .audioStats, .rx])
  -- without PCM it goes on with video only
  tolerate (startHdmiAudioSink cfg.sdi c.pcm)

def freeExtraData : Program Unit := do
  let f ← fields
  match f.extraData with
  | some copy => destroy (.extraData copy)
  | none => pure ()

def stopQcapMediaRx (cfg : Config) (c : InitCalls) : Program Unit := do
  stopVdecDecoder cfg c
  rxH264ParserDestroy
  freeExtraData
  stopVdecDisplay cfg.sdi
  stopHdmiAudioSink
  destroyAll [.videoStats, .audioStats, .rx]

/-! ## What happens while it runs -/

/-- `rx_h264_apply_caps` with caps that are valid. -/
def rxH264ApplyCaps (copied : Bool) : Program Unit := do
  let f ← fields
  acquire (.extraData f.copies) copied (pure ())
  assign fun f => { f with copies := f.copies + 1 }
  if f.vdecStarted || f.decoderInitializing then destroy (.extraData f.copies)
  else do
    freeExtraData
    assign fun g => { g with extraData := some f.copies }

/-- The thread of before is joined, and a new one has its work to do. -/
def startVdecDecoderAsync (cfg : Config) (c : InitCalls) : Program Unit := do
  joinInitThread cfg c
  assign fun f => { f with decoderInitializing := true }
  create .vdecInitThread true
  assign fun f => { f with vdecInitThread := true }

/-- `rx_video_feed_decoder`: without a decoder, a keyframe starts the thread once there is a
format. -/
def rxVideoFeedDecoder (cfg : Config) (keyframe : Bool) (c : InitCalls) : Program Unit := do
  let f ← fields
  if f.decoderInitializing || f.vdecStarted then pure ()
  else if f.extraData.isNone || !keyframe then pure ()
  else startVdecDecoderAsync cfg c

/-- An event comes with the calls of a thread that it waits for. -/
inductive MediaEvent where
  | unit (keyframe : Bool) (c : InitCalls)
  | initialized (c : InitCalls)
  | caps (copied : Bool)
  /-- Caps of the RTSP pipeline, which rebuild the decoder and the output for another format. -/
  | rtspCaps (differs copied : Bool) (c : InitCalls)

def handle (cfg : Config) : MediaEvent → Program Unit
  | .unit keyframe c => rxVideoFeedDecoder cfg keyframe c
  | .initialized c => finishInitThread cfg c
  | .caps copied => tolerate (rxH264ApplyCaps copied)
  | .rtspCaps differs copied c => do
      let f ← fields
      when ((f.decoderInitializing || f.vdecStarted || f.drmModesetActive) && differs) do
        stopVdecDecoder cfg c
        stopVdecDisplay cfg.sdi
      tolerate (rxH264ApplyCaps copied)

def handleAll (cfg : Config) (events : List MediaEvent) : Program Unit :=
  events.forM (handle cfg)

/-! ## The RTSP bridge -/

def Element.parts : Element → List Object
  | .audioAdapter => [.priv .audioAdapter, .sinkPad .audioAdapter, .srcPad .audioAdapter]
  | .vsink => [.priv .vsink, .sinkPad .vsink]
  | .asink => [.priv .asink, .sinkPad .asink]
  | _ => []

structure AdapterCalls where
  priv : Bool
  element : Bool
  sinkPad : Bool
  addSinkPad : Bool
  srcPad : Bool
  addSrcPad : Bool

def rtspAudioAdapterCreate (c : AdapterCalls) : Program Unit := do
  let e := Element.audioAdapter
  acquire (.priv e) c.priv (pure ())
  acquire (.element e) c.element (destroy (.priv e))
  acquire (.sinkPad e) c.sinkPad (destroyElement (.element e) [.priv e])
  failIf (!c.addSinkPad) do
    destroy (.sinkPad e)
    destroyElement (.element e) [.priv e]
  acquire (.srcPad e) c.srcPad (destroyElement (.element e) [.priv e, .sinkPad e])
  failIf (!c.addSrcPad) do
    destroy (.srcPad e)
    destroyElement (.element e) [.priv e, .sinkPad e]

structure RtspSinkCalls where
  priv : Bool
  element : Bool
  pad : Bool
  addPad : Bool

def rtspSinkCreate (e : Element) (c : RtspSinkCalls) : Program Unit := do
  acquire (.priv e) c.priv (pure ())
  acquire (.element e) c.element (destroy (.priv e))
  acquire (.sinkPad e) c.pad (destroyElement (.element e) [.priv e])
  -- unlike the adapter, a sink does not destroy the pad that it could not add
  failIf (!c.addPad) do
    destroyElement (.element e) [.priv e]
    lose (.sinkPad e)

/-- The calls of `run_rtsp_client`: `configured` are the properties and links, each of which ends
the function alike. -/
structure RtspCalls where
  media : MediaCalls
  source : Bool
  vparser : Bool
  aparser : Bool
  adec : Bool
  audioAdapter : AdapterCalls
  aresampler : Bool
  vsink : RtspSinkCalls
  asink : RtspSinkCalls
  configured : Bool
  playing : Bool

/-- `els`. -/
def Element.all : List Element :=
  [.source, .vparser, .aparser, .adec, .audioAdapter, .aresampler, .vsink, .asink]

def createElements (c : RtspCalls) : Program Unit := do
  create (.element .source) c.source
  create (.element .vparser) c.vparser
  create (.element .aparser) c.aparser
  create (.element .adec) c.adec
  tolerate (rtspAudioAdapterCreate c.audioAdapter)
  create (.element .aresampler) c.aresampler
  tolerate (rtspSinkCreate .vsink c.vsink)
  tolerate (rtspSinkCreate .asink c.asink)

/-- One of the pointers is null. -/
def anyMissing : Program Bool :=
  call fun s => (Element.all.any fun e => decide (.element e ∉ s.holdings.held), s)

/-- The lambda `cleanup`. -/
def cleanup (cfg : Config) (c : InitCalls) : Program Unit := do
  Element.all.forM fun e => destroyElement (.element e) e.parts
  stopQcapMediaRx cfg c

/-- `stop` has the calls of a thread that is joined in the end. -/
def runRtspClient (cfg : Config) (c : RtspCalls) (events : List MediaEvent) (stop : InitCalls) :
    Program Unit := do
  startQcapMediaRx cfg c.media
  createElements c
  let missing ← anyMissing
  failIf missing (cleanup cfg stop)
  failIf (!c.configured) (cleanup cfg stop)
  failIf (!c.playing) (cleanup cfg stop)
  handleAll cfg events
  stopVdecDecoder cfg stop
  cleanup cfg stop

/-! ## The QCAP API mode -/

/-- The calls of `start_qcap_dante_rx`: `serverReady` and `clientReady` are the properties, the
callbacks and the start. -/
structure QcapCalls where
  media : MediaCalls
  server : Bool
  serverReady : Bool
  client : Bool
  clientReady : Bool

def stopQcapDanteRx (cfg : Config) (c : InitCalls) : Program Unit := do
  destroyIfHeld .client
  destroyIfHeld .server
  stopQcapMediaRx cfg c
  destroy .qcapRx

def startQcapDanteRx (cfg : Config) (c : QcapCalls) (stop : InitCalls) : Program Unit := do
  create .qcapRx true
  let started ← attempt (startQcapMediaRx cfg c.media)
  failIf (!started) (destroy .qcapRx)
  acquire .server c.server (stopQcapDanteRx cfg stop)
  failIf (!c.serverReady) (stopQcapDanteRx cfg stop)
  acquire .client c.client (stopQcapDanteRx cfg stop)
  failIf (!c.clientReady) (stopQcapDanteRx cfg stop)

/-- The mode from its start to its end. -/
def runQcapClient (cfg : Config) (c : QcapCalls) (events : List MediaEvent) (stop : InitCalls) :
    Program Unit := do
  startQcapDanteRx cfg c stop
  handleAll cfg events
  stopQcapDanteRx cfg stop

end QcapDemos.Rx.Media
