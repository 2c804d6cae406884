import Mathlib.Data.Rat.Floor
import QcapDemos.Tx.QcapServer
import QcapDemos.Tx.DanteServer

set_option autoImplicit false

/-! # The TX reaction to a change of the source

`OnDmx` runs the cleanups of the previous stream, and then builds the stream for the source as
it is now: video source and encoder, published video format, audio source and encoder,
published audio info, sender, handlers. It gives up at the first step that fails, with the
cleanups registered so far left for the next event.
-/

namespace QcapDemos.Tx

open QcapDemos.Lib QcapDemos.Lib.Script

/-! ## What is published -/

/-- The enumerator that `memset` leaves, and the one for a locked source. -/
inductive ColorFormat where
  | zero
  | yuv444
deriving DecidableEq

structure VideoFormat where
  width : UInt32
  height : UInt32
  framerate : UInt32
  colorformat : ColorFormat
  bpp : UInt32
  interlaced : Bool
  locked : Bool
deriving DecidableEq

def VideoFormat.zero : VideoFormat :=
  { width := 0, height := 0, framerate := 0, colorformat := .zero, bpp := 0, interlaced := false,
    locked := false }

inductive SpeakerMap where
  | zero
  | frFl
deriving DecidableEq

inductive AudioEncoding where
  | zero
  | lpcm
deriving DecidableEq

structure AudioInfo where
  channelCount : UInt32
  speakerMap : SpeakerMap
  levelShiftValue : UInt32
  downmixInhibit : Bool
  lfePlaybackLevel : UInt32
  sampleRate : UInt32
  encoding : AudioEncoding
  sampleBits : UInt32
deriving DecidableEq

def AudioInfo.zero : AudioInfo :=
  { channelCount := 0, speakerMap := .zero, levelShiftValue := 0, downmixInhibit := false,
    lfePlaybackLevel := 0, sampleRate := 0, encoding := .zero, sampleBits := 0 }

/-! ## The event -/

/-- The conversion of a frame rate to `unsigned int`. -/
def truncate (frameRate : ℚ) : UInt32 := UInt32.ofNat ⌊frameRate⌋.toNat

/-- What the demuxer reports about the source, and whether each call of the reaction succeeds. -/
structure DmxEvent where
  update : Bool
  colorSpaceDefined : Bool
  width : UInt32
  height : UInt32
  interleaved : Bool
  frameRate : ℚ
  channels : UInt32
  bitsPerSample : UInt32
  sampleFrequency : UInt32
  vsrc : SourceCalls
  venc : SourceCalls
  asrc : SourceCalls
  aenc : SourceCalls
  qcap : QcapCalls
  dante : DanteCalls
  handlers : Handled → HandlerCalls

namespace DmxEvent

/-- There is a video link. -/
def linked (e : DmxEvent) : Bool := e.colorSpaceDefined && e.width != 0 && e.height != 0

def audioLinked (e : DmxEvent) : Bool :=
  e.channels != 0 && e.bitsPerSample != 0 && e.sampleFrequency != 0

def newVideoFormat (e : DmxEvent) : VideoFormat :=
  if e.linked then
    { width := e.width, height := e.height, framerate := truncate e.frameRate,
      colorformat := .yuv444, bpp := 8, interlaced := e.interleaved, locked := true }
  else VideoFormat.zero

def newAudioInfo (e : DmxEvent) : AudioInfo :=
  if e.audioLinked then
    { channelCount := e.channels, speakerMap := .frFl, levelShiftValue := 0,
      downmixInhibit := false, lfePlaybackLevel := 0, sampleRate := e.sampleFrequency,
      encoding := .lpcm, sampleBits := e.bitsPerSample }
  else AudioInfo.zero

end DmxEvent

/-- The format set on the video source before its start. -/
structure SourceFormat where
  width : UInt32
  height : UInt32
  interleaved : Bool
  frameRate : ℚ
deriving DecidableEq

/-- The properties of a video encoder that depend on the source. -/
structure VideoProperty where
  width : UInt32
  height : UInt32
  frameRate : ℚ
  bitRate : UInt32
  gop : UInt32
deriving DecidableEq

structure AudioProperty where
  channels : UInt32
  bitsPerSample : UInt32
  sampleFrequency : UInt32
deriving DecidableEq

/-- An interleaved source delivers fields, of half the height. -/
def sourceFormat (e : DmxEvent) : SourceFormat :=
  { width := e.width
    height := if e.interleaved then e.height / 2 else e.height
    interleaved := e.interleaved
    frameRate := e.frameRate }

def videoProperty (e : DmxEvent) : VideoProperty :=
  { width := e.width
    height := e.height
    frameRate := e.frameRate
    bitRate := 24 * 1000000
    gop := if 1 < e.frameRate then truncate e.frameRate else 1 }

def audioProperty (e : DmxEvent) : AudioProperty :=
  { channels := e.channels, bitsPerSample := e.bitsPerSample, sampleFrequency := e.sampleFrequency }

/-! ## The steps of the reaction -/

/-- The settings of the program. -/
structure TxConfig where
  /-- `g_tx_use_qcap` -/
  useQcap : Bool
  dante : DanteArgs
  /-- `pHdmiRxDauServ` is not null. -/
  service : Bool
deriving DecidableEq

def startVideo (e : DmxEvent) : TxScript Unit :=
  if e.linked then do
    startVsrc e.vsrc
    startVenc e.venc
  else pure ()

def startAudio (e : DmxEvent) : TxScript Unit :=
  if e.audioLinked then do
    startAsrc e.asrc
    startAenc e.aenc
  else pure ()

def startServer (cfg : TxConfig) (e : DmxEvent) : TxScript Unit :=
  if cfg.useQcap then startQcapDanteServer e.qcap else startDanteServer cfg.dante e.dante

/-- The sender to which the handlers are bound. -/
def serverObject (cfg : TxConfig) : TxObject := if cfg.useQcap then .qcapTx else .danteTx

/-- A handler for an event that exists. -/
def addHandlerIf (b : Bool) (h : Handled) (bound : List TxObject) (c : HandlerCalls) :
    TxScript Unit :=
  if b then addEventHandler h bound c else pure ()

def addHandlers (cfg : TxConfig) (e : DmxEvent) : TxScript Unit := do
  addHandlerIf true .vsrc [.venc] (e.handlers .vsrc)
  addHandlerIf e.audioLinked .asrc [.aenc, serverObject cfg] (e.handlers .asrc)
  addHandlerIf cfg.useQcap .qcapAudioResampler [serverObject cfg] (e.handlers .qcapAudioResampler)
  addHandlerIf true .venc [.venc, serverObject cfg] (e.handlers .venc)
  -- this callback is bound to the sender of zstreamer only
  addHandlerIf e.audioLinked .aenc (if cfg.useQcap then [.aenc] else [.aenc, .danteTx])
    (e.handlers .aenc)

def startSender (cfg : TxConfig) (e : DmxEvent) : TxScript Unit :=
  if e.linked then do
    startServer cfg e
    addHandlers cfg e
  else pure ()

/-! ## The published state and its signals -/

/-- What a client that reads again at each signal has read last. -/
structure Client where
  cable : Option Bool
  video : Option VideoFormat
  audio : Option AudioInfo
deriving DecidableEq

structure TxState where
  currentVideoFormat : VideoFormat
  currentAudioInfo : AudioInfo
  havePublishedVideoState : Bool
  havePublishedAudioState : Bool
  /-- The properties that the source and the encoders were given last. -/
  vsrcFormat : Option SourceFormat
  vencProperty : Option VideoProperty
  aencProperty : Option AudioProperty
  /-- What was done since the free stack was last flushed, and what the next flush will do. -/
  actions : List (Action TxObject)
  undo : List (Action TxObject)
  client : Client
deriving DecidableEq

def TxState.initial : TxState :=
  { currentVideoFormat := .zero, currentAudioInfo := .zero, havePublishedVideoState := false,
    havePublishedAudioState := false, vsrcFormat := none, vencProperty := none,
    aencProperty := none, actions := [], undo := [],
    client := { cable := none, video := none, audio := none } }

namespace TxState

/-- `_FreeStack_vsrc_.flush()` -/
def flush (tx : TxState) : TxState := { tx with actions := [], undo := [] }

def append (tx : TxState) (s : TxScript Unit) : TxState :=
  { tx with actions := tx.actions ++ s.actions, undo := s.undo ++ tx.undo }

/-- `dau_signal_cable_change` -/
def signalCableChange (tx : TxState) : TxState :=
  { tx with client := { tx.client with cable := some tx.currentVideoFormat.locked } }

/-- `dau_signal_video_change` -/
def signalVideoChange (tx : TxState) : TxState :=
  { tx with client := { tx.client with video := some tx.currentVideoFormat } }

/-- `dau_signal_audio_change` -/
def signalAudioChange (tx : TxState) : TxState :=
  { tx with client := { tx.client with audio := some tx.currentAudioInfo } }

/-- Store the video format, and signal what changed. -/
def publishVideo (cfg : TxConfig) (tx : TxState) (format : VideoFormat) : TxState :=
  let old := tx.currentVideoFormat
  let publishCableChange := !tx.havePublishedVideoState || old.locked != format.locked
  let publishVideoChange := !tx.havePublishedVideoState || old != format
  let tx := { tx with currentVideoFormat := format }
  let tx := if cfg.service && publishCableChange then tx.signalCableChange else tx
  let tx := if cfg.service && publishVideoChange then tx.signalVideoChange else tx
  { tx with havePublishedVideoState := true }

/-- Store the audio info, and signal a change. -/
def publishAudio (cfg : TxConfig) (tx : TxState) (info : AudioInfo) : TxState :=
  let old := tx.currentAudioInfo
  let publishAudioChange := !tx.havePublishedAudioState || old != info
  let tx := { tx with currentAudioInfo := info }
  let tx := if cfg.service && publishAudioChange then tx.signalAudioChange else tx
  { tx with havePublishedAudioState := true }

/-- Publishing the video format signals the lock and the format, each where it changes. -/
theorem publishVideo_eq (cfg : TxConfig) (tx : TxState) (format : VideoFormat) :
    tx.publishVideo cfg format = { tx with
      currentVideoFormat := format
      havePublishedVideoState := true
      client := { tx.client with
        cable :=
          if cfg.service && (!tx.havePublishedVideoState ||
              tx.currentVideoFormat.locked != format.locked)
          then some format.locked else tx.client.cable
        video :=
          if cfg.service && (!tx.havePublishedVideoState || tx.currentVideoFormat != format)
          then some format else tx.client.video } } := by
  unfold publishVideo
  dsimp only
  split <;> split <;> rfl

theorem publishAudio_eq (cfg : TxConfig) (tx : TxState) (info : AudioInfo) :
    tx.publishAudio cfg info = { tx with
      currentAudioInfo := info
      havePublishedAudioState := true
      client := { tx.client with
        audio :=
          if cfg.service && (!tx.havePublishedAudioState || tx.currentAudioInfo != info)
          then some info else tx.client.audio } } := by
  unfold publishAudio
  dsimp only
  split <;> rfl

/-- The video source and encoder, as far as they come. -/
def runVideo (tx : TxState) (e : DmxEvent) : TxState :=
  { tx.append (startVideo e) with
      vsrcFormat := if e.linked && e.vsrc.event then some (sourceFormat e) else tx.vsrcFormat
      vencProperty :=
        if e.linked && e.vsrc.event && e.vsrc.start && e.venc.event then some (videoProperty e)
        else tx.vencProperty }

/-- The audio source and encoder, as far as they come. -/
def runAudio (tx : TxState) (e : DmxEvent) : TxState :=
  { tx.append (startAudio e) with
      aencProperty :=
        if e.audioLinked && e.asrc.event && e.asrc.start && e.aenc.event then
          some (audioProperty e)
        else tx.aencProperty }

end TxState

/-- `OnDmx` -/
def onDmx (cfg : TxConfig) (tx : TxState) (e : DmxEvent) : TxState :=
  let tx := tx.flush
  if !e.update then tx
  else
    match (startVideo e).result with
    | none => tx.runVideo e
    | some () =>
        let tx := (tx.runVideo e).publishVideo cfg e.newVideoFormat
        match (startAudio e).result with
        | none => tx.runAudio e
        | some () =>
            ((tx.runAudio e).publishAudio cfg e.newAudioInfo).append (startSender cfg e)

end QcapDemos.Tx
