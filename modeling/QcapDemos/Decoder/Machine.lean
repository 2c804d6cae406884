import Mathlib.Logic.Function.Basic
import QcapDemos.Lib.Run
import QcapDemos.Decoder.State

set_option autoImplicit false

/-! # The steps of the RX decoder

One step of one thread. A step that has to wait for a mutex, for another thread or for a
callback leaves the state as it is. A critical section takes one step for each of its accesses
to a field that another thread may change without the mutex.
-/

namespace QcapDemos.Decoder

open Function QcapDemos.Lib

/-- Why an access unit was dropped. -/
inductive Cause where
  | initializing
  /-- The unit was flagged DROP. -/
  | transport
  | idr
  | pool
  /-- The pool returned a buffer that is too small. -/
  | invalid
deriving DecidableEq

/-- What a step lets the outside see. -/
inductive Output where
  | input
  | dropped (cause : Cause)
  /-- `qcap2_video_decoder_push`: the unit, the format that its decoder was given, the two flags
  at the call, and whether the decoder took it. -/
  | submitted (au : AccessUnit) (decoder : Option Format) (initializing started accepted : Bool)
  /-- `qcap2_video_decoder_start` succeeds. -/
  | started (decoder : Option Format)
  | scheduled (format : Format)
  /-- The initialization thread reads the format. -/
  | reads (format : Format)
  | waited
deriving DecidableEq

/-- The outcome of `submit_vdec_packet`. -/
inductive Submit where
  | pool
  | invalid
  | refused
  | accepted
deriving DecidableEq

/-! ## Access units -/

/-- `rx_video_feed_decoder`, up to its mutex. -/
def push (cfg : Config) (s : DecoderState) (w : Nat) (au : AccessUnit) :
    DecoderState × Option Output :=
  if s.workers w ≠ .idle ∨ au.data.length < 4 then (s, none)
  else if s.decoderInitializing then
    ({ s with stats := s.stats.countDropped }, some (.dropped .initializing))
  else if au.drop then
    if cfg.decodeEnabled then ({ s with workers := update s.workers w .dropping }, none)
    else (s, none)
  else ({ s with workers := update s.workers w (.waiting au) }, none)

/-- `submit_vdec_packet`: the counters and the output. -/
def submitVdecPacket (s : DecoderState) (au : AccessUnit) (outcome : Submit) : Stats × Output :=
  let submitted := Output.submitted au s.vdec s.decoderInitializing s.vdecStarted
  match outcome with
  | .pool => (s.stats.countPool, .dropped .pool)
  | .invalid => (s.stats.countInvalid, .dropped .invalid)
  | .refused => (s.stats.countPushFailed, submitted false)
  | .accepted => (s.stats.countPushed, submitted true)

/-- The initialization thread does not run. -/
def InitPc.joinable : InitPc → Bool
  | .absent | .done => true
  | _ => false

/-- The rest of `rx_video_feed_decoder`. A worker that leaves it unlocks the mutex. -/
def work (cfg : Config) (s : DecoderState) (w : Nat) (outcome : Submit) :
    DecoderState × Option Output :=
  match s.workers w with
  | .idle => (s, none)
  | .dropping =>
      if s.decoderLock = none then
        ({ s with workers := update s.workers w .idle, stats := s.stats.countDropped },
          some (.dropped .transport))
      else (s, none)
  | .waiting au =>
      if s.decoderLock = none then
        ({ s with
            workers := update s.workers w (.locked au)
            decoderLock := some (.worker w) }, none)
      else (s, none)
  | .locked au =>
      if s.decoderInitializing then
        ({ s with
            workers := update s.workers w .idle
            decoderLock := none
            stats := s.stats.countDropped }, some (.dropped .initializing))
      else if cfg.decodeEnabled then
        ({ s with
            workers := update s.workers w (.gated au)
            stats := s.stats.countInput }, some .input)
      else ({ s with workers := update s.workers w .idle, decoderLock := none }, none)
  | .gated au =>
      if s.vdecStarted then
        if s.decoderWaitForIdr then
          if au.isKeyframe then
            ({ s with workers := update s.workers w (.accepting au) }, none)
          else
            ({ s with
                workers := update s.workers w .idle
                decoderLock := none
                stats := s.stats.countDropped }, some (.dropped .idr))
        else ({ s with workers := update s.workers w (.submitting au false) }, none)
      else if s.format.extraData = none ∨ s.format.decWidth = 0 ∨ s.format.decHeight = 0 ∨
          au.isKeyframe = false then
        ({ s with workers := update s.workers w .idle, decoderLock := none }, some .waited)
      else ({ s with workers := update s.workers w .joining }, none)
  | .accepting au =>
      ({ s with
          workers := update s.workers w (.submitting au true)
          decoderWaitForIdr := false }, none)
  | .submitting au _ =>
      ({ s with
          workers := update s.workers w .idle
          decoderLock := none
          stats := (submitVdecPacket s au outcome).1 },
        some (submitVdecPacket s au outcome).2)
  | .joining =>
      if s.init.joinable then
        ({ s with workers := update s.workers w .marking, init := .absent }, none)
      else (s, none)
  | .marking =>
      ({ s with workers := update s.workers w .arming, decoderInitializing := true },
        some (.scheduled s.format))
  | .arming =>
      ({ s with workers := update s.workers w .spawning, decoderWaitForIdr := true }, none)
  | .spawning =>
      ({ s with workers := update s.workers w .idle, decoderLock := none, init := .begin }, none)

/-! ## The writers of the format -/

/-- `rx_h264_apply_caps`, which runs under `decoder_lock`. -/
def applyCaps (s : DecoderState) (caps : RawCaps) : DecoderState :=
  match caps.valid with
  | none => s
  | some format =>
      if s.decoderLock ≠ none then s
      else if s.vdecStarted || s.decoderInitializing then s
      else { s with format := format }

/-- `start_qcap_decoder_from_format` -/
def startFromFormat (s : DecoderState) (width height : UInt32) (fps : FrameRate) : DecoderState :=
  if width = 0 ∨ height = 0 then s
  else if s.decoderLock ≠ none then s
  else if s.vdecStarted then s
  else
    { s with format :=
      { s.format with
        decWidth := if s.format.decWidth = 0 then width else s.format.decWidth
        decHeight := if s.format.decHeight = 0 then height else s.format.decHeight
        decFps := if FrameRate.le 1 fps && fps.le 240 then fps else s.format.decFps } }

/-! ## The initialization thread -/

/-- `qcap2_event_handlers_stop` returns where no callback runs. -/
def DecoderState.handlersQuiet (s : DecoderState) : Bool :=
  !s.vdecEventHandlers || s.callback = .idle

/-- The function of the initialization thread; `ok` is the outcome of its next call. -/
def initThread (cfg : Config) (s : DecoderState) (ok : Bool) : DecoderState × Option Output :=
  match s.init with
  | .absent | .done => (s, none)
  | .begin => ({ s with init := if s.displayEnabled then .drm else .lock }, none)
  | .drm =>
      if s.drm.isSome then ({ s with init := .sink }, none)
      else
        let size := if cfg.sdi then cfg.sdiOutput else s.format.dims
        ({ s with init := if ok then .mode size.1 size.2 else .clear }, some (.reads s.format))
  | .mode width height =>
      ({ s with
          drm := if ok then some (width, height) else none
          init := if ok then .sink else .clear }, some (.reads s.format))
  | .sink =>
      if s.sink.isSome then ({ s with init := .lock }, none)
      else if ok && s.format.decWidth != 0 && s.format.decHeight != 0 then
        ({ s with sink := some s.format.dims, init := .lock }, some (.reads s.format))
      else ({ s with init := .clear }, some (.reads s.format))
  | .lock =>
      if s.decoderLock = none then
        ({ s with
            decoderLock := some .init
            init := if cfg.sdi then .outputLock else .setup }, none)
      else (s, none)
  | .outputLock =>
      if s.decoderOutputLock = none then
        ({ s with decoderOutputLock := some .init, init := .setup }, none)
      else (s, none)
  | .setup =>
      if ok then ({ s with vdecEventHandlers := true, init := .setupHandlers }, none)
      else ({ s with init := .setupStop }, none)
  | .setupHandlers => ({ s with init := if ok then .opening else .setupStop }, none)
  | .setupStop =>
      if s.handlersQuiet then
        ({ s with vdecEventHandlers := false, armed := false, init := .unlockOutput false }, none)
      else (s, none)
  | .opening =>
      if ok then
        ({ s with vdec := some s.format, armed := true, init := .starting },
          some (.reads s.format))
      else ({ s with vdec := none, init := .unlockOutput false }, none)
  | .starting =>
      if ok then
        ({ s with vdecStarted := true, init := .unlockOutput true }, some (.started s.vdec))
      else ({ s with vdec := none, init := .unlockOutput false }, none)
  | .unlockOutput ready =>
      ({ s with
          decoderOutputLock := if cfg.sdi then none else s.decoderOutputLock
          init := if ready then .unlock true else .cleanup }, none)
  | .cleanup =>
      if s.handlersQuiet then
        ({ s with vdecEventHandlers := false, armed := false, init := .unlock false }, none)
      else (s, none)
  | .unlock ready =>
      ({ s with decoderLock := none, init := if ready then .finish true else .clear }, none)
  | .clear => ({ s with decoderWaitForIdr := false, init := .finish false }, none)
  | .finish _ => ({ s with decoderInitializing := false, init := .done }, none)

/-! ## The stop -/

/-- `stop_vdec_decoder`, after its call. -/
def stopping (cfg : Config) (s : DecoderState) : DecoderState :=
  match s.stopper with
  | .idle => s
  | .join => if s.init.joinable then { s with init := .absent, stopper := .handlers } else s
  | .handlers =>
      if s.handlersQuiet then
        { s with vdecEventHandlers := false, armed := false, stopper := .lock }
      else s
  | .lock =>
      if s.decoderLock = none then
        { s with
          decoderLock := some .stop
          stopper := if cfg.sdi then .outputLock else .teardown }
      else s
  | .outputLock =>
      if s.decoderOutputLock = none then
        { s with decoderOutputLock := some .stop, stopper := .teardown }
      else s
  | .teardown =>
      { s with
        vdec := none
        vdecStarted := if s.vdec.isSome then false else s.vdecStarted
        stopper := .async }
  | .async => if s.handlersQuiet then
        { s with vdecEventHandlers := false, armed := false, stopper := .unlock }
      else s
  | .unlock =>
      { s with
        decoderLock := none
        decoderOutputLock := if cfg.sdi then none else s.decoderOutputLock
        stopper := .idle }

/-! ## The output callback -/

/-- The decoder signals its event, and the handler is called. -/
def signal (s : DecoderState) : DecoderState :=
  if s.vdecEventHandlers && s.armed && s.callback = .idle then { s with callback := .wants } else s

/-- The mutex of `on_vdec_event_callback`. -/
def callbackLock (cfg : Config) (s : DecoderState) : Option Owner :=
  if cfg.sdi then s.decoderOutputLock else s.decoderLock

/-- `on_vdec_event_callback`; `frame` is whether the next pop gives a frame. -/
def drain (cfg : Config) (s : DecoderState) (frame : Bool) : DecoderState :=
  match s.callback with
  | .idle => s
  | .wants =>
      if callbackLock cfg s = none then
        { s with
          decoderLock := if cfg.sdi then s.decoderLock else some .callback
          decoderOutputLock := if cfg.sdi then some .callback else s.decoderOutputLock
          callback := .holding }
      else s
  | .holding =>
      { s with
        decoderLock := if cfg.sdi then s.decoderLock else none
        decoderOutputLock := if cfg.sdi then none else s.decoderOutputLock
        callback := if s.vdec.isSome && s.vdecStarted && frame then .popped else .idle }
  | .popped => { s with callback := .wants }

/-! ## The machine -/

inductive Event where
  | push (w : Nat) (au : AccessUnit)
  | work (w : Nat) (outcome : Submit)
  | caps (caps : RawCaps)
  /-- `qcap_dante_connected_callback`, for H.264 -/
  | connected (width height : UInt32) (fps : FrameRate)
  | init (ok : Bool)
  | stop
  | stopping
  | signal
  | drain (frame : Bool)
  | display (enabled : Bool)
  /-- `stop_vdec_display` -/
  | stopDisplay

def step (cfg : Config) (s : DecoderState) : Event → DecoderState × Option Output
  | .push w au => push cfg s w au
  | .work w outcome => work cfg s w outcome
  | .caps caps => (applyCaps s caps, none)
  | .connected width height fps => (startFromFormat s width height fps, none)
  | .init ok => initThread cfg s ok
  | .stop => (if s.stopper = .idle then { s with stopper := .join } else s, none)
  | .stopping => (stopping cfg s, none)
  | .signal => (signal s, none)
  | .drain frame => (drain cfg s frame, none)
  | .display enabled => ({ s with displayEnabled := enabled }, none)
  | .stopDisplay => ({ s with drm := none, sink := none }, none)

def machine (cfg : Config) : Machine DecoderState Event (Option Output) where
  step := step cfg

/-- The outputs of a run. -/
def outputs (cfg : Config) (displayEnabled : Bool) (es : List Event) : List (Option Output) :=
  (machine cfg).outputs (.initial displayEnabled) es

/-- The state after a run. -/
def reached (cfg : Config) (displayEnabled : Bool) (es : List Event) : DecoderState :=
  (machine cfg).run (.initial displayEnabled) es

/-! ## A run -/

/-- HDMI, with decoding. -/
def hdmi : Config := { sdi := false, sdiOutput := (1920, 1080), decodeEnabled := true }

/-- CAPS for 64x48 at 30 fps. -/
def sampleCaps : RawCaps :=
  { h264 := true, avcc := some [1, 66, 192, 31, 255, 225, 0, 4, 103, 66, 192], width := some 64,
    height := some 48, framerate := some 30 }

def sampleFormat : Format :=
  { extraData := sampleCaps.avcc, decWidth := 64, decHeight := 48, decFps := 30 }

/-- An access unit of one IDR slice. -/
def idrUnit : AccessUnit := { data := [0, 0, 0, 1, 0x65, 0x88], drop := false, keyframe := false }

/-- An access unit of one other slice. -/
def sliceUnit : AccessUnit := { data := [0, 0, 0, 1, 0x41, 0x9a], drop := false, keyframe := false }

/-- Worker 0 feeds a unit, in `n` steps. -/
def feed (au : AccessUnit) (n : Nat) (outcome : Submit) : List Event :=
  .push 0 au :: List.replicate n (.work 0 outcome)

/-- A keyframe schedules the initialization. -/
def scheduleRun : List Event := .caps sampleCaps :: feed idrUnit 7 .accepted

/-- The initialization succeeds, without a display. -/
def startRun : List Event := scheduleRun ++ List.replicate 9 (.init true)

end QcapDemos.Decoder
