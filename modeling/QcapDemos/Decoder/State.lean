import Mathlib.Data.Rat.Defs
import Mathlib.Algebra.Order.Field.Rat
import Mathlib.Algebra.Order.Group.Abs
import QcapDemos.Lib.AnnexB

set_option autoImplicit false

/-! # The state of the RX decoder

The decoder is fed by upstream workers, set up by an asynchronous initialization thread, drained
by an output callback, and torn down by `stop_vdec_decoder`. This file has the fields they share,
where each of them is in its code, and the checks on access units and on CAPS.
-/

namespace QcapDemos.Decoder

open QcapDemos.Lib QcapDemos.Lib.AnnexB

/-! ## Frame rates -/

/-- A `double` that is a frame rate. An infinite one is out of range, like the number 0. -/
inductive FrameRate where
  | num (rate : ℚ)
  | nan
deriving DecidableEq

namespace FrameRate

instance (n : Nat) : OfNat FrameRate n := ⟨.num n⟩

/-- `a < b`, which does not hold of a NaN. -/
def lt : FrameRate → FrameRate → Bool
  | num a, num b => a < b
  | _, _ => false

/-- `a <= b`, which does not hold of a NaN. -/
def le : FrameRate → FrameRate → Bool
  | num a, num b => a ≤ b
  | _, _ => false

/-- `fabs(a - b)` -/
def distance : FrameRate → FrameRate → FrameRate
  | num a, num b => num |a - b|
  | _, _ => nan

end FrameRate

/-! ## Formats -/

/-- `extra_data`, `dec_width`, `dec_height` and `dec_fps`. -/
structure Format where
  extraData : Option (List UInt8)
  decWidth : UInt32
  decHeight : UInt32
  decFps : FrameRate
deriving DecidableEq

def Format.initial : Format := { extraData := none, decWidth := 0, decHeight := 0, decFps := 60 }

def Format.dims (f : Format) : UInt32 × UInt32 := (f.decWidth, f.decHeight)

/-- The fields of a CAPS event, each as far as it is there. -/
structure RawCaps where
  h264 : Bool
  avcc : Option (List UInt8)
  width : Option UInt32
  height : Option UInt32
  framerate : Option FrameRate

/-- `INT_MAX` -/
def intMax : Nat := 2 ^ 31 - 1

/-- The frame rate that is used: 60 where it is missing or out of range. A NaN is neither below
nor above the range. -/
def checkedFps : Option FrameRate → FrameRate
  | none => 60
  | some fps => if fps.lt 1 || FrameRate.lt 240 fps then 60 else fps

/-- The checks on CAPS, the same in the parser's observer and in the RTSP source. -/
def RawCaps.valid (c : RawCaps) : Option Format :=
  match c.h264, c.avcc, c.width, c.height with
  | true, some avcc, some width, some height =>
      if avcc.length < 11 ∨ intMax < avcc.length ∨ width = 0 ∨ height = 0 then none
      else
        some
          { extraData := some avcc
            decWidth := width
            decHeight := height
            decFps := checkedFps c.framerate }
  | _, _, _, _ => none

/-! ## Access units -/

structure AccessUnit where
  data : List UInt8
  /-- `ZST_BUFFER_FLAG_DROP` -/
  drop : Bool
  /-- `ZST_BUFFER_FLAG_KEYFRAME` -/
  keyframe : Bool
deriving DecidableEq

/-- A start code at the head of the bytes, with an IDR slice behind it. -/
def idrAt : List UInt8 → Bool
  | 0 :: 0 :: 1 :: d :: _ => nalType d == 5
  | 0 :: 0 :: 0 :: 1 :: d :: _ => nalType d == 5
  | _ => false

/-- The scan of an access unit, which stops three bytes before its end. -/
def hasIdr : List UInt8 → Bool
  | a :: b :: c :: d :: rest => idrAt (a :: b :: c :: d :: rest) || hasIdr (b :: c :: d :: rest)
  | _ => false

def AccessUnit.isKeyframe (au : AccessUnit) : Bool := hasIdr au.data || au.keyframe

/-! ## Where each thread is -/

/-- A call of `rx_video_feed_decoder`, and of `start_vdec_decoder_async` in it. -/
inductive WorkerPc where
  | idle
  /-- With a unit that is flagged DROP, before the lock. -/
  | dropping
  | waiting (au : AccessUnit)
  /-- With `decoder_lock`, before the second look at `decoder_initializing`. -/
  | locked (au : AccessUnit)
  /-- The unit is counted as input. -/
  | gated (au : AccessUnit)
  /-- The unit is the keyframe that the decoder waits for. -/
  | accepting (au : AccessUnit)
  /-- In `submit_vdec_packet`; `first` where the unit has ended the wait for an IDR. -/
  | submitting (au : AccessUnit) (first : Bool)
  /-- In `start_vdec_decoder_async`, before each of its statements. -/
  | joining
  | marking
  | arming
  | spawning
deriving DecidableEq

/-- The initialization thread. -/
inductive InitPc where
  | absent
  | begin
  | drm
  /-- In `start_drm_output`, with the size that it has read. -/
  | mode (width height : UInt32)
  | sink
  | lock
  | outputLock
  | setup
  | setupHandlers
  /-- `StopVdecAsync` where `SetupVdecAsync` fails -/
  | setupStop
  | opening
  /-- In `qcap2_video_decoder_start`. -/
  | starting
  | unlockOutput (ready : Bool)
  /-- `StopVdecAsync` after `output_guard` is unlocked -/
  | cleanup
  | unlock (ready : Bool)
  | clear
  | finish (ready : Bool)
  /-- The thread has ended, and is not joined. -/
  | done
deriving DecidableEq

/-- `stop_vdec_decoder` -/
inductive StopPc where
  | idle
  | join
  | handlers
  | lock
  | outputLock
  | teardown
  /-- `StopVdecAsync`, under the locks -/
  | async
  | unlock
deriving DecidableEq

/-- `on_vdec_event_callback` -/
inductive CallbackPc where
  | idle
  | wants
  | holding
  /-- Displays a frame, without the lock, and goes on with the next. -/
  | popped
deriving DecidableEq

inductive Owner where
  | worker (w : Nat)
  | init
  | stop
  | callback
deriving DecidableEq

/-! ## The shared fields -/

/-- The counters of the access units. -/
structure Stats where
  input : Nat
  pushed : Nat
  dropped : Nat
  transportDropped : Nat
  poolDropped : Nat
  pushFailed : Nat
  decodedErrors : Nat
deriving DecidableEq

def Stats.initial : Stats :=
  { input := 0, pushed := 0, dropped := 0, transportDropped := 0, poolDropped := 0,
    pushFailed := 0, decodedErrors := 0 }

namespace Stats

def countInput (s : Stats) : Stats := { s with input := s.input + 1 }

def countDropped (s : Stats) : Stats := { s with dropped := s.dropped + 1 }

def countPushed (s : Stats) : Stats := { s with pushed := s.pushed + 1 }

def countPool (s : Stats) : Stats :=
  { s with dropped := s.dropped + 1, poolDropped := s.poolDropped + 1 }

def countInvalid (s : Stats) : Stats :=
  { s with dropped := s.dropped + 1, decodedErrors := s.decodedErrors + 1 }

def countPushFailed (s : Stats) : Stats :=
  { s with dropped := s.dropped + 1, pushFailed := s.pushFailed + 1 }

end Stats

/-- What does not change in a run of the program. -/
structure Config where
  /-- `output_is_sdi()` -/
  sdi : Bool
  /-- `g_sdi_output_width`, `g_sdi_output_height` -/
  sdiOutput : UInt32 × UInt32
  decodeEnabled : Bool

structure DecoderState where
  format : Format
  /-- The decoder, with the format that it was given. -/
  vdec : Option Format
  vdecStarted : Bool
  decoderInitializing : Bool
  decoderWaitForIdr : Bool
  decoderLock : Option Owner
  decoderOutputLock : Option Owner
  /-- `vdec_event_handlers` is not null. -/
  vdecEventHandlers : Bool
  /-- The event has its handler, and `qcap2_video_decoder_start` was entered. -/
  armed : Bool
  displayEnabled : Bool
  /-- `drm_modeset_active`, with the size for which the mode was chosen. -/
  drm : Option (UInt32 × UInt32)
  /-- `vdec_sink_started`, with the size for which the rectangle was computed. -/
  sink : Option (UInt32 × UInt32)
  stats : Stats
  workers : Nat → WorkerPc
  init : InitPc
  stopper : StopPc
  callback : CallbackPc

def DecoderState.initial (displayEnabled : Bool) : DecoderState :=
  { format := .initial, vdec := none, vdecStarted := false, decoderInitializing := false,
    decoderWaitForIdr := false, decoderLock := none, decoderOutputLock := none,
    vdecEventHandlers := false, armed := false, displayEnabled := displayEnabled, drm := none,
    sink := none, stats := .initial, workers := fun _ => .idle, init := .absent, stopper := .idle,
    callback := .idle }

end QcapDemos.Decoder
