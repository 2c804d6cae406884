import QcapDemos.Lib.Lifecycle

set_option autoImplicit false

/-! # Sources, encoders and handlers of the TX

Each `Start` function of the TX registers the cleanup of a step right after the step, on the
free stack that it is given, and gives up at the first call that fails. So each is bracketed:
whatever it did before it gave up is undone by its cleanups, the latest first.
-/

namespace QcapDemos.Tx

open QcapDemos.Lib QcapDemos.Lib.Script

/-- The sources and encoders of which the events have handlers. -/
inductive Handled where
  | vsrc
  | asrc
  | qcapAudioResampler
  | venc
  | aenc
deriving DecidableEq

inductive TxObject where
  | event (h : Handled)
  | callback (h : Handled)
  /-- The handler that is registered for the event. -/
  | handler (h : Handled)
  /-- The sources belong to the demuxer, the encoders to the TX. -/
  | vsrc
  | asrc
  | venc
  | aenc
  | qcapTx
  | qcapServer
  | qcapSender
  | audioResampler
  | danteTx
  | pipe
  | session
  | coordinator
  | appVideoSrcPad
  | rtspServer
  | rtspVideoPad
  | rtspAudioPad
  | mirrorRtpPayloader
  | mirrorUdpSink
  | appVideoMirrorSrcPad
  | txDepSink
  | txResampler
  | appAudioSrcPad
  | clock
  | sched
  | schedThread
  | busThread
deriving DecidableEq

abbrev TxScript (α : Type) : Type := Script TxObject α

/-! ## The steps -/

/-- `NewEvent`; `started` is the outcome of `qcap2_event_start`. -/
def newEvent (h : Handled) (started : Bool) : TxScript Unit := do
  perform (.create (.event h)) [.destroy (.event h)]
  check started
  perform (.start (.event h) [.event h]) [.stop (.event h)]

structure SourceCalls where
  event : Bool
  start : Bool
deriving DecidableEq

/-- `StartVsrc` and `StartAsrc`, with the events of the sources. -/
def startSource (source : TxObject) (h : Handled) (c : SourceCalls) : TxScript Unit := do
  newEvent h c.event
  check c.start
  perform (.start source [.event h]) [.stop source]

def startVsrc (c : SourceCalls) : TxScript Unit := startSource .vsrc .vsrc c

def startAsrc (c : SourceCalls) : TxScript Unit := startSource .asrc .asrc c

/-- `StartVenc` and `StartAenc`, with the events of the encoders. -/
def startEncoder (encoder : TxObject) (h : Handled) (c : SourceCalls) : TxScript Unit := do
  newEvent h c.event
  perform (.create encoder) [.destroy encoder]
  check c.start
  perform (.start encoder [encoder, .event h]) [.stop encoder]

def startVenc (c : SourceCalls) : TxScript Unit := startEncoder .venc .venc c

def startAenc (c : SourceCalls) : TxScript Unit := startEncoder .aenc .aenc c

structure HandlerCalls where
  nativeHandle : Bool
  addHandler : Bool
deriving DecidableEq

/-- `AddEventHandler`, for a callback that is bound to the objects `bound`. -/
def addEventHandler (h : Handled) (bound : List TxObject) (c : HandlerCalls) : TxScript Unit := do
  check c.nativeHandle
  perform (.create (.callback h)) [.destroy (.callback h)]
  check c.addHandler
  perform (.start (.handler h) (.event h :: .callback h :: bound)) [.stop (.handler h)]

/-! ## Each of them is bracketed -/

def eventNames (h : Handled) : List (Name TxObject) :=
  [.object (.event h), .activity (.event h)]

theorem bracketed_newEvent (h : Handled) (started : Bool) :
    Bracketed (newEvent h started) (eventNames h) (eventNames h) := by
  have hrest := (bracketed_check started).bind
    (fun _ => bracketed_begin (TxObject.event h) [.event h]) (by simp)
  refine ((bracketed_acquire (TxObject.event h)).bind (fun _ => hrest) (by simp)).mono ?_ ?_
  · simp [eventNames]
  · simp [eventNames]

theorem bracketed_startSource {source : TxObject} {h : Handled} (hs : source ≠ .event h)
    (c : SourceCalls) :
    Bracketed (startSource source h c) (.activity source :: eventNames h)
      (.activity source :: eventNames h) := by
  have hrest := (bracketed_check c.start).bind
    (fun _ => bracketed_begin source [TxObject.event h]) (by simp)
  refine ((bracketed_newEvent h c.event).bind (fun _ => hrest) ?_).mono ?_ ?_
  · simp [eventNames, hs]
  · simp [eventNames]
  · simp [eventNames]

theorem bracketed_startEncoder {encoder : TxObject} {h : Handled} (hs : encoder ≠ .event h)
    (c : SourceCalls) :
    Bracketed (startEncoder encoder h c) (.object encoder :: .activity encoder :: eventNames h)
      (.object encoder :: .activity encoder :: eventNames h) := by
  have hstart := (bracketed_check c.start).bind
    (fun _ => bracketed_begin encoder [encoder, .event h]) (by simp)
  have hrest := (bracketed_acquire encoder).bind (fun _ => hstart) (by simp)
  refine ((bracketed_newEvent h c.event).bind (fun _ => hrest) ?_).mono ?_ ?_
  · simp [eventNames, hs]
  · simp [eventNames]
  · simp [eventNames]

theorem bracketed_addEventHandler (h : Handled) (bound : List TxObject) (c : HandlerCalls) :
    Bracketed (addEventHandler h bound c) [.object (.callback h), .activity (.handler h)]
      (.activity (.handler h) :: .object (.callback h) :: .object (.event h) ::
        bound.map .object) := by
  have hadd := (bracketed_check c.addHandler).bind
    (fun _ => bracketed_begin (TxObject.handler h) (.event h :: .callback h :: bound)) (by simp)
  have hrest := (bracketed_acquire (TxObject.callback h)).bind (fun _ => hadd) (by simp)
  refine ((bracketed_check c.nativeHandle).bind (fun _ => hrest) (by simp)).mono ?_ ?_
  · simp
  · intro n hn
    simp only [List.nil_append, List.cons_append, List.map_cons, List.mem_cons] at hn ⊢
    tauto

end QcapDemos.Tx
