import QcapDemos.Rx.Avh
import QcapDemos.Rx.Dau
import QcapDemos.Rx.Resync

set_option autoImplicit false

/-! # The main loop

The embedding of `run_ultra_direct`: its startup, and one event for each thing its loop does, the
arbitration between the Ultra output and the AVH receiver at the head of an iteration, a DAU
notification, a connector event, a poll of the resync watchdog. The receiver's threads run at any
time, also between two reads of the arbitration. Events may come in any order, so that every state
the loop can reach is reached by a run of this machine. Without auto mode there is no receiver, and
without HDMI no connector monitor.
-/

namespace QcapDemos.Rx

open QcapDemos.Drm QcapDemos.Alsa QcapDemos.Lib

/-- The context, the hardware, the receiver and the flags of the arbitration. -/
structure State where
  hw : Hw
  ctx : Ctx
  avh : Avh := {}
  avhDecodedAtFlow : Nat := 0
  avhPending : Bool := false
  avhRetryBlocked : Bool := false

/-- What the receiver's threads do between two reads of the arbitration. -/
structure Gaps where
  beforeCount : List AvhEvent := []
  beforeFrame : List AvhEvent := []
  beforeIdle : List AvhEvent := []
  beforeOutput : List AvhEvent := []
  beforeRecheck : List AvhEvent := []

/-- The outcomes of the calls of one arbitration. -/
structure ArbitrateCalls where
  gaps : Gaps
  dummy : ModesetCalls
  output : OutputCalls
  sink : VdecSinkCalls
  sinkStop : List SinkCommit
  audio : SinkCalls
  stop : StopCalls
  route : RouteCalls
  restore : ModesetCalls

structure HotplugCalls where
  connector : Option Connector
  modeset : ModesetCalls

section Loop

variable (opts : Options) (dev : Device)

/-- Let the receiver's threads run. -/
def State.threads (es : List AvhEvent) (s : State) : State :=
  let r := Avh.steps opts dev (s.hw, s.avh) es
  { s with hw := r.1, avh := r.2 }

/-! ## Arbitration -/

/-- A new flow becomes pending; without a flow nothing is pending and nothing blocked. -/
def noteFlow (calls : ArbitrateCalls) (flow : Bool) (s : State) : State :=
  if !flow then { s with avhPending := false, avhRetryBlocked := false }
  else if !s.avhPending && !s.ctx.avhActive && !s.avhRetryBlocked then
    let s := s.threads opts dev calls.gaps.beforeCount
    { s with avhPending := true, avhDecodedAtFlow := s.avh.decodedFrames }
  else s

/-- A pending flow has decoded a frame since it was noted, and the decoder is up. -/
def frameReady (calls : ArbitrateCalls) (flow : Bool) (s : State) : Bool × State :=
  if !(flow && s.avhPending && !s.ctx.avhActive) then (false, s)
  else
    let s := s.threads opts dev calls.gaps.beforeFrame
    if s.avh.decodedFrames ≤ s.avhDecodedAtFlow then (false, s)
    else
      let s := s.threads opts dev calls.gaps.beforeIdle
      (!s.avh.decoderInitializing, s)

/-- Give up a takeover: close the receiver's output and return to the Ultra output, without
another try before the flow was gone. -/
def abandon (calls : ArbitrateCalls) (s : State) : State :=
  let (hw, avh) := stopDrmOutput opts dev calls.stop s.hw s.avh
  let (_, hw) := selectHdmiAudioRoute opts.sdi 1 calls.route hw
  let (_, hw, ctx) := restoreUltraOutput opts dev calls.restore hw s.ctx
  { s with hw := hw, ctx := ctx, avh := avh, avhRetryBlocked := true, avhPending := false }

/-- The receiver has the output: enable its display and its audio. -/
def handOver (calls : ArbitrateCalls) (s : State) : State :=
  let avh := { s.avh with displayEnabled := true }
  let (_, hw, avh) := startHdmiAudioSink opts.sdi calls.audio s.hw avh
  { s with hw := hw, ctx := { s.ctx with avhActive := true }, avh := avh }

/-- The takeover: DANTE, then DUMMY, then VCU. -/
def takeover (calls : ArbitrateCalls) (s : State) : State :=
  let w := if s.ctx.currentMode.hdisplay ≠ 0 then s.ctx.currentMode.hdisplay else opts.fixedW
  let h := if s.ctx.currentMode.vdisplay ≠ 0 then s.ctx.currentMode.vdisplay else opts.fixedH
  match applyDrmModeset opts dev calls.dummy w h opts.fixedFps false .yuyv s.hw s.ctx with
  | (false, hw, ctx) => abandon opts dev calls { s with hw := hw, ctx := ctx }
  | (true, hw, ctx) =>
      let s := { s with hw := hw, ctx := ctx }
      let s := s.threads opts dev calls.gaps.beforeOutput
      match startDrmOutput opts dev calls.output s.hw s.avh with
      | (false, hw, avh) => abandon opts dev calls { s with hw := hw, avh := avh }
      | (true, hw, avh) =>
          let s := { s with hw := hw, avh := avh }
          let s := s.threads opts dev calls.gaps.beforeRecheck
          if s.avh.autoFlowCount = 0 then abandon opts dev calls s
          else
            match startVdecSink calls.sink s.hw s.avh with
            | (false, hw, avh) => abandon opts dev calls { s with hw := hw, avh := avh }
            | (true, hw, avh) => handOver opts calls { s with hw := hw, avh := avh }

/-- The way back: VCU, then DUMMY, then DANTE. -/
def giveBack (calls : ArbitrateCalls) (s : State) : State :=
  let avh := if opts.sdi then stopHdmiAudioSink s.avh else s.avh
  let avh := { avh with displayEnabled := false }
  let (_, hw, ctx) := applyDrmModeset opts dev calls.dummy opts.fixedW opts.fixedH opts.fixedFps
    false .yuyv s.hw s.ctx
  let (hw, avh) := deleteVdecSink calls.sinkStop hw avh
  let (hw, avh) := stopDrmOutput opts dev calls.stop hw (stopHdmiAudioSink avh)
  let (_, hw) := selectHdmiAudioRoute opts.sdi 1 calls.route hw
  let (_, hw, ctx) := restoreUltraOutput opts dev calls.restore hw { ctx with avhActive := false }
  { s with hw := hw, ctx := ctx, avh := avh }

/-- The head of an iteration; the result says whether a takeover was tried. -/
def arbitrate (calls : ArbitrateCalls) (s : State) : Bool × State :=
  let flow := s.avh.autoFlowCount != 0
  let (ready, s) := frameReady opts dev calls flow (noteFlow opts dev calls flow s)
  let s := if ready then takeover opts dev calls s else s
  (ready, if !flow && s.ctx.avhActive then giveBack opts dev calls s else s)

/-! ## Connector events -/

/-- The handling of a connector event. -/
def hotplug (calls : HotplugCalls) (hw : Hw) (ctx : Ctx) : Hw × Ctx :=
  let connected := calls.connector.any (·.connected)
  if ctx.haveLastConnectorState && connected == ctx.lastConnectorConnected then (hw, ctx)
  else
    let ctx := { ctx with
      lastConnectorConnected := connected
      haveLastConnectorState := true
      hotplugEvents := ctx.hotplugEvents + 1 }
    if !connected && ctx.overlayActive && !ctx.avhActive then
      (applyDrmModeset opts dev calls.modeset ctx.currentMode.hdisplay ctx.currentMode.vdisplay
        (modeVrefresh dev.arithmetic ctx.currentMode) false .yuyv hw ctx).2
    else (hw, ctx)

/-! ## The machine -/

inductive Event where
  | avh (e : AvhEvent)
  | arbitrate (calls : ArbitrateCalls)
  | dau (calls : DauCalls) (format : VideoFormat)
  | hotplug (calls : HotplugCalls)
  | resync (now : Nat) (status : UInt32) (calls : ResetCalls)

/-- What an event shows of itself: a reply, or the flow an arbitration saw and whether it tried a
takeover. -/
inductive Output where
  | quiet
  | reply (r : Reply)
  | arbitrated (flow tried : Bool)
deriving DecidableEq

/-- The receiver program as a machine. -/
def receiver : Machine State Event Output where
  step s
    | .avh e => (if opts.autoMode then s.threads opts dev [e] else s, .quiet)
    | .arbitrate calls =>
        if opts.autoMode then
          match arbitrate opts dev calls s with
          | (tried, s') => (s', .arbitrated (s.avh.autoFlowCount != 0) tried)
        else (s, .quiet)
    | .dau calls format =>
        match dauSetVideoFormat opts dev calls (some format) s.hw s.ctx with
        | (r, hw, ctx) => ({ s with hw := hw, ctx := ctx }, .reply r)
    | .hotplug calls =>
        if opts.sdi then (s, .quiet)
        else
          match hotplug opts dev calls s.hw s.ctx with
          | (hw, ctx) => ({ s with hw := hw, ctx := ctx }, .quiet)
    | .resync now status calls =>
        match pollSdiResync dev now status calls s.hw s.ctx with
        | (_, hw, ctx) => ({ s with hw := hw, ctx := ctx }, .quiet)

/-! ## Startup -/

/-- The outcomes of the calls before the loop. The connector is read twice, for its state and for
its modes; `mapped` is the mapping of the resync status page. -/
structure StartupCalls where
  route : RouteCalls
  connected : Bool
  modes : List ModeInfo
  modeset : ModesetCalls
  registered : Bool
  avhStarted : Bool
  mapped : Bool

/-- The size, rate and fixed format at startup: the fixed mode, or in auto mode the monitor's best
one. -/
def startupMode (modes : List ModeInfo) : Option (Nat × Nat × ℚ × Nat × Nat × Nat) :=
  if opts.fixedModeOverride then
    some (opts.fixedW, opts.fixedH, opts.fixedFps, opts.fixedW, opts.fixedH, opts.fixedFps)
  else if opts.autoMode then
    (bestMode dev.arithmetic opts.sdi (largerStartup dev.arithmetic) modes).map fun best =>
      (best.hdisplay, best.vdisplay, modeVrefresh dev.arithmetic best, best.hdisplay, best.vdisplay,
        ⌊modeVrefresh dev.arithmetic best + 1 / 2⌋.toNat)
  else some (3840, 2160, 60, opts.fixedW, opts.fixedH, opts.fixedFps)

/-- The part of `run_ultra_direct` before its loop; `none` where it returns. -/
def startup (calls : StartupCalls) (hw : Hw) : Option State :=
  if opts.sdi && !(opts.fixedModeOverride && sdiSize opts.fixedW opts.fixedH && opts.fixedFps == 60)
  then none
  else
    match selectHdmiAudioRoute opts.sdi 1 calls.route hw with
    | (false, _) => none
    | (true, hw) =>
        match startupMode opts dev calls.modes with
        | none => none
        | some (initW, initH, initFps, fixedW, fixedH, fixedFps) =>
            let ctx : Ctx :=
              { fixedWidth := fixedW, fixedHeight := fixedH, fixedFps := fixedFps
                lastConnectorConnected := calls.connected
                haveLastConnectorState := true }
            match applyDrmModeset opts dev calls.modeset initW initH initFps opts.forceDanteSource
                .bgr888 hw ctx with
            | (ok, hw, ctx) =>
                if !ok && opts.forceDanteSource then none
                else if !calls.registered || (opts.autoMode && !calls.avhStarted) then none
                else some { hw := hw, ctx := { ctx with sdiStatusMapped := opts.sdi && calls.mapped } }

/-- A state at the first head of the loop, with no object created and nothing committed before
the program. -/
def Started (calls : StartupCalls) (s : State) : Prop :=
  ∃ hw, hw.ledger = Ledger.empty ∧ hw.commits = [] ∧ startup opts dev calls hw = some s

/-- What startup leaves: the outcome of its modeset, from a context without objects. -/
theorem Started.cases {calls : StartupCalls} {s : State} (h : Started opts dev calls s) :
    ∃ hw initW initH initFps fixedW fixedH fixedFps ok hw' ctx',
      hw.ledger = Ledger.empty ∧ hw.commits = [] ∧
      startupMode opts dev calls.modes = some (initW, initH, initFps, fixedW, fixedH, fixedFps) ∧
      applyDrmModeset opts dev calls.modeset initW initH initFps opts.forceDanteSource .bgr888 hw
        { fixedWidth := fixedW, fixedHeight := fixedH, fixedFps := fixedFps
          lastConnectorConnected := calls.connected, haveLastConnectorState := true }
        = (ok, hw', ctx') ∧
      s = { hw := hw', ctx := { ctx' with sdiStatusMapped := opts.sdi && calls.mapped } } := by
  obtain ⟨hw₀, hledger, hcommits, hstart⟩ := h
  rw [startup] at hstart
  split at hstart
  · cases hstart
  obtain ⟨b, r, hroute, -⟩ := selectHdmiAudioRoute_spec opts.sdi 1 calls.route hw₀
  generalize selectHdmiAudioRoute opts.sdi 1 calls.route hw₀ = route at hroute hstart
  obtain ⟨routed, hw⟩ := route
  cases routed with
  | false => cases hstart
  | true =>
  dsimp only at hroute hstart
  split at hstart
  · cases hstart
  next initW initH initFps fixedW fixedH fixedFps hmode =>
  generalize happly : applyDrmModeset _ _ _ _ _ _ _ _ _ _ = result at hstart
  obtain ⟨ok, hw', ctx'⟩ := result
  dsimp only at hstart
  split at hstart
  · cases hstart
  split at hstart
  · cases hstart
  cases hstart
  refine ⟨hw, initW, initH, initFps, fixedW, fixedH, fixedFps, ok, hw', ctx', ?_, ?_, hmode, happly,
    rfl⟩
  · rw [hroute]; exact hledger
  · rw [hroute]; exact hcommits

/-- A state of a run of the program. -/
def Reachable (s : State) : Prop :=
  ∃ calls s₀ es, Started opts dev calls s₀ ∧ s = (receiver opts dev).run s₀ es

/-- **The invariant rule for the program**: what startup establishes and every event keeps, holds in
every reachable state. -/
theorem Reachable.inv {I : State → Prop}
    (hstart : ∀ calls s, Started opts dev calls s → I s)
    (hstep : ∀ s e, I s → I ((receiver opts dev).step s e).1) {s : State}
    (hs : Reachable opts dev s) : I s := by
  obtain ⟨calls, s₀, es, hs₀, rfl⟩ := hs
  exact Machine.inv_run _ (fun _ => True) I (fun s e h _ => hstep s e h) es s₀ (fun _ _ => trivial)
    (hstart calls s₀ hs₀)

end Loop

/-! ## Runs on the board -/

/-- Every call succeeds on the board. -/
def ArbitrateCalls.succeed : ArbitrateCalls where
  gaps := {}
  dummy := .succeed [mode1080]
  output := .succeed
  sink := .succeed
  sinkStop := []
  audio := .succeed
  stop := .succeed
  route := .succeed
  restore := .succeed [mode1080]

/-- Every call succeeds on the board. -/
def StartupCalls.succeed : StartupCalls where
  route := .succeed
  connected := true
  modes := [mode1080]
  modeset := .succeed [mode1080]
  registered := true
  avhStarted := true
  mapped := true

/-- Every call succeeds on the board. -/
def DauCalls.succeed : DauCalls where
  modeset := .succeed [mode1080]
  reject := .succeed [mode1080]
  fallback := .succeed [mode1080]

/-- The board after startup. -/
def boardState (opts : Options) : State :=
  (startup opts board .succeed (darkHw false)).getD
    { hw := darkHw false, ctx := { fixedWidth := 0, fixedHeight := 0, fixedFps := 0 } }

theorem boardState_started {opts : Options}
    (h : (startup opts board .succeed (darkHw false)).isSome = true) :
    Started opts board .succeed (boardState opts) := by
  obtain ⟨s, hs⟩ := Option.isSome_iff_exists.mp h
  refine ⟨darkHw false, rfl, rfl, ?_⟩
  rw [boardState, hs]
  rfl

/-- A flow arrives, its decoder comes up and decodes a frame, the receiver takes over. -/
def takeoverRun : List Event :=
  let init : Event := .avh (.init { output := .succeed, sink := .succeed, setup := true })
  [.avh (.flows 1), .avh (.caps 1920 1080 60), .avh (.feed true), init, init, init,
    .arbitrate .succeed, .avh (.frame []), .arbitrate .succeed]

/-- A stream of the board's size and rate. -/
def stream1080 (locked : Bool) : VideoFormat :=
  { width := 1920, height := 1080, framerate := 60, colorformat := .rgb, bpp := 24, locked := locked }

end QcapDemos.Rx
