import QcapDemos.Decoder.Display
import QcapDemos.Decoder.Gate

set_option autoImplicit false

/-! # The RTSP source

The thread of the RTSP source delivers CAPS and access units one after the other. CAPS that
differ from the stored format stop a decoder that is started or initializing, and a display that
is active, before they are applied; CAPS that do not differ, up to a small change of the frame
rate, leave a running decoder alone. A frame rate that is a NaN differs from none. Meanwhile the
initialization thread and the output callback take their steps at any time.
-/

namespace QcapDemos.Decoder

open QcapDemos.Lib

/-! ## The source -/

/-- CAPS that pass the checks, with their format. -/
structure ValidCaps where
  caps : RawCaps
  format : Format
  valid : caps.valid = some format

/-- The thread of the source: in `rtsp_video_sink_event`, or in `rx_video_feed_decoder`. -/
inductive SourcePc where
  | idle
  /-- Before the decision to restart. -/
  | deciding (caps : ValidCaps)
  /-- In `stop_vdec_decoder`. -/
  | stopping (caps : ValidCaps)
  /-- Before `stop_vdec_display`. -/
  | closing (caps : ValidCaps)
  /-- Before `rx_h264_apply_caps` has the mutex. -/
  | applying (caps : ValidCaps)
  | feeding

structure RtspState where
  rx : DecoderState
  source : SourcePc
  /-- The format of the last valid CAPS that were delivered. -/
  current : Option Format

def RtspState.initial (displayEnabled : Bool) : RtspState :=
  { rx := .initial displayEnabled, source := .idle, current := none }

/-- The formats differ, the frame rates by more than 0.005. -/
def Format.differs (f g : Format) : Bool :=
  f.decWidth ≠ g.decWidth || f.decHeight ≠ g.decHeight ||
    FrameRate.lt (.num (1 / 200)) (f.decFps.distance g.decFps) || f.extraData ≠ g.extraData

/-- The decision of `rtsp_video_sink_event`. -/
def restarts (s : DecoderState) (f : Format) : Bool :=
  (s.decoderInitializing || s.vdecStarted || s.drm.isSome) && s.format.differs f

inductive RtspEvent where
  | caps (caps : RawCaps)
  | unit (au : AccessUnit)
  /-- The source goes on with what it delivers. -/
  | source (outcome : Submit)
  | init (ok : Bool)
  | signal
  | drain (frame : Bool)

/-- The source goes on. -/
def deliver (cfg : Config) (st : RtspState) (outcome : Submit) : RtspState × Option Output :=
  match st.source with
  | .idle => (st, none)
  | .deciding caps =>
      if st.rx.decoderLock ≠ none then (st, none)
      else if restarts st.rx caps.format then
        ({ st with rx := (step cfg st.rx .stop).1, source := .stopping caps }, none)
      else ({ st with source := .applying caps }, none)
  | .stopping caps =>
      if st.rx.stopper = .idle then ({ st with source := .closing caps }, none)
      else ({ st with rx := stopping cfg st.rx }, none)
  | .closing caps =>
      ({ st with rx := (step cfg st.rx .stopDisplay).1, source := .applying caps }, none)
  | .applying caps =>
      if st.rx.decoderLock ≠ none then (st, none)
      else
        ({ rx := applyCaps st.rx caps.caps, source := .idle, current := some caps.format }, none)
  | .feeding =>
      if st.rx.workers 0 = .idle then ({ st with source := .idle }, none)
      else
        ({ st with rx := (work cfg st.rx 0 outcome).1 }, (work cfg st.rx 0 outcome).2)

def rtspStep (cfg : Config) (st : RtspState) : RtspEvent → RtspState × Option Output
  | .caps caps =>
      match st.source, h : caps.valid with
      | .idle, some format =>
          ({ st with source := .deciding { caps := caps, format := format, valid := h } }, none)
      | _, _ => (st, none)
  | .unit au =>
      match st.source with
      | .idle =>
          ({ st with rx := (push cfg st.rx 0 au).1, source := .feeding }, (push cfg st.rx 0 au).2)
      | _ => (st, none)
  | .source outcome => deliver cfg st outcome
  | .init ok => ({ st with rx := (initThread cfg st.rx ok).1 }, (initThread cfg st.rx ok).2)
  | .signal => ({ st with rx := signal st.rx }, none)
  | .drain frame => ({ st with rx := drain cfg st.rx frame }, none)

def rtspMachine (cfg : Config) : Machine RtspState RtspEvent (Option Output) where
  step := rtspStep cfg

def rtspReached (cfg : Config) (displayEnabled : Bool) (es : List RtspEvent) : RtspState :=
  (rtspMachine cfg).run (.initial displayEnabled) es

/-! ## Formats that do not differ -/

/-- The same but for a small change of the frame rate, or for a NaN. -/
structure Near (f g : Format) : Prop where
  extraData : f.extraData = g.extraData
  decWidth : f.decWidth = g.decWidth
  decHeight : f.decHeight = g.decHeight
  decFps : FrameRate.lt (.num (1 / 200)) (f.decFps.distance g.decFps) = false

theorem near_iff {f g : Format} : Near f g ↔ f.differs g = false := by
  simp only [Format.differs, Bool.or_eq_false_iff, decide_eq_false_iff_not, ne_eq, not_not]
  exact ⟨fun h => ⟨⟨⟨h.decWidth, h.decHeight⟩, h.decFps⟩, h.extraData⟩,
    fun h => ⟨h.2, h.1.1.1, h.1.1.2, h.1.2⟩⟩

/-- No rate is far from itself. -/
theorem FrameRate.lt_distance_self (r : FrameRate) :
    FrameRate.lt (.num (1 / 200)) (r.distance r) = false := by
  cases r with
  | num rate => simp [FrameRate.lt, FrameRate.distance]
  | nan => rfl

theorem Near.refl (f : Format) : Near f f :=
  ⟨rfl, rfl, rfl, f.decFps.lt_distance_self⟩

theorem Near.dims {f g : Format} (h : Near f g) : f.dims = g.dims := by
  rw [Format.dims, Format.dims, h.decWidth, h.decHeight]

/-! ## The relation between the source and the decoder -/

/-- Nothing initializes, and no decoder is started. -/
structure Quiet (s : DecoderState) : Prop where
  joinable : s.init.joinable = true
  stopped : s.vdecStarted = false

/-- What the thread of the source knows of `stop_vdec_decoder`, at each of its statements. -/
def StopPc.Stopped (s : DecoderState) : StopPc → Prop
  | .join => True
  | .handlers | .lock | .outputLock | .teardown => s.init.joinable = true
  | .idle | .async | .unlock => Quiet s

/-- What it knows at each place of its own. -/
def SourcePc.Knows (s : DecoderState) : SourcePc → Prop
  | .idle | .deciding _ | .feeding => s.stopper = .idle
  | .stopping _ => s.stopper.Stopped s
  | .closing _ => s.stopper = .idle ∧ Quiet s
  | .applying caps => s.stopper = .idle ∧ (Near s.format caps.format ∨ Quiet s ∧ s.drm = none)

/-- The stored format is that of the last CAPS. -/
def Announced (f : Format) : Option Format → Prop
  | none => f.extraData = none
  | some g => Near f g

structure Tracked (cfg : Config) (st : RtspState) : Prop where
  lock : Locked cfg st.rx
  phase : Phased st.rx
  fit : Fit st.rx
  built : Built cfg st.rx
  announced : Announced st.rx.format st.current
  /-- The source is the only upstream. -/
  workers : ∀ w, st.rx.workers w ≠ .idle → w = 0 ∧ st.source = .feeding
  source : st.source.Knows st.rx

theorem tracked_initial (cfg : Config) (displayEnabled : Bool) :
    Tracked cfg (.initial displayEnabled) where
  lock := locked_initial cfg displayEnabled
  phase := phased_initial displayEnabled
  fit := fit_initial displayEnabled
  built := built_initial cfg displayEnabled
  announced := rfl
  workers _ h := absurd rfl h
  source := rfl

namespace Tracked

variable {cfg : Config} {st : RtspState}

/-- A step of the decoder's machine. -/
theorem step (h : Tracked cfg st) (e : Event) {source : SourcePc} {current : Option Format}
    (hbuilt : Built cfg (step cfg st.rx e).1)
    (hannounced : Announced (Decoder.step cfg st.rx e).1.format current)
    (hworkers : ∀ w, (Decoder.step cfg st.rx e).1.workers w ≠ .idle → w = 0 ∧ source = .feeding)
    (hsource : source.Knows (Decoder.step cfg st.rx e).1) :
    Tracked cfg { rx := (Decoder.step cfg st.rx e).1, source := source, current := current } where
  lock := locked_step h.lock e
  phase := phased_step h.lock h.phase e
  fit := fit_step h.phase h.fit e
  built := hbuilt
  announced := hannounced
  workers := hworkers
  source := hsource

end Tracked

/-- A thread that does not run does nothing. -/
theorem initThread_of_joinable {s : DecoderState} (h : s.init.joinable = true) (cfg : Config)
    (ok : Bool) : initThread cfg s ok = (s, none) := by
  unfold initThread
  cases hpc : s.init with
  | absent => rfl
  | done => rfl
  | _ => rw [hpc] at h; cases h

/-- While no worker feeds, nothing is scheduled but the thread itself. -/
theorem not_initializing {s : DecoderState} (hp : Phased s) (hworkers : ∀ w, s.workers w = .idle)
    (hjoin : s.init.joinable = true) : s.decoderInitializing = false := by
  have howner : s.owner = .idle := by
    unfold DecoderState.owner
    split
    · exact hworkers _
    · rfl
  by_contra hcon
  rcases hp.flagged (by simpa using hcon) with hrun | hmarked
  · rw [hjoin] at hrun
    cases hrun
  · rw [howner] at hmarked
    cases hmarked

/-! ## The steps of the other threads -/

/-- The initialization thread goes on, where the source does not know that it is joined. -/
theorem stopped_initThread {cfg : Config} {s : DecoderState} (h : s.stopper.Stopped s) (ok : Bool) :
    (initThread cfg s ok).1.stopper.Stopped (initThread cfg s ok).1 := by
  have hstopper : (initThread cfg s ok).1.stopper = s.stopper := by
    fun_cases initThread cfg s ok <;> rfl
  have hstay : s.init.joinable = true →
      (initThread cfg s ok).1.stopper.Stopped (initThread cfg s ok).1 := fun hjoin => by
    rw [initThread_of_joinable hjoin]
    exact h
  cases hpc : s.stopper with
  | join =>
      rw [hstopper, hpc]
      trivial
  | idle | async | unlock =>
      rw [hpc] at h
      exact hstay h.joinable
  | handlers | lock | outputLock | teardown =>
      rw [hpc] at h
      exact hstay h

theorem knows_initThread {cfg : Config} {s : DecoderState} {pc : SourcePc} (h : pc.Knows s)
    (ok : Bool) : pc.Knows (initThread cfg s ok).1 := by
  have hstopper : (initThread cfg s ok).1.stopper = s.stopper := by
    fun_cases initThread cfg s ok <;> rfl
  cases pc with
  | idle | deciding | feeding => exact hstopper.trans h
  | stopping => exact stopped_initThread h ok
  | closing =>
      rw [initThread_of_joinable h.2.joinable]
      exact h
  | applying caps =>
      obtain ⟨hidle, hnear | ⟨hquiet, hdrm⟩⟩ := h
      · refine ⟨hstopper.trans hidle, .inl ?_⟩
        rw [show (initThread cfg s ok).1.format = s.format by
          fun_cases initThread cfg s ok <;> rfl]
        exact hnear
      · rw [initThread_of_joinable hquiet.joinable]
        exact ⟨hidle, .inr ⟨hquiet, hdrm⟩⟩

/-- What the source has to know of the decoder. -/
def DecoderState.view (s : DecoderState) :=
  (s.format, s.vdec, s.vdecStarted, s.drm, s.sink, s.init, s.stopper)

theorem Built.congr {cfg : Config} {s s' : DecoderState} (h : Built cfg s)
    (hview : s'.view = s.view) : Built cfg s' := by
  simp only [DecoderState.view, Prod.mk.injEq] at hview
  obtain ⟨hformat, hvdec, hstarted, hdrm, hsink, hinit, -⟩ := hview
  refine h.move (by rw [hformat, hvdec, hstarted, hdrm, hsink]) ?_
  rw [hinit]
  exact h.init

theorem SourcePc.Knows.congr {s s' : DecoderState} {pc : SourcePc} (h : pc.Knows s)
    (hview : s'.view = s.view) : pc.Knows s' := by
  simp only [DecoderState.view, Prod.mk.injEq] at hview
  obtain ⟨hformat, -, hstarted, hdrm, -, hinit, hstopper⟩ := hview
  have hquiet : Quiet s → Quiet s' := fun hq => ⟨hinit ▸ hq.joinable, hstarted ▸ hq.stopped⟩
  cases pc with
  | idle | deciding | feeding => exact hstopper.trans h
  | stopping =>
      show s'.stopper.Stopped s'
      have h : s.stopper.Stopped s := h
      rw [hstopper]
      cases hpc : s.stopper <;> rw [hpc] at h
      case join => trivial
      case idle | async | unlock => exact hquiet h
      all_goals exact (congrArg InitPc.joinable hinit).trans h
  | closing => exact ⟨hstopper.trans h.1, hquiet h.2⟩
  | applying caps =>
      refine ⟨hstopper.trans h.1, h.2.imp (fun hn => ?_) fun hq => ⟨hquiet hq.1, hdrm.trans hq.2⟩⟩
      rw [hformat]
      exact hn

namespace Tracked

variable {cfg : Config} {st : RtspState}

/-- A step that the source does not see. -/
theorem unseen (h : Tracked cfg st) {e : Event}
    (hview : (Decoder.step cfg st.rx e).1.view = st.rx.view)
    (hworkers : (Decoder.step cfg st.rx e).1.workers = st.rx.workers) :
    Tracked cfg { st with rx := (Decoder.step cfg st.rx e).1 } := by
  have hformat : (Decoder.step cfg st.rx e).1.format = st.rx.format := congrArg Prod.fst hview
  refine h.step e (h.built.congr hview) ?_ ?_ (h.source.congr hview)
  · rw [hformat]
    exact h.announced
  · rw [hworkers]
    exact h.workers

theorem signal (h : Tracked cfg st) : Tracked cfg { st with rx := Decoder.signal st.rx } := by
  refine h.unseen (e := .signal) ?_ ?_
  · show (Decoder.signal st.rx).view = _
    fun_cases Decoder.signal st.rx <;> rfl
  · show (Decoder.signal st.rx).workers = _
    fun_cases Decoder.signal st.rx <;> rfl

theorem drain (h : Tracked cfg st) (frame : Bool) :
    Tracked cfg { st with rx := Decoder.drain cfg st.rx frame } := by
  refine h.unseen (e := .drain frame) ?_ ?_
  · show (Decoder.drain cfg st.rx frame).view = _
    fun_cases Decoder.drain cfg st.rx frame <;> rfl
  · show (Decoder.drain cfg st.rx frame).workers = _
    fun_cases Decoder.drain cfg st.rx frame <;> rfl

theorem init (h : Tracked cfg st) (ok : Bool) :
    Tracked cfg { st with rx := (initThread cfg st.rx ok).1 } := by
  refine h.step (.init ok) (built_initThread h.phase h.built ok) ?_ ?_ (knows_initThread h.source ok)
  · show Announced (initThread cfg st.rx ok).1.format _
    rw [show (initThread cfg st.rx ok).1.format = st.rx.format by
      fun_cases initThread cfg st.rx ok <;> rfl]
    exact h.announced
  · show ∀ w, (initThread cfg st.rx ok).1.workers w ≠ _ → _
    rw [show (initThread cfg st.rx ok).1.workers = st.rx.workers by
      fun_cases initThread cfg st.rx ok <;> rfl]
    exact h.workers

end Tracked

/-! ## The steps of the source -/

/-- `stop_vdec_decoder` leaves the decoder quiet. -/
theorem stopped_stopping {cfg : Config} {s : DecoderState} (hb : Built cfg s)
    (h : s.stopper.Stopped s) : (stopping cfg s).stopper.Stopped (stopping cfg s) := by
  fun_cases stopping cfg s with
  | case2 => exact rfl
  | case4 hpc =>
    rw [hpc] at h
    exact h
  | case6 hpc =>
    rw [hpc] at h
    cases cfg.sdi <;> exact h
  | case8 hpc =>
    rw [hpc] at h
    exact h
  | case10 hpc =>
    rw [hpc] at h
    refine ⟨h, ?_⟩
    show (if s.vdec.isSome = true then false else s.vdecStarted) = false
    split
    · rfl
    · next hnone =>
      by_contra hcon
      rw [hb.started (by simpa using hcon)] at hnone
      exact hnone rfl
  | case11 hpc =>
    rw [hpc] at h
    exact ⟨h.joinable, h.stopped⟩
  | case13 hpc =>
    rw [hpc] at h
    exact ⟨h.joinable, h.stopped⟩
  | _ => exact h

/-- CAPS are applied, or a decoder is in use for a format that is near. -/
theorem applyCaps_or_near {s : DecoderState} {caps : ValidCaps} (hlock : s.decoderLock = none)
    (hflag : Quiet s → s.decoderInitializing = false)
    (h : Near s.format caps.format ∨ Quiet s ∧ s.drm = none) :
    applyCaps s caps.caps = s ∧ Near s.format caps.format ∨
      applyCaps s caps.caps = { s with format := caps.format } ∧
        s.decoderInitializing = false ∧ s.vdecStarted = false := by
  unfold applyCaps
  simp only [caps.valid, hlock, ne_eq, not_true_eq_false, if_false]
  split
  · next hlive =>
    refine .inl ⟨rfl, h.resolve_right fun hq => ?_⟩
    rw [hq.1.stopped, hflag hq.1] at hlive
    cases hlive
  · next hfree =>
    simp only [Bool.or_eq_true, not_or, Bool.not_eq_true] at hfree
    exact .inr ⟨rfl, hfree.2, hfree.1⟩

/-- Nothing is restarted where the format is near, or where there is nothing to restart. -/
theorem near_or_quiet {s : DecoderState} (hp : Phased s) {f : Format}
    (h : ¬ restarts s f = true) : Near s.format f ∨ Quiet s ∧ s.drm = none := by
  simp only [restarts, Bool.and_eq_true, not_and_or, Bool.not_eq_true, Bool.or_eq_false_iff] at h
  rcases h with ⟨⟨hflag, hstarted⟩, hdrm⟩ | hnear
  · refine .inr ⟨⟨?_, hstarted⟩, by simpa using hdrm⟩
    by_contra hcon
    rw [hp.running (by simpa using hcon)] at hflag
    cases hflag
  · exact .inl (near_iff.mpr hnear)

namespace Tracked

variable {cfg : Config} {st : RtspState}

/-- The source goes on by itself. -/
theorem go (h : Tracked cfg st) {source : SourcePc}
    (hworkers : ∀ w, st.rx.workers w ≠ .idle → w = 0 ∧ source = .feeding)
    (hsource : source.Knows st.rx) : Tracked cfg { st with source := source } where
  lock := h.lock
  phase := h.phase
  fit := h.fit
  built := h.built
  announced := h.announced
  workers := hworkers
  source := hsource

/-- CAPS are applied. -/
theorem apply (h : Tracked cfg st) {caps : ValidCaps} (hpc : st.source = .applying caps)
    (hworkers : ∀ w, st.rx.workers w = .idle) (hlock : st.rx.decoderLock = none) :
    Tracked cfg ⟨applyCaps st.rx caps.caps, .idle, some caps.format⟩ := by
  have hknows := h.source
  rw [hpc] at hknows
  obtain ⟨hidle, hnear⟩ := hknows
  have hflag := fun hq : Quiet st.rx => not_initializing h.phase hworkers hq.joinable
  have hidles : ∀ w, st.rx.workers w ≠ .idle → w = 0 ∧ SourcePc.idle = .feeding :=
    fun w hw => absurd (hworkers w) hw
  have heq : (Decoder.step cfg st.rx (.caps caps.caps)).1 = applyCaps st.rx caps.caps := rfl
  refine h.step (.caps caps.caps) ?_ ?_ ?_ ?_ <;> rw [heq] <;>
    rcases applyCaps_or_near hlock hflag hnear with ⟨happly, hn⟩ | ⟨happly, hfree, hstarted⟩ <;>
    rw [happly]
  · exact h.built
  · have hjoin : st.rx.init.joinable = true := by
      by_contra hcon
      rw [h.phase.running (by simpa using hcon)] at hfree
      cases hfree
    exact h.built.write hjoin hstarted (hnear.imp Near.dims fun hq => hq.2)
  · exact hn
  · exact Near.refl _
  · exact hidles
  · exact hidles
  · exact hidle
  · exact hidle

theorem deliver (h : Tracked cfg st) (outcome : Submit) :
    Tracked cfg (Decoder.deliver cfg st outcome).1 := by
  have hidle : st.source ≠ .feeding → ∀ w, st.rx.workers w = .idle := by
    intro hne w
    by_contra hcon
    exact hne (h.workers w hcon).2
  have hnone : ∀ {pc : SourcePc}, st.source ≠ .feeding →
      ∀ w, st.rx.workers w ≠ .idle → w = 0 ∧ pc = .feeding :=
    fun hne w hw => absurd (hidle hne w) hw
  have hknows : ∀ {pc}, st.source = pc → pc.Knows st.rx := by
    rintro pc rfl
    exact h.source
  -- the source is at one place at a time: away from `feeding` no worker of it runs
  fun_cases Decoder.deliver cfg st outcome with
  | case1 | case2 | case8 => exact h
  | case3 caps hpc hfree hrestart =>
    have hne : st.source ≠ .feeding := by rw [hpc]; exact fun hc => by cases hc
    have heq : (Decoder.step cfg st.rx .stop).1 = { st.rx with stopper := .join } :=
      if_pos (hknows hpc)
    refine h.step .stop ?_ ?_ ?_ ?_ <;> rw [heq]
    · exact h.built.move rfl h.built.init
    · exact h.announced
    · exact hnone hne
    · trivial
  | case4 caps hpc hfree hkeep =>
    have hne : st.source ≠ .feeding := by rw [hpc]; exact fun hc => by cases hc
    exact h.go (hnone hne) ⟨hknows hpc, near_or_quiet h.phase hkeep⟩
  | case5 caps hpc hstop =>
    have hne : st.source ≠ .feeding := by rw [hpc]; exact fun hc => by cases hc
    have hquiet : st.rx.stopper.Stopped st.rx := hknows hpc
    rw [hstop] at hquiet
    exact h.go (hnone hne) ⟨hstop, hquiet⟩
  | case6 caps hpc hstop =>
    -- stopping writes neither the format nor the workers
    have hne : st.source ≠ .feeding := by rw [hpc]; exact fun hc => by cases hc
    have hstopped : st.rx.stopper.Stopped st.rx := hknows hpc
    have hview : (stopping cfg st.rx).format = st.rx.format ∧
        (stopping cfg st.rx).workers = st.rx.workers := by
      fun_cases stopping cfg st.rx <;> exact ⟨rfl, rfl⟩
    refine h.step .stopping (built_stopping h.lock h.built) ?_ ?_ ?_
    · show Announced (stopping cfg st.rx).format _
      rw [hview.1]
      exact h.announced
    · show ∀ w, (stopping cfg st.rx).workers w ≠ .idle → _
      rw [hview.2]
      exact hnone hne
    · rw [hpc]
      exact stopped_stopping h.built hstopped
  | case7 caps hpc =>
    have hne : st.source ≠ .feeding := by rw [hpc]; exact fun hc => by cases hc
    obtain ⟨hstop, hquiet⟩ := hknows hpc
    exact h.step .stopDisplay (h.built.stopDisplay hquiet.joinable) h.announced (hnone hne)
      ⟨hstop, .inr ⟨⟨hquiet.joinable, hquiet.stopped⟩, rfl⟩⟩
  | case9 caps hpc hfree =>
    have hne : st.source ≠ .feeding := by rw [hpc]; exact fun hc => by cases hc
    exact h.apply hpc (hidle hne) (by simpa using hfree)
  | case10 hpc hworker =>
    refine h.go (fun w hw => ?_) (hknows hpc :)
    obtain ⟨rfl, -⟩ := h.workers w hw
    exact absurd hworker hw
  | case11 hpc hbusy =>
    -- only the worker of the source moves
    have hother : ∀ w, w ≠ 0 → (work cfg st.rx 0 outcome).1.workers w = st.rx.workers w := by
      intro w hw
      fun_cases work cfg st.rx 0 outcome <;> first | rfl | exact Function.update_of_ne hw _ _
    have hview : (work cfg st.rx 0 outcome).1.format = st.rx.format ∧
        (work cfg st.rx 0 outcome).1.stopper = st.rx.stopper := by
      fun_cases work cfg st.rx 0 outcome <;> exact ⟨rfl, rfl⟩
    refine h.step (.work 0 outcome) (built_work h.built 0 outcome) ?_ (fun w hw => ?_) ?_
    · show Announced (work cfg st.rx 0 outcome).1.format _
      rw [hview.1]
      exact h.announced
    · refine ⟨?_, hpc⟩
      by_contra hne
      have hw' : (work cfg st.rx 0 outcome).1.workers w ≠ .idle := hw
      rw [hother w hne] at hw'
      exact hne (h.workers w hw').1
    · rw [hpc]
      exact hview.2.trans (hknows hpc)

theorem unit (h : Tracked cfg st) (hpc : st.source = .idle) (au : AccessUnit) :
    Tracked cfg { st with rx := (push cfg st.rx 0 au).1, source := .feeding } := by
  have hknows := h.source
  rw [hpc] at hknows
  have hview : (push cfg st.rx 0 au).1.view = st.rx.view := by
    fun_cases push cfg st.rx 0 au <;> rfl
  have hformat : (push cfg st.rx 0 au).1.format = st.rx.format := congrArg Prod.fst hview
  have hother : ∀ w, w ≠ 0 → (push cfg st.rx 0 au).1.workers w = st.rx.workers w := by
    intro w hw
    fun_cases push cfg st.rx 0 au <;> first | rfl | exact Function.update_of_ne hw _ _
  refine h.step (.push 0 au) (h.built.congr hview) ?_ (fun w hw => ⟨?_, rfl⟩) ?_
  · show Announced (push cfg st.rx 0 au).1.format _
    rw [hformat]
    exact h.announced
  · by_contra hne
    have hw' : (push cfg st.rx 0 au).1.workers w ≠ .idle := hw
    rw [hother w hne] at hw'
    exact hne (h.workers w hw').1
  · exact (show SourcePc.feeding.Knows st.rx from hknows).congr hview

end Tracked

theorem tracked_step {cfg : Config} {st : RtspState} (h : Tracked cfg st) (e : RtspEvent) :
    Tracked cfg (rtspStep cfg st e).1 := by
  cases e with
  | caps caps =>
      show Tracked cfg (rtspStep cfg st (.caps caps)).1
      simp only [rtspStep]
      split
      · next hpc hvalid =>
        have hknows := h.source
        rw [hpc] at hknows
        refine h.go (fun w hw => ?_) hknows
        have hfeeding := (h.workers w hw).2
        rw [hpc] at hfeeding
        cases hfeeding
      · exact h
  | unit au =>
      show Tracked cfg (rtspStep cfg st (.unit au)).1
      simp only [rtspStep]
      split
      · next hpc => exact h.unit hpc au
      · exact h
  | source outcome => exact h.deliver outcome
  | init ok => exact h.init ok
  | signal => exact h.signal
  | drain frame => exact h.drain frame

theorem tracked_reached (cfg : Config) (displayEnabled : Bool) (es : List RtspEvent) :
    Tracked cfg (rtspReached cfg displayEnabled es) :=
  (rtspMachine cfg).inv_run (fun _ => True) (Tracked cfg) (fun _ e h _ => tracked_step h e) es
    (.initial displayEnabled) (fun _ _ => trivial) (tracked_initial cfg displayEnabled)

/-! ## Frame rates that are numbers -/

/-- The event is not valid CAPS whose frame rate is a NaN. -/
def RtspEvent.rated : RtspEvent → Bool
  | .caps c => !(c.valid.isSome && c.framerate = some .nan)
  | _ => true

/-- The CAPS that are delivered. -/
def SourcePc.pending : SourcePc → Option ValidCaps
  | .deciding caps | .stopping caps | .closing caps | .applying caps => some caps
  | .idle | .feeding => none

theorem checkedFps_ne_nan {rate : Option FrameRate} (h : rate ≠ some .nan) :
    checkedFps rate ≠ .nan := by
  unfold checkedFps
  split
  · exact fun hc => by cases hc
  · split
    · exact fun hc => by cases hc
    · exact fun hc => h (congrArg some hc)

theorem valid_decFps {c : RawCaps} {f : Format} (h : c.valid = some f) :
    f.decFps = checkedFps c.framerate := by
  revert h
  fun_cases RawCaps.valid c with
  | case2 => exact fun h => by cases h; rfl
  | _ => exact fun h => by cases h

theorem RtspEvent.decFps_of_rated {c : RawCaps} {f : Format}
    (h : (RtspEvent.caps c).rated = true) (hf : c.valid = some f) : f.decFps ≠ .nan := by
  rw [valid_decFps hf]
  exact checkedFps_ne_nan (by simpa [RtspEvent.rated, hf] using h)

/-- The formats that are stored, delivered and announced have numbers as frame rates. -/
structure Rated (st : RtspState) : Prop where
  stored : st.rx.format.decFps ≠ .nan
  pending : ∀ caps ∈ st.source.pending, caps.format.decFps ≠ .nan
  current : ∀ g ∈ st.current, g.decFps ≠ .nan

theorem rated_initial (displayEnabled : Bool) : Rated (.initial displayEnabled) :=
  ⟨fun h => (by cases h), fun _ h => (by cases h), fun _ h => (by cases h)⟩

namespace Rated

variable {cfg : Config} {st : RtspState}

/-- Neither the stored format nor the announced one is written. -/
theorem keep (h : Rated st) {rx : DecoderState} {source : SourcePc}
    (hformat : rx.format = st.rx.format)
    (hpending : source.pending = st.source.pending ∨ source.pending = none) :
    Rated { rx := rx, source := source, current := st.current } where
  stored := hformat ▸ h.stored
  pending caps hcaps := by
    rcases hpending with heq | hnone
    · exact h.pending caps (heq ▸ hcaps)
    · rw [hnone] at hcaps
      cases hcaps
  current := h.current

theorem deliver (h : Rated st) (outcome : Submit) :
    Rated (Decoder.deliver cfg st outcome).1 := by
  have hformat : ∀ e : Event, e = .stop ∨ e = .stopping ∨ e = .stopDisplay ∨ e = .work 0 outcome →
      (step cfg st.rx e).1.format = st.rx.format := by
    rintro e (rfl | rfl | rfl | rfl)
    all_goals exact format_step cfg st.rx (fun _ h => by cases h) fun _ _ _ h => by cases h
  fun_cases Decoder.deliver cfg st outcome with
  | case1 | case2 | case8 => exact h
  | case3 caps hpc =>
    exact h.keep (hformat .stop (by simp)) (.inl (by rw [hpc]; rfl))
  | case4 caps hpc | case5 caps hpc => exact h.keep rfl (.inl (by rw [hpc]; rfl))
  | case6 => exact h.keep (hformat .stopping (by simp)) (.inl rfl)
  | case7 caps hpc =>
    exact h.keep (hformat .stopDisplay (by simp)) (.inl (by rw [hpc]; rfl))
  | case9 caps hpc =>
    -- the stored format stays, or becomes that of the CAPS
    have hcaps : caps.format.decFps ≠ .nan := h.pending caps (by rw [hpc]; rfl)
    refine ⟨?_, fun _ hnone => (by cases hnone), fun g hg => ?_⟩
    · show (applyCaps st.rx caps.caps).format.decFps ≠ .nan
      fun_cases applyCaps st.rx caps.caps with
      | case4 format hvalid =>
        rw [caps.valid] at hvalid
        cases hvalid
        exact hcaps
      | _ => exact h.stored
    · cases hg
      exact hcaps
  | case10 => exact h.keep rfl (.inr rfl)
  | case11 => exact h.keep (hformat (.work 0 outcome) (by simp)) (.inl rfl)

end Rated

theorem rated_step {cfg : Config} {st : RtspState} (h : Rated st) (e : RtspEvent)
    (he : e.rated = true) : Rated (rtspStep cfg st e).1 := by
  cases e with
  | caps caps =>
      show Rated (rtspStep cfg st (.caps caps)).1
      simp only [rtspStep]
      split
      · next format hpc hvalid =>
        refine ⟨h.stored, fun caps' hcaps => ?_, h.current⟩
        cases hcaps
        exact RtspEvent.decFps_of_rated he hvalid
      · exact h
  | unit au =>
      show Rated (rtspStep cfg st (.unit au)).1
      simp only [rtspStep]
      split
      · exact h.keep (format_step cfg st.rx (e := .push 0 au) nofun nofun) (.inr rfl)
      · exact h
  | source outcome => exact h.deliver outcome
  | init ok => exact h.keep (format_step cfg st.rx (e := .init ok) nofun nofun) (.inl rfl)
  | signal => exact h.keep (format_step cfg st.rx (e := .signal) nofun nofun) (.inl rfl)
  | drain frame =>
      exact h.keep (format_step cfg st.rx (e := .drain frame) nofun nofun) (.inl rfl)

theorem rated_reached (cfg : Config) (displayEnabled : Bool) {es : List RtspEvent}
    (hes : ∀ e ∈ es, e.rated = true) : Rated (rtspReached cfg displayEnabled es) :=
  (rtspMachine cfg).inv_run (fun e => e.rated = true) Rated (fun _ e h he => rated_step h e he) es
    (.initial displayEnabled) hes (rated_initial displayEnabled)

/-! ## The theorem -/

/-- The format is that of the CAPS, with a frame rate within 0.005 of theirs. -/
structure Serves (f g : Format) : Prop where
  extraData : f.extraData = g.extraData
  decWidth : f.decWidth = g.decWidth
  decHeight : f.decHeight = g.decHeight
  decFps : (f.decFps.distance g.decFps).le (.num (1 / 200)) = true

/-- Two numbers are within the tolerance, or further apart. -/
theorem Near.serves {f g : Format} (h : Near f g) (hf : f.decFps ≠ .nan) (hg : g.decFps ≠ .nan) :
    Serves f g := by
  refine ⟨h.extraData, h.decWidth, h.decHeight, ?_⟩
  have hnear := h.decFps
  cases hrate : f.decFps with
  | nan => exact absurd hrate hf
  | num a =>
    cases hrate' : g.decFps with
    | nan => exact absurd hrate' hg
    | num b =>
      rw [hrate, hrate'] at hnear
      simpa [FrameRate.lt, FrameRate.le, FrameRate.distance] using hnear

/-- The step submits only to a decoder that was started for the last CAPS. -/
def SubmitsToCurrent (cfg : Config) (st : RtspState) (e : RtspEvent) : Prop :=
  ∀ au decoder initializing started accepted,
    (rtspStep cfg st e).2 = some (.submitted au decoder initializing started accepted) →
      started = true ∧ ∃ f g, decoder = some f ∧ st.current = some g ∧ Serves f g

/-- The stored format is that of the last CAPS, and the display is built for its size. -/
structure StoresCurrent (cfg : Config) (st : RtspState) (g : Format) : Prop where
  format : Near st.rx.format g
  drm : cfg.sdi = false → ∀ size, st.rx.drm = some size → size = g.dims
  sink : ∀ size, st.rx.sink = some size → size = g.dims

/-- What the source's machine lets the outside see comes from a step of the decoder's. -/
theorem rtspStep_output {cfg : Config} {st : RtspState} {e : RtspEvent} {o : Output}
    (h : (rtspStep cfg st e).2 = some o) : ∃ e', (step cfg st.rx e').2 = some o := by
  cases e with
  | caps caps =>
      revert h
      simp only [rtspStep]
      split <;> exact fun h => by cases h
  | unit au =>
      revert h
      simp only [rtspStep]
      split
      · exact fun h => ⟨.push 0 au, h⟩
      · exact fun h => by cases h
  | source outcome =>
      revert h
      show (deliver cfg st outcome).2 = _ → _
      fun_cases deliver cfg st outcome with
      | case11 => exact fun h => ⟨.work 0 outcome, h⟩
      | _ => exact fun h => by cases h
  | init ok => exact ⟨.init ok, h⟩
  | signal => cases h
  | drain frame => cases h

/-- **No mixed configurations.** What is stored and displayed after a run is that of the last
CAPS; and where no valid CAPS of the run have a NaN as their frame rate, whatever is submitted
goes to a decoder that was started for the last CAPS. -/
theorem rtsp_consistent (cfg : Config) (displayEnabled : Bool) (es : List RtspEvent) :
    ((∀ e ∈ es, e.rated = true) →
        ∀ e, SubmitsToCurrent cfg (rtspReached cfg displayEnabled es) e) ∧
      ∀ g, (rtspReached cfg displayEnabled es).current = some g →
        StoresCurrent cfg (rtspReached cfg displayEnabled es) g := by
  have h := tracked_reached cfg displayEnabled es
  constructor
  · intro hes e au decoder initializing started accepted hout
    have hrated := rated_reached cfg displayEnabled hes
    obtain ⟨e', hout'⟩ := rtspStep_output hout
    obtain ⟨-, hstarted⟩ := submitted_open h.lock h.phase hout'
    obtain ⟨-, -, -, -, -, rfl, -, rfl⟩ := submitted_step hout'
    refine ⟨hstarted, (rtspReached cfg displayEnabled es).rx.format, ?_⟩
    have hannounced := h.announced
    cases hcurrent : (rtspReached cfg displayEnabled es).current with
    | some g =>
        rw [hcurrent] at hannounced
        have hnear : Near (rtspReached cfg displayEnabled es).rx.format g := hannounced
        exact ⟨g, h.built.started hstarted, rfl,
          hnear.serves hrated.stored (hrated.current g hcurrent)⟩
    | none =>
        -- a decoder is started for a format that has its avcC
        have hready := h.fit.started hstarted
        rw [hcurrent] at hannounced
        have hnone : (rtspReached cfg displayEnabled es).rx.format.extraData = none := hannounced
        simp [Format.ready, hnone] at hready
  · intro g hg
    have hnear : Near (rtspReached cfg displayEnabled es).rx.format g := by
      have hannounced := h.announced
      rw [hg] at hannounced
      exact hannounced
    exact ⟨hnear, fun hsdi size hs => (h.built.drm hsdi size hs).trans hnear.dims,
      fun size hs => (h.built.sink size hs).trans hnear.dims⟩

/-- CAPS, a keyframe, and the initialization. -/
def rtspStart (caps : RawCaps) : List RtspEvent :=
  .caps caps :: List.replicate 10 (.source .accepted) ++
    .unit idrUnit :: List.replicate 8 (.source .accepted) ++ List.replicate 9 (.init true)

/-- A change of the size, and the next keyframe up to its submission. -/
def resizeRun : List RtspEvent :=
  rtspStart sampleCaps ++ rtspStart { sampleCaps with width := some 128 } ++
    .unit idrUnit :: List.replicate 4 (.source .accepted)

/-- The keyframe goes to a decoder for the new size. -/
theorem rtsp_consistent_resize :
    (rtspStep hdmi (rtspReached hdmi false resizeRun) (.source .accepted)).2
        = some (.submitted idrUnit (some { sampleFormat with decWidth := 128 }) false true true) ∧
      SubmitsToCurrent hdmi (rtspReached hdmi false resizeRun) (.source .accepted) :=
  ⟨by decide +kernel, (rtsp_consistent hdmi false resizeRun).1 (by decide +kernel) _⟩

/-- A decoder is started for CAPS whose frame rate is a NaN. CAPS for 30 frames per second follow,
which differ in nothing else, and a keyframe up to its submission. -/
def unratedRun : List RtspEvent :=
  rtspStart { sampleCaps with framerate := some .nan } ++
    .caps sampleCaps :: List.replicate 2 (.source .accepted) ++
    .unit idrUnit :: List.replicate 4 (.source .accepted)

/-- The keyframe goes to the decoder that was started with the NaN. -/
theorem not_rtsp_consistent :
    ¬ ∀ e, SubmitsToCurrent hdmi (rtspReached hdmi false unratedRun) e := by
  intro h
  obtain ⟨-, f, g, hf, hg, hserves⟩ := h (.source .accepted) idrUnit
    (some { sampleFormat with decFps := .nan }) false true true (by decide +kernel)
  cases hf
  exact absurd hserves.decFps (fun hc => by cases hc)

end QcapDemos.Decoder
