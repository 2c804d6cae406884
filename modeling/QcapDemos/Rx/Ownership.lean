import QcapDemos.Rx.Atomic
import QcapDemos.Rx.Loop

set_option autoImplicit false

/-! # Who owns the output

At any time the output belongs to the Ultra context or to the AVH receiver. While it belongs to
the context, the receiver is *detached*: its threads decode, but show nothing. While it belongs to
the receiver, the receiver is *attached* and the context's overlay is off. `Owned` is this invariant;
every event of the main loop keeps it, whichever of its calls fail.
-/

namespace QcapDemos.Rx

open QcapDemos.Drm QcapDemos.Alsa QcapDemos.Lib

/-! ## The receiver's two halves -/

/-- The receiver with the flow count and the decoder of another one. -/
def Avh.withDecoder (avh d : Avh) : Avh :=
  { avh with
    autoFlowCount := d.autoFlowCount, extraData := d.extraData, decWidth := d.decWidth
    decHeight := d.decHeight, decFps := d.decFps, decodedFrames := d.decodedFrames
    init := d.init, vdecStarted := d.vdecStarted }

theorem Avh.withDecoder_trans {a b c : Avh} (hab : b = a.withDecoder b) (hbc : c = b.withDecoder c) :
    c = a.withDecoder c := by
  calc c = b.withDecoder c := hbc
    _ = (a.withDecoder b).withDecoder c := by rw [← hab]
    _ = a.withDecoder c := rfl

theorem Avh.withDecoder_trans' {a b c : Avh} (hab : b = b.withDecoder a)
    (hbc : c = c.withDecoder b) : c = c.withDecoder a := by
  calc c = c.withDecoder b := hbc
    _ = c.withDecoder (b.withDecoder a) := by rw [← hab]
    _ = c.withDecoder a := rfl

/-- Frames come from a started decoder, which is started at the end of its initialization. -/
structure Decoding (avh : Avh) : Prop where
  decoded : 0 < avh.decodedFrames → avh.vdecStarted = true
  started : avh.vdecStarted = true → avh.init = .finish ∨ avh.init = .idle

/-- The receiver shows nothing, plays nothing and holds no output. -/
structure Detached (avh : Avh) : Prop where
  display : avh.displayEnabled = false
  sink : avh.vdecSink = false
  sinkStarted : avh.vdecSinkStarted = false
  closed : avh.drmOpen = false
  inactive : avh.drmModesetActive = false
  pcm : avh.audioPcm = false
  pcmStarted : avh.audioPcmStarted = false

/-- The receiver shows what it decodes. -/
structure Attached (avh : Avh) : Prop where
  display : avh.displayEnabled = true
  sink : avh.vdecSink = true
  sinkStarted : avh.vdecSinkStarted = true
  decoder : avh.vdecStarted = true
  idle : avh.init = .idle
  inactive : avh.drmOpen = false → avh.drmModesetActive = false

theorem Detached.of_decoder {avh avh' : Avh} (h : Detached avh) (heq : avh' = avh.withDecoder avh') :
    Detached avh' := by
  rw [heq]
  exact ⟨h.display, h.sink, h.sinkStarted, h.closed, h.inactive, h.pcm, h.pcmStarted⟩

theorem Decoding.of_output {avh avh' : Avh} (h : Decoding avh) (heq : avh' = avh'.withDecoder avh) :
    Decoding avh' := by
  rw [heq]
  exact ⟨h.decoded, h.started⟩

/-! ## The receiver's threads -/

section Threads

variable (opts : Options) (dev : Device)

/-- Without display, an event changes the decoder alone. -/
theorem step_hidden {s : Hw × Avh} (h : s.2.displayEnabled = false) (e : AvhEvent) :
    (Avh.step opts dev s e).1 = s.1 ∧
    (Avh.step opts dev s e).2 = s.2.withDecoder (Avh.step opts dev s e).2 := by
  cases e with
  | flows count => exact ⟨rfl, rfl⟩
  | caps width height fps =>
      refine ⟨rfl, ?_⟩
      simp only [Avh.step, Avh.applyCaps]
      split
      · rfl
      · split <;> rfl
  | feed keyframe =>
      refine ⟨rfl, ?_⟩
      simp only [Avh.step, Avh.feed]
      split
      · rfl
      · split <;> rfl
  | init calls =>
      simp only [Avh.step, Avh.initStep]
      cases s.2.init with
      | idle | setup | finish => exact ⟨rfl, rfl⟩
      | display =>
          dsimp only
          rw [if_pos (by rw [h]; rfl)]
          exact ⟨rfl, rfl⟩
  | frame flip =>
      simp only [Avh.step, Avh.frame]
      split
      · exact ⟨rfl, rfl⟩
      · rw [if_neg (by rw [h]; exact Bool.false_ne_true)]
        exact ⟨rfl, rfl⟩

/-- Without display, an event keeps the decoder's order of events, and a started decoder. -/
theorem step_decoding {s : Hw × Avh} (h : s.2.displayEnabled = false) (hd : Decoding s.2)
    (e : AvhEvent) : Decoding (Avh.step opts dev s e).2 ∧
      (s.2.vdecStarted = true → (Avh.step opts dev s e).2.vdecStarted = true) := by
  cases e with
  | flows count => exact ⟨⟨hd.decoded, hd.started⟩, id⟩
  | caps width height fps =>
      simp only [Avh.step, Avh.applyCaps]
      split
      · exact ⟨hd, id⟩
      · split
        · exact ⟨hd, id⟩
        · exact ⟨⟨hd.decoded, hd.started⟩, id⟩
  | feed keyframe =>
      simp only [Avh.step, Avh.feed]
      split
      · exact ⟨hd, id⟩
      · next hidle =>
        rw [Bool.not_eq_true, Bool.or_eq_false_iff] at hidle
        split
        · exact ⟨hd, id⟩
        · refine ⟨⟨hd.decoded, fun hs => ?_⟩, id⟩
          rw [hidle.2] at hs
          cases hs
  | init calls =>
      simp only [Avh.step, Avh.initStep]
      cases hinit : s.2.init with
      | idle => exact ⟨hd, id⟩
      | display =>
          -- a decoder that is started is past this step
          have hnot : s.2.vdecStarted ≠ true := fun hs => by
            rcases hd.started hs with he | he <;> rw [hinit] at he <;> cases he
          dsimp only
          rw [if_pos (by rw [h]; rfl)]
          exact ⟨⟨hd.decoded, fun hs => absurd hs hnot⟩, id⟩
      | setup =>
          have hkeep : s.2.vdecStarted = true → (s.2.vdecStarted || calls.setup) = true := fun hs => by
            rw [hs, Bool.true_or]
          exact ⟨⟨fun hpos => hkeep (hd.decoded hpos), fun _ => Or.inl rfl⟩, hkeep⟩
      | finish => exact ⟨⟨hd.decoded, fun _ => Or.inr rfl⟩, id⟩
  | frame flip =>
      simp only [Avh.step, Avh.frame]
      split
      · exact ⟨hd, id⟩
      · next hs => exact ⟨⟨fun _ => by simpa using hs, hd.started⟩, id⟩

/-- Once the decoder is up, an event changes at most the counts of flows and frames. -/
theorem step_up {s : Hw × Avh} (hs : s.2.vdecStarted = true) (hi : s.2.init = .idle)
    (e : AvhEvent) : (Avh.step opts dev s e).2 = { s.2 with
      autoFlowCount := (Avh.step opts dev s e).2.autoFlowCount
      decodedFrames := (Avh.step opts dev s e).2.decodedFrames } := by
  cases e with
  | flows count => rfl
  | caps width height fps =>
      have hkeep : s.2.applyCaps width height fps = s.2 := by
        rw [Avh.applyCaps, hs, Bool.true_or, if_pos rfl, ite_self]
      rw [Avh.step, hkeep]
  | feed keyframe =>
      have hkeep : s.2.feed keyframe = s.2 := by rw [Avh.feed, hs, Bool.or_true, if_pos rfl]
      rw [Avh.step, hkeep]
  | init calls =>
      have hkeep : s.2.initStep opts dev calls s.1 = s := by rw [Avh.initStep, hi]
      rw [Avh.step, hkeep]
  | frame flip =>
      simp only [Avh.step, Avh.frame]
      split <;> rfl

variable {opts dev} {s : Hw × Avh}

/-- Without display, events change the decoder alone. -/
theorem steps_hidden (h : s.2.displayEnabled = false) (es : List AvhEvent) :
    (Avh.steps opts dev s es).1 = s.1 ∧
    (Avh.steps opts dev s es).2 = s.2.withDecoder (Avh.steps opts dev s es).2 := by
  induction es generalizing s with
  | nil => exact ⟨rfl, rfl⟩
  | cons e es ih =>
      obtain ⟨hhw, hsame⟩ := step_hidden opts dev h e
      have h' : (Avh.step opts dev s e).2.displayEnabled = false := by
        rw [hsame]; exact h
      obtain ⟨hhw', hsame'⟩ := ih h'
      exact ⟨hhw'.trans hhw, Avh.withDecoder_trans hsame hsame'⟩

theorem steps_decoding (h : s.2.displayEnabled = false) (hd : Decoding s.2) (es : List AvhEvent) :
    Decoding (Avh.steps opts dev s es).2 ∧
      (s.2.vdecStarted = true → (Avh.steps opts dev s es).2.vdecStarted = true) := by
  induction es generalizing s with
  | nil => exact ⟨hd, id⟩
  | cons e es ih =>
      obtain ⟨hd', hkeep⟩ := step_decoding opts dev h hd e
      obtain ⟨hd'', hkeep'⟩ := ih (by rw [(step_hidden opts dev h e).2]; exact h) hd'
      exact ⟨hd'', fun hs => hkeep' (hkeep hs)⟩

theorem steps_up (hs : s.2.vdecStarted = true) (hi : s.2.init = .idle) (es : List AvhEvent) :
    (Avh.steps opts dev s es).2.vdecStarted = true ∧ (Avh.steps opts dev s es).2.init = .idle := by
  induction es generalizing s with
  | nil => exact ⟨hs, hi⟩
  | cons e es ih =>
      have heq := step_up opts dev hs hi e
      exact ih (by rw [heq]; exact hs) (by rw [heq]; exact hi)

/-- An attached receiver stays attached. -/
theorem step_attached (h : Attached s.2) (e : AvhEvent) : Attached (Avh.step opts dev s e).2 := by
  rw [step_up opts dev h.decoder h.idle e]
  exact ⟨h.display, h.sink, h.sinkStarted, h.decoder, h.idle, h.inactive⟩

end Threads

/-! ## The receiver's output -/

section Output

variable (opts : Options) (dev : Device)

/-- The receiver shows nothing; it may hold an output, and on SDI play through it. -/
structure Hidden (avh : Avh) : Prop where
  display : avh.displayEnabled = false
  sink : avh.vdecSink = false
  sinkStarted : avh.vdecSinkStarted = false
  inactive : avh.drmOpen = false → avh.drmModesetActive = false
  pcm : opts.sdi = false → avh.audioPcm = false ∧ avh.audioPcmStarted = false

variable {opts dev} {avh : Avh}

theorem Detached.hidden (h : Detached avh) : Hidden opts avh :=
  ⟨h.display, h.sink, h.sinkStarted, fun _ => h.inactive, fun _ => ⟨h.pcm, h.pcmStarted⟩⟩

theorem Hidden.of_decoder {avh' : Avh} (h : Hidden opts avh) (heq : avh' = avh.withDecoder avh') :
    Hidden opts avh' := by
  rw [heq]
  exact ⟨h.display, h.sink, h.sinkStarted, h.inactive, h.pcm⟩

/-- Starting the PCM changes its two fields. -/
theorem startHdmiAudioSink_eq (sdi : Bool) (calls : SinkCalls) (hw : Hw) (avh : Avh) :
    (startHdmiAudioSink sdi calls hw avh).2.2 = { avh with
      audioPcm := (startHdmiAudioSink sdi calls hw avh).2.2.audioPcm
      audioPcmStarted := (startHdmiAudioSink sdi calls hw avh).2.2.audioPcmStarted } := by
  rw [startHdmiAudioSink]
  split
  · rfl
  split
  · rfl
  split
  · rfl
  · split <;> rfl

/-- **Stopping the output** detaches a hidden receiver. -/
theorem stopDrmOutput_spec (h : Hidden opts avh) (calls : StopCalls) (hw : Hw) :
    Detached (stopDrmOutput opts dev calls hw avh).2 ∧
    (stopDrmOutput opts dev calls hw avh).2
      = (stopDrmOutput opts dev calls hw avh).2.withDecoder avh := by
  rw [stopDrmOutput]
  cases hsdi : opts.sdi with
  | false =>
      obtain ⟨hpcm, hstarted⟩ := h.pcm hsdi
      simp only [Bool.false_eq_true, if_false]
      split
      · next hopen =>
        have hclosed : avh.drmOpen = false := by simpa using hopen
        exact ⟨⟨h.display, h.sink, h.sinkStarted, hclosed, h.inactive hclosed, hpcm, hstarted⟩, rfl⟩
      · exact ⟨⟨h.display, h.sink, h.sinkStarted, rfl, rfl, hpcm, hstarted⟩, rfl⟩
  | true =>
      simp only [if_true]
      split
      · next hopen =>
        have hclosed : (stopHdmiAudioSink avh).drmOpen = false := by simpa using hopen
        exact ⟨⟨h.display, h.sink, h.sinkStarted, hclosed, h.inactive hclosed, rfl, rfl⟩, rfl⟩
      · exact ⟨⟨h.display, h.sink, h.sinkStarted, rfl, rfl, rfl, rfl⟩, rfl⟩

/-- Building the output leaves it open, and leaves the display, the PCM and the decoder. -/
theorem buildOutput_spec (calls : OutputCalls) (path : Path) (hw : Hw) (avh : Avh) :
    (buildOutput opts dev calls path hw avh).2.2
      = (buildOutput opts dev calls path hw avh).2.2.withDecoder avh ∧
    (buildOutput opts dev calls path hw avh).2.2.drmOpen = avh.drmOpen ∧
    (Hidden opts avh → Hidden opts (buildOutput opts dev calls path hw avh).2.2) := by
  rw [buildOutput]
  split
  · exact ⟨rfl, rfl, fun h => ⟨h.display, h.sink, h.sinkStarted, h.inactive, h.pcm⟩⟩
  split
  · exact ⟨rfl, rfl, fun h => ⟨h.display, h.sink, h.sinkStarted, h.inactive, h.pcm⟩⟩
  dsimp only
  split
  · exact ⟨rfl, rfl, fun h => ⟨h.display, h.sink, h.sinkStarted, h.inactive, h.pcm⟩⟩
  · exact ⟨rfl, rfl, fun h => ⟨h.display, h.sink, h.sinkStarted, h.inactive, h.pcm⟩⟩

/-- **Starting the output** of a detached receiver leaves it hidden, and detached on failure. -/
theorem startDrmOutput_spec (h : Detached avh) (calls : OutputCalls) (hw : Hw) :
    (startDrmOutput opts dev calls hw avh).2.2
      = (startDrmOutput opts dev calls hw avh).2.2.withDecoder avh ∧
    Hidden opts (startDrmOutput opts dev calls hw avh).2.2 ∧
    ((startDrmOutput opts dev calls hw avh).1 = false →
      Detached (startDrmOutput opts dev calls hw avh).2.2) := by
  -- every failure goes through `stop_drm_output`
  have hfail : ∀ (hw : Hw) (avh' : Avh), Hidden opts avh' → avh' = avh'.withDecoder avh →
      (stopDrmOutput opts dev calls.stop hw avh').2
        = (stopDrmOutput opts dev calls.stop hw avh').2.withDecoder avh ∧
      Hidden opts (stopDrmOutput opts dev calls.stop hw avh').2 ∧
      (false = false → Detached (stopDrmOutput opts dev calls.stop hw avh').2) := by
    intro hw avh' hhid heq
    obtain ⟨hdet, hsame⟩ := @stopDrmOutput_spec opts dev avh' hhid calls.stop hw
    exact ⟨Avh.withDecoder_trans' heq hsame, hdet.hidden, fun _ => hdet⟩
  have hopened : Hidden opts { avh with drmOpen := true } :=
    ⟨h.display, h.sink, h.sinkStarted, fun _ => h.inactive, fun _ => ⟨h.pcm, h.pcmStarted⟩⟩
  rw [startDrmOutput]
  rw [if_neg (by rw [h.inactive]; exact Bool.false_ne_true)]
  split
  · exact hfail hw avh h.hidden rfl
  dsimp only
  split
  · exact hfail hw _ hopened rfl
  split
  · exact hfail hw _ hopened rfl
  next path hpath =>
  obtain ⟨hsame, hopen, hbuilt⟩ := @buildOutput_spec opts dev calls path hw
    { avh with drmOpen := true }
  split
  · next hw' avh' hbuild =>
    rw [hbuild] at hbuilt hsame
    exact hfail hw' avh' (hbuilt hopened) hsame
  · next hw' avh' hbuild =>
    rw [hbuild] at hbuilt hsame hopen
    have h' := hbuilt hopened
    have hno : ∀ {P : Prop}, avh'.drmOpen = false → P := fun hf => by
      rw [show avh'.drmOpen = true from hopen] at hf
      cases hf
    split
    · next hsdi =>
      rw [startHdmiAudioSink_eq]
      refine ⟨?_, ⟨h'.display, h'.sink, h'.sinkStarted, hno, fun hf => ?_⟩, fun hf => by cases hf⟩
      · exact Avh.withDecoder_trans' hsame rfl
      · rw [hsdi] at hf; cases hf
    · refine ⟨?_, ⟨h'.display, h'.sink, h'.sinkStarted, hno, h'.pcm⟩, fun hf => by cases hf⟩
      exact Avh.withDecoder_trans' hsame rfl

/-- Starting the sink starts it or leaves the receiver as it is; the library may reach the display
in either case. -/
theorem startVdecSink_spec (h : avh.vdecSinkStarted = false) (calls : VdecSinkCalls) (hw : Hw) :
    ∃ work,
      startVdecSink calls hw avh = (false, Hw.sinkWork work hw, avh) ∨
      startVdecSink calls hw avh = (true, Hw.sinkWork work hw,
        { avh with vdecSink := true, vdecSinkStarted := true }) := by
  rw [startVdecSink, if_neg (by rw [h]; exact Bool.false_ne_true)]
  split
  · exact ⟨[], Or.inl rfl⟩
  dsimp only
  refine ⟨calls.work, ?_⟩
  split
  · exact Or.inl rfl
  split
  · exact Or.inl rfl
  split
  · exact Or.inl rfl
  · exact Or.inr rfl

end Output

/-! ## The context under a modeset -/

section Context

variable {opts : Options} {dev : Device} {calls : ModesetCalls} {width height : Nat} {fps : ℚ}
  {enableOverlay : Bool} {format : PixelFormat} {hw hw' : Hw} {ctx ctx' : Ctx} {ok : Bool}

/-- A modeset leaves the context, or commits a new one; a successful one commits. -/
theorem applyDrmModeset_ctx
    (h : applyDrmModeset opts dev calls width height fps enableOverlay format hw ctx
      = (ok, hw', ctx')) :
    (ok = false ∧ ctx' = ctx) ∨ ∃ mode objs overlay,
      ctx' = ctx.committed mode objs overlay ∧ (overlay = true → enableOverlay = true) := by
  have hcases := applyDrmModeset_cases dev opts calls width height fps enableOverlay format hw ctx
  rw [h] at hcases
  cases hcases with
  | rejected => exact Or.inl ⟨rfl, rfl⟩
  | committed plan extra objs overlay _ _ _ _ _ hoverlay =>
      exact Or.inr ⟨plan.mode, objs, overlay, rfl, hoverlay⟩

/-- A modeset keeps the owner. -/
theorem applyDrmModeset_owner
    (h : applyDrmModeset opts dev calls width height fps enableOverlay format hw ctx
      = (ok, hw', ctx')) : ctx'.avhActive = ctx.avhActive := by
  rcases applyDrmModeset_ctx h with ⟨-, rfl⟩ | ⟨mode, objs, overlay, rfl, -⟩ <;> rfl

/-- A modeset to DUMMY never switches the overlay on, and switches it off when it succeeds. -/
theorem applyDrmModeset_dummy
    (h : applyDrmModeset opts dev calls width height fps false format hw ctx = (ok, hw', ctx'))
    (hoff : ok = true ∨ ctx.overlayActive = false) : ctx'.overlayActive = false := by
  rcases applyDrmModeset_ctx h with ⟨hok, rfl⟩ | ⟨mode, objs, overlay, rfl, hoverlay⟩
  · exact hoff.resolve_left (by rw [hok]; exact Bool.false_ne_true)
  · exact Bool.eq_false_iff.mpr fun hon => Bool.false_ne_true (hoverlay hon)

end Context

/-! ## The handlers of the loop -/

section Handlers

variable (opts : Options) (dev : Device)

/-- Noting a format changes the two fields it is noted in. -/
theorem noteLocked_eq (ctx : Ctx) (format : VideoFormat) :
    ctx.noteLocked format = { ctx with
      lastLockedVideoFormat := (ctx.noteLocked format).lastLockedVideoFormat
      ultraOverlayFormat := (ctx.noteLocked format).ultraOverlayFormat } := by
  rw [Ctx.noteLocked]
  split <;> rfl

theorem modesetFormat_avhActive (calls : DauCalls) (format : VideoFormat) (hw : Hw) (ctx : Ctx) :
    (modesetFormat opts dev calls format hw ctx).2.2.avhActive = ctx.avhActive := by
  rw [modesetFormat]
  dsimp only
  split
  · next h => exact applyDrmModeset_owner h
  · next h =>
    split
    · exact (applyDrmModeset_owner rfl).trans (applyDrmModeset_owner h)
    · exact applyDrmModeset_owner h

/-- A notification keeps the owner, and an overlay that is off while the receiver owns the
output. -/
theorem dauSetVideoFormat_flags (calls : DauCalls) (format : Option VideoFormat) (hw : Hw)
    (ctx : Ctx) :
    (dauSetVideoFormat opts dev calls format hw ctx).2.2.avhActive = ctx.avhActive ∧
    (ctx.avhActive = true → ctx.overlayActive = false →
      (dauSetVideoFormat opts dev calls format hw ctx).2.2.overlayActive = false) := by
  cases format with
  | none => exact ⟨rfl, fun _ h => h⟩
  | some format =>
      rw [dauSetVideoFormat]
      dsimp only
      split
      · generalize happly : applyDrmModeset _ _ _ _ _ _ _ _ _ _ = r
        obtain ⟨ok, hw', ctx'⟩ := r
        have howner := applyDrmModeset_owner happly
        have hdummy := applyDrmModeset_dummy happly
        exact ⟨howner, fun _ hoff => hdummy (Or.inr hoff)⟩
      rw [noteLocked_eq]
      split
      · exact ⟨rfl, fun _ h => h⟩
      · next hultra =>
        have hno : ctx.avhActive ≠ true := hultra
        split
        · exact ⟨rfl, fun h => absurd h hno⟩
        split
        · exact ⟨rfl, fun h => absurd h hno⟩
        · exact ⟨modesetFormat_avhActive opts dev _ _ _ _, fun h => absurd h hno⟩

/-- A connector event keeps the owner, and everything else while the receiver owns the output. -/
theorem hotplug_flags (calls : HotplugCalls) (hw : Hw) (ctx : Ctx) :
    (hotplug opts dev calls hw ctx).2.avhActive = ctx.avhActive ∧
    (ctx.avhActive = true → (hotplug opts dev calls hw ctx).1 = hw ∧
      (hotplug opts dev calls hw ctx).2 = { ctx with
        lastConnectorConnected := (hotplug opts dev calls hw ctx).2.lastConnectorConnected
        haveLastConnectorState := (hotplug opts dev calls hw ctx).2.haveLastConnectorState
        hotplugEvents := (hotplug opts dev calls hw ctx).2.hotplugEvents }) := by
  rw [hotplug]
  dsimp only
  split
  · exact ⟨rfl, fun _ => ⟨rfl, rfl⟩⟩
  · split
    · next hcond =>
      generalize happly : applyDrmModeset _ _ _ _ _ _ _ _ _ _ = r
      obtain ⟨ok, hw', ctx'⟩ := r
      have howner := applyDrmModeset_owner happly
      exact ⟨howner, fun havh => by simp [havh] at hcond⟩
    · exact ⟨rfl, fun _ => ⟨rfl, rfl⟩⟩

/-- A poll touches the watchdog's fields of the context, and nothing else of it. -/
theorem pollSdiResync_ctx (now : Nat) (status : UInt32) (calls : ResetCalls) (hw : Hw) (ctx : Ctx) :
    (pollSdiResync dev now status calls hw ctx).2.2 = { ctx with
      sdiLastStatus := (pollSdiResync dev now status calls hw ctx).2.2.sdiLastStatus
      sdiResync := (pollSdiResync dev now status calls hw ctx).2.2.sdiResync } := by
  rw [pollSdiResync]
  split
  · rfl
  dsimp only
  split
  · rfl
  · rfl

/-- An output that is not the context's is not eligible for a reset. -/
theorem observe_ineligible {H : Type} (L : Resync.Limiter H) (p : Resync.Policy H) (now : Nat)
    (status : UInt32) : (Resync.observe L p now status false).2 = false := by
  rw [Resync.observe]
  split
  · rfl
  · dsimp only
    rw [if_pos (by simp [Resync.restarts, Resync.suspect])]

/-- A poll leaves the hardware alone while the receiver owns the output. -/
theorem pollSdiResync_avh (now : Nat) (status : UInt32) (calls : ResetCalls) (hw : Hw) {ctx : Ctx}
    (havh : ctx.avhActive = true) : (pollSdiResync dev now status calls hw ctx).2.1 = hw := by
  refine (pollSdiResync_spec dev now status calls hw ctx).1 ?_
  rw [pollSdiResync]
  split
  · rfl
  dsimp only
  rw [havh, Bool.not_true, Bool.and_false]
  have hno := observe_ineligible Resync.ring ctx.sdiResync now status
  split
  · rfl
  · next h => rw [h] at hno; cases hno

end Handlers

/-! ## The invariant -/

/-- **The output has one owner**, and the other side is off. -/
structure Owned (s : State) : Prop where
  decoding : Decoding s.avh
  ultra : s.ctx.avhActive = false → Detached s.avh
  avh : s.ctx.avhActive = true → Attached s.avh ∧ s.ctx.overlayActive = false

section Arbitration

variable {opts : Options} {dev : Device} {s : State}

theorem restoreUltraOutput_owner {calls : ModesetCalls} {hw hw' : Hw} {ctx ctx' : Ctx} {ok : Bool}
    (h : restoreUltraOutput opts dev calls hw ctx = (ok, hw', ctx')) :
    ctx'.avhActive = ctx.avhActive :=
  applyDrmModeset_owner h

/-- Threads of a receiver that is not shown keep the invariant, the context and the hardware. -/
theorem threads_owned (h : Owned s) (hultra : s.ctx.avhActive = false) (es : List AvhEvent) :
    Owned (s.threads opts dev es) ∧ (s.threads opts dev es).hw = s.hw ∧
      (s.avh.vdecStarted = true → (s.threads opts dev es).avh.vdecStarted = true) := by
  have hdet := h.ultra hultra
  obtain ⟨hhw, hsame⟩ := @steps_hidden opts dev (s.hw, s.avh) hdet.display es
  obtain ⟨hd, hkeep⟩ := @steps_decoding opts dev (s.hw, s.avh) hdet.display h.decoding es
  refine ⟨⟨hd, fun _ => hdet.of_decoder hsame, fun havh => ?_⟩, hhw, hkeep⟩
  rw [show (s.threads opts dev es).ctx = s.ctx from rfl, hultra] at havh
  cases havh

theorem threads_hidden (hd : Decoding s.avh) (hh : Hidden opts s.avh) (es : List AvhEvent) :
    Decoding (s.threads opts dev es).avh ∧ Hidden opts (s.threads opts dev es).avh :=
  ⟨(@steps_decoding opts dev (s.hw, s.avh) hh.display hd es).1,
    hh.of_decoder (@steps_hidden opts dev (s.hw, s.avh) hh.display es).2⟩

theorem threads_up (hs : s.avh.vdecStarted = true) (hi : s.avh.init = .idle)
    (es : List AvhEvent) : (s.threads opts dev es).avh.vdecStarted = true ∧
      (s.threads opts dev es).avh.init = .idle :=
  @steps_up opts dev (s.hw, s.avh) hs hi es

theorem noteFlow_owned (h : Owned s) (calls : ArbitrateCalls) (flow : Bool) :
    Owned (noteFlow opts dev calls flow s) ∧
      (noteFlow opts dev calls flow s).ctx = s.ctx ∧
      (noteFlow opts dev calls flow s).hw = s.hw := by
  rw [noteFlow]
  split
  · exact ⟨⟨h.decoding, h.ultra, h.avh⟩, rfl, rfl⟩
  split
  · next hcond =>
    have hultra : s.ctx.avhActive = false := by
      cases hs : s.ctx.avhActive with
      | false => rfl
      | true => simp [hs] at hcond
    obtain ⟨h', hhw, -⟩ := @threads_owned opts dev s h hultra calls.gaps.beforeCount
    exact ⟨⟨h'.decoding, h'.ultra, h'.avh⟩, rfl, hhw⟩
  · exact ⟨h, rfl, rfl⟩

/-- A takeover is tried only by a decoder that is up. -/
theorem frameReady_owned (h : Owned s) (calls : ArbitrateCalls) (flow : Bool) :
    Owned (frameReady opts dev calls flow s).2 ∧
    (frameReady opts dev calls flow s).2.ctx = s.ctx ∧
    (frameReady opts dev calls flow s).2.hw = s.hw ∧
    ((frameReady opts dev calls flow s).1 = true → s.ctx.avhActive = false ∧
      (frameReady opts dev calls flow s).2.avh.vdecStarted = true ∧
      (frameReady opts dev calls flow s).2.avh.init = .idle) := by
  rw [frameReady]
  split
  · exact ⟨h, rfl, rfl, fun hf => by cases hf⟩
  next hcond =>
  have hultra : s.ctx.avhActive = false := by
    cases hs : s.ctx.avhActive with
    | false => rfl
    | true => simp [hs] at hcond
  obtain ⟨h₁, hhw₁, -⟩ := @threads_owned opts dev s h hultra calls.gaps.beforeFrame
  dsimp only
  split
  · exact ⟨h₁, rfl, hhw₁, fun hf => by cases hf⟩
  next hframe =>
  obtain ⟨h₂, hhw₂, hkeep⟩ := @threads_owned opts dev _ h₁ hultra calls.gaps.beforeIdle
  refine ⟨h₂, rfl, hhw₂.trans hhw₁, fun hup => ⟨hultra, hkeep (h₁.decoding.decoded (by omega)), ?_⟩⟩
  simpa [Avh.decoderInitializing] using hup

/-- Giving up a takeover leaves the output to the context, and blocks the next try. -/
theorem abandon_owned (hd : Decoding s.avh) (hh : Hidden opts s.avh)
    (hultra : s.ctx.avhActive = false) (calls : ArbitrateCalls) :
    Owned (abandon opts dev calls s) ∧ (abandon opts dev calls s).ctx.avhActive = false ∧
      (abandon opts dev calls s).avhRetryBlocked = true ∧
      (abandon opts dev calls s).avhPending = false := by
  obtain ⟨hdet, hsame⟩ := @stopDrmOutput_spec opts dev s.avh hh calls.stop s.hw
  rw [abandon]
  generalize stopDrmOutput opts dev calls.stop s.hw s.avh = r at hdet hsame
  obtain ⟨hw₁, avh₁⟩ := r
  dsimp only
  generalize selectHdmiAudioRoute opts.sdi 1 calls.route hw₁ = r
  obtain ⟨ok, hw₂⟩ := r
  generalize hrestore : restoreUltraOutput opts dev calls.restore hw₂ s.ctx = r
  obtain ⟨ok', hw₃, ctx₃⟩ := r
  have howner : ctx₃.avhActive = false := (restoreUltraOutput_owner hrestore).trans hultra
  refine ⟨⟨hd.of_output hsame, fun _ => hdet, fun havh => ?_⟩, howner, rfl, rfl⟩
  rw [show ctx₃.avhActive = true from havh] at howner
  cases howner

/-- **A takeover** ends with the receiver as owner, or is given up. -/
theorem takeover_owned (h : Owned s) (hultra : s.ctx.avhActive = false)
    (hs : s.avh.vdecStarted = true) (hi : s.avh.init = .idle) (calls : ArbitrateCalls) :
    Owned (takeover opts dev calls s) ∧ ((takeover opts dev calls s).ctx.avhActive = true ∨
      ((takeover opts dev calls s).avhRetryBlocked = true ∧
        (takeover opts dev calls s).avhPending = false)) := by
  have hgive : ∀ s' : State, Decoding s'.avh → Hidden opts s'.avh → s'.ctx.avhActive = false →
      Owned (abandon opts dev calls s') ∧ ((abandon opts dev calls s').ctx.avhActive = true ∨
        ((abandon opts dev calls s').avhRetryBlocked = true ∧
          (abandon opts dev calls s').avhPending = false)) := by
    intro s' hd hh hu
    obtain ⟨howned, -, hblocked, hpending⟩ := @abandon_owned opts dev s' hd hh hu calls
    exact ⟨howned, Or.inr ⟨hblocked, hpending⟩⟩
  have hdet := h.ultra hultra
  rw [takeover]
  dsimp only
  split
  · next hw₁ ctx₁ happly =>
    exact hgive _ h.decoding hdet.hidden ((applyDrmModeset_owner happly).trans hultra)
  next hw₁ ctx₁ happly =>
  have hultra₁ : ctx₁.avhActive = false := (applyDrmModeset_owner happly).trans hultra
  have hoff₁ : ctx₁.overlayActive = false := applyDrmModeset_dummy happly (Or.inl rfl)
  -- The output starts; the decoder stays up from here on.
  set s₁ : State := { s with hw := hw₁, ctx := ctx₁ }
  have howned₁ : Owned s₁ := ⟨h.decoding, fun _ => hdet, fun havh => by
    rw [show s₁.ctx.avhActive = false from hultra₁] at havh; cases havh⟩
  obtain ⟨howned₂, -⟩ := @threads_owned opts dev s₁ howned₁ hultra₁ calls.gaps.beforeOutput
  obtain ⟨hs₂, hi₂⟩ := @threads_up opts dev s₁ hs hi calls.gaps.beforeOutput
  have hctx₂ : (s₁.threads opts dev calls.gaps.beforeOutput).ctx = ctx₁ := rfl
  generalize s₁.threads opts dev calls.gaps.beforeOutput = s₂ at howned₂ hs₂ hi₂ hctx₂ ⊢
  have hultra₂ : s₂.ctx.avhActive = false := hctx₂ ▸ hultra₁
  obtain ⟨hsame₃, hhid₃, -⟩ := @startDrmOutput_spec opts dev s₂.avh (howned₂.ultra hultra₂)
    calls.output s₂.hw
  generalize startDrmOutput opts dev calls.output s₂.hw s₂.avh = r at hsame₃ hhid₃ ⊢
  obtain ⟨ok, hw₃, avh₃⟩ := r
  have hd₃ : Decoding avh₃ := howned₂.decoding.of_output hsame₃
  have hs₃ : avh₃.vdecStarted = true := by
    rw [show avh₃ = avh₃.withDecoder s₂.avh from hsame₃]; exact hs₂
  have hi₃ : avh₃.init = .idle := by
    rw [show avh₃ = avh₃.withDecoder s₂.avh from hsame₃]; exact hi₂
  cases ok with
  | false => exact hgive _ hd₃ hhid₃ hultra₂
  | true =>
  dsimp only
  set s₃ : State := { s₂ with hw := hw₃, avh := avh₃ }
  obtain ⟨hd₄, hhid₄⟩ := @threads_hidden opts dev s₃ hd₃ hhid₃ calls.gaps.beforeRecheck
  obtain ⟨hs₄, hi₄⟩ := @threads_up opts dev s₃ hs₃ hi₃ calls.gaps.beforeRecheck
  have hctx₄ : (s₃.threads opts dev calls.gaps.beforeRecheck).ctx = ctx₁ := hctx₂
  generalize s₃.threads opts dev calls.gaps.beforeRecheck = s₄ at hd₄ hhid₄ hs₄ hi₄ hctx₄ ⊢
  have hultra₄ : s₄.ctx.avhActive = false := hctx₄ ▸ hultra₁
  split
  · exact hgive s₄ hd₄ hhid₄ hultra₄
  obtain ⟨work, hsink | hsink⟩ := startVdecSink_spec hhid₄.sinkStarted calls.sink s₄.hw
  · rw [hsink]
    exact hgive _ hd₄ hhid₄ hultra₄
  rw [hsink]
  dsimp only
  rw [handOver]
  dsimp only
  rw [startHdmiAudioSink_eq]
  refine ⟨⟨⟨hd₄.decoded, hd₄.started⟩, nofun, fun _ =>
    ⟨⟨rfl, rfl, rfl, hs₄, hi₄, hhid₄.inactive⟩, ?_⟩⟩, Or.inl rfl⟩
  exact hctx₄ ▸ hoff₁

/-- **The way back** ends with the context as owner. -/
theorem giveBack_owned (h : Owned s) (havh : s.ctx.avhActive = true) (calls : ArbitrateCalls) :
    Owned (giveBack opts dev calls s) ∧ (giveBack opts dev calls s).ctx.avhActive = false := by
  obtain ⟨hatt, -⟩ := h.avh havh
  rw [giveBack]
  dsimp only
  -- What is left of the receiver once its PCM, its display and its sink are off.
  set avh₀ : Avh := { (if opts.sdi then stopHdmiAudioSink s.avh else s.avh) with
    displayEnabled := false } with havh₀
  have hoff : Hidden opts (stopHdmiAudioSink { avh₀ with
        vdecSink := false, vdecSinkStarted := false }) ∧
      Decoding (stopHdmiAudioSink { avh₀ with vdecSink := false, vdecSinkStarted := false }) := by
    rw [havh₀]
    split
    · exact ⟨⟨rfl, rfl, rfl, hatt.inactive, fun _ => ⟨rfl, rfl⟩⟩,
        ⟨h.decoding.decoded, h.decoding.started⟩⟩
    · exact ⟨⟨rfl, rfl, rfl, hatt.inactive, fun _ => ⟨rfl, rfl⟩⟩,
        ⟨h.decoding.decoded, h.decoding.started⟩⟩
  generalize applyDrmModeset _ _ _ _ _ _ _ _ _ _ = r
  obtain ⟨ok₁, hw₁, ctx₁⟩ := r
  dsimp only
  have hsink : avh₀.vdecSink = true := by
    rw [havh₀]
    split
    · exact hatt.sink
    · exact hatt.sink
  rw [deleteVdecSink, if_pos hsink]
  dsimp only
  generalize Hw.sinkWork calls.sinkStop hw₁ = hw₁
  generalize stopHdmiAudioSink _ = avh₁ at hoff ⊢
  obtain ⟨hhid, hd⟩ := hoff
  obtain ⟨hdet, hsame⟩ := @stopDrmOutput_spec opts dev avh₁ hhid calls.stop hw₁
  generalize stopDrmOutput opts dev calls.stop hw₁ avh₁ = r at hdet hsame
  obtain ⟨hw₂, avh₂⟩ := r
  dsimp only
  generalize selectHdmiAudioRoute opts.sdi 1 calls.route hw₂ = r
  obtain ⟨ok₃, hw₃⟩ := r
  dsimp only
  generalize hrestore : restoreUltraOutput opts dev calls.restore hw₃
    { ctx₁ with avhActive := false } = r
  obtain ⟨ok₄, hw₄, ctx₄⟩ := r
  have howner : ctx₄.avhActive = false := restoreUltraOutput_owner hrestore
  refine ⟨⟨hd.of_output hsame, fun _ => hdet, fun havh => ?_⟩, howner⟩
  rw [show ctx₄.avhActive = true from havh] at howner
  cases howner

theorem arbitrate_owned (h : Owned s) (calls : ArbitrateCalls) :
    Owned (arbitrate opts dev calls s).2 := by
  rw [arbitrate]
  dsimp only
  generalize (s.avh.autoFlowCount != 0) = flow
  obtain ⟨h₁, -⟩ := @noteFlow_owned opts dev s h calls flow
  obtain ⟨h₂, hctx, -, hup⟩ := @frameReady_owned opts dev _ h₁ calls flow
  generalize frameReady opts dev calls flow (noteFlow opts dev calls flow s) = r at h₂ hctx hup ⊢
  obtain ⟨ready, s₂⟩ := r
  dsimp only at hctx hup ⊢
  have h₃ : Owned (if ready then takeover opts dev calls s₂ else s₂) := by
    split
    · next hready =>
      obtain ⟨hultra, hs, hi⟩ := hup hready
      exact (takeover_owned h₂ (hctx ▸ hultra) hs hi calls).1
    · exact h₂
  generalize (if ready then takeover opts dev calls s₂ else s₂) = s₃ at h₃ ⊢
  split
  · next hgone =>
    rw [Bool.and_eq_true] at hgone
    exact (giveBack_owned h₃ hgone.2 calls).1
  · exact h₃

/-- Every event keeps the invariant. -/
theorem step_owned (h : Owned s) (e : Event) : Owned ((receiver opts dev).step s e).1 := by
  cases e with
  | avh e =>
      -- the threads of AVH run in auto mode only
      show Owned (if opts.autoMode then s.threads opts dev [e] else s)
      split
      · cases hs : s.ctx.avhActive with
        | false => exact (@threads_owned opts dev s h hs [e]).1
        | true =>
            obtain ⟨hatt, hoff⟩ := h.avh hs
            have hatt' := @step_attached opts dev (s.hw, s.avh) hatt e
            refine ⟨⟨fun _ => hatt'.decoder, fun _ => Or.inr hatt'.idle⟩, fun hf => ?_,
              fun _ => ⟨hatt', hoff⟩⟩
            rw [show s.ctx.avhActive = false from hf] at hs
            cases hs
      · exact h
  | arbitrate calls =>
      simp only [receiver]
      split
      · exact arbitrate_owned h calls
      · exact h
  | dau calls format =>
      obtain ⟨howner, hoff⟩ := dauSetVideoFormat_flags opts dev calls (some format) s.hw s.ctx
      exact ⟨h.decoding, fun hu => h.ultra (howner ▸ hu), fun ha =>
        ⟨(h.avh (howner ▸ ha)).1, hoff (howner ▸ ha) (h.avh (howner ▸ ha)).2⟩⟩
  | hotplug calls =>
      simp only [receiver]
      split
      · exact h
      · obtain ⟨howner, hkeep⟩ := hotplug_flags opts dev calls s.hw s.ctx
        refine ⟨h.decoding, fun hu => h.ultra (howner ▸ hu), fun ha => ?_⟩
        replace ha : s.ctx.avhActive = true := howner ▸ ha
        refine ⟨(h.avh ha).1, ?_⟩
        show (hotplug opts dev calls s.hw s.ctx).2.overlayActive = false
        rw [(hkeep ha).2]
        exact (h.avh ha).2
  | resync now status calls =>
      have hctx := pollSdiResync_ctx dev now status calls s.hw s.ctx
      have howner := congrArg Ctx.avhActive hctx
      have hoverlay := congrArg Ctx.overlayActive hctx
      exact ⟨h.decoding, fun hu => h.ultra (howner ▸ hu), fun ha =>
        ⟨(h.avh (howner ▸ ha)).1, hoverlay.trans (h.avh (howner ▸ ha)).2⟩⟩

theorem startup_owned {calls : StartupCalls} (hs : Started opts dev calls s) : Owned s := by
  obtain ⟨_, _, _, _, _, _, _, _, hw', ctx', -, -, -, happly, rfl⟩ := hs.cases
  have howner : ctx'.avhActive = false := applyDrmModeset_owner happly
  refine ⟨⟨nofun, nofun⟩, fun _ => ⟨rfl, rfl, rfl, rfl, rfl, rfl, rfl⟩, fun h => ?_⟩
  rw [show ctx'.avhActive = true from h] at howner
  cases howner

theorem reachable_owned (hs : Reachable opts dev s) : Owned s :=
  hs.inv opts dev (fun _ _ h => startup_owned h) fun _ e h => step_owned h e

/-! ## Takeovers -/

/-- The receiver owns the output, or a failed takeover blocks the next one. -/
def Settled (s : State) : Prop :=
  s.ctx.avhActive = true ∨ (s.avhRetryBlocked = true ∧ s.avhPending = false)

/-- The output shows a takeover that was tried. -/
def Output.tried : Output → Bool
  | .arbitrated _ tried => tried
  | _ => false

/-- The output shows an arbitration that saw no flow. -/
def Output.gone : Output → Bool
  | .arbitrated flow _ => !flow
  | _ => false

/-- While there is a flow, a settled loop tries nothing and stays settled. -/
theorem arbitrate_settled (h : Settled s) (hflow : (s.avh.autoFlowCount != 0) = true)
    (calls : ArbitrateCalls) : (arbitrate opts dev calls s).1 = false ∧
      Settled (arbitrate opts dev calls s).2 := by
  have hnote : noteFlow opts dev calls true s = s := by
    rw [noteFlow, if_neg (by simp), if_neg]
    rcases h with ha | ⟨hb, -⟩
    · simp [ha]
    · simp [hb]
  have hready : frameReady opts dev calls true s = (false, s) := by
    rw [frameReady, if_pos]
    rcases h with ha | ⟨-, hp⟩
    · simp [ha]
    · simp [hp]
  rw [arbitrate, hflow]
  dsimp only
  rw [hnote, hready]
  exact ⟨rfl, h⟩

/-- A takeover that is tried settles the loop. -/
theorem arbitrate_tried (h : Owned s) (calls : ArbitrateCalls)
    (htried : (arbitrate opts dev calls s).1 = true) :
    (s.avh.autoFlowCount != 0) = true → Settled (arbitrate opts dev calls s).2 := by
  intro hflow
  rw [arbitrate] at htried ⊢
  dsimp only at htried ⊢
  rw [hflow] at htried ⊢
  obtain ⟨h₁, -⟩ := @noteFlow_owned opts dev s h calls true
  obtain ⟨h₂, hctx, -, hup⟩ := @frameReady_owned opts dev _ h₁ calls true
  obtain ⟨hultra, hs, hi⟩ := hup htried
  rw [htried]
  exact (takeover_owned h₂ (hctx ▸ hultra) hs hi calls).2

/-- Other events keep a settled loop settled. -/
theorem step_settled (h : Settled s) (e : Event)
    (hflow : ((receiver opts dev).step s e).2.gone = false) :
    ((receiver opts dev).step s e).2.tried = false ∧ Settled ((receiver opts dev).step s e).1 := by
  cases e with
  | avh e =>
      refine ⟨rfl, ?_⟩
      simp only [receiver]
      split
      · exact h
      · exact h
  | arbitrate calls =>
      simp only [receiver] at hflow ⊢
      split
      · next hauto =>
        rw [if_pos hauto] at hflow
        exact arbitrate_settled h (by simpa [Output.gone] using hflow) calls
      · exact ⟨rfl, h⟩
  | dau calls format =>
      refine ⟨rfl, h.imp (fun ha => ?_) id⟩
      exact (dauSetVideoFormat_flags opts dev calls (some format) s.hw s.ctx).1.trans ha
  | hotplug calls =>
      simp only [receiver]
      split
      · exact ⟨rfl, h⟩
      · exact ⟨rfl, h.imp (fun ha => (hotplug_flags opts dev calls s.hw s.ctx).1.trans ha) id⟩
  | resync now status calls =>
      refine ⟨rfl, h.imp (fun ha => ?_) id⟩
      exact (congrArg Ctx.avhActive (pollSdiResync_ctx dev now status calls s.hw s.ctx)).trans ha

theorem outputs_settled (es : List Event) (h : Settled s)
    (hflow : ∀ o ∈ (receiver opts dev).outputs s es, o.gone = false) :
    ((receiver opts dev).outputs s es).countP Output.tried = 0 := by
  induction es generalizing s with
  | nil => rfl
  | cons e es ih =>
      rw [Machine.outputs] at hflow ⊢
      obtain ⟨htried, hsettled⟩ := step_settled h e (hflow _ List.mem_cons_self)
      rw [List.countP_cons, ih hsettled fun o ho => hflow o (List.mem_cons_of_mem _ ho), htried]
      rfl

/-- While there is a flow, a takeover is tried at most once. -/
theorem outputs_tried_le_one (es : List Event) (h : Owned s)
    (hflow : ∀ o ∈ (receiver opts dev).outputs s es, o.gone = false) :
    ((receiver opts dev).outputs s es).countP Output.tried ≤ 1 := by
  induction es generalizing s with
  | nil => exact Nat.zero_le _
  | cons e es ih =>
      rw [Machine.outputs] at hflow ⊢
      have hrest := fun o ho => hflow o (List.mem_cons_of_mem _ ho)
      rw [List.countP_cons]
      cases htried : ((receiver opts dev).step s e).2.tried with
      | false => exact ih (step_owned h e) hrest
      | true =>
          have hsettled : Settled ((receiver opts dev).step s e).1 := by
            cases e with
            | arbitrate calls =>
                have hgone := hflow _ List.mem_cons_self
                simp only [receiver] at htried hgone ⊢
                split at htried
                · next hauto =>
                  rw [if_pos hauto] at hgone ⊢
                  exact arbitrate_tried h calls htried (by simpa [Output.gone] using hgone)
                · cases htried
            | hotplug calls =>
                simp only [receiver] at htried
                split at htried <;> cases htried
            | avh | dau | resync => cases htried
          rw [outputs_settled es hsettled hrest]
          exact le_refl _

/-- **One source at a time.** In every reachable state, the receiver owns the output, its display is
on, its sink is started and the overlay is off; or it does not, and shows nothing, holds no output
and plays nothing. In every further run whose arbitrations all see a flow, a takeover is tried at
most once. -/
theorem auto_exclusive (hs : Reachable opts dev s) :
    (s.ctx.avhActive = true → s.ctx.overlayActive = false ∧ s.avh.displayEnabled = true ∧
      s.avh.vdecSink = true ∧ s.avh.vdecSinkStarted = true) ∧
    (s.ctx.avhActive = false → s.avh.displayEnabled = false ∧ s.avh.vdecSink = false ∧
      s.avh.drmOpen = false ∧ s.avh.drmModesetActive = false ∧ s.avh.audioPcm = false ∧
      s.avh.audioPcmStarted = false) ∧
    ∀ es, (∀ o ∈ (receiver opts dev).outputs s es, o.gone = false) →
      ((receiver opts dev).outputs s es).countP Output.tried ≤ 1 := by
  have h := reachable_owned hs
  refine ⟨fun ha => ?_, fun hu => ?_, fun es => outputs_tried_le_one es h⟩
  · obtain ⟨hatt, hoff⟩ := h.avh ha
    exact ⟨hoff, hatt.display, hatt.sink, hatt.sinkStarted⟩
  · have hdet := h.ultra hu
    exact ⟨hdet.display, hdet.sink, hdet.closed, hdet.inactive, hdet.pcm, hdet.pcmStarted⟩

end Arbitration

theorem auto_exclusive_takeover :
    let s := (receiver (sdiOptions true) board).run (boardState (sdiOptions true)) takeoverRun
    s.ctx.avhActive = true ∧ s.ctx.overlayActive = false ∧ s.avh.displayEnabled = true ∧
      s.avh.vdecSink = true ∧ s.avh.vdecSinkStarted = true := by
  have havh : ((receiver (sdiOptions true) board).run (boardState (sdiOptions true))
    takeoverRun).ctx.avhActive = true := by decide +kernel
  exact ⟨havh, (auto_exclusive ⟨_, _, takeoverRun, boardState_started (by decide +kernel), rfl⟩).1
    havh⟩

end QcapDemos.Rx
