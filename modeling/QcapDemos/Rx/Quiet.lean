import QcapDemos.Rx.Ownership

set_option autoImplicit false

/-! # The receiver's picture is left alone

While the AVH receiver owns the output, a notification, a connector event or a poll should be
recorded and nothing else. Two of the three handlers look at the owner first. The handler of
notifications compares an SDI stream with the configured contract before that, and answers a
stream outside of it with a modeset to DUMMY: `undisturbed_iff` says exactly when the picture
is disturbed.
-/

namespace QcapDemos.Rx

open QcapDemos.Drm QcapDemos.Alsa QcapDemos.Lib

/-! ## A modeset leaves a trace -/

section History

variable (dev : Device)

theorem length_createDumbFb (format : PixelFormat) (calls : Hw.FbCalls) (hw : Hw) :
    hw.ledger.events.length
      ≤ (hw.createDumbFb dev .modeset format calls).2.ledger.events.length := by
  rw [Hw.createDumbFb]
  rcases Hw.createDumb_cases .modeset calls.dumb hw with ⟨-, h⟩ | ⟨bo, -, -, h⟩
  · rw [h]
  rw [h]
  dsimp only
  rcases Hw.addFb_cases dev .modeset format bo calls.addFb (hw.create ⟨.modeset, .bo bo⟩) with
    ⟨-, h⟩ | ⟨fb, -, -, -, h⟩
  · rw [h]
    simp only [Hw.destroyDumb, Hw.destroy, Hw.create, Ledger.length_destroy, Ledger.length_create]
    omega
  · rw [h]
    simp only [Hw.create, Ledger.length_create]
    omega

theorem length_destroyDumbFb (fb bo : Nat) (hw : Hw) :
    hw.ledger.events.length
      ≤ (hw.destroyDumbFb dev .modeset fb bo).ledger.events.length := by
  rw [Hw.destroyDumbFb]
  have hrm : hw.ledger.events.length
      ≤ (if fb ≠ 0 then hw.rmFb dev .modeset fb else hw).ledger.events.length := by
    split
    · simp only [Hw.rmFb, Hw.destroy, Ledger.length_destroy]
      omega
    · exact le_refl _
  split
  · simp only [Hw.destroyDumb, Hw.destroy, Ledger.length_destroy]
    omega
  · exact hrm

theorem length_destroyObjects (objs : Objects) (hw : Hw) :
    hw.ledger.events.length ≤ (destroyObjects dev objs hw).ledger.events.length := by
  have hdumb : hw.ledger.events.length ≤ ((hw.destroyDumbFb dev .modeset objs.primaryFb
      objs.primaryBo).destroyDumbFb dev .modeset objs.overlayFb objs.overlayBo).ledger.events.length :=
    (length_destroyDumbFb dev _ _ _).trans (length_destroyDumbFb dev _ _ _)
  rw [destroyObjects]
  split
  · simp only [Hw.destroyBlob, Hw.destroy, Ledger.length_destroy]
    omega
  · exact hdumb

/-- Where the mode blob is created, the history grows. -/
theorem length_createObjects {calls : ModesetCalls} (hblob : calls.blob ≠ none) (mode : ModeInfo)
    (enableOverlay : Bool) (format : PixelFormat) (hw : Hw) :
    hw.ledger.events.length
      < (createObjects dev calls mode enableOverlay format hw).2.ledger.events.length := by
  rw [createObjects]
  rcases Hw.createBlob_cases dev .modeset mode calls.blob hw with ⟨h, -⟩ | ⟨blob, -, -, -, h⟩
  · exact absurd h hblob
  rw [h]
  dsimp only
  set hw₁ : Hw := { hw.create ⟨.modeset, .blob blob⟩ with
    blobMode := Function.update hw.blobMode blob mode }
  have h₁ : hw.ledger.events.length < hw₁.ledger.events.length := by simp [hw₁, Hw.create]
  have h₂ := length_createDumbFb dev .bgr888 calls.primary hw₁
  generalize hw₁.createDumbFb dev .modeset .bgr888 calls.primary = r at h₂ ⊢
  obtain ⟨primary, hw₂⟩ := r
  cases primary with
  | none =>
      dsimp only at h₂
      simp only [Hw.destroyBlob, Hw.destroy, Ledger.length_destroy]
      omega
  | some primary =>
  dsimp only at h₂ ⊢
  split
  · exact h₁.trans_le h₂
  have h₃ := length_createDumbFb dev format calls.overlay hw₂
  generalize hw₂.createDumbFb dev .modeset format calls.overlay = r at h₃ ⊢
  obtain ⟨overlay, hw₃⟩ := r
  cases overlay with
  | none => exact h₁.trans_le (h₂.trans h₃)
  | some overlay => exact h₁.trans_le (h₂.trans h₃)

variable (opts : Options)

theorem commitModeset_ledger (calls : ModesetCalls) (plan : Plan) (width height : Nat)
    (objs : Objects) (overlay : Bool) (hw : Hw) :
    (commitModeset opts dev calls plan width height objs overlay hw).2.ledger = hw.ledger := by
  rcases commitModeset_cases dev opts calls plan width height objs overlay hw with
    ⟨b, cs, h, -⟩ | ⟨b, extra, h, -⟩
  · rw [h]
  · rw [h]; rfl

/-- **A modeset that is planned and gets a mode blob** is seen in the history, however it ends. -/
theorem length_applyDrmModeset {calls : ModesetCalls} {width height : Nat} {fps : ℚ} {plan : Plan}
    (hplan : planModeset dev.arithmetic opts.sdi calls.connector width height fps = some plan)
    (hblob : calls.blob ≠ none) (enableOverlay : Bool) (format : PixelFormat) (hw : Hw) (ctx : Ctx) :
    hw.ledger.events.length < (applyDrmModeset opts dev calls width height fps enableOverlay format
      hw ctx).2.1.ledger.events.length := by
  have hvideo : hw.ledger.events.length < (applyVideo opts dev calls width height fps enableOverlay
      format hw ctx).2.1.ledger.events.length := by
    -- the blob is in the history, and nothing takes it out again
    rw [applyVideo, hplan]
    dsimp only
    have h₁ := length_createObjects dev hblob plan.mode enableOverlay format hw
    generalize createObjects dev calls plan.mode enableOverlay format hw = r at h₁ ⊢
    obtain ⟨created, hw₁⟩ := r
    cases created with
    | none => exact h₁
    | some created =>
    obtain ⟨objs, overlay⟩ := created
    dsimp only at h₁ ⊢
    split
    · exact h₁.trans_le (length_destroyObjects dev objs hw₁)
    have h₂ := commitModeset_ledger dev opts calls plan width height objs overlay hw₁
    generalize commitModeset opts dev calls plan width height objs overlay hw₁ = r at h₂ ⊢
    obtain ⟨ok, hw₂⟩ := r
    dsimp only at h₂
    rw [← h₂] at h₁
    cases ok with
    | false => exact h₁.trans_le (length_destroyObjects dev objs hw₂)
    | true => exact h₁.trans_le (length_destroyObjects dev ctx.objects hw₂)
  rw [applyDrmModeset]
  generalize applyVideo opts dev calls width height fps enableOverlay format hw ctx = r at hvideo ⊢
  obtain ⟨overlay, hw₁, ctx₁⟩ := r
  cases overlay with
  | none => exact hvideo
  | some overlay =>
      dsimp only at hvideo ⊢
      split
      · obtain ⟨b, heq, -⟩ := setSdiFpgaPassthrough_spec opts.sdi true calls.enable hw₁
        generalize setSdiFpgaPassthrough opts.sdi true calls.enable hw₁ = r at heq ⊢
        obtain ⟨on, hw₂⟩ := r
        subst heq
        exact hvideo
      · exact hvideo

/-- A modeset without a plan or without a mode blob changes nothing. -/
theorem applyDrmModeset_unplanned {calls : ModesetCalls} {width height : Nat} {fps : ℚ}
    (h : planModeset dev.arithmetic opts.sdi calls.connector width height fps = none ∨
      calls.blob = none) (enableOverlay : Bool) (format : PixelFormat) (hw : Hw) (ctx : Ctx) :
    applyDrmModeset opts dev calls width height fps enableOverlay format hw ctx
      = (false, hw, ctx) := by
  rw [applyDrmModeset, applyVideo]
  cases hplan : planModeset dev.arithmetic opts.sdi calls.connector width height fps with
  | none => rfl
  | some plan =>
      have hblob := h.resolve_left (by rw [hplan]; simp)
      have hcreate : createObjects dev calls plan.mode enableOverlay format hw = (none, hw) := by
        rw [createObjects, hblob]
        rfl
      dsimp only
      rw [hcreate]

end History

/-! ## What disturbs the picture -/

/-- A notification, a connector event or a poll. -/
def Event.outside : Event → Bool
  | .dau _ _ | .hotplug _ | .resync _ _ _ => true
  | .avh _ | .arbitrate _ => false

/-- The context with the recorded formats, connector state and samples of another one. -/
def Ctx.withRecord (ctx r : Ctx) : Ctx :=
  { ctx with
    currentVideoFormat := r.currentVideoFormat
    lastLockedVideoFormat := r.lastLockedVideoFormat
    ultraOverlayFormat := r.ultraOverlayFormat
    formatChanges := r.formatChanges
    lastConnectorConnected := r.lastConnectorConnected
    haveLastConnectorState := r.haveLastConnectorState
    hotplugEvents := r.hotplugEvents
    sdiLastStatus := r.sdiLastStatus
    sdiResync := r.sdiResync }

/-- Nothing is committed, no object created or destroyed, the embedder not set, and the receiver
not touched: the context makes a record and nothing else. -/
structure Quiet (s s' : State) : Prop where
  commits : s'.hw.commits = s.hw.commits
  objects : s'.hw.ledger = s.hw.ledger
  passthrough : s'.hw.passthrough = s.hw.passthrough
  avh : s'.avh = s.avh
  ctx : s'.ctx = s.ctx.withRecord s'.ctx

section Quiet

variable (opts : Options) (dev : Device)

/-- A stream outside the SDI contract, while the DUMMY output can be planned and gets a mode
blob. -/
def intrudes (ctx : Ctx) : Event → Bool
  | .dau calls format => outsideContract opts ctx format &&
      (planModeset dev.arithmetic opts.sdi calls.reject.connector ctx.fixedWidth ctx.fixedHeight
        ctx.fixedFps).isSome && calls.reject.blob.isSome
  | _ => false

variable {opts dev} {s : State}

theorem Quiet.of_hw {hw' : Hw} {ctx' : Ctx} (hhw : hw' = s.hw)
    (hctx : ctx' = s.ctx.withRecord ctx') : Quiet s { s with hw := hw', ctx := ctx' } :=
  ⟨by rw [hhw], by rw [hhw], by rw [hhw], rfl, hctx⟩

/-- A notification inside the contract is recorded and answered with success. -/
theorem dau_quiet (havh : s.ctx.avhActive = true) (calls : DauCalls) (format : VideoFormat) :
    Quiet s ((receiver opts dev).step s (.dau calls format)).1
      ↔ intrudes opts dev s.ctx (.dau calls format) = false := by
  simp only [receiver, dauSetVideoFormat, intrudes]
  have hsame : outsideContract opts { s.ctx with
      currentVideoFormat := format, formatChanges := s.ctx.formatChanges + 1 } format
    = outsideContract opts s.ctx format := rfl
  rw [hsame]
  cases hout : outsideContract opts s.ctx format with
  | false =>
      rw [if_neg Bool.false_ne_true, noteLocked_eq, if_pos havh]
      exact ⟨fun _ => rfl, fun _ => .of_hw rfl rfl⟩
  | true =>
      rw [if_pos rfl]
      by_cases hplan : planModeset dev.arithmetic opts.sdi calls.reject.connector s.ctx.fixedWidth
          s.ctx.fixedHeight s.ctx.fixedFps = none ∨ calls.reject.blob = none
      · rw [applyDrmModeset_unplanned dev opts hplan]
        refine ⟨fun _ => ?_, fun _ => .of_hw rfl rfl⟩
        rcases hplan with h | h <;> simp [h]
      · rw [not_or] at hplan
        obtain ⟨plan, hsome⟩ := Option.ne_none_iff_exists'.mp hplan.1
        have hgrow := length_applyDrmModeset dev opts hsome hplan.2 false .yuyv s.hw { s.ctx with
          currentVideoFormat := format, formatChanges := s.ctx.formatChanges + 1 }
        refine ⟨fun hquiet => absurd hquiet.objects fun heq => ?_, fun h => ?_⟩
        · rw [← heq] at hgrow
          exact lt_irrefl _ hgrow
        · rw [hsome, Option.isSome_some, Option.isSome_iff_ne_none.mpr hplan.2] at h
          cases h

/-- **An event outside the receiver** is quiet while the receiver owns the output, unless it
intrudes. -/
theorem step_quiet (havh : s.ctx.avhActive = true) {e : Event} (he : e.outside = true) :
    Quiet s ((receiver opts dev).step s e).1 ↔ intrudes opts dev s.ctx e = false := by
  cases e with
  | avh | arbitrate => cases he
  | dau calls format => exact dau_quiet havh calls format
  | hotplug calls =>
      refine ⟨fun _ => rfl, fun _ => ?_⟩
      simp only [receiver]
      split
      · exact .of_hw rfl rfl
      · obtain ⟨hhw, hctx⟩ := (hotplug_flags opts dev calls s.hw s.ctx).2 havh
        generalize hotplug opts dev calls s.hw s.ctx = r at hhw hctx ⊢
        exact .of_hw hhw (by rw [hctx]; rfl)
  | resync now status calls =>
      refine ⟨fun _ => rfl, fun _ => ?_⟩
      simp only [receiver]
      have hhw := pollSdiResync_avh dev now status calls s.hw havh
      have hctx := pollSdiResync_ctx dev now status calls s.hw s.ctx
      generalize pollSdiResync dev now status calls s.hw s.ctx = r at hhw hctx ⊢
      exact .of_hw hhw (by rw [hctx]; rfl)

/-- **The receiver's picture in a run.** Every notification, connector event and poll that comes
while the receiver owns the output is quiet, if and only if none of them is a stream outside the
SDI contract for which the DUMMY output can be planned and gets a mode blob. -/
theorem undisturbed_iff (s₀ : State) (es : List Event) :
    Machine.Admissible (fun p e => ((receiver opts dev).run s₀ p).ctx.avhActive = true →
      e.outside = true →
      Quiet ((receiver opts dev).run s₀ p) ((receiver opts dev).run s₀ (p ++ [e]))) es ↔
    Machine.Admissible (fun p e => ((receiver opts dev).run s₀ p).ctx.avhActive = true →
      e.outside = true → intrudes opts dev ((receiver opts dev).run s₀ p).ctx e = false) es := by
  constructor
  · intro h p e q hes havh he
    have hquiet := h p e q hes havh he
    rw [Machine.run_snoc] at hquiet
    exact (step_quiet havh he).mp hquiet
  · intro h p e q hes havh he
    rw [Machine.run_snoc]
    exact (step_quiet havh he).mpr (h p e q hes havh he)

end Quiet

/-- A locked 720p stream on an SDI output at 1080p60 replaces the receiver's picture (source 2) by
DUMMY (source 0). -/
theorem dau_disturbs_avh :
    let s := (receiver (sdiOptions true) board).run (boardState (sdiOptions true)) takeoverRun
    let s' := ((receiver (sdiOptions true) board).step s
      (.dau .succeed { stream1080 true with width := 1280, height := 720 })).1
    Reachable (sdiOptions true) board s ∧ s.ctx.avhActive = true ∧ ¬ Quiet s s' ∧
      s.hw.config.get (.plane 4) .overlaySource = 2 ∧
      s'.hw.config.get (.plane 4) .overlaySource = 0 := by
  refine ⟨⟨_, _, takeoverRun, boardState_started (by decide +kernel), rfl⟩, by decide +kernel,
    fun hquiet => ?_, by decide +kernel, by decide +kernel⟩
  exact absurd hquiet.commits (by decide +kernel)

end QcapDemos.Rx
