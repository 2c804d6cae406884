import QcapDemos.Rx.Mirror

set_option autoImplicit false

/-! # What a success reply means

A notification of a locked stream that is answered with success was either shown by a modeset, or
found on screen already. The second case is decided from four fields of the context; that they
agree with the display is the mirror, and that the pixel format agrees is `Rgb`: an SDI output only
ever has an RGB overlay.
-/

namespace QcapDemos.Rx

open QcapDemos.Drm QcapDemos.Alsa QcapDemos.Lib

section Reply

variable (opts : Options) (dev : Device)

/-! ## The overlay of an SDI output -/

/-- The overlay of an SDI output is RGB, and the next one will be. -/
structure Rgb (d : Hw × Ctx) : Prop where
  next : opts.sdi = true → d.2.ultraOverlayFormat = .bgr888
  shown : opts.sdi = true → d.2.overlayActive = true →
    d.1.fbFormat d.2.objects.overlayFb = .bgr888

variable {opts dev}

/-- A move that leaves the context and the live framebuffers keeps the overlay's format. -/
theorem Rgb.of_fbs {hw hw' : Hw} {ctx : Ctx} (h : Rgb opts (hw, ctx)) (hm : Mirror dev (hw, ctx))
    (hfbs : ∀ n, ⟨.modeset, .fb n⟩ ∈ hw.ledger.live → hw'.fbFormat n = hw.fbFormat n) :
    Rgb opts (hw', ctx) where
  next := h.next
  shown hsdi hon := by
    have hlive := (hm.kept.live (.fb ctx.objects.overlayFb)).mpr
      ⟨(hm.shown hon).overlay_ne, Or.inr rfl⟩
    exact (hfbs _ hlive).trans (h.shown hsdi hon)

theorem Move.rgb {d d' : Hw × Ctx} (hmove : Move opts dev ModesetCalls.Adds d d')
    (hm : Mirror dev d) (h : Rgb opts d) : Rgb opts d' := by
  cases hmove with
  | note hw hn =>
      refine ⟨fun hsdi => ?_, fun hsdi hon => ?_⟩
      · exact (hn.format hsdi).elim (fun he => he.trans (h.next hsdi)) id
      · have hshown := h.shown hsdi (hn.overlayActive.symm.trans hon)
        rw [← hn.objects] at hshown
        exact hshown
  | @modeset calls hcalls width height fps enableOverlay format hw ctx hformat =>
      generalize happly : applyDrmModeset _ _ _ _ _ _ _ _ _ _ = r
      obtain ⟨ok, hw', ctx'⟩ := r
      rcases (applyDrmModeset_kept hm.kept hcalls happly).2 with ⟨-, rfl, hr⟩ | hd
      · exact h.of_fbs hm fun n hn => (hr.fbs n hn).1
      · refine ⟨fun hsdi => ?_, fun hsdi hon => ?_⟩
        · show ctx'.ultraOverlayFormat = _
          rw [hd.ctx_eq]
          exact h.next hsdi
        · exact (hd.format hon).trans ((hformat (hd.wanted hon)).trans (h.next hsdi))
  | reset hr => exact h.of_fbs hm fun n hn => ((hr.foreign dev).fbs n hn).1
  | audio hw ctx b r => exact ⟨h.next, h.shown⟩
  | receiver hf hoff => exact h.of_fbs hm fun n hn => (hf.fbs n hn).1

theorem Moves.rgb {d d' : Hw × Ctx} (hmoves : Moves opts dev ModesetCalls.Adds d d')
    (hm : Mirror dev d) (h : Rgb opts d) : Mirror dev d' ∧ Rgb opts d' := by
  induction hmoves with
  | refl => exact ⟨hm, h⟩
  | tail _ hmove ih => exact ⟨hmove.mirror ih.1, hmove.rgb ih.1 ih.2⟩

theorem run_rgb {calls : StartupCalls} {s₀ : State} (hs : Started opts dev calls s₀)
    (hadds : calls.modeset.Adds) (es : List Event) (hes : ∀ e ∈ es, e.All ModesetCalls.Adds) :
    Mirror dev ((receiver opts dev).run s₀ es).display ∧
    Rgb opts ((receiver opts dev).run s₀ es).display := by
  obtain ⟨hw, ctx, hledger, hobjs, hoff, hformat, hmoves⟩ := run_moves hs hadds es hes
  have hno : ∀ {P : Prop}, ctx.overlayActive = true → P := fun hon => by
    rw [hon] at hoff; cases hoff
  exact hmoves.rgb ⟨kept_empty hledger hobjs, hno⟩ ⟨fun _ => hformat, fun _ => hno⟩

/-! ## The two ways to a success -/

/-- A locked stream that is answered with success while the context owns the output was on screen
already, on an SDI output, or it is shown by a modeset. -/
theorem dauSetVideoFormat_success {dau : DauCalls} {format : VideoFormat} {hw : Hw} {ctx : Ctx}
    (hlock : format.locked = true) (havh : ctx.avhActive = false)
    (hdone : (dauSetVideoFormat opts dev dau (some format) hw ctx).1 = .success) :
    outsideContract opts ctx format = false ∧ ∃ ctx₁, ctx₁ = Ctx.noteLocked { ctx with
        currentVideoFormat := format, formatChanges := ctx.formatChanges + 1 } format ∧
    ((opts.sdi = true ∧ ctx₁.overlayActive = true ∧
        dauSetVideoFormat opts dev dau (some format) hw ctx = (.success, hw, ctx₁)) ∨
      ∃ width height fps hw' ctx', applyDrmModeset opts dev dau.modeset width height fps true
          ctx₁.ultraOverlayFormat hw ctx₁ = (true, hw', ctx') ∧
        dauSetVideoFormat opts dev dau (some format) hw ctx = (.success, hw', ctx')) := by
  rw [dauSetVideoFormat] at hdone ⊢
  dsimp only at hdone ⊢
  set ctx₀ : Ctx := { ctx with currentVideoFormat := format, formatChanges := ctx.formatChanges + 1 }
  have hsame : outsideContract opts ctx₀ format = outsideContract opts ctx format := rfl
  rw [hsame] at hdone ⊢
  -- a stream outside the contract is answered with an error
  cases hout : outsideContract opts ctx format with
  | true => rw [hout] at hdone; cases hdone
  | false =>
  rw [hout] at hdone
  have havh₁ : (ctx₀.noteLocked format).avhActive = false := by rw [noteLocked_eq]; exact havh
  refine ⟨rfl, ctx₀.noteLocked format, rfl, ?_⟩
  generalize ctx₀.noteLocked format = ctx₁ at havh₁ hdone ⊢
  simp only [Bool.false_eq_true, if_false, havh₁, hlock, Bool.not_true, Bool.and_false] at hdone ⊢
  split
  · next hsame =>
    left
    simp only [unchangedFormat, Bool.and_eq_true] at hsame
    exact ⟨hsame.1.1.1.1.1.1.1, hsame.1.1.1.1.2, rfl⟩
  · next hnew =>
    right
    rw [if_neg hnew] at hdone
    simp only [modesetFormat, hlock, if_true] at hdone ⊢
    generalize happly : applyDrmModeset _ _ _ _ _ _ _ _ _ _ = r at hdone ⊢
    obtain ⟨ok, hw', ctx'⟩ := r
    cases ok with
    | false => cases hdone
    | true => exact ⟨_, _, _, hw', ctx', happly, rfl⟩

/-- **A success reply.** In every run whose requests are built without a failing addition, whatever
else failed before: when a notification of a locked stream is answered with success while the
receiver does not own the output, the overlay is on, routed to the stream and in the pixel format
of the stream, if that has a size and a rate; or its framebuffer could not be created, and the
output is on DUMMY. A modeset of an SDI output with its embedder neither disabled nor optional
leaves the embedder on. -/
theorem success_shows_stream {calls : StartupCalls} {s₀ : State} (hs : Started opts dev calls s₀)
    (hadds : calls.modeset.Adds) (es : List Event) (hes : ∀ e ∈ es, e.All ModesetCalls.Adds)
    (dau : DauCalls) (hdau : dau.modeset.Adds) (format : VideoFormat)
    (hlock : format.locked = true) :
    let s := (receiver opts dev).run s₀ es
    let r := dauSetVideoFormat opts dev dau (some format) s.hw s.ctx
    s.ctx.avhActive = false → r.1 = .success →
      (r.2.2.overlayActive = true ∧
        r.2.1.config.get (.plane dev.overlayPlaneId) .overlaySource = 1 ∧
        r.2.1.fbId dev.overlayPlaneId ≠ 0 ∧
        (format.width ≠ 0 → format.height ≠ 0 → format.framerate ≠ 0 →
          r.2.1.fbFormat (r.2.1.fbId dev.overlayPlaneId) = overlayFormatOf format) ∧
        (r.2.1 = s.hw ∨ (opts.sdi = true → opts.sdiAudioDisabled = false →
          opts.sdiAudioOptional = false → r.2.1.passthrough = true))) ∨
      (r.2.2.overlayActive = false ∧
        r.2.1.config.get (.plane dev.overlayPlaneId) .overlaySource = 0 ∧
        r.2.1.fbId dev.overlayPlaneId = 0 ∧
        (dau.modeset.overlay.dumb = none ∨ dau.modeset.overlay.addFb = none)) := by
  intro s r havh hdone
  obtain ⟨hmirror, hrgb⟩ := run_rgb hs hadds es hes
  have hm : Mirror dev (s.hw, s.ctx) := hmirror
  have hformat : Rgb opts (s.hw, s.ctx) := hrgb
  obtain ⟨hin, ctx₁, hctx₁, hway⟩ := dauSetVideoFormat_success hlock havh hdone
  have hobjs : ctx₁.objects = s.ctx.objects := by rw [hctx₁, noteLocked_eq]
  have hoverlay : ctx₁.overlayActive = s.ctx.overlayActive := by rw [hctx₁, noteLocked_eq]
  rcases hway with ⟨hsdi, hon, heq⟩ | ⟨width, height, fps, hw', ctx', happly, heq⟩
  · -- The output shows a stream of the contract already.
    left
    have hon₀ : s.ctx.overlayActive = true := hoverlay.symm.trans hon
    have hshown : Mirrored dev s.hw s.ctx := hm.shown hon₀
    have hr : r = (.success, s.hw, ctx₁) := heq
    rw [hr]
    refine ⟨hon, hshown.source, ?_, fun _ _ _ => ?_, Or.inl rfl⟩
    · rw [hshown.overlay]
      exact hshown.overlay_ne
    · rw [hshown.overlay, overlayFormatOf_inside hsdi hlock hin]
      exact hformat.shown hsdi hon₀
  · have hr : r = (.success, hw', ctx') := heq
    rw [hr]
    dsimp only
    rcases (applyDrmModeset_kept (hm.kept.noted hobjs) hdau happly).2 with ⟨h, -⟩ | hd
    · cases h
    cases hon : ctx'.overlayActive with
    | true =>
        refine Or.inl ⟨rfl, ?_, ?_, fun hw hh hf => ?_, Or.inr fun hsdi hdis hopt => ?_⟩
        · rw [hd.source, hon]; rfl
        · rw [hd.overlay]; exact hd.overlay_iff.mpr hon
        · rw [hd.overlay, hd.format hon, hctx₁]
          simp [Ctx.noteLocked, hlock, hw, hh, hf]
        · refine hd.embedder rfl ?_ hopt
          rw [embeds, hsdi, hon, hdis]
          rfl
    | false =>
        refine Or.inr ⟨rfl, ?_, ?_, hd.fallback rfl hon⟩
        · rw [hd.source, hon]; rfl
        · rw [hd.overlay]
          by_contra hne
          rw [hd.overlay_iff.mp hne] at hon
          cases hon

end Reply

/-- Without an overlay framebuffer a locked stream is answered with success and not shown. -/
theorem success_without_overlay :
    let s := boardState (sdiOptions false)
    let dau : DauCalls := { DauCalls.succeed with
      modeset := { ModesetCalls.succeed [mode1080] with
        overlay := { dumb := some 0, addFb := none } } }
    let r := dauSetVideoFormat (sdiOptions false) board dau (some (stream1080 true)) s.hw s.ctx
    Reachable (sdiOptions false) board s ∧ s.ctx.avhActive = false ∧ r.1 = .success ∧
      r.2.2.overlayActive = false ∧ r.2.1.config.get (.plane 4) .overlaySource = 0 := by
  exact ⟨⟨_, _, [], boardState_started (by decide +kernel), rfl⟩, by decide +kernel,
    by decide +kernel, by decide +kernel, by decide +kernel⟩

theorem success_shows_stream_locked :
    let s := boardState (sdiOptions false)
    let r := dauSetVideoFormat (sdiOptions false) board .succeed (some (stream1080 true)) s.hw s.ctx
    r.1 = .success ∧ r.2.2.overlayActive = true ∧
      r.2.1.config.get (.plane 4) .overlaySource = 1 := by
  intro s r
  have hadds := ModesetCalls.succeed_adds [mode1080]
  have hdone : r.1 = .success := by decide +kernel
  rcases success_shows_stream (@boardState_started (sdiOptions false) (by decide +kernel)) hadds []
    (fun _ h => absurd h List.not_mem_nil) .succeed hadds (stream1080 true) rfl (by decide +kernel)
    hdone with ⟨hon, hsource, -⟩ | ⟨-, -, -, hfail⟩
  · exact ⟨hdone, hon, hsource⟩
  · rcases hfail with h | h <;> cases h

end QcapDemos.Rx
