import QcapDemos.Rx.Mirror

set_option autoImplicit false

/-! # The overlay follows the lock

Outside auto mode and without `--force-dante-source` the Dante overlay is switched on by
notifications of locked streams alone. This file relates it to the last notification of a run and
its reply: an overlay that is on belongs to a locked stream, or to a notification that was answered
with an error. An unlock that is answered with success leaves the output on DUMMY.
-/

namespace QcapDemos.Rx

open QcapDemos.Drm QcapDemos.Alsa QcapDemos.Lib

section Lock

variable (opts : Options) (dev : Device)

/-! ## The notifications of a run -/

/-- A notification with its reply. -/
def Event.answered : Event → Output → Option (VideoFormat × Reply)
  | .dau _ format, .reply r => some (format, r)
  | _, _ => none

/-- The notifications of a run with their replies, in order. -/
def notifications (s : State) (es : List Event) : List (VideoFormat × Reply) :=
  (es.zip ((receiver opts dev).outputs s es)).filterMap fun p => p.1.answered p.2

theorem notifications_snoc (s : State) (es : List Event) (e : Event) :
    notifications opts dev s (es ++ [e]) = notifications opts dev s es ++
      (e.answered ((receiver opts dev).step ((receiver opts dev).run s es) e).2).toList := by
  rw [notifications, Machine.outputs_snoc,
    List.zip_append (Machine.length_outputs _ _ _).symm, List.filterMap_append]
  rfl

/-! ## One event -/

variable {opts dev} {s : State}

/-- An unlock that is not deferred and not ignored is a modeset to DUMMY. -/
theorem dauSetVideoFormat_unlock {format : VideoFormat} (hlock : format.locked = false)
    (hforce : opts.forceDanteSource = false) {ctx : Ctx} (havh : ctx.avhActive = false)
    (calls : DauCalls) (hw : Hw) :
    dauSetVideoFormat opts dev calls (some format) hw ctx =
      match applyDrmModeset opts dev calls.modeset (ctx.target opts format).1
        (ctx.target opts format).2.1 (ctx.target opts format).2.2 false .yuyv hw { ctx with
          currentVideoFormat := format, formatChanges := ctx.formatChanges + 1 } with
      | (ok, hw, ctx) => (if ok then .success else .error "DRM overlay modeset failed", hw, ctx) := by
  rw [dauSetVideoFormat]
  dsimp only
  set ctx₁ : Ctx := { ctx with currentVideoFormat := format, formatChanges := ctx.formatChanges + 1 }
  have hin : outsideContract opts ctx₁ format = false := by simp [outsideContract, hlock]
  have hnote : ctx₁.noteLocked format = ctx₁ := by simp [Ctx.noteLocked, hlock]
  have hnew : unchangedFormat opts dev ctx₁ format ctx.ultraOverlayFormat = false := by
    simp [unchangedFormat, hlock]
  rw [hin, if_neg Bool.false_ne_true, hnote, if_neg (by simp [ctx₁, havh]),
    if_neg (by simp [hforce]), hnew, if_neg Bool.false_ne_true, modesetFormat]
  have htarget : ctx₁.target opts format = ctx.target opts format := rfl
  simp only [htarget, hlock, Bool.false_eq_true, if_false, Bool.false_and]
  generalize applyDrmModeset _ _ _ _ _ _ _ _ _ _ = r
  obtain ⟨ok, hw', ctx'⟩ := r
  cases ok <;> rfl

/-- A connector event never switches the overlay on. -/
theorem hotplug_overlay (calls : HotplugCalls) (hw : Hw) (ctx : Ctx)
    (hon : (hotplug opts dev calls hw ctx).2.overlayActive = true) : ctx.overlayActive = true := by
  rw [hotplug] at hon
  dsimp only at hon
  split at hon
  · exact hon
  split at hon
  · next hcond =>
    rw [Bool.and_eq_true, Bool.and_eq_true] at hcond
    exact hcond.1.2
  · exact hon

/-- An overlay that is on after an event was on before, or the event notifies a locked stream or is
answered with an error. -/
theorem step_overlay (h : Owned s) (hforce : opts.forceDanteSource = false) (e : Event)
    (hon : ((receiver opts dev).step s e).1.ctx.overlayActive = true) :
    (s.ctx.overlayActive = true ∧ e.answered ((receiver opts dev).step s e).2 = none) ∨
    ∃ format r, e.answered ((receiver opts dev).step s e).2 = some (format, r) ∧
      (format.locked = true ∨ r ≠ .success) := by
  have hauto : opts.autoMode = false := (Bool.or_eq_false_iff.mp hforce).2
  cases e with
  | avh e =>
      simp only [receiver, hauto, Bool.false_eq_true, if_false] at hon ⊢
      exact Or.inl ⟨hon, rfl⟩
  | arbitrate calls =>
      simp only [receiver, hauto, Bool.false_eq_true, if_false] at hon ⊢
      exact Or.inl ⟨hon, rfl⟩
  | dau calls format =>
      refine Or.inr ⟨format, (dauSetVideoFormat opts dev calls (some format) s.hw s.ctx).1, rfl, ?_⟩
      replace hon : (dauSetVideoFormat opts dev calls (some format) s.hw s.ctx).2.2.overlayActive
        = true := hon
      cases hlock : format.locked with
      | true => exact Or.inl rfl
      | false =>
      right
      -- an unlocked stream is not shown: AVH owns the output, or it goes to DUMMY
      cases havh : s.ctx.avhActive with
      | true =>
          rw [(dauSetVideoFormat_flags opts dev calls (some format) s.hw s.ctx).2 havh
            (h.avh havh).2] at hon
          cases hon
      | false =>
          rw [dauSetVideoFormat_unlock hlock hforce havh] at hon ⊢
          generalize happly : applyDrmModeset _ _ _ _ _ _ _ _ _ _ = r at hon ⊢
          obtain ⟨ok, hw', ctx'⟩ := r
          cases ok with
          | false => exact fun h => by cases h
          | true =>
              rw [show ctx'.overlayActive = false from applyDrmModeset_dummy happly (Or.inl rfl)] at hon
              cases hon
  | hotplug calls =>
      simp only [receiver] at hon ⊢
      split at hon
      · next hsdi => exact Or.inl ⟨hon, by rw [if_pos hsdi]; rfl⟩
      · next hsdi => exact Or.inl ⟨hotplug_overlay calls s.hw s.ctx hon, by rw [if_neg hsdi]; rfl⟩
  | resync now status calls =>
      refine Or.inl ⟨?_, rfl⟩
      exact (congrArg Ctx.overlayActive (pollSdiResync_ctx dev now status calls s.hw s.ctx)).symm.trans
        hon

/-- Whenever the overlay is on in a run, the last notification was of a locked stream or was
answered with an error. -/
theorem run_overlay {calls : StartupCalls} {s₀ : State} (hs : Started opts dev calls s₀)
    (hforce : opts.forceDanteSource = false) (es : List Event) :
    ((receiver opts dev).run s₀ es).ctx.overlayActive = true → ∃ format r,
      (notifications opts dev s₀ es).getLast? = some (format, r) ∧
      (format.locked = true ∨ r ≠ .success) := by
  have hstart : s₀.ctx.overlayActive = false := by
    obtain ⟨_, _, _, _, _, _, _, ok, hw', ctx', -, -, -, happly, rfl⟩ := hs.cases
    rw [hforce] at happly
    have hoff : ctx'.overlayActive = false := applyDrmModeset_dummy happly (Or.inr rfl)
    exact hoff
  refine ((receiver opts dev).history_inv s₀ (fun _ _ => True)
    (fun es s => Owned s ∧ (s.ctx.overlayActive = true → ∃ format r,
      (notifications opts dev s₀ es).getLast? = some (format, r) ∧
      (format.locked = true ∨ r ≠ .success))) ⟨startup_owned hs, fun hon => ?_⟩ ?_ es
    fun _ _ _ _ => trivial).2
  · rw [hstart] at hon
    cases hon
  · intro es e hI _
    refine ⟨step_owned hI.1 e, fun hon => ?_⟩
    rw [notifications_snoc]
    rcases step_overlay hI.1 hforce e hon with ⟨hbefore, hnone⟩ | ⟨format, r, hsome, hlock⟩
    · rw [hnone, Option.toList_none, List.append_nil]
      exact hI.2 hbefore
    · rw [hsome]
      exact ⟨format, r, List.getLast?_concat, hlock⟩

/-- A modeset to DUMMY that can be planned and whose calls succeed is committed. -/
theorem applyDrmModeset_succeeds {calls : ModesetCalls} (hcalls : calls.Succeed)
    {width height : Nat} {fps : ℚ}
    (hplan : planModeset dev.arithmetic opts.sdi calls.connector width height fps ≠ none)
    (format : PixelFormat) (hw : Hw) (ctx : Ctx) :
    (applyDrmModeset opts dev calls width height fps false format hw ctx).1 = true := by
  have hcases := applyDrmModeset_cases dev opts calls width height fps false format hw ctx
  generalize applyDrmModeset opts dev calls width height fps false format hw ctx = r at hcases ⊢
  cases hcases with
  | rejected hw' hrestored hwhy => exact absurd hcalls (hwhy.resolve_left hplan)
  | committed plan extra objs overlay hw₁ b ok hplan hnew hoverlay hfallback hextra hknown hquiet =>
      refine (hquiet ?_).1
      cases overlay with
      | false => rw [embeds, Bool.and_false, Bool.false_and]
      | true => exact absurd (hoverlay rfl) Bool.false_ne_true

/-- An unlock that is answered with success leaves the output on DUMMY. -/
theorem unlock_dummy {hw : Hw} {ctx : Ctx} (hk : Kept dev hw ctx) (havh : ctx.avhActive = false)
    {format : VideoFormat} (hlock : format.locked = false) (hforce : opts.forceDanteSource = false)
    {dau : DauCalls} (hadds : dau.modeset.Adds)
    (hdone : (dauSetVideoFormat opts dev dau (some format) hw ctx).1 = .success) :
    (dauSetVideoFormat opts dev dau (some format) hw ctx).2.1.config.get
      (.plane dev.overlayPlaneId) .overlaySource = 0 ∧
    (dauSetVideoFormat opts dev dau (some format) hw ctx).2.1.fbId dev.overlayPlaneId = 0 := by
  rw [dauSetVideoFormat_unlock hlock hforce havh] at hdone ⊢
  set ctx₁ : Ctx := { ctx with currentVideoFormat := format, formatChanges := ctx.formatChanges + 1 }
  have hk₁ : Kept dev hw ctx₁ := hk.noted rfl
  generalize happly : applyDrmModeset _ _ _ _ _ _ _ _ _ _ = r at hdone ⊢
  obtain ⟨ok, hw', ctx'⟩ := r
  cases ok with
  | false => cases hdone
  | true =>
      have hoff : ctx'.overlayActive = false := applyDrmModeset_dummy happly (Or.inl rfl)
      rcases (applyDrmModeset_kept hk₁ hadds happly).2 with ⟨h, -⟩ | hdisplayed
      · cases h
      refine ⟨?_, ?_⟩
      · rw [hdisplayed.source, hoff]
        rfl
      · rw [hdisplayed.overlay]
        by_contra hne
        rw [hdisplayed.overlay_iff.mp hne] at hoff
        cases hoff

/-- Where the Dante source is forced, an unlock is recorded and nothing else. -/
theorem unlock_forced {hw : Hw} {ctx : Ctx} {format : VideoFormat} (hlock : format.locked = false)
    (hforce : opts.forceDanteSource = true) (dau : DauCalls) :
    dauSetVideoFormat opts dev dau (some format) hw ctx = (.success, hw, { ctx with
      currentVideoFormat := format, formatChanges := ctx.formatChanges + 1 }) := by
  simp [dauSetVideoFormat, outsideContract, Ctx.noteLocked, hlock, hforce]

/-- An unlock that is answered with success switches the overlay off. -/
theorem unlock_off {hw : Hw} {ctx : Ctx} (havh : ctx.avhActive = false) {format : VideoFormat}
    (hlock : format.locked = false) (hforce : opts.forceDanteSource = false) {dau : DauCalls}
    (hdone : (dauSetVideoFormat opts dev dau (some format) hw ctx).1 = .success) :
    (dauSetVideoFormat opts dev dau (some format) hw ctx).2.2.overlayActive = false := by
  rw [dauSetVideoFormat_unlock hlock hforce havh] at hdone ⊢
  generalize happly : applyDrmModeset _ _ _ _ _ _ _ _ _ _ = r at hdone ⊢
  obtain ⟨ok, hw', ctx'⟩ := r
  cases ok with
  | false => cases hdone
  | true => exact applyDrmModeset_dummy happly (Or.inl rfl)

/-- **The overlay follows the lock**, whatever calls fail. Where the Dante source is not forced, an
overlay that is on in a run belongs to the last notification: its stream was locked, or it was
answered with an error. An unlock while the receiver does not own the output switches the overlay
off when it is answered with success, which it is where a mode is found and no call fails; and the
route is on DUMMY then, if the requests of the run were complete. Where the Dante source is forced,
as in auto mode, an unlock leaves the display and the overlay as they are. -/
theorem overlay_follows_lock {calls : StartupCalls} {s₀ : State} (hs : Started opts dev calls s₀)
    (es : List Event) :
    let s := (receiver opts dev).run s₀ es
    (opts.forceDanteSource = false → s.ctx.overlayActive = true → ∃ format r,
      (notifications opts dev s₀ es).getLast? = some (format, r) ∧
      (format.locked = true ∨ r ≠ .success)) ∧
    ∀ (dau : DauCalls) (format : VideoFormat), format.locked = false → s.ctx.avhActive = false →
      let r := dauSetVideoFormat opts dev dau (some format) s.hw s.ctx
      let target := s.ctx.target opts format
      (opts.forceDanteSource = false →
        (r.1 = .success → r.2.2.overlayActive = false ∧
          (calls.modeset.Adds → (∀ e ∈ es, e.All ModesetCalls.Adds) → dau.modeset.Adds →
            r.2.1.config.get (.plane dev.overlayPlaneId) .overlaySource = 0 ∧
            r.2.1.fbId dev.overlayPlaneId = 0)) ∧
        (planModeset dev.arithmetic opts.sdi dau.modeset.connector target.1 target.2.1 target.2.2
            ≠ none → dau.modeset.Succeed → r.1 = .success)) ∧
      (opts.forceDanteSource = true → r.1 = .success ∧ r.2.1 = s.hw ∧
        r.2.2.overlayActive = s.ctx.overlayActive) := by
  intro s
  refine ⟨fun hforce => run_overlay hs hforce es, ?_⟩
  intro dau format hlock havh
  refine ⟨fun hforce => ⟨fun hdone => ⟨unlock_off havh hlock hforce hdone,
    fun hadds hes hdau => ?_⟩, fun hplan hcalls => ?_⟩, fun hforce => ?_⟩
  · have hmirror : Mirror dev s.display := run_mirror hs hadds es hes
    exact unlock_dummy hmirror.kept havh hlock hforce hdau hdone
  · rw [dauSetVideoFormat_unlock hlock hforce havh]
    have hok := @applyDrmModeset_succeeds opts dev dau.modeset hcalls _ _ _ hplan .yuyv s.hw
      { s.ctx with currentVideoFormat := format, formatChanges := s.ctx.formatChanges + 1 }
    generalize applyDrmModeset _ _ _ _ _ _ _ _ _ _ = r at hok ⊢
    exact if_pos hok
  · rw [unlock_forced hlock hforce]
    exact ⟨rfl, rfl, rfl⟩

end Lock

/-- In auto mode the overlay stays on after an unlock. -/
theorem unlock_keeps_overlay_auto :
    let es : List Event := [.dau .succeed (stream1080 true), .dau .succeed (stream1080 false)]
    let s := (receiver (sdiOptions true) board).run (boardState (sdiOptions true)) es
    (sdiOptions true).forceFlag = false ∧ Reachable (sdiOptions true) board s ∧
      s.ctx.overlayActive = true ∧ s.hw.config.get (.plane 4) .overlaySource = 1 ∧
      (notifications (sdiOptions true) board (boardState (sdiOptions true)) es).getLast?
        = some (stream1080 false, .success) := by
  refine ⟨rfl, ⟨_, _, _, boardState_started (by decide +kernel), rfl⟩, by decide +kernel,
    by decide +kernel, by decide +kernel⟩

theorem overlay_follows_lock_unlock :
    let s := (receiver (sdiOptions false) board).run (boardState (sdiOptions false))
      [.dau .succeed (stream1080 true)]
    let r := dauSetVideoFormat (sdiOptions false) board .succeed (some (stream1080 false)) s.hw s.ctx
    s.ctx.overlayActive = true ∧ r.1 = .success ∧ r.2.2.overlayActive = false := by
  intro s r
  have hon : s.ctx.overlayActive = true := by decide +kernel
  have hdone : r.1 = .success := by decide +kernel
  have hfollows := overlay_follows_lock (@boardState_started (sdiOptions false) (by decide +kernel))
    [.dau .succeed (stream1080 true)]
  have hunlock := (hfollows.2 .succeed (stream1080 false) rfl (by decide +kernel)).1 rfl
  exact ⟨hon, hdone, (hunlock.1 hdone).1⟩

end QcapDemos.Rx
