import QcapDemos.Drm.Letterbox
import QcapDemos.Drm.Selection
import QcapDemos.Rx.Mirror
import QcapDemos.Rx.Quiet

set_option autoImplicit false

/-! # The timing and the rectangle of a modeset

Whatever commits a modeset issues, their timing is a qualified mode of the connector's list, and
without one the modeset touches nothing. On HDMI the committed mode has the source's own size and
rate exactly where no qualified mode is passed over (`Spared`). The rectangles of the modeset and
of the video sink are those of the sources' machine words.
-/

namespace QcapDemos.Rx

open QcapDemos.Drm QcapDemos.Alsa QcapDemos.Lib

/-- The modes of the connector, if it was read. -/
def listed (connector : Option Connector) : List ModeInfo := connector.elim [] Connector.modes

section Timing

variable (opts : Options) (dev : Device)

/-! ## The commits of a modeset -/

theorem destroyDumbFb_keeps (fb bo : Nat) (hw : Hw) :
    (hw.destroyDumbFb dev .modeset fb bo).commits = hw.commits ∧
      (hw.destroyDumbFb dev .modeset fb bo).blobMode = hw.blobMode := by
  rw [Hw.destroyDumbFb]
  split <;> split <;> exact ⟨rfl, rfl⟩

/-- Destroying objects neither commits nor rewrites a mode. -/
theorem destroyObjects_keeps (objs : Objects) (hw : Hw) :
    (destroyObjects dev objs hw).commits = hw.commits ∧
      (destroyObjects dev objs hw).blobMode = hw.blobMode := by
  obtain ⟨hcommits, hmodes⟩ := destroyDumbFb_keeps dev objs.primaryFb objs.primaryBo hw
  obtain ⟨hcommits', hmodes'⟩ := destroyDumbFb_keeps dev objs.overlayFb objs.overlayBo
    (hw.destroyDumbFb dev .modeset objs.primaryFb objs.primaryBo)
  rw [destroyObjects]
  split <;> exact ⟨hcommits'.trans hcommits, hmodes'.trans hmodes⟩

/-- An attempt that creates no objects commits nothing. -/
theorem createObjects_commits {calls : ModesetCalls} {mode : ModeInfo} {enableOverlay : Bool}
    {format : PixelFormat} {hw hw' : Hw}
    (h : createObjects dev calls mode enableOverlay format hw = (none, hw')) :
    hw'.commits = hw.commits := by
  rw [createObjects] at h
  rcases Hw.newBlob_cases dev mode calls.blob hw with ⟨-, hblob⟩ | ⟨blob, hw₁, hblob, h₁⟩
  · rw [hblob] at h
    cases h
    rfl
  rw [hblob] at h
  dsimp only at h
  rcases Hw.createDumbFb_cases dev .bgr888 calls.primary hw₁ with
    ⟨hw₂, hprimary, h₂, -⟩ | ⟨fb, bo, hw₂, hprimary, -⟩
  · rw [hprimary] at h
    cases h
    show hw₂.commits = hw.commits
    rw [h₂.eq, h₁.eq]
  · rw [hprimary] at h
    dsimp only at h
    split at h
    · cases h
    · split at h <;> cases h

/-- The commit of a modeset issues its request, or nothing. -/
theorem commitModeset_commits (calls : ModesetCalls) (plan : Plan) (width height : Nat)
    (objs : Objects) (overlay : Bool) (hw : Hw) :
    (commitModeset opts dev calls plan width height objs overlay hw).2.blobMode = hw.blobMode ∧
    ((commitModeset opts dev calls plan width height objs overlay hw).2.commits = hw.commits ∨
    ∃ extra ok, addOutputProperties calls.propId calls.add dev.arithmetic opts.sdi
        dev.connectorId plan.mode = some extra ∧
      (commitModeset opts dev calls plan width height objs overlay hw).2.commits = hw.commits ++
        [{ caller := .modeset, testOnly := false, ok := ok
           request := modesetRequest dev calls plan width height objs overlay extra }]) := by
  rw [commitModeset]
  obtain ⟨b, heq, -⟩ := setSdiFpgaPassthrough_spec opts.sdi false calls.disable hw
  generalize setSdiFpgaPassthrough opts.sdi false calls.disable hw = r at heq ⊢
  obtain ⟨off, hw₁⟩ := r
  subst heq
  cases off with
  | false => exact ⟨rfl, .inl rfl⟩
  | true =>
      dsimp only
      cases hextra : addOutputProperties calls.propId calls.add dev.arithmetic opts.sdi
          dev.connectorId plan.mode with
      | none => exact ⟨rfl, .inl rfl⟩
      | some extra => exact ⟨rfl, .inr ⟨extra, _, rfl, rfl⟩⟩

/-- The mode a request sets is that of the modeset's blob. -/
theorem modesetRequest_mode {ar : Arithmetic} {calls : ModesetCalls} {plan : Plan}
    {width height : Nat} {objs : Objects} {overlay sdi : Bool} {extra : Request}
    (hextra : addOutputProperties calls.propId calls.add ar sdi dev.connectorId plan.mode =
      some extra) {o : Obj} {blob : Nat}
    (h : Request.value? (modesetRequest dev calls plan width height objs overlay extra) o .modeId
      = some blob) : blob = objs.modeBlob :=
  ((modesetRequest_entries hextra (Request.mem_of_value? h)).1 rfl).2

/-- The commits `hw'` has in addition to `hw` set no mode but `P` ones. -/
def CommitsOnly (P : ModeInfo → Prop) (hw hw' : Hw) : Prop :=
  ∃ cs, hw'.commits = hw.commits ++ cs ∧ ∀ c ∈ cs, ∀ o blob,
    Request.value? c.request o .modeId = some blob → P (hw'.blobMode blob)

theorem CommitsOnly.of_eq {P : ModeInfo → Prop} {hw hw' : Hw} (h : hw'.commits = hw.commits) :
    CommitsOnly P hw hw' :=
  ⟨[], by rw [h, List.append_nil], by simp⟩

theorem CommitsOnly.congr {P : ModeInfo → Prop} {hw hw₁ hw₂ : Hw} (h : CommitsOnly P hw hw₁)
    (hcommits : hw₂.commits = hw₁.commits) (hmodes : hw₂.blobMode = hw₁.blobMode) :
    CommitsOnly P hw hw₂ := by
  rw [CommitsOnly, hcommits, hmodes]
  exact h

/-- What a modeset that ended in `r` did to the timing: its commits set qualified modes of the list
only, so is the mode it leaves in the context, and without such a mode nothing was touched. -/
structure OnlyQualified (ar : Arithmetic) (sdi : Bool) (modes : List ModeInfo) (hw : Hw) (ctx : Ctx)
    (r : Bool × Hw × Ctx) : Prop where
  commits : CommitsOnly (fun m => m ∈ modes ∧ Qualified ar sdi m) hw r.2.1
  mode : r.2.2 = ctx ∨ (r.2.2.currentMode ∈ modes ∧ Qualified ar sdi r.2.2.currentMode)
  untouched : (∀ m ∈ modes, ¬ Qualified ar sdi m) → r = (false, hw, ctx)

section Run

variable (calls : ModesetCalls) (width height : Nat) (fps : ℚ) (enableOverlay : Bool)
  (format : PixelFormat) (hw : Hw) (ctx : Ctx)

/-- A modeset commits the mode of its plan. -/
theorem applyVideo_commits :
    CommitsOnly (fun m => ∃ plan,
        planModeset dev.arithmetic opts.sdi calls.connector width height fps = some plan ∧
          plan.mode = m) hw
      (applyVideo opts dev calls width height fps enableOverlay format hw ctx).2.1 := by
  rw [applyVideo]
  cases hplan : planModeset dev.arithmetic opts.sdi calls.connector width height fps with
  | none => exact .of_eq rfl
  | some plan =>
  -- with a plan, the objects come first: the mode's blob is the one the request names
  dsimp only
  rcases createObjects_cases dev calls plan.mode enableOverlay format hw with
    ⟨hw₁, hobjs, -⟩ | ⟨objs, overlay, hw₁, hobjs, hcreated, -⟩
  · rw [hobjs]
    exact .of_eq (createObjects_commits dev hobjs)
  rw [hobjs]
  dsimp only
  have hcommits₁ : hw₁.commits = hw.commits := by rw [hcreated.eq]
  have hmode₁ : hw₁.blobMode objs.modeBlob = plan.mode := by
    rw [hcreated.eq]
    exact Function.update_self _ _ _
  split
  · -- a plane id is missing, and the objects are given back before any commit
    refine .of_eq ?_
    rw [(destroyObjects_keeps dev objs hw₁).1, hcommits₁]
  obtain ⟨hmodes₂, hcommits₂⟩ := commitModeset_commits opts dev calls plan width height objs
    overlay hw₁
  generalize commitModeset opts dev calls plan width height objs overlay hw₁ = r
    at hmodes₂ hcommits₂ ⊢
  obtain ⟨ok, hw₂⟩ := r
  have honly : CommitsOnly (fun m => ∃ plan', some plan = some plan' ∧ plan'.mode = m) hw hw₂ := by
    rcases hcommits₂ with hnone | ⟨extra, ok, hextra, hone⟩
    · exact .of_eq (hnone.trans hcommits₁)
    · refine ⟨_, by rw [hone, hcommits₁], fun c hc o blob hblob => ?_⟩
      rw [List.mem_singleton.mp hc] at hblob
      rw [modesetRequest_mode dev hextra hblob, hmodes₂, hmode₁]
      exact ⟨plan, rfl, rfl⟩
  cases ok with
  | false =>
      exact honly.congr (destroyObjects_keeps dev objs hw₂).1 (destroyObjects_keeps dev objs hw₂).2
  | true =>
      -- the objects given back are the ones of the screen before
      exact honly.congr (destroyObjects_keeps dev ctx.objects hw₂).1
        (destroyObjects_keeps dev ctx.objects hw₂).2

theorem applyDrmModeset_commits :
    CommitsOnly (fun m => ∃ plan,
        planModeset dev.arithmetic opts.sdi calls.connector width height fps = some plan ∧
          plan.mode = m) hw
      (applyDrmModeset opts dev calls width height fps enableOverlay format hw ctx).2.1 := by
  have hvideo := applyVideo_commits opts dev calls width height fps enableOverlay format hw ctx
  rw [applyDrmModeset]
  generalize applyVideo opts dev calls width height fps enableOverlay format hw ctx = r at hvideo ⊢
  obtain ⟨overlay, hw₁, ctx₁⟩ := r
  cases overlay with
  | none => exact hvideo
  | some overlay =>
      dsimp only
      split
      · -- turning the passthrough on writes to the FPGA and leaves the commits alone
        obtain ⟨b, heq, -⟩ := setSdiFpgaPassthrough_spec opts.sdi true calls.enable hw₁
        generalize setSdiFpgaPassthrough opts.sdi true calls.enable hw₁ = r at heq ⊢
        obtain ⟨on, hw₂⟩ := r
        subst heq
        exact hvideo
      · exact hvideo

/-! ## Only qualified timings -/

/-- What a plan says of the source, the mode and the rectangle. -/
theorem planModeset_spec {ar : Arithmetic} {sdi : Bool} {connector : Option Connector}
    {width height : Nat} {fps : ℚ} {plan : Plan}
    (h : planModeset ar sdi connector width height fps = some plan) :
    (width ≠ 0 ∧ height ≠ 0 ∧ width ≤ 3840 ∧ height ≤ 2160) ∧
      selectMode ar sdi (listed connector) width height fps = some plan.mode ∧
      letterbox width height plan.mode.hdisplay plan.mode.vdisplay = (plan.rectW, plan.rectH) ∧
      plan.rectW ≠ 0 ∧ plan.rectH ≠ 0 := by
  obtain ⟨c, rfl, hconnected, hselect⟩ := planModeset_mode h
  rw [planModeset] at h
  split at h
  · cases h
  · rename_i hsource
    simp only [hconnected, hselect, Bool.not_true, Bool.false_eq_true, if_false] at h
    split at h
    · cases h
    · rename_i hrect
      obtain ⟨mode, rectW, rectH⟩ := plan
      dsimp only at h hrect hselect ⊢
      obtain ⟨-, rfl, rfl⟩ := Plan.mk.inj (Option.some.inj h)
      rw [not_or] at hrect
      exact ⟨by omega, hselect, rfl, hrect⟩

theorem planModeset_qualified {ar : Arithmetic} {sdi : Bool} {connector : Option Connector}
    {width height : Nat} {fps : ℚ} {plan : Plan}
    (h : planModeset ar sdi connector width height fps = some plan) :
    plan.mode ∈ listed connector ∧ Qualified ar sdi plan.mode := by
  obtain ⟨⟨-, -, hwidth, hheight⟩, hselect, -⟩ := planModeset_spec h
  exact selectMode_qualified hwidth hheight hselect

/-- **A modeset commits qualified timings** of the connector only, and without one it changes
nothing at all. -/
theorem applyDrmModeset_qualified :
    OnlyQualified dev.arithmetic opts.sdi (listed calls.connector) hw ctx
      (applyDrmModeset opts dev calls width height fps enableOverlay format hw ctx) := by
  refine ⟨?_, ?_, fun hnone => ?_⟩
  · obtain ⟨cs, hcommits, honly⟩ := applyDrmModeset_commits opts dev calls width height fps
      enableOverlay format hw ctx
    refine ⟨cs, hcommits, fun c hc o blob hblob => ?_⟩
    obtain ⟨plan, hplan, hmode⟩ := honly c hc o blob hblob
    rw [← hmode]
    exact planModeset_qualified hplan
  · have hcases := applyDrmModeset_cases dev opts calls width height fps enableOverlay format hw ctx
    generalize applyDrmModeset opts dev calls width height fps enableOverlay format hw ctx = r
      at hcases ⊢
    cases hcases with
    | rejected => exact .inl rfl
    | committed plan extra objs overlay hw₁ b ok hplan => exact .inr (planModeset_qualified hplan)
  · -- without a plan the modeset returns before its first call
    have hplan : planModeset dev.arithmetic opts.sdi calls.connector width height fps = none := by
      by_contra hplan
      obtain ⟨plan, hsome⟩ := Option.ne_none_iff_exists'.mp hplan
      obtain ⟨hmem, hqualified⟩ := planModeset_qualified hsome
      exact hnone plan.mode hmem hqualified
    exact applyDrmModeset_unplanned dev opts (.inl hplan) enableOverlay format hw ctx

/-! ## Needless scaling -/

/-- **A committed HDMI modeset scales only where it must**, exactly where no qualified mode is
passed over, in whatever arithmetic the rates of the modes are compared with the source's. -/
theorem applyDrmModeset_unscaled_iff (rates : Arithmetic) (hhdmi : opts.sdi = false) {hw' : Hw}
    {ctx' : Ctx}
    (h : applyDrmModeset opts dev calls width height fps enableOverlay format hw ctx
      = (true, hw', ctx')) :
    Unscaled rates (listed calls.connector) width height fps ctx'.currentMode ↔
      Spared dev.arithmetic rates (listed calls.connector) width height fps := by
  have hcases := applyDrmModeset_cases dev opts calls width height fps enableOverlay format hw ctx
  rw [h] at hcases
  cases hcases with
  | committed plan extra objs overlay hw₁ b ok hplan =>
      obtain ⟨-, hselect, -⟩ := planModeset_spec hplan
      rw [hhdmi] at hselect
      exact unscaled_iff hselect

end Run

end Timing

/-- An HDMI output without a fixed mode. -/
def hdmiOptions : Options where
  sdi := false
  sdiAudioOptional := false
  sdiAudioDisabled := false
  fixedModeOverride := false
  forceFlag := false
  autoMode := false
  fixedW := 1920
  fixedH := 1080
  fixedFps := 60

/-- 1080p120 at 297 MHz. -/
def mode1080Fast : ModeInfo :=
  { mode1080 with clock := 297000, vrefresh := 120 }

/-- 2160p30 at 297 MHz. -/
def mode2160 : ModeInfo :=
  { clock := 297000, hdisplay := 3840, htotal := 4400, vdisplay := 2160, vtotal := 2250,
    vrefresh := 30, name := "3840x2160" }

theorem applyDrmModeset_unscaled_iff_plain :
    let r := applyDrmModeset hdmiOptions board (.succeed [mode2160, mode1080]) 1920 1080 60 true
      .bgr888 (darkHw false) { fixedWidth := 1920, fixedHeight := 1080, fixedFps := 60 }
    r.2.2.currentMode = mode1080 ∧
      (Unscaled .single [mode2160, mode1080] 1920 1080 60 r.2.2.currentMode ↔
        Spared .single .single [mode2160, mode1080] 1920 1080 60) :=
  ⟨by decide +kernel,
    applyDrmModeset_unscaled_iff hdmiOptions board (.succeed [mode2160, mode1080]) 1920 1080 60
      true .bgr888 (darkHw false) { fixedWidth := 1920, fixedHeight := 1080, fixedFps := 60 }
      .single rfl (Prod.ext (by decide +kernel) rfl)⟩

/-- 1080p60 is in the list and a source of its size comes at 50 Hz, but 1080p120 is listed first:
the output scales to 2160p30. -/
theorem applyDrmModeset_scales :
    let modes := [mode1080Fast, mode1080, mode2160]
    let r := applyDrmModeset hdmiOptions board (.succeed modes) 1920 1080 50 true .bgr888
      (darkHw false) { fixedWidth := 1920, fixedHeight := 1080, fixedFps := 60 }
    r.1 = true ∧ r.2.2.currentMode = mode2160 ∧ mode1080 ∈ modes ∧
      (Qualified .single false mode1080 ∧ ¬ Unscaled .single modes 1920 1080 50 r.2.2.currentMode) ∧
      Qualified .rational false mode1080 ∧
      ¬ Unscaled .rational modes 1920 1080 50 r.2.2.currentMode := by
  intro modes r
  have hmode : r.2.2.currentMode = mode2160 := by decide +kernel
  have hlisted : mode1080 ∈ modes := by decide +kernel
  have hqualified (rates : Arithmetic) : Qualified rates false mode1080 :=
    ⟨by decide, by decide, by decide, by decide, by cases rates <;> decide +kernel, nofun⟩
  have hscaled (rates : Arithmetic) : ¬ Unscaled rates modes 1920 1080 50 r.2.2.currentMode := by
    intro hun
    have hsized := hun.size ⟨mode1080, hlisted, hqualified rates, rfl, rfl⟩
    rw [hmode] at hsized
    exact absurd hsized.1 (by decide)
  exact ⟨by decide +kernel, hmode, hlisted, ⟨hqualified .single, hscaled .single⟩,
    hqualified .rational, hscaled .rational⟩

/-! ## The rectangle -/

section Rectangle

variable {width height outW outH : UInt32}

/-- **The rectangle of a plan** is what the words of `apply_drm_modeset` compute for its mode. -/
theorem planModeset_rect {ar : Arithmetic} {sdi : Bool} {connector : Option Connector} {fps : ℚ}
    {plan : Plan} (h : planModeset ar sdi connector width.toNat height.toNat fps = some plan)
    (houtW : plan.mode.hdisplay = outW.toNat) (houtH : plan.mode.vdisplay = outH.toNat) :
    ∃ r, modesetRect width height outW outH = some r ∧
      r.w.toNat = plan.rectW ∧ r.h.toNat = plan.rectH ∧
      r.x.toNat = (plan.mode.hdisplay - plan.rectW) / 2 ∧
      r.y.toNat = (plan.mode.vdisplay - plan.rectH) / 2 := by
  obtain ⟨⟨hwidth0, hheight0, hwidth, hheight⟩, -, hrect, hrectW, hrectH⟩ := planModeset_spec h
  rw [houtW, houtH] at hrect ⊢
  have hsource : ¬ (width = 0 ∨ height = 0 ∨ width > 3840 ∨ height > 2160) := by
    rintro (rfl | rfl | hlarge | hlarge)
    · exact hwidth0 rfl
    · exact hheight0 rfl
    · exact absurd (UInt32.lt_iff_toNat_lt.mp hlarge) (Nat.not_lt.mpr hwidth)
    · exact absurd (UInt32.lt_iff_toNat_lt.mp hlarge) (Nat.not_lt.mpr hheight)
  rw [modesetRect_eq, if_neg hsource]
  rcases evenRect_cases width height outW outH with ⟨-, hzero⟩ | ⟨r, hr, hrect', -, hx, hy⟩
  · rw [hrect] at hzero
    exact absurd hzero (not_or.mpr ⟨hrectW, hrectH⟩)
  · rw [hrect] at hrect'
    obtain ⟨hw, hh⟩ := Prod.mk.inj hrect'
    rw [hw, hh]
    exact ⟨r, hr, rfl, rfl, hx, hy⟩

/-- **The video sink** is started where the words of `start_vdec_sink` give a rectangle. -/
theorem startVdecSink_rect {calls : VdecSinkCalls} (hw : Hw) {avh : Avh} (hnew : calls.new = true)
    (hstart : calls.start = true) (hoff : avh.vdecSinkStarted = false)
    (hwidth : avh.decWidth = width.toNat) (hheight : avh.decHeight = height.toNat)
    (houtW : avh.drmOutputMode.hdisplay = outW.toNat)
    (houtH : avh.drmOutputMode.vdisplay = outH.toNat) :
    (startVdecSink calls hw avh).1 = (vdecSinkRect width height outW outH).isSome := by
  have hzero : ∀ x : UInt32, x.toNat = 0 ↔ x = 0 := fun x =>
    ⟨fun h => UInt32.toNat_inj.mp h, fun h => h ▸ rfl⟩
  rw [startVdecSink, hnew, hstart, hoff, hwidth, hheight, houtW, houtH, vdecSinkRect_eq]
  simp only [Bool.false_eq_true, if_false, Bool.not_true, hzero]
  by_cases hnone : width = 0 ∨ height = 0 ∨ outW = 0 ∨ outH = 0
  · rw [if_pos hnone, if_pos hnone]
    rfl
  rw [if_neg hnone, if_neg hnone]
  rcases evenRect_cases width height outW outH with ⟨hr, hrect⟩ | ⟨r, hr, hrect, hne, -⟩
  · rw [if_pos hrect, hr]
    rfl
  · rw [hrect, if_neg (not_or.mpr hne), hr]
    rfl

end Rectangle

end QcapDemos.Rx
