import QcapDemos.Rx.Choice
import QcapDemos.Rx.Moves
import QcapDemos.Rx.Timing

set_option autoImplicit false

/-! # The timing on the screen

The program reaches the display by few calls: the Ultra modeset, the start and the stop of the AVH
output, a commit of the library behind the video sink, the audio controls, and the reset of the SDI
output. What each of them does to the hardware at most, a whole run does at most (`Covers`), in
whatever order the events come and whatever the calls return. So the screen never gets a timing that
the output cannot carry, unless the library sets one of its own.
-/

namespace QcapDemos.Rx

open QcapDemos.Drm QcapDemos.Alsa QcapDemos.Lib

/-! ## What every event does at most -/

section Covers

variable (opts : Options) (dev : Device)

/-- A relation between the hardware before and after that covers the calls of the program. -/
structure Covers (R : Hw → Hw → Prop) : Prop where
  refl : ∀ hw, R hw hw
  trans : ∀ {hw₁ hw₂ hw₃}, R hw₁ hw₂ → R hw₂ hw₃ → R hw₁ hw₃
  modeset : ∀ calls width height fps enableOverlay format hw ctx,
    R hw (applyDrmModeset opts dev calls width height fps enableOverlay format hw ctx).2.1
  start : ∀ calls hw avh, R hw (startDrmOutput opts dev calls hw avh).2.1
  stop : ∀ calls hw avh, R hw (stopDrmOutput opts dev calls hw avh).1
  sink : ∀ (c : SinkCommit) hw, R hw (hw.commit .sink (c.request hw) c.ok).2
  audio : ∀ hw b r, R hw { hw with passthrough := b, route := r }
  reset : ∀ calls hw ctx, R hw (reinitializeSdiOutput dev calls hw ctx).2

variable {opts dev} {R : Hw → Hw → Prop}

theorem Covers.route (hR : Covers opts dev R) (n : Nat) (calls : RouteCalls) (hw : Hw) :
    R hw (selectHdmiAudioRoute opts.sdi n calls hw).2 := by
  obtain ⟨b, r, heq, -⟩ := selectHdmiAudioRoute_spec opts.sdi n calls hw
  rw [heq]
  exact hR.audio hw b r

theorem Covers.pcm (hR : Covers opts dev R) (calls : SinkCalls) (hw : Hw) (avh : Avh) :
    R hw (startHdmiAudioSink opts.sdi calls hw avh).2.1 := by
  obtain ⟨b, r, heq⟩ := startHdmiAudioSink_hw opts.sdi calls hw avh
  rw [heq]
  exact hR.audio hw b r

theorem Covers.sinkWork (hR : Covers opts dev R) (work : List SinkCommit) :
    ∀ hw, R hw (Hw.sinkWork work hw) := by
  induction work with
  | nil => exact hR.refl
  | cons c work ih => exact fun hw => hR.trans (hR.sink c hw) (ih _)

theorem Covers.startVdecSink (hR : Covers opts dev R) (calls : VdecSinkCalls) (hw : Hw)
    (avh : Avh) : R hw (startVdecSink calls hw avh).2.1 := by
  rw [Rx.startVdecSink]
  dsimp only
  split_ifs <;> first | exact hR.refl hw | exact hR.sinkWork calls.work hw

theorem Covers.deleteVdecSink (hR : Covers opts dev R) (work : List SinkCommit) (hw : Hw)
    (avh : Avh) : R hw (deleteVdecSink work hw avh).1 := by
  rw [Rx.deleteVdecSink]
  split
  · exact hR.sinkWork work hw
  · exact hR.refl hw

/-- The receiver's threads. -/
theorem Covers.avhStep (hR : Covers opts dev R) (s : Hw × Avh) (e : AvhEvent) :
    R s.1 (Avh.step opts dev s e).1 := by
  cases e with
  | flows | caps | feed => exact hR.refl s.1
  | init calls =>
      simp only [Avh.step, Avh.initStep]
      cases s.2.init with
      | idle | setup | finish => exact hR.refl s.1
      | display =>
          dsimp only
          split
          · exact hR.refl s.1
          have hstart := hR.start calls.output s.1 s.2
          generalize startDrmOutput opts dev calls.output s.1 s.2 = r at hstart ⊢
          obtain ⟨ok, hw₁, avh₁⟩ := r
          cases ok with
          | false => exact hstart
          | true =>
              dsimp only
              have hsink := hR.startVdecSink calls.sink hw₁ avh₁
              generalize Rx.startVdecSink calls.sink hw₁ avh₁ = r at hsink ⊢
              obtain ⟨started, hw₂, avh₂⟩ := r
              cases started <;> exact hR.trans hstart hsink
  | frame push =>
      simp only [Avh.step, Avh.frame]
      split
      · exact hR.refl s.1
      · dsimp only
        split
        · exact hR.sinkWork push s.1
        · exact hR.refl s.1

theorem Covers.avhSteps (hR : Covers opts dev R) (es : List AvhEvent) :
    ∀ s : Hw × Avh, R s.1 (Avh.steps opts dev s es).1 := by
  induction es with
  | nil => exact fun s => hR.refl s.1
  | cons e es ih => exact fun s => hR.trans (hR.avhStep s e) (ih _)

theorem Covers.threads (hR : Covers opts dev R) (es : List AvhEvent) (s : State) :
    R s.hw (s.threads opts dev es).hw :=
  hR.avhSteps es (s.hw, s.avh)

theorem Covers.noteFlow (hR : Covers opts dev R) (calls : ArbitrateCalls) (flow : Bool)
    (s : State) : R s.hw (noteFlow opts dev calls flow s).hw := by
  rw [Rx.noteFlow]
  split_ifs
  · exact hR.refl s.hw
  · exact hR.threads _ s
  · exact hR.refl s.hw

theorem Covers.frameReady (hR : Covers opts dev R) (calls : ArbitrateCalls) (flow : Bool)
    (s : State) : R s.hw (frameReady opts dev calls flow s).2.hw := by
  rw [Rx.frameReady]
  dsimp only
  split_ifs
  · exact hR.refl s.hw
  · exact hR.threads _ s
  · exact hR.trans (hR.threads _ s) (hR.threads _ _)

theorem Covers.restore (hR : Covers opts dev R) (calls : ModesetCalls) (hw : Hw) (ctx : Ctx) :
    R hw (restoreUltraOutput opts dev calls hw ctx).2.1 :=
  hR.modeset _ _ _ _ _ _ hw ctx

theorem Covers.abandon (hR : Covers opts dev R) (calls : ArbitrateCalls) (s : State) :
    R s.hw (abandon opts dev calls s).hw :=
  hR.trans (hR.trans (hR.stop calls.stop s.hw s.avh) (hR.route 1 calls.route _))
    (hR.restore calls.restore _ s.ctx)

theorem Covers.takeover (hR : Covers opts dev R) (calls : ArbitrateCalls) (s : State) :
    R s.hw (takeover opts dev calls s).hw := by
  rw [Rx.takeover]
  dsimp only
  generalize (if s.ctx.currentMode.hdisplay ≠ 0 then s.ctx.currentMode.hdisplay
    else opts.fixedW) = width
  generalize (if s.ctx.currentMode.vdisplay ≠ 0 then s.ctx.currentMode.vdisplay
    else opts.fixedH) = height
  have hdummy := hR.modeset calls.dummy width height opts.fixedFps false .yuyv s.hw s.ctx
  generalize applyDrmModeset opts dev calls.dummy width height opts.fixedFps false .yuyv s.hw s.ctx
    = r at hdummy ⊢
  obtain ⟨ok, hw₁, ctx₁⟩ := r
  refine hR.trans hdummy ?_
  cases ok with
  | false => exact hR.abandon calls { s with hw := hw₁, ctx := ctx₁ }
  | true =>
  dsimp only
  refine hR.trans (hR.threads calls.gaps.beforeOutput { s with hw := hw₁, ctx := ctx₁ }) ?_
  generalize State.threads opts dev calls.gaps.beforeOutput { s with hw := hw₁, ctx := ctx₁ } = s₂
  have hstart := hR.start calls.output s₂.hw s₂.avh
  generalize startDrmOutput opts dev calls.output s₂.hw s₂.avh = r at hstart ⊢
  obtain ⟨ok, hw₃, avh₃⟩ := r
  refine hR.trans hstart ?_
  cases ok with
  | false => exact hR.abandon calls { s₂ with hw := hw₃, avh := avh₃ }
  | true =>
  dsimp only
  refine hR.trans (hR.threads calls.gaps.beforeRecheck { s₂ with hw := hw₃, avh := avh₃ }) ?_
  generalize State.threads opts dev calls.gaps.beforeRecheck { s₂ with hw := hw₃, avh := avh₃ } = s₄
  split
  · exact hR.abandon calls s₄
  have hsink := hR.startVdecSink calls.sink s₄.hw s₄.avh
  generalize Rx.startVdecSink calls.sink s₄.hw s₄.avh = r at hsink ⊢
  obtain ⟨ok, hw₅, avh₅⟩ := r
  refine hR.trans hsink ?_
  cases ok with
  | false => exact hR.abandon calls { s₄ with hw := hw₅, avh := avh₅ }
  | true => exact hR.pcm calls.audio hw₅ _

theorem Covers.giveBack (hR : Covers opts dev R) (calls : ArbitrateCalls) (s : State) :
    R s.hw (giveBack opts dev calls s).hw := by
  rw [Rx.giveBack]
  dsimp only
  have hdummy := hR.modeset calls.dummy opts.fixedW opts.fixedH opts.fixedFps false .yuyv s.hw s.ctx
  generalize applyDrmModeset _ _ _ _ _ _ _ _ _ _ = r at hdummy ⊢
  obtain ⟨ok, hw₁, ctx₁⟩ := r
  refine hR.trans hdummy ?_
  have hdelete := hR.deleteVdecSink calls.sinkStop hw₁
    { (if opts.sdi then stopHdmiAudioSink s.avh else s.avh) with displayEnabled := false }
  generalize Rx.deleteVdecSink calls.sinkStop hw₁ _ = r at hdelete ⊢
  obtain ⟨hw₂, avh₂⟩ := r
  refine hR.trans hdelete ?_
  exact hR.trans (hR.stop calls.stop hw₂ _)
    (hR.trans (hR.route 1 calls.route _) (hR.restore calls.restore _ _))

theorem Covers.arbitrate (hR : Covers opts dev R) (calls : ArbitrateCalls) (s : State) :
    R s.hw (arbitrate opts dev calls s).2.hw := by
  rw [Rx.arbitrate]
  dsimp only
  generalize (s.avh.autoFlowCount != 0) = flow
  have hready := hR.trans (hR.noteFlow calls flow s)
    (hR.frameReady calls flow (Rx.noteFlow opts dev calls flow s))
  generalize Rx.frameReady opts dev calls flow (Rx.noteFlow opts dev calls flow s) = r at hready ⊢
  obtain ⟨ready, s₂⟩ := r
  have htaken : R s.hw (if ready then Rx.takeover opts dev calls s₂ else s₂).hw := by
    split
    · exact hR.trans hready (hR.takeover calls s₂)
    · exact hready
  dsimp only
  generalize (if ready then Rx.takeover opts dev calls s₂ else s₂) = s₃ at htaken ⊢
  split
  · exact hR.trans htaken (hR.giveBack calls s₃)
  · exact htaken

theorem Covers.hotplug (hR : Covers opts dev R) (calls : HotplugCalls) (hw : Hw) (ctx : Ctx) :
    R hw (hotplug opts dev calls hw ctx).1 := by
  rw [Rx.hotplug]
  dsimp only
  split_ifs
  · exact hR.refl hw
  · exact hR.modeset _ _ _ _ _ _ hw _
  · exact hR.refl hw

theorem Covers.modesetFormat (hR : Covers opts dev R) (calls : DauCalls) (format : VideoFormat)
    (hw : Hw) (ctx : Ctx) : R hw (modesetFormat opts dev calls format hw ctx).2.1 := by
  rw [Rx.modesetFormat]
  obtain ⟨width, height, fps⟩ := ctx.target opts format
  dsimp only
  generalize (if format.locked then ctx.ultraOverlayFormat else .yuyv) = overlayFormat
  have hfirst := hR.modeset calls.modeset width height fps format.locked overlayFormat hw ctx
  generalize applyDrmModeset opts dev calls.modeset width height fps format.locked overlayFormat hw
    ctx = r at hfirst ⊢
  obtain ⟨ok, hw₁, ctx₁⟩ := r
  cases ok with
  | true => exact hfirst
  | false =>
      dsimp only
      split
      · exact hR.trans hfirst (hR.modeset _ _ _ _ _ _ hw₁ ctx₁)
      · exact hfirst

theorem Covers.dauSetVideoFormat (hR : Covers opts dev R) (calls : DauCalls)
    (format : Option VideoFormat) (hw : Hw) (ctx : Ctx) :
    R hw (dauSetVideoFormat opts dev calls format hw ctx).2.1 := by
  cases format with
  | none => exact hR.refl hw
  | some format =>
      rw [Rx.dauSetVideoFormat]
      dsimp only
      split_ifs
      · exact hR.modeset _ _ _ _ _ _ hw _
      · exact hR.refl hw
      · exact hR.refl hw
      · exact hR.refl hw
      · exact hR.modesetFormat calls format hw _

theorem Covers.pollSdiResync (hR : Covers opts dev R) (now : Nat) (status : UInt32)
    (calls : ResetCalls) (hw : Hw) (ctx : Ctx) :
    R hw (pollSdiResync dev now status calls hw ctx).2.1 := by
  rw [Rx.pollSdiResync]
  split
  · exact hR.refl hw
  dsimp only
  generalize Resync.observe _ _ _ _ _ = r
  obtain ⟨policy, requested⟩ := r
  cases requested with
  | false => exact hR.refl hw
  | true => exact hR.reset calls hw _

/-- **Every event is covered.** -/
theorem Covers.step (hR : Covers opts dev R) (s : State) (e : Event) :
    R s.hw ((receiver opts dev).step s e).1.hw := by
  cases e with
  | avh e =>
      simp only [receiver]
      split
      · exact hR.threads [e] s
      · exact hR.refl s.hw
  | arbitrate calls =>
      simp only [receiver]
      split
      · exact hR.arbitrate calls s
      · exact hR.refl s.hw
  | dau calls format => exact hR.dauSetVideoFormat calls (some format) s.hw s.ctx
  | hotplug calls =>
      simp only [receiver]
      split
      · exact hR.refl s.hw
      · exact hR.hotplug calls s.hw s.ctx
  | resync now status calls => exact hR.pollSdiResync now status calls s.hw s.ctx

theorem Covers.run (hR : Covers opts dev R) (es : List Event) :
    ∀ s, R s.hw ((receiver opts dev).run s es).hw := by
  induction es with
  | nil => exact fun s => hR.refl s.hw
  | cons e es ih => exact fun s => hR.trans (hR.step s e) (ih _)

theorem Covers.startup (hR : Covers opts dev R) {calls : StartupCalls} {hw : Hw} {s : State}
    (h : startup opts dev calls hw = some s) : R hw s.hw := by
  rw [Rx.startup] at h
  split at h
  · cases h
  have hroute := hR.route 1 calls.route hw
  generalize selectHdmiAudioRoute opts.sdi 1 calls.route hw = r at hroute h
  obtain ⟨routed, hw₁⟩ := r
  refine hR.trans hroute ?_
  cases routed with
  | false => cases h
  | true =>
  dsimp only at h
  split at h
  · cases h
  next initW initH initFps fixedW fixedH fixedFps _ =>
  have hmodeset := hR.modeset calls.modeset initW initH initFps opts.forceDanteSource .bgr888 hw₁
    { fixedWidth := fixedW, fixedHeight := fixedH, fixedFps := fixedFps
      lastConnectorConnected := calls.connected, haveLastConnectorState := true }
  generalize applyDrmModeset _ _ _ _ _ _ _ _ _ _ = r at hmodeset h
  obtain ⟨ok, hw₂, ctx₂⟩ := r
  dsimp only at h
  split_ifs at h
  cases h
  exact hmodeset

end Covers

/-! ## The modes of the CRTCs -/

/-- A commit of the library behind the video sink gave the CRTC the mode id that it has. -/
def Hw.SetBySink (hw : Hw) (c : Nat) : Prop :=
  ∃ k ∈ hw.commits, k.caller = .sink ∧ k.ok = true ∧
    Request.value? k.request (.crtc c) .modeId = some (hw.modeId c)

section Timed

variable (dev : Device) (P : ModeInfo → Prop)

/-- A CRTC has the mode it had before, or a mode that `P` allows, or one that the library set. -/
structure Timed (hw hw' : Hw) : Prop where
  commits : hw.commits <+: hw'.commits
  modes : ∀ c ∈ dev.crtcs, (hw'.modeId c = hw.modeId c ∧ hw'.crtcMode c = hw.crtcMode c) ∨
    (∀ m, hw'.crtcMode c = some m → P m) ∨ Hw.SetBySink hw' c

variable {dev P} {hw hw₁ hw₂ : Hw}

theorem Timed.of_same (hcommits : hw.commits <+: hw₁.commits)
    (h : ∀ c ∈ dev.crtcs, hw₁.modeId c = hw.modeId c ∧ hw₁.crtcMode c = hw.crtcMode c) :
    Timed dev P hw hw₁ :=
  ⟨hcommits, fun c hc => .inl (h c hc)⟩

theorem Timed.refl (hw : Hw) : Timed dev P hw hw :=
  .of_same List.prefix_rfl fun _ _ => ⟨rfl, rfl⟩

theorem Timed.trans (h₁ : Timed dev P hw hw₁) (h₂ : Timed dev P hw₁ hw₂) : Timed dev P hw hw₂ where
  commits := h₁.commits.trans h₂.commits
  modes c hc := by
    rcases h₂.modes c hc with ⟨hid, hmode⟩ | hnew
    · rcases h₁.modes c hc with hsame | hallowed | ⟨k, hk, hsink, hok, hset⟩
      · exact .inl ⟨hid.trans hsame.1, hmode.trans hsame.2⟩
      · exact .inr (.inl (hmode ▸ hallowed))
      · exact .inr (.inr ⟨k, h₂.commits.subset hk, hsink, hok, hid ▸ hset⟩)
    · exact .inr hnew

theorem Timed.ite {b : Prop} [Decidable b] (h : Timed dev P hw hw₁) :
    Timed dev P hw (if b then hw₁ else hw) := by
  split
  · exact h
  · exact .refl hw

/-- A request sets the modes that it names. -/
theorem timed_write {req : Request} (hcommits : hw.commits <+: hw₁.commits)
    (hconfig : hw₁.config = req.write hw.config) (hmodes : hw₁.blobMode = hw.blobMode)
    (hreq : ∀ o blob, Request.value? req o .modeId = some blob → blob ≠ 0 → P (hw.blobMode blob)) :
    Timed dev P hw hw₁ where
  commits := hcommits
  modes c _ := by
    have hid : hw₁.modeId c =
        (Request.value? req (.crtc c) .modeId).elim (hw.modeId c) (stored .modeId) := by
      rw [Hw.modeId, hconfig, Request.get_write]
      rfl
    cases hvalue : Request.value? req (.crtc c) .modeId with
    | none =>
        rw [hvalue] at hid
        refine .inl ⟨hid, ?_⟩
        rw [Hw.crtcMode, Hw.crtcMode, hid, hmodes]
        rfl
    | some blob =>
        rw [hvalue] at hid
        refine .inr (.inl fun m hm => ?_)
        rw [Hw.crtcMode, hid, hmodes] at hm
        change (if blob = 0 then none else some (hw.blobMode blob)) = some m at hm
        split_ifs at hm with hzero
        rw [← Option.some.inj hm]
        exact hreq _ _ hvalue hzero

theorem timed_commit (caller : Caller) {req : Request} (ok : Bool)
    (hreq : ∀ o blob, Request.value? req o .modeId = some blob → blob ≠ 0 → P (hw.blobMode blob)) :
    Timed dev P hw (hw.commit caller req ok).2 := by
  have hcommits : hw.commits <+: (hw.commit caller req ok).2.commits := List.prefix_append _ _
  cases hok : ok && req.known with
  | false =>
      have hconfig : (hw.commit caller req ok).2.config = hw.config := by simp [Hw.commit, hok]
      have hid (c : Nat) : (hw.commit caller req ok).2.modeId c = hw.modeId c := by
        rw [Hw.modeId, hconfig, Hw.modeId]
      refine .of_same hcommits fun c _ => ⟨hid c, ?_⟩
      rw [Hw.crtcMode, Hw.crtcMode, hid]
      rfl
  | true => exact timed_write hcommits (by simp [Hw.commit, hok]) rfl hreq

/-- A commit of the library sets modes of its own. -/
theorem timed_sink (c : SinkCommit) (hw : Hw) :
    Timed dev P hw (hw.commit .sink (c.request hw) c.ok).2 where
  commits := List.prefix_append _ _
  modes k _ := by
    have hid : (hw.commit .sink (c.request hw) c.ok).2.modeId k =
        if c.ok && Request.known (c.request hw) then
          (Request.write (c.request hw) hw.config).get (.crtc k) .modeId
        else hw.modeId k := by
      rw [Hw.modeId, Hw.commit]
      dsimp only
      split <;> rfl
    have hsame (h : (hw.commit .sink (c.request hw) c.ok).2.modeId k = hw.modeId k) :
        (hw.commit .sink (c.request hw) c.ok).2.crtcMode k = hw.crtcMode k := by
      rw [Hw.crtcMode, Hw.crtcMode, h]
      rfl
    cases hok : c.ok && Request.known (c.request hw) with
    | false =>
        rw [hok] at hid
        exact .inl ⟨hid, hsame hid⟩
    | true =>
        rw [hok, if_pos rfl, Request.get_write] at hid
        cases hvalue : Request.value? (c.request hw) (.crtc k) .modeId with
        | none =>
            rw [hvalue] at hid
            exact .inl ⟨hid, hsame hid⟩
        | some v =>
            rw [hvalue] at hid
            refine .inr (.inr ⟨_, List.mem_append_right hw.commits (List.mem_singleton_self _),
              rfl, hok, ?_⟩)
            exact hvalue.trans (congrArg some hid.symm)

/-- A new blob is none that a CRTC has. -/
theorem timed_createBlob (caller : Caller) (mode : ModeInfo) (hint : Option Nat) (hw : Hw) :
    Timed dev P hw (hw.createBlob dev caller mode hint).2 ∧
      ∀ blob, (hw.createBlob dev caller mode hint).1 = some blob →
        (hw.createBlob dev caller mode hint).2.blobMode blob = mode := by
  rcases Hw.createBlob_cases dev caller mode hint hw with ⟨-, hblob⟩ | ⟨n, -, -, hunset, hblob⟩
  · rw [hblob]
    exact ⟨.refl hw, nofun⟩
  · rw [hblob]
    refine ⟨.of_same List.prefix_rfl fun c hc => ⟨rfl, ?_⟩, fun blob h => ?_⟩
    · show (if hw.modeId c = 0 then none
        else some (Function.update hw.blobMode n mode (hw.modeId c))) = _
      rw [Function.update_of_ne (hunset c hc)]
      rfl
    · obtain rfl := Option.some.inj h
      exact Function.update_self _ _ _

end Timed

/-! ### The Ultra modeset -/

section Modeset

variable (dev : Device) (opts : Options)

theorem config_destroyDumbFb (fb bo c : Nat) (hw : Hw) :
    (hw.destroyDumbFb dev .modeset fb bo).modeId c = hw.modeId c ∧
      (hw.destroyDumbFb dev .modeset fb bo).crtcMode c = hw.crtcMode c := by
  rw [Hw.destroyDumbFb]
  split_ifs <;> exact ⟨rfl, rfl⟩

theorem config_destroyObjects (objs : Objects) (c : Nat) (hw : Hw) :
    (destroyObjects dev objs hw).modeId c = hw.modeId c ∧
      (destroyObjects dev objs hw).crtcMode c = hw.crtcMode c := by
  obtain ⟨hid₁, hmode₁⟩ := config_destroyDumbFb dev objs.primaryFb objs.primaryBo c hw
  obtain ⟨hid₂, hmode₂⟩ := config_destroyDumbFb dev objs.overlayFb objs.overlayBo c
    (hw.destroyDumbFb dev .modeset objs.primaryFb objs.primaryBo)
  rw [destroyObjects]
  split <;> exact ⟨hid₂.trans hid₁, hmode₂.trans hmode₁⟩

theorem timed_modeset (calls : ModesetCalls) (width height : Nat) (fps : ℚ) (enableOverlay : Bool)
    (format : PixelFormat) (hw : Hw) (ctx : Ctx) :
    Timed dev (Qualified dev.arithmetic opts.sdi) hw
      (applyDrmModeset opts dev calls width height fps enableOverlay format hw ctx).2.1 := by
  obtain ⟨cs, hcommits, -⟩ := applyDrmModeset_commits opts dev calls width height fps enableOverlay
    format hw ctx
  have hcases := applyDrmModeset_cases dev opts calls width height fps enableOverlay format hw ctx
  generalize applyDrmModeset opts dev calls width height fps enableOverlay format hw ctx = r
    at hcommits hcases ⊢
  refine ⟨⟨cs, hcommits.symm⟩, fun c hc => ?_⟩
  cases hcases with
  | rejected hw' hrestored =>
      have hmodeId : hw'.modeId c = hw.modeId c := by rw [Hw.modeId, hrestored.config, Hw.modeId]
      refine .inl ⟨hmodeId, ?_⟩
      rw [Hw.crtcMode, Hw.crtcMode, hmodeId, hrestored.modes c hc]
  | committed plan extra objs overlay hw₁ b ok hplan hcreated hoverlay hfallback hextra =>
      have hnew : Timed dev (Qualified dev.arithmetic opts.sdi) hw hw₁ := by
        refine .of_same (by rw [hcreated.eq]) fun c hc => ?_
        have hmodeId : hw₁.modeId c = hw.modeId c := by
          rw [hcreated.eq]
          rfl
        have hmodes : hw₁.blobMode = Function.update hw.blobMode objs.modeBlob plan.mode := by
          rw [hcreated.eq]
        refine ⟨hmodeId, ?_⟩
        rw [Hw.crtcMode, Hw.crtcMode, hmodeId, hmodes, Function.update_of_ne (hcreated.unset c hc)]
      have hmode : hw₁.blobMode objs.modeBlob = plan.mode := by
        rw [hcreated.eq]
        exact Function.update_self _ _ _
      have hset : Timed dev (Qualified dev.arithmetic opts.sdi) hw₁ (Hw.afterCommit hw₁
          (modesetRequest dev calls plan width height objs overlay extra)
          (!opts.sdi && hw.passthrough)) := by
        refine timed_write (List.prefix_append _ _) rfl rfl fun o blob hvalue _ => ?_
        rw [modesetRequest_mode dev hextra hvalue, hmode]
        exact (planModeset_qualified hplan).2
      have hend : Timed dev (Qualified dev.arithmetic opts.sdi) _ (destroyObjects dev ctx.objects
          (Hw.afterCommit hw₁ (modesetRequest dev calls plan width height objs overlay extra)
            (!opts.sdi && hw.passthrough))) :=
        .of_same (by rw [(destroyObjects_keeps dev ctx.objects _).1])
          fun c _ => config_destroyObjects dev ctx.objects c _
      exact (hnew.trans (hset.trans hend)).modes c hc

end Modeset

/-! ### The reset -/

/-- A reset keeps the modes of all CRTCs, or sets an SDI timing anew. -/
theorem ResetOutcome.timed {dev : Device} {sdi : Bool} {calls : ResetCalls} {hw hw' : Hw}
    {ctx : Ctx} {ok : Bool} (h : ResetOutcome dev calls hw ctx (ok, hw')) :
    Timed dev (Qualified dev.arithmetic sdi) hw hw' := by
  have hother (c : Nat) (hcrtc : c ≠ dev.crtcId) : hw'.modeId c = hw.modeId c :=
    h.get (by simp [resetProperties, hcrtc])
  cases h with
  | skipped => exact .refl hw
  | tried blob ok hw₁ hscreen hfresh hunset hne hforeign hend =>
      obtain ⟨cs, hcs, -⟩ := hend.commits
      have hmodes : hw₁.blobMode = Function.update hw.blobMode blob ctx.currentMode := by
        rw [hend.eq]
        rfl
      have hkept (c : Nat) (hc : c ∈ dev.crtcs) (hid : hw₁.modeId c = hw.modeId c) :
          hw₁.crtcMode c = hw.crtcMode c := by
        rw [Hw.crtcMode, Hw.crtcMode, hid, hmodes, Function.update_of_ne (hunset c hc)]
      refine ⟨⟨cs, hcs.symm⟩, fun c hc => ?_⟩
      by_cases hcrtc : c = dev.crtcId
      · subst hcrtc
        rcases hend.modeId_cases rfl with hid | hid
        · exact .inl ⟨hid, hkept _ hc hid⟩
        · refine .inr (.inl fun m hm => ?_)
          change hw₁.crtcMode dev.crtcId = some m at hm
          rw [Hw.crtcMode, hid, if_neg hne, hmodes, Function.update_self] at hm
          rw [← Option.some.inj hm]
          exact qualified_of_isSdiMode hscreen.timing
      · exact .inl ⟨hother c hcrtc, hkept c hc (hother c hcrtc)⟩

/-! ### The AVH output -/

section Output

variable (dev : Device) (opts : Options)

theorem timed_stopDrmOutput {P : ModeInfo → Prop} (calls : StopCalls) (hw : Hw) (avh : Avh) :
    Timed dev P hw (stopDrmOutput opts dev calls hw avh).1 := by
  -- what is destroyed or closed is no mode
  have hdestroy (o : Object) (hw : Hw) : Timed dev P hw (hw.destroy dev o) :=
    .of_same List.prefix_rfl fun _ _ => ⟨rfl, rfl⟩
  have hrm (n : Nat) (hw : Hw) : Timed dev P hw (hw.rmFb dev .avh n) :=
    .of_same List.prefix_rfl fun _ _ => ⟨rfl, rfl⟩
  have hclose (hw : Hw) : Timed dev P hw (hw.closeClient .avh) :=
    .of_same List.prefix_rfl fun _ _ => ⟨rfl, rfl⟩
  have hzero (avh : Avh) : ∀ e ∈ stopRequest calls avh, e.value = 0 := by
    intro e he
    simp only [stopRequest, List.mem_append] at he
    rcases he with ((he | he) | he) | he <;> rw [mem_askKnown he]
  rw [stopDrmOutput]
  dsimp only
  generalize (if opts.sdi = true then stopHdmiAudioSink avh else avh) = avh
  split
  · exact .refl hw
  refine .trans ?_ (hclose _)
  refine .trans ?_ (.ite (hdestroy ⟨.avh, .blob avh.drmModeBlobId⟩ _))
  refine .trans ?_ (.ite (hdestroy ⟨.avh, .bo avh.drmPrimaryBoHandle⟩ _))
  refine .trans ?_ (.ite (hrm avh.drmPrimaryFbId _))
  refine .ite (timed_commit .avh calls.commit fun o blob hvalue hne => ?_)
  exact absurd (hzero avh _ (Request.mem_of_value? hvalue)) hne

/-- The output is built with one mode blob. -/
theorem startRequest_modeId {calls : OutputCalls} {path : Path} {fb blob : Nat} {extra : Request}
    (hextra : addOutputProperties calls.propId calls.add dev.arithmetic opts.sdi path.connectorId
      path.mode = some extra) {e : Entry} (he : e ∈ startRequest calls path fb blob ++ extra)
    (hmodeId : e.prop = some .modeId) : e.value = blob := by
  simp only [startRequest, outputProperties, List.flatMap_cons, List.flatMap_nil,
    List.mem_append, List.not_mem_nil, or_false] at he
  rcases he with ((he | he | he | he | he | he | he | he | he | he | he | he | he) | he) | he
  case inr => exact absurd hmodeId (addOutputProperties_shows hextra he).2.1
  all_goals
    obtain rfl := mem_ask he
    split_ifs at hmodeId
    simp_all

theorem timed_buildOutput {P : ModeInfo → Prop} (calls : OutputCalls) (path : Path) (hw : Hw)
    (avh : Avh) (hmode : P path.mode) :
    Timed dev P hw (buildOutput opts dev calls path hw avh).2.1 := by
  rw [buildOutput]
  have hdumb : Timed dev P hw (hw.createDumb .avh calls.dumb).2 := by
    cases calls.dumb with
    | none => exact .refl hw
    | some hint => exact .of_same List.prefix_rfl fun _ _ => ⟨rfl, rfl⟩
  generalize hw.createDumb .avh calls.dumb = r at hdumb ⊢
  obtain ⟨bo?, hw₁⟩ := r
  refine hdumb.trans ?_
  cases bo? with
  | none => exact .refl hw₁
  | some bo =>
  dsimp only
  obtain ⟨hkept, hcontent⟩ := @timed_createBlob dev P .avh path.mode calls.blob hw₁
  generalize hw₁.createBlob dev .avh path.mode calls.blob = r at hkept hcontent ⊢
  obtain ⟨blob?, hw₂⟩ := r
  refine hkept.trans ?_
  cases blob? with
  | none => exact .refl hw₂
  | some blob =>
  dsimp only
  have hfb : Timed dev P hw₂ (hw₂.addFb dev .avh .bgr888 bo calls.addFb).2 ∧
      (hw₂.addFb dev .avh .bgr888 bo calls.addFb).2.blobMode = hw₂.blobMode := by
    cases calls.addFb with
    | none => exact ⟨.refl hw₂, rfl⟩
    | some hint => exact ⟨.of_same List.prefix_rfl fun _ _ => ⟨rfl, rfl⟩, rfl⟩
  generalize hw₂.addFb dev .avh .bgr888 bo calls.addFb = r at hfb ⊢
  obtain ⟨fb?, hw₃⟩ := r
  refine hfb.1.trans ?_
  cases fb? with
  | none => exact .refl hw₃
  | some fb =>
  dsimp only
  rw [commitOutput]
  split
  · exact .refl hw₃
  split
  · exact .refl hw₃
  next extra hextra =>
  refine timed_commit .avh _ fun o v hvalue _ => ?_
  have hv : v = blob := startRequest_modeId dev opts hextra (Request.mem_of_value? hvalue) rfl
  rw [hv, hfb.2, hcontent blob rfl]
  exact hmode

theorem timed_startDrmOutput (calls : OutputCalls) (hw : Hw) (avh : Avh) :
    Timed dev (Qualified dev.arithmetic opts.sdi) hw
      (startDrmOutput opts dev calls hw avh).2.1 := by
  rw [startDrmOutput]
  dsimp only
  split
  · exact .refl hw
  split
  · exact timed_stopDrmOutput dev opts calls.stop hw avh
  split
  · exact timed_stopDrmOutput dev opts calls.stop hw _
  split
  · exact timed_stopDrmOutput dev opts calls.stop hw _
  next path hpath =>
  obtain ⟨res, -, hfound⟩ := Option.bind_eq_some_iff.mp hpath
  obtain ⟨k, -, -, -, -, hchosen⟩ := findPath_chosen hfound
  have hqualified : Qualified dev.arithmetic opts.sdi path.mode :=
    qualified_of_eligible (chooseMode_wellChosen hchosen).supported
  have hbuild := timed_buildOutput dev opts calls path hw { avh with drmOpen := true } hqualified
  generalize buildOutput opts dev calls path hw { avh with drmOpen := true } = r at hbuild ⊢
  obtain ⟨ok, hw₁, avh₁⟩ := r
  refine hbuild.trans ?_
  cases ok with
  | false => exact timed_stopDrmOutput dev opts calls.stop hw₁ avh₁
  | true =>
      dsimp only
      split
      · obtain ⟨b, r, heq⟩ := startHdmiAudioSink_hw opts.sdi calls.audio hw₁
          { avh₁ with drmModesetActive := true, drmOutputMode := path.mode }
        rw [heq]
        exact .of_same List.prefix_rfl fun _ _ => ⟨rfl, rfl⟩
      · exact .refl hw₁

end Output

/-! ## Whole runs -/

theorem covers_timed (opts : Options) (dev : Device) :
    Covers opts dev (Timed dev (Qualified dev.arithmetic opts.sdi)) where
  refl := .refl
  trans := .trans
  modeset := timed_modeset dev opts
  start := timed_startDrmOutput dev opts
  stop := timed_stopDrmOutput dev opts
  sink := timed_sink
  audio _ _ _ := .of_same List.prefix_rfl fun _ _ => ⟨rfl, rfl⟩
  reset calls hw ctx := (reinitializeSdiOutput_cases dev calls hw ctx).timed

/-- **The screen never gets a timing that the output cannot carry.** In whatever order the flows,
the frames, the notifications, the connector events and the polls come and whatever their calls
return, a CRTC has the mode that it had before the program, or a qualified one, or one that the
library behind the video sink set. The exact rate of a qualified mode is at most 60.5 Hz up to the
rounding of its computation. -/
theorem screen_qualified {opts : Options} {dev : Device} {calls : StartupCalls} {hw : Hw}
    {s₀ : State} (hstart : startup opts dev calls hw = some s₀) (es : List Event) :
    let s := (receiver opts dev).run s₀ es
    ∀ c ∈ dev.crtcs, ∀ m, s.hw.crtcMode c = some m →
      hw.crtcMode c = some m ∨
      (Qualified dev.arithmetic opts.sdi m ∧
        modeVrefresh .rational m ≤ 121 / 2 * (1 + 1 / 2 ^ 21)) ∨
      Hw.SetBySink s.hw c := by
  intro s c hc m hm
  have htimed := (covers_timed opts dev).trans ((covers_timed opts dev).startup hstart)
    ((covers_timed opts dev).run es s₀)
  rcases htimed.modes c hc with ⟨-, hsame⟩ | hallowed | hset
  · exact .inl (hsame.symm.trans hm)
  · exact .inr (.inl ⟨hallowed m hm, (hallowed m hm).exact_refresh⟩)
  · exact .inr (.inr hset)

theorem startup_board : startup (sdiOptions true) board .succeed (darkHw false)
    = some (boardState (sdiOptions true)) := by
  have hsome : (startup (sdiOptions true) board .succeed (darkHw false)).isSome = true := by
    decide +kernel
  obtain ⟨s, hs⟩ := Option.isSome_iff_exists.mp hsome
  rw [boardState, hs]
  rfl

theorem crtcMode_takeover : ((receiver (sdiOptions true) board).run (boardState (sdiOptions true))
    takeoverRun).hw.crtcMode 2 = some mode1080 := by
  decide +kernel

theorem screen_qualified_takeover :
    (darkHw false).crtcMode 2 = some mode1080 ∨
      (Qualified .single (sdiOptions true).sdi mode1080 ∧
        modeVrefresh .rational mode1080 ≤ 121 / 2 * (1 + 1 / 2 ^ 21)) ∨
      Hw.SetBySink ((receiver (sdiOptions true) board).run (boardState (sdiOptions true))
        takeoverRun).hw 2 :=
  screen_qualified startup_board takeoverRun 2 (by decide) mode1080 crtcMode_takeover

end QcapDemos.Rx
