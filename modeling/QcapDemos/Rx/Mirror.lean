import QcapDemos.Rx.Moves

set_option autoImplicit false

/-! # The context mirrors the display

The context remembers what it committed: five kernel objects, a mode, whether the overlay is on.
`Kept` says that its objects are exactly the live ones of the Ultra modeset, and that the other
planes and CRTCs show none of them; `Mirrored` says that the display is what the context
remembers. Every move keeps the first, and the second while the overlay is on. The requests are
assumed to be built without a failing addition, whose result the modeset does not look at.
-/

namespace QcapDemos.Rx

open QcapDemos.Drm QcapDemos.Alsa QcapDemos.Lib

/-- No addition to the request fails. -/
def ModesetCalls.Adds (calls : ModesetCalls) : Prop := ∀ o p, calls.add o p = true

theorem ModesetCalls.succeed_adds (modes : List ModeInfo) : (ModesetCalls.succeed modes).Adds :=
  fun _ _ => rfl

section Mirror

variable (opts : Options) (dev : Device)

/-! ## What the request of a modeset writes -/

/-- The configuration `c'` shows the objects of a modeset, and is `c` on the other planes and
CRTCs. -/
structure Shows (objs : Objects) (on : Bool) (c c' : Config) : Prop where
  primary : c'.get (.plane dev.primaryPlaneId) .fbId = objs.primaryFb
  overlay : c'.get (.plane dev.overlayPlaneId) .fbId = if on then objs.overlayFb else 0
  source : c'.get (.plane dev.overlayPlaneId) .overlaySource = if on then 1 else 0
  mode : c'.get (.crtc dev.crtcId) .modeId = objs.modeBlob
  planes : ∀ q, q ≠ dev.primaryPlaneId → q ≠ dev.overlayPlaneId →
    c'.get (.plane q) .fbId = c.get (.plane q) .fbId
  crtcs : ∀ k, k ≠ dev.crtcId → c'.get (.crtc k) .modeId = c.get (.crtc k) .modeId

section Request

variable {dev} {ar : Arithmetic} {calls : ModesetCalls} {plan : Plan} {width height : Nat}
  {objs : Objects} {overlay sdi : Bool} {extra : Request}

/-- An entry that is asked for is in a request without unknown properties under its name. -/
theorem mem_of_ask {propId add : Obj → PropName → Bool} {o : Obj} {p : PropName} {v : Nat}
    {req : Request} (hadd : add o p = true) (hsub : ∀ e ∈ ask propId add o p v, e ∈ req)
    (hknown : req.known = true) : { obj := o, prop := some p, value := v } ∈ req := by
  rw [ask, if_pos hadd] at hsub
  have hmem := hsub _ (List.mem_singleton_self _)
  have hprop := List.all_eq_true.mp hknown _ hmem
  split at hmem
  · exact hmem
  · next h => simp [h] at hprop

/-- The entries of the request that set a mode, a framebuffer or a source. -/
theorem modesetRequest_entries
    (hextra : addOutputProperties calls.propId calls.add ar sdi dev.connectorId plan.mode =
      some extra)
    {e : Entry} (he : e ∈ modesetRequest dev calls plan width height objs overlay extra) :
    (e.prop = some .modeId → e.obj = .crtc dev.crtcId ∧ e.value = objs.modeBlob) ∧
    (e.prop = some .fbId → (e.obj = .plane dev.primaryPlaneId ∧ e.value = objs.primaryFb) ∨
      (e.obj = .plane dev.overlayPlaneId ∧ e.value = if overlay then objs.overlayFb else 0)) ∧
    (e.prop = some .overlaySource → e.obj = .plane dev.overlayPlaneId ∧
      e.value = if overlay then 1 else 0) := by
  -- an entry is asked for under the name of its property, or under none
  have hask : ∀ {o p v}, e ∈ ask calls.propId calls.add o p v →
      e.obj = o ∧ e.value = v ∧ ∀ p', e.prop = some p' → p' = p := by
    intro o p v h
    rw [mem_ask h]
    refine ⟨rfl, rfl, fun p' hp' => ?_⟩
    dsimp only at hp'
    split at hp'
    · exact (Option.some.inj hp').symm
    · cases hp'
  have hopt : ∀ {o p v}, e ∈ askKnown calls.propId calls.add o p v →
      e ∈ ask calls.propId calls.add o p v := by
    intro o p v h
    rw [askKnown] at h
    split at h
    · exact h
    · cases h
  rw [modesetRequest, List.mem_append, List.mem_append, List.mem_append] at he
  rcases he with ((he | he) | he) | he
  · simp only [outputRequest, List.mem_append] at he
    rcases he with (he | he) | he <;> obtain ⟨ho, hv, hp⟩ := hask he <;> grind
  · simp only [primaryRequest, List.mem_append] at he
    rcases he with he | he
    · rcases he with ((((((((he | he) | he) | he) | he) | he) | he) | he) | he) | he <;>
        obtain ⟨ho, hv, hp⟩ := hask he <;> grind
    · obtain ⟨ho, hv, hp⟩ := hask (hopt he)
      grind
  · cases overlay with
    | false =>
        simp only [overlayRequest, Bool.false_eq_true, if_false, List.mem_append] at he
        rcases he with he | he | he <;> obtain ⟨ho, hv, hp⟩ := hask he <;> grind
    | true =>
        simp only [overlayRequest, if_true, List.mem_append] at he
        rcases he with he | he | he
        · obtain ⟨ho, hv, hp⟩ := hask he
          grind
        · rcases he with ((((((((he | he) | he) | he) | he) | he) | he) | he) | he) | he <;>
            obtain ⟨ho, hv, hp⟩ := hask he <;> grind
        · obtain ⟨ho, hv, hp⟩ := hask (hopt he)
          grind
  · obtain ⟨hfb, hmode, hsource⟩ := addOutputProperties_shows hextra he
    exact ⟨fun h => absurd h hmode, fun h => absurd h hfb, fun h => absurd h hsource⟩

/-- **The commit of a modeset** shows its objects. -/
theorem modesetRequest_shows (hadds : calls.Adds)
    (hextra : addOutputProperties calls.propId calls.add ar sdi dev.connectorId plan.mode =
      some extra)
    (hknown : Request.known (modesetRequest dev calls plan width height objs overlay extra) = true)
    (c : Config) : Shows dev objs overlay c
      (Request.write (modesetRequest dev calls plan width height objs overlay extra) c) := by
  have hentry := fun e he => @modesetRequest_entries dev ar calls plan width height objs overlay
    sdi extra hextra e he
  -- The entries that matter are in the request, each under its name.
  have hmode := @mem_of_ask calls.propId calls.add (.crtc dev.crtcId) .modeId objs.modeBlob _
    (hadds _ _) (fun e he => by simp [modesetRequest, outputRequest, he]) hknown
  have hprimary := @mem_of_ask calls.propId calls.add (.plane dev.primaryPlaneId) .fbId
    objs.primaryFb _ (hadds _ _) (fun e he => by simp [modesetRequest, primaryRequest, he]) hknown
  have hsource := @mem_of_ask calls.propId calls.add (.plane dev.overlayPlaneId) .overlaySource
    (if overlay then 1 else 0) _ (hadds _ _)
    (fun e he => by simp [modesetRequest, overlayRequest, he]) hknown
  have hoverlay := @mem_of_ask calls.propId calls.add (.plane dev.overlayPlaneId) .fbId
    (if overlay then objs.overlayFb else 0) _ (hadds _ _)
    (fun e he => by cases overlay <;> simp [modesetRequest, overlayRequest] at he ⊢ <;> simp [he])
    hknown
  generalize modesetRequest dev calls plan width height objs overlay extra = req at *
  refine ⟨?_, ?_, ?_, ?_, fun q hp ho => ?_, fun k hk => ?_⟩
  · rw [Request.get_write, Request.value?_eq_some hprimary fun e he ho hp => ?_]
    · rfl
    · rcases (hentry e he).2.1 hp with h | h
      · exact h.2
      · rw [h.1] at ho
        exact absurd (Obj.plane.inj ho).symm dev.planes_ne
  · rw [Request.get_write, Request.value?_eq_some hoverlay fun e he ho hp => ?_]
    · rfl
    · rcases (hentry e he).2.1 hp with h | h
      · rw [h.1] at ho
        exact absurd (Obj.plane.inj ho) dev.planes_ne
      · exact h.2
  · rw [Request.get_write, Request.value?_eq_some hsource fun e he _ hp => ((hentry e he).2.2 hp).2]
    rfl
  · rw [Request.get_write, Request.value?_eq_some hmode fun e he _ hp => ((hentry e he).1 hp).2]
    rfl
  · rw [Request.get_write, Request.value?_eq_none fun e he h => ?_]
    · rfl
    · rcases (hentry e he).2.1 h.2 with h' | h'
      · exact hp (Obj.plane.inj (h.1.symm.trans h'.1))
      · exact ho (Obj.plane.inj (h.1.symm.trans h'.1))
  · rw [Request.get_write, Request.value?_eq_none fun e he h => ?_]
    · rfl
    · exact hk (Obj.crtc.inj (h.1.symm.trans ((hentry e he).1 h.2).1))

end Request

/-! ## The objects of the context -/

/-- The live objects of the Ultra modeset are those of the context, accounted for; apart from the
primary plane, the overlay plane and the CRTC, nothing shows them. -/
structure Kept (hw : Hw) (ctx : Ctx) : Prop where
  accounted : hw.Accounted
  buffered : hw.Buffered
  live : ∀ r, ⟨.modeset, r⟩ ∈ hw.ledger.live ↔ ctx.objects.owns r
  fb_distinct : ctx.objects.primaryFb ≠ 0 → ctx.objects.primaryFb ≠ ctx.objects.overlayFb
  bo_distinct : ctx.objects.primaryBo ≠ 0 → ctx.objects.primaryBo ≠ ctx.objects.overlayBo
  planes : ∀ q ∈ dev.planes, q ≠ dev.primaryPlaneId → q ≠ dev.overlayPlaneId →
    ¬ ctx.objects.owns (.fb (hw.fbId q))
  crtcs : ∀ c ∈ dev.crtcs, c ≠ dev.crtcId → ¬ ctx.objects.owns (.blob (hw.modeId c))

/-- New objects were created and are shown, and the old ones are not yet destroyed. -/
structure Exchanged (m : ModeInfo) (format : PixelFormat) (hw : Hw) (objs : Objects) (on : Bool)
    (hw₁ hw₂ : Hw) : Prop where
  created : Created dev m format hw objs on hw₁
  ledger : hw₂.ledger = hw₁.ledger
  buffer : hw₂.fbBuffer = hw₁.fbBuffer
  primary : hw₂.fbId dev.primaryPlaneId = objs.primaryFb
  overlay : hw₂.fbId dev.overlayPlaneId = objs.overlayFb
  mode : hw₂.modeId dev.crtcId = objs.modeBlob
  planes : ∀ q, q ≠ dev.primaryPlaneId → q ≠ dev.overlayPlaneId → hw₂.fbId q = hw.fbId q
  crtcs : ∀ k, k ≠ dev.crtcId → hw₂.modeId k = hw.modeId k

variable {opts dev} {hw hw' : Hw} {ctx ctx' : Ctx}

theorem Objects.not_owns_empty (r : Resource) : ¬ Objects.owns {} r := by
  cases r <;> simp [Objects.owns]

theorem kept_empty (hledger : hw.ledger = Ledger.empty) (hobjs : ctx.objects = {}) :
    Kept dev hw ctx where
  accounted := by rw [Hw.Accounted, hledger]; exact Ledger.accounted_empty _
  buffered n hn := by rw [hledger] at hn; cases hn
  live r := by
    rw [hledger, hobjs]
    exact iff_of_false (Finset.notMem_empty _) (Objects.not_owns_empty r)
  fb_distinct h := by rw [hobjs] at h; exact absurd rfl h
  bo_distinct h := by rw [hobjs] at h; exact absurd rfl h
  planes _ _ _ _ := by rw [hobjs]; exact Objects.not_owns_empty _
  crtcs _ _ _ := by rw [hobjs]; exact Objects.not_owns_empty _

/-- What the context notes otherwise does not matter. -/
theorem Kept.noted (h : Kept dev hw ctx) (hobjs : ctx'.objects = ctx.objects) :
    Kept dev hw ctx' where
  accounted := h.accounted
  buffered := h.buffered
  live := hobjs ▸ h.live
  fb_distinct := hobjs ▸ h.fb_distinct
  bo_distinct := hobjs ▸ h.bo_distinct
  planes := hobjs ▸ h.planes
  crtcs := hobjs ▸ h.crtcs

/-- Another client's doing keeps the objects. -/
theorem Kept.foreign (h : Kept dev hw ctx) (hf : Foreign hw hw') : Kept dev hw' ctx where
  accounted := hf.accounted h.accounted
  buffered n hn := by
    rw [hf.live] at hn ⊢
    rw [(hf.fbs n hn).2]
    exact h.buffered n hn
  live r := (hf.live r).trans (h.live r)
  fb_distinct := h.fb_distinct
  bo_distinct := h.bo_distinct
  planes q hq hp ho hown := by
    have hlive := (h.live _).mpr hown
    rw [hf.planes q hown.1 hlive] at hown
    exact h.planes q hq hp ho hown
  crtcs c hc hcrtc hown := by
    have hlive := (h.live _).mpr hown
    rw [hf.crtcs c hown.1 hlive] at hown
    exact h.crtcs c hc hcrtc hown

/-- A rejected modeset keeps the objects. -/
theorem Kept.restored (h : Kept dev hw ctx) (hr : Restored dev hw hw') : Kept dev hw' ctx where
  accounted := hr.accounted h.buffered h.accounted
  buffered n hn := by
    rw [hr.live] at hn ⊢
    rw [(hr.fbs n hn).2]
    exact h.buffered n hn
  live r := by rw [hr.live]; exact h.live r
  fb_distinct := h.fb_distinct
  bo_distinct := h.bo_distinct
  planes q hq hp ho := by
    show ¬ ctx.objects.owns (.fb (hw'.config.get _ _))
    rw [hr.config]
    exact h.planes q hq hp ho
  crtcs c hc hcrtc := by
    show ¬ ctx.objects.owns (.blob (hw'.config.get _ _))
    rw [hr.config]
    exact h.crtcs c hc hcrtc

/-! ### The exchange of the objects -/

section Exchange

variable {mode : ModeInfo} {format : PixelFormat} {hw₁ hw₂ : Hw} {objs : Objects} {overlay : Bool}

/-- The commit of a modeset exchanges the objects. -/
theorem exchanged_afterCommit (hnew : Created dev mode format hw objs overlay hw₁) {req : Request}
    (hshows : Shows dev objs overlay hw₁.config (req.write hw₁.config)) (b : Bool) :
    Exchanged dev mode format hw objs overlay hw₁ (Hw.afterCommit hw₁ req b) := by
  have hconfig : hw₁.config = hw.config := by rw [hnew.eq]
  refine ⟨hnew, rfl, rfl, hshows.primary, hshows.overlay.trans ?_, hshows.mode,
    fun q hp ho => (hshows.planes q hp ho).trans (by rw [hconfig]; rfl),
    fun k hk => (hshows.crtcs k hk).trans (by rw [hconfig]; rfl)⟩
  split
  · rfl
  · next hoff =>
    by_contra hne
    exact hoff (hnew.overlayFb_iff.mp fun h0 => hne h0.symm)

/-- A plane shows one of the new framebuffers, or what it showed before. -/
theorem Exchanged.fbId_cases (h : Exchanged dev mode format hw objs overlay hw₁ hw₂) (q : Nat) :
    hw₂.fbId q = objs.primaryFb ∨ hw₂.fbId q = objs.overlayFb ∨
      (hw₂.fbId q = hw.fbId q ∧ q ≠ dev.primaryPlaneId ∧ q ≠ dev.overlayPlaneId) := by
  by_cases hp : q = dev.primaryPlaneId
  · exact Or.inl (hp ▸ h.primary)
  by_cases ho : q = dev.overlayPlaneId
  · exact Or.inr (Or.inl (ho ▸ h.overlay))
  · exact Or.inr (Or.inr ⟨h.planes q hp ho, hp, ho⟩)

/-- An old object is no new one. -/
theorem Exchanged.old (h : Exchanged dev mode format hw objs overlay hw₁ hw₂) (hk : Kept dev hw ctx)
    {r : Resource} (hold : ctx.objects.owns r) : ¬ objs.owns r := fun hnew =>
  h.created.fresh r hnew ((hk.live r).mpr hold)

/-- The old framebuffers are not shown any more. -/
theorem Exchanged.unshown (h : Exchanged dev mode format hw objs overlay hw₁ hw₂)
    (hk : Kept dev hw ctx) : ∀ q ∈ dev.planes, ¬ ctx.objects.owns (.fb (hw₂.fbId q)) := by
  intro q hq hown
  rcases h.fbId_cases q with he | he | ⟨he, hp, ho⟩
  · exact h.old hk hown ⟨hown.1, Or.inl he⟩
  · exact h.old hk hown ⟨hown.1, Or.inr he⟩
  · rw [he] at hown
    exact hk.planes q hq hp ho hown

/-- None of the old objects is in use. -/
theorem Exchanged.idle (h : Exchanged dev mode format hw objs overlay hw₁ hw₂)
    (hk : Kept dev hw ctx) : Idle dev ctx.objects hw₂ where
  live r hr := by
    rw [h.ledger, h.created.live]
    exact Or.inl ((hk.live r).mpr hr)
  fb_distinct := hk.fb_distinct
  bo_distinct := hk.bo_distinct
  bos q hq hlive hown := by
    rw [h.buffer] at hown
    rw [h.ledger, h.created.live] at hlive
    rcases h.fbId_cases q with he | he | ⟨he, hp, ho⟩
    · rw [he, h.created.primaryBuffer] at hown
      exact h.old hk hown ⟨hown.1, Or.inl rfl⟩
    · rw [he] at hown hlive
      cases hon : overlay with
      | false =>
          -- No live framebuffer has the id 0.
          have h0 : objs.overlayFb = 0 := by
            by_contra hne
            rw [h.created.overlayFb_iff.mp hne] at hon
            cases hon
          rw [h0] at hlive
          rcases hlive with hl | hl
          · exact ((hk.live _).mp hl).1 rfl
          · exact hl.2.1 rfl
      | true =>
          rw [h.created.overlayBuffer hon] at hown
          exact h.old hk hown ⟨hown.1, Or.inr rfl⟩
    · rw [he] at hlive
      rcases hlive with hl | hl
      · exact hk.planes q hq hp ho ((hk.live _).mp hl)
      · exact h.created.unshown q hq hl.2
  blobs c hc hown := by
    by_cases hcrtc : c = dev.crtcId
    · rw [hcrtc, h.mode] at hown
      exact h.old hk hown ⟨hown.1, rfl⟩
    · rw [h.crtcs c hcrtc] at hown
      exact hk.crtcs c hc hcrtc hown

/-- **A committed modeset** keeps the objects: the new ones replace the old ones. -/
theorem Exchanged.kept (h : Exchanged dev mode format hw objs overlay hw₁ hw₂)
    (hk : Kept dev hw ctx) (b : Bool) :
    ∃ L, destroyObjects dev ctx.objects hw₂ = { hw₂ with ledger := L } ∧
      Kept dev { hw₂ with ledger := L, passthrough := b } (ctx.committed mode objs overlay) := by
  -- the old objects are destroyed once the commit shows the new ones
  obtain ⟨L, heq, hmem, hacc⟩ := destroyObjects_spec dev (h.unshown hk)
  have hlive : ∀ r, ⟨.modeset, r⟩ ∈ L.live ↔ objs.owns r := by
    intro r
    rw [hmem, h.ledger, h.created.live, hk.live]
    constructor
    · rintro ⟨hl | hl, hn⟩
      · exact absurd ⟨rfl, hl⟩ hn
      · exact hl.2
    · intro hr
      exact ⟨Or.inr ⟨rfl, hr⟩, fun ho => h.old hk ho.2 hr⟩
  refine ⟨L, heq, ?_⟩
  have hacc₂ : hw₂.Accounted := by
    rw [Hw.Accounted, h.ledger]
    exact h.created.accounted hk.buffered hk.accounted
  refine ⟨hacc (h.idle hk) hacc₂, fun n hn => ?_, hlive, fun _ => h.created.fb_distinct,
    fun _ => h.created.bo_distinct, fun q hq hp ho hown => ?_, fun c hc hcrtc hown => ?_⟩
  · -- The buffer of a new framebuffer is a new one.
    show _ ∈ L.live
    replace hn := (hlive _).mp hn
    rw [hlive]
    show objs.owns (.bo (hw₂.fbBuffer n))
    rw [h.buffer]
    rcases hn with ⟨h0, rfl | rfl⟩
    · rw [h.created.primaryBuffer]
      exact ⟨h.created.primaryBo_ne, Or.inl rfl⟩
    · have hon := h.created.overlayFb_iff.mp h0
      rw [h.created.overlayBuffer hon]
      exact ⟨h.created.overlayBo_iff.mpr hon, Or.inr rfl⟩
  · have hshown : objs.owns (.fb (hw₂.fbId q)) := hown
    rw [h.planes q hp ho] at hshown
    exact h.created.unshown q hq hshown
  · have hset : objs.owns (.blob (hw₂.modeId c)) := hown
    rw [h.crtcs c hcrtc] at hset
    exact h.created.unset c hc hset.2

end Exchange

/-! ## What a modeset shows -/

section Modeset

variable (opts dev)

/-- A modeset that took effect: the display shows the objects of the context it leaves. -/
structure Displayed (calls : ModesetCalls) (enableOverlay : Bool) (format : PixelFormat)
    (ctx : Ctx) (ok : Bool) (hw' : Hw) (ctx' : Ctx) : Prop where
  ctx_eq : ctx' = ctx.committed ctx'.currentMode ctx'.objects ctx'.overlayActive
  lastCommit : hw'.lastCommit = some .modeset
  mode : hw'.crtcMode dev.crtcId = some ctx'.currentMode
  primary : hw'.fbId dev.primaryPlaneId = ctx'.objects.primaryFb
  overlay : hw'.fbId dev.overlayPlaneId = ctx'.objects.overlayFb
  source : hw'.config.get (.plane dev.overlayPlaneId) .overlaySource
    = if ctx'.overlayActive then 1 else 0
  primary_ne : ctx'.objects.primaryFb ≠ 0
  blob_ne : ctx'.objects.modeBlob ≠ 0
  overlay_iff : ctx'.objects.overlayFb ≠ 0 ↔ ctx'.overlayActive = true
  format : ctx'.overlayActive = true → hw'.fbFormat ctx'.objects.overlayFb = format
  wanted : ctx'.overlayActive = true → enableOverlay = true
  fallback : enableOverlay = true → ctx'.overlayActive = false →
    calls.overlay.dumb = none ∨ calls.overlay.addFb = none
  embedder : ok = true → embeds opts ctx'.overlayActive = true → opts.sdiAudioOptional = false →
    hw'.passthrough = true

variable {opts dev}

/-- **A modeset keeps the objects**, and it is rejected or displayed. -/
theorem applyDrmModeset_kept (hk : Kept dev hw ctx) {calls : ModesetCalls} (hadds : calls.Adds)
    {width height : Nat} {fps : ℚ} {enableOverlay : Bool} {format : PixelFormat} {ok : Bool}
    (h : applyDrmModeset opts dev calls width height fps enableOverlay format hw ctx
      = (ok, hw', ctx')) :
    Kept dev hw' ctx' ∧ ((ok = false ∧ ctx' = ctx ∧ Restored dev hw hw') ∨
      Displayed opts dev calls enableOverlay format ctx ok hw' ctx') := by
  have hcases := applyDrmModeset_cases dev opts calls width height fps enableOverlay format hw ctx
  rw [h] at hcases
  cases hcases with
  | rejected hw' hrestored => exact ⟨hk.restored hrestored, Or.inl ⟨rfl, rfl, hrestored⟩⟩
  | committed plan extra objs overlay hw₁ b ok hplan hnew hoverlay hfallback hextra hknown hquiet
      hrefused henabled =>
      set req := modesetRequest dev calls plan width height objs overlay extra
      set pt := !opts.sdi && hw.passthrough
      have hshows : Shows dev objs overlay hw₁.config (req.write hw₁.config) :=
        modesetRequest_shows hadds hextra hknown hw₁.config
      have hex := exchanged_afterCommit hnew hshows pt
      obtain ⟨L, heq, hkept⟩ := hex.kept hk b
      rw [heq]
      refine ⟨hkept, Or.inr ⟨rfl, ?_, ?_, hex.primary, hex.overlay, hshows.source,
        hnew.primaryFb_ne, hnew.modeBlob_ne, hnew.overlayFb_iff, hnew.overlayFormat, hoverlay,
        hfallback, fun hok hembeds hopt => henabled hembeds hok hopt⟩⟩
      · exact Hw.lastCommit_append hw₁ _
      · show Hw.crtcMode (Hw.afterCommit hw₁ req pt) dev.crtcId = some plan.mode
        have hblob : (Hw.afterCommit hw₁ req pt).blobMode = hw₁.blobMode := rfl
        rw [Hw.crtcMode, hex.mode, if_neg hnew.modeBlob_ne, hblob, hnew.eq]
        exact congrArg some (Function.update_self _ _ _)

end Modeset

/-! ## The mirror -/

section Invariant

variable (opts dev)

/-- The display is what the context remembers: the last commit that took effect came from its
client, the CRTC has its mode, and its framebuffers are on the two planes. -/
structure Mirrored (hw : Hw) (ctx : Ctx) : Prop where
  lastCommit : hw.lastCommit = some .modeset ∨ hw.lastCommit = some .resync
  mode : hw.crtcMode dev.crtcId = some ctx.currentMode
  primary : hw.fbId dev.primaryPlaneId = ctx.objects.primaryFb
  overlay : hw.fbId dev.overlayPlaneId = ctx.objects.overlayFb
  source : hw.config.get (.plane dev.overlayPlaneId) .overlaySource = 1
  primary_ne : ctx.objects.primaryFb ≠ 0
  overlay_ne : ctx.objects.overlayFb ≠ 0
  blob_ne : ctx.objects.modeBlob ≠ 0

/-- The objects are kept, and the display is mirrored while the overlay is on. -/
structure Mirror (d : Hw × Ctx) : Prop where
  kept : Kept dev d.1 d.2
  shown : d.2.overlayActive = true → Mirrored dev d.1 d.2

variable {opts dev}

theorem Displayed.mirrored {calls : ModesetCalls} {enableOverlay : Bool} {format : PixelFormat}
    {ok : Bool} (h : Displayed opts dev calls enableOverlay format ctx ok hw' ctx')
    (hon : ctx'.overlayActive = true) : Mirrored dev hw' ctx' where
  lastCommit := Or.inl h.lastCommit
  mode := h.mode
  primary := h.primary
  overlay := h.overlay
  source := h.source.trans (if_pos hon)
  primary_ne := h.primary_ne
  overlay_ne := h.overlay_iff.mpr hon
  blob_ne := h.blob_ne

theorem Mirrored.noted (h : Mirrored dev hw ctx) (hobjs : ctx'.objects = ctx.objects)
    (hmode : ctx'.currentMode = ctx.currentMode) : Mirrored dev hw ctx' where
  lastCommit := h.lastCommit
  mode := hmode ▸ h.mode
  primary := hobjs ▸ h.primary
  overlay := hobjs ▸ h.overlay
  source := h.source
  primary_ne := hobjs ▸ h.primary_ne
  overlay_ne := hobjs ▸ h.overlay_ne
  blob_ne := hobjs ▸ h.blob_ne

theorem Mirrored.restored (h : Mirrored dev hw ctx) (hr : Restored dev hw hw') :
    Mirrored dev hw' ctx := by
  have hfbId : hw'.fbId = hw.fbId := by unfold Hw.fbId; rw [hr.config]
  have hmodeId : hw'.modeId = hw.modeId := by unfold Hw.modeId; rw [hr.config]
  refine ⟨hr.lastCommit ▸ h.lastCommit, ?_, hfbId ▸ h.primary, hfbId ▸ h.overlay,
    hr.config ▸ h.source, h.primary_ne, h.overlay_ne, h.blob_ne⟩
  rw [← h.mode, Hw.crtcMode, Hw.crtcMode, hmodeId, hr.modes _ dev.crtc_mem]

/-- A reset keeps the mirror: it touches no plane, and leaves a mode of the same content. -/
theorem Mirrored.reset (h : Mirrored dev hw ctx) {calls : ResetCalls} {ok : Bool}
    (hr : ResetOutcome dev calls hw ctx (ok, hw')) : Mirrored dev hw' ctx where
  lastCommit := hr.lastCommit.elim (fun he => he ▸ h.lastCommit) Or.inr
  mode := hr.crtcMode.trans h.mode
  primary := (hr.get (by simp [resetProperties])).trans h.primary
  overlay := (hr.get (by simp [resetProperties])).trans h.overlay
  source := (hr.get (by simp [resetProperties])).trans h.source
  primary_ne := h.primary_ne
  overlay_ne := h.overlay_ne
  blob_ne := h.blob_ne

/-- **Every move keeps the mirror.** -/
theorem Move.mirror {d d' : Hw × Ctx} (hm : Move opts dev ModesetCalls.Adds d d')
    (h : Mirror dev d) : Mirror dev d' := by
  cases hm with
  | note hw hn =>
      refine ⟨h.kept.noted hn.objects, fun hon => ?_⟩
      exact (h.shown (hn.overlayActive.symm.trans hon)).noted hn.objects hn.currentMode
  | @modeset calls hcalls width height fps enableOverlay format hw ctx hformat =>
      generalize happly : applyDrmModeset _ _ _ _ _ _ _ _ _ _ = r
      obtain ⟨ok, hw', ctx'⟩ := r
      obtain ⟨hk, hend⟩ := applyDrmModeset_kept h.kept hcalls happly
      refine ⟨hk, fun hon => ?_⟩
      rcases hend with ⟨-, rfl, hrestored⟩ | hdisplayed
      · exact (h.shown hon).restored hrestored
      · exact hdisplayed.mirrored hon
  | reset hr => exact ⟨h.kept.foreign (hr.foreign dev), fun hon => (h.shown hon).reset hr⟩
  | audio hw ctx b r =>
      refine ⟨h.kept.foreign (foreign_audio hw b r), fun hon => ?_⟩
      obtain ⟨h1, h2, h3, h4, h5, h6, h7, h8⟩ := h.shown hon
      exact ⟨h1, h2, h3, h4, h5, h6, h7, h8⟩
  | receiver hf hoff =>
      refine ⟨h.kept.foreign hf, fun hon => ?_⟩
      rw [show _ = false from hoff] at hon
      cases hon

theorem Moves.mirror {d d' : Hw × Ctx} (hm : Moves opts dev ModesetCalls.Adds d d')
    (h : Mirror dev d) : Mirror dev d' := by
  induction hm with
  | refl => exact h
  | tail _ hmove ih => exact hmove.mirror ih

/-- Every state of a run is a mirror. -/
theorem run_mirror {calls : StartupCalls} {s₀ : State} (hs : Started opts dev calls s₀)
    (hadds : calls.modeset.Adds) (es : List Event) (hes : ∀ e ∈ es, e.All ModesetCalls.Adds) :
    Mirror dev ((receiver opts dev).run s₀ es).display := by
  obtain ⟨hw, ctx, hledger, hobjs, hoff, -, hmoves⟩ := run_moves hs hadds es hes
  refine hmoves.mirror ⟨kept_empty hledger hobjs, fun hon => ?_⟩
  rw [show ctx.overlayActive = true from hon] at hoff
  cases hoff

/-- **The context mirrors the display.** In every run whose requests are built without a failing
addition, whatever else fails: while the overlay is on, the display is what the context
remembers, and its three objects are live; every object of the modeset is owned by the context
or destroyed as often as it was created, never while it was not live or on screen. -/
theorem overlay_mirrored {calls : StartupCalls} {s₀ : State} (hs : Started opts dev calls s₀)
    (hadds : calls.modeset.Adds) (es : List Event) (hes : ∀ e ∈ es, e.All ModesetCalls.Adds) :
    let s := (receiver opts dev).run s₀ es
    (s.ctx.overlayActive = true → Mirrored dev s.hw s.ctx ∧
      ⟨.modeset, .fb s.ctx.objects.primaryFb⟩ ∈ s.hw.ledger.live ∧
      ⟨.modeset, .fb s.ctx.objects.overlayFb⟩ ∈ s.hw.ledger.live ∧
      ⟨.modeset, .blob s.ctx.objects.modeBlob⟩ ∈ s.hw.ledger.live) ∧
    (∀ r, s.hw.ledger.creations ⟨.modeset, r⟩
      = s.hw.ledger.destructions ⟨.modeset, r⟩ + if s.ctx.objects.owns r then 1 else 0) ∧
    (∀ r live used, .destroyed ⟨.modeset, r⟩ live used ∈ s.hw.ledger.events →
      live = true ∧ used = false) := by
  intro s
  have hmirror : Mirror dev s.display := run_mirror hs hadds es hes
  have hkept : Kept dev s.hw s.ctx := hmirror.kept
  refine ⟨fun hon => ?_, fun r => ?_, fun r live used hmem => ?_⟩
  · have hshown : Mirrored dev s.hw s.ctx := hmirror.shown hon
    exact ⟨hshown, (hkept.live _).mpr ⟨hshown.primary_ne, Or.inl rfl⟩,
      (hkept.live _).mpr ⟨hshown.overlay_ne, Or.inr rfl⟩,
      (hkept.live _).mpr ⟨hshown.blob_ne, rfl⟩⟩
  · rw [hkept.accounted.balance ⟨.modeset, r⟩ rfl]
    exact congrArg _ (if_congr (hkept.live r) rfl rfl)
  · exact hkept.accounted.clean _ live used hmem rfl

end Invariant

end Mirror

/-- The flow is taken over and given back again. -/
def returnRun : List Event := takeoverRun ++ [.avh (.flows 0), .arbitrate .succeed]

theorem returnRun_adds : ∀ e ∈ returnRun, e.All ModesetCalls.Adds := by
  have hadds := ModesetCalls.succeed_adds [mode1080]
  simp only [returnRun, takeoverRun, List.cons_append, List.nil_append, List.forall_mem_cons]
  exact ⟨trivial, trivial, trivial, trivial, trivial, trivial, ⟨hadds, hadds⟩, trivial,
    ⟨hadds, hadds⟩, trivial, ⟨hadds, hadds⟩, fun _ h => absurd h List.not_mem_nil⟩

theorem overlay_mirrored_return :
    let s := (receiver (sdiOptions true) board).run (boardState (sdiOptions true)) returnRun
    s.ctx.overlayActive = true ∧ Mirrored board s.hw s.ctx := by
  intro s
  have hon : s.ctx.overlayActive = true := by decide +kernel
  have hmirror := overlay_mirrored (@boardState_started (sdiOptions true) (by decide +kernel))
    (ModesetCalls.succeed_adds [mode1080]) returnRun returnRun_adds
  exact ⟨hon, (hmirror.1 hon).1⟩

end QcapDemos.Rx
