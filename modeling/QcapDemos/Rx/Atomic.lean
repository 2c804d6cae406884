import QcapDemos.Rx.Modeset

set_option autoImplicit false

/-! # What a modeset leaves behind

The stages of `apply_drm_modeset` are specified one by one: creating the objects yields fresh
ones or nothing, destroying unused ones touches the ledger alone, a refused commit touches the
embedder at most. `applyDrmModeset_cases` puts them together: a modeset is *rejected*, with
everything but the embedder as before, or *committed*.
-/

namespace QcapDemos.Rx

open QcapDemos.Drm QcapDemos.Alsa QcapDemos.Lib

variable (dev : Device)

/-! ## Creating and destroying the objects -/

/-- The hardware is as before, save for the history and an embedder that may have been switched
off. -/
structure Restored (hw hw' : Hw) : Prop where
  config : hw'.config = hw.config
  live : hw'.ledger.live = hw.ledger.live
  fbs : ∀ n, ⟨.modeset, .fb n⟩ ∈ hw.ledger.live →
    hw'.fbFormat n = hw.fbFormat n ∧ hw'.fbBuffer n = hw.fbBuffer n
  modes : ∀ c ∈ dev.crtcs, hw'.blobMode (hw.modeId c) = hw.blobMode (hw.modeId c)
  lastCommit : hw'.lastCommit = hw.lastCommit
  passthrough : hw'.passthrough = hw.passthrough ∨ hw'.passthrough = false
  route : hw'.route = hw.route
  accounted : hw.Buffered → hw.Accounted → hw'.Accounted

theorem Restored.refl (hw : Hw) : Restored dev hw hw where
  config := rfl
  live := rfl
  fbs := fun _ _ => ⟨rfl, rfl⟩
  modes := fun _ _ => rfl
  lastCommit := rfl
  passthrough := Or.inl rfl
  route := rfl
  accounted := fun _ h => h

/-- The state after the objects of a modeset with mode `mode` were created. -/
structure Created (mode : ModeInfo) (format : PixelFormat) (hw : Hw) (objs : Objects)
    (overlay : Bool) (hw' : Hw) : Prop where
  eq : hw' = { hw with
    ledger := hw'.ledger, fbFormat := hw'.fbFormat, fbBuffer := hw'.fbBuffer
    blobMode := Function.update hw.blobMode objs.modeBlob mode }
  live : ∀ o, o ∈ hw'.ledger.live ↔
    o ∈ hw.ledger.live ∨ (o.caller = .modeset ∧ objs.owns o.res)
  fresh : ∀ r, objs.owns r → ⟨.modeset, r⟩ ∉ hw.ledger.live
  unshown : ∀ q ∈ dev.planes, ¬ objs.owns (.fb (hw.fbId q))
  unset : ∀ c ∈ dev.crtcs, hw.modeId c ≠ objs.modeBlob
  fbs : ∀ n, ¬ objs.owns (.fb n) →
    hw'.fbFormat n = hw.fbFormat n ∧ hw'.fbBuffer n = hw.fbBuffer n
  primaryFb_ne : objs.primaryFb ≠ 0
  primaryBo_ne : objs.primaryBo ≠ 0
  modeBlob_ne : objs.modeBlob ≠ 0
  overlayFb_iff : objs.overlayFb ≠ 0 ↔ overlay = true
  overlayBo_iff : objs.overlayBo ≠ 0 ↔ overlay = true
  fb_distinct : objs.primaryFb ≠ objs.overlayFb
  bo_distinct : objs.primaryBo ≠ objs.overlayBo
  primaryBuffer : hw'.fbBuffer objs.primaryFb = objs.primaryBo
  overlayBuffer : overlay = true → hw'.fbBuffer objs.overlayFb = objs.overlayBo
  overlayFormat : overlay = true → hw'.fbFormat objs.overlayFb = format
  accounted : hw.Buffered → hw.Accounted → hw'.Accounted
  buffered : hw.Buffered → hw'.Buffered

section Created

variable {dev} {mode : ModeInfo} {format : PixelFormat} {blob fb bo fb' bo' : Nat}
  {hw hw₁ hw₂ hw₃ : Hw}

/-- Without a primary framebuffer the blob is destroyed again. -/
theorem restored_blob (h₁ : Hw.NewBlob dev mode blob hw hw₁) (h₂ : Hw.Idle hw₁ hw₂) :
    Restored dev hw (hw₂.destroyBlob dev .modeset blob) := by
  have hmodeId : hw₂.modeId = hw.modeId := by rw [h₂.eq, h₁.eq]; rfl
  have hused : hw₂.used dev ⟨.modeset, .blob blob⟩ = false :=
    Hw.used_blob dev fun c hc => by rw [hmodeId]; exact h₁.unset c hc
  refine ⟨?_, ?_, fun n _ => ?_, fun c hc => ?_, ?_, Or.inl ?_, ?_, fun hbuf hacc => ?_⟩
  · show hw₂.config = hw.config
    rw [h₂.eq, h₁.eq]
  · show hw₂.ledger.live.erase _ = hw.ledger.live
    rw [h₂.live, h₁.live, Finset.erase_insert h₁.fresh]
  · show hw₂.fbFormat n = hw.fbFormat n ∧ hw₂.fbBuffer n = hw.fbBuffer n
    rw [h₂.eq, h₁.eq]
    exact ⟨rfl, rfl⟩
  · show hw₂.blobMode (hw.modeId c) = _
    rw [h₂.eq, h₁.eq]
    exact Function.update_of_ne (h₁.unset c hc) _ _
  · show hw₂.lastCommit = hw.lastCommit
    rw [h₂.eq, h₁.eq]; rfl
  · show hw₂.passthrough = hw.passthrough
    rw [h₂.eq, h₁.eq]
  · show hw₂.route = hw.route
    rw [h₂.eq, h₁.eq]
  · refine Ledger.Accounted.destroy (h₂.accounted (h₁.buffered dev hbuf) (h₁.accounted hacc))
      fun _ => ⟨?_, hused⟩
    rw [h₂.live, h₁.live]
    exact Finset.mem_insert_self _ _

/-- A blob and a primary framebuffer, and no overlay. -/
theorem created_primary (h₁ : Hw.NewBlob dev mode blob hw hw₁)
    (h₂ : Hw.DumbFb dev .bgr888 fb bo hw₁ hw₂) (h₃ : Hw.Idle hw₂ hw₃) :
    Created dev mode format hw { primaryFb := fb, primaryBo := bo, modeBlob := blob } false
      hw₃ where
  eq := by rw [h₃.eq, h₂.eq, h₁.eq]
  live o := by
    rw [h₃.live, h₂.live, h₁.live]
    have h1 := h₁.ne
    have h2 := h₂.fb_ne
    have h3 := h₂.bo_ne
    -- an object is one of the three or an old one
    obtain ⟨c, r⟩ := o
    cases r <;> simp [Objects.owns] <;> grind
  fresh r hr := by
    have hb := h₂.bo_fresh
    have hf := h₂.fb_fresh
    rw [h₁.live] at hb hf
    cases r with
    | fb n => simp only [Objects.owns] at hr; obtain ⟨hn, rfl | rfl⟩ := hr <;> simp_all
    | bo n => simp only [Objects.owns] at hr; obtain ⟨hn, rfl | rfl⟩ := hr <;> simp_all
    | blob n => simp only [Objects.owns] at hr; rw [hr.2]; exact h₁.fresh
  unshown q hq := by
    have hshown := h₂.unshown q hq
    rw [h₁.eq] at hshown
    rintro ⟨hne, he | he⟩
    · exact hshown he
    · exact hne he
  unset := h₁.unset
  fbs n hn := by
    have hne : n ≠ fb := fun he => hn ⟨he ▸ h₂.fb_ne, Or.inl he⟩
    rw [h₃.eq, h₂.eq, h₁.eq]
    exact ⟨Function.update_of_ne hne _ _, Function.update_of_ne hne _ _⟩
  primaryFb_ne := h₂.fb_ne
  primaryBo_ne := h₂.bo_ne
  modeBlob_ne := h₁.ne
  overlayFb_iff := by simp
  overlayBo_iff := by simp
  fb_distinct := h₂.fb_ne
  bo_distinct := h₂.bo_ne
  primaryBuffer := by rw [h₃.eq, h₂.eq]; exact Function.update_self _ _ _
  overlayBuffer := by simp
  overlayFormat := by simp
  accounted hbuf hacc :=
    h₃.accounted (h₂.buffered dev (h₁.buffered dev hbuf)) (h₂.accounted (h₁.accounted hacc))
  buffered hbuf := by
    have := h₂.buffered dev (h₁.buffered dev hbuf)
    intro n hn
    rw [h₃.live] at hn ⊢
    rw [h₃.eq]
    exact this n hn

/-- A blob and both framebuffers. -/
theorem created_both (h₁ : Hw.NewBlob dev mode blob hw hw₁)
    (h₂ : Hw.DumbFb dev .bgr888 fb bo hw₁ hw₂) (h₃ : Hw.DumbFb dev format fb' bo' hw₂ hw₃) :
    Created dev mode format hw
      { primaryFb := fb, primaryBo := bo, overlayFb := fb', overlayBo := bo', modeBlob := blob }
      true hw₃ := by
  -- the second framebuffer is created while the first one is live
  have hfb : fb ≠ fb' := fun he => h₃.fb_fresh (by rw [h₂.live, ← he]; simp)
  have hbo : bo ≠ bo' := fun he => h₃.bo_fresh (by rw [h₂.live, ← he]; simp)
  refine {
    eq := by rw [h₃.eq, h₂.eq, h₁.eq]
    live := fun o => ?_
    fresh := fun r hr => ?_
    unshown := fun q hq => ?_
    unset := h₁.unset
    fbs := fun n hn => ?_
    primaryFb_ne := h₂.fb_ne
    primaryBo_ne := h₂.bo_ne
    modeBlob_ne := h₁.ne
    overlayFb_iff := by simp [h₃.fb_ne]
    overlayBo_iff := by simp [h₃.bo_ne]
    fb_distinct := hfb
    bo_distinct := hbo
    primaryBuffer := ?_
    overlayBuffer := fun _ => by rw [h₃.eq]; exact Function.update_self _ _ _
    overlayFormat := fun _ => by rw [h₃.eq]; exact Function.update_self _ _ _
    accounted := fun _ hacc => h₃.accounted (h₂.accounted (h₁.accounted hacc))
    buffered := fun hbuf => h₃.buffered dev (h₂.buffered dev (h₁.buffered dev hbuf)) }
  · rw [h₃.live, h₂.live, h₁.live]
    have h1 := h₁.ne
    have h2 := h₂.fb_ne
    have h3 := h₂.bo_ne
    have h4 := h₃.fb_ne
    have h5 := h₃.bo_ne
    obtain ⟨c, r⟩ := o
    cases r <;> simp [Objects.owns] <;> grind
  · have hb := h₂.bo_fresh
    have hf := h₂.fb_fresh
    have hb' := h₃.bo_fresh
    have hf' := h₃.fb_fresh
    rw [h₁.live] at hb hf
    rw [h₂.live, h₁.live] at hb' hf'
    cases r with
    | fb n => simp only [Objects.owns] at hr; obtain ⟨hn, rfl | rfl⟩ := hr <;> simp_all
    | bo n => simp only [Objects.owns] at hr; obtain ⟨hn, rfl | rfl⟩ := hr <;> simp_all
    | blob n => simp only [Objects.owns] at hr; rw [hr.2]; exact h₁.fresh
  · have hshown := h₂.unshown q hq
    have hshown' := h₃.unshown q hq
    rw [h₁.eq] at hshown
    rw [h₂.eq, h₁.eq] at hshown'
    rintro ⟨-, he | he⟩
    · exact hshown he
    · exact hshown' he
  · have hne : n ≠ fb := fun he => hn ⟨he ▸ h₂.fb_ne, Or.inl he⟩
    have hne' : n ≠ fb' := fun he => hn ⟨he ▸ h₃.fb_ne, Or.inr he⟩
    rw [h₃.eq, h₂.eq, h₁.eq]
    refine ⟨(Function.update_of_ne hne' _ _).trans (Function.update_of_ne hne _ _),
      (Function.update_of_ne hne' _ _).trans (Function.update_of_ne hne _ _)⟩
  · rw [h₃.eq]
    refine (Function.update_of_ne hfb _ _).trans ?_
    rw [h₂.eq]
    exact Function.update_self _ _ _

end Created

/-- **Creating the objects** yields fresh ones, or nothing is left of the attempt. -/
theorem createObjects_cases (calls : ModesetCalls) (mode : ModeInfo) (enableOverlay : Bool)
    (format : PixelFormat) (hw : Hw) :
    (∃ hw', createObjects dev calls mode enableOverlay format hw = (none, hw') ∧
      Restored dev hw hw' ∧ ¬ calls.Succeed) ∨
    (∃ objs overlay hw', createObjects dev calls mode enableOverlay format hw
        = (some (objs, overlay), hw') ∧ Created dev mode format hw objs overlay hw' ∧
      (overlay = true → enableOverlay = true) ∧
      (enableOverlay = true → overlay = false →
        calls.overlay.dumb = none ∨ calls.overlay.addFb = none)) := by
  rw [createObjects]
  rcases Hw.newBlob_cases dev mode calls.blob hw with ⟨hnone, hblob⟩ | ⟨blob, hw₁, hblob, h₁⟩
  · rw [hblob]
    exact Or.inl ⟨hw, rfl, .refl dev hw, fun hs => hs.blob hnone⟩
  rw [hblob]
  dsimp only
  rcases Hw.createDumbFb_cases dev .bgr888 calls.primary hw₁ with
    ⟨hw₂, hprimary, h₂, hnone⟩ | ⟨fb, bo, hw₂, hprimary, h₂⟩
  · rw [hprimary]
    exact Or.inl ⟨_, rfl, restored_blob h₁ h₂, fun hs => hnone.elim hs.primaryDumb hs.primaryFb⟩
  rw [hprimary]
  dsimp only
  cases enableOverlay with
  | false => exact Or.inr ⟨_, _, _, rfl, created_primary h₁ h₂ (.refl hw₂), by simp, by simp⟩
  | true =>
      rcases Hw.createDumbFb_cases dev format calls.overlay hw₂ with
        ⟨hw₃, hoverlay, h₃, hnone⟩ | ⟨fb', bo', hw₃, hoverlay, h₃⟩
      · rw [hoverlay]
        exact Or.inr ⟨_, _, _, rfl, created_primary h₁ h₂ h₃, by simp, fun _ _ => hnone⟩
      · rw [hoverlay]
        exact Or.inr ⟨_, _, _, rfl, created_both h₁ h₂ h₃, fun _ => rfl, by simp⟩

/-- The objects are live, none is listed twice, and the configuration on screen uses none. -/
structure Idle (objs : Objects) (hw : Hw) : Prop where
  live : ∀ r, objs.owns r → ⟨.modeset, r⟩ ∈ hw.ledger.live
  fb_distinct : objs.primaryFb ≠ 0 → objs.primaryFb ≠ objs.overlayFb
  bo_distinct : objs.primaryBo ≠ 0 → objs.primaryBo ≠ objs.overlayBo
  bos : ∀ q ∈ dev.planes, ⟨.modeset, .fb (hw.fbId q)⟩ ∈ hw.ledger.live →
    ¬ objs.owns (.bo (hw.fbBuffer (hw.fbId q)))
  blobs : ∀ c ∈ dev.crtcs, ¬ objs.owns (.blob (hw.modeId c))

/-- **Destroying objects that are not shown** touches the ledger alone. -/
theorem destroyObjects_spec {objs : Objects} {hw : Hw}
    (hfbs : ∀ q ∈ dev.planes, ¬ objs.owns (.fb (hw.fbId q))) :
    ∃ L, destroyObjects dev objs hw = { hw with ledger := L } ∧
      (∀ o, o ∈ L.live ↔ o ∈ hw.ledger.live ∧ ¬ (o.caller = .modeset ∧ objs.owns o.res)) ∧
      (Idle dev objs hw → hw.Accounted → L.Accounted fun o => o.caller = .modeset) := by
  -- the primary framebuffer, the overlay, and last the mode blob
  obtain ⟨L₁, heq₁, hlive₁, hacc₁⟩ := @Hw.destroyDumbFb_spec dev hw
    objs.primaryFb objs.primaryBo
    (fun h0 q hq he => hfbs q hq ⟨he ▸ h0, Or.inl he⟩)
  obtain ⟨L₂, heq₂, hlive₂, hacc₂⟩ := @Hw.destroyDumbFb_spec dev
    { hw with ledger := L₁ } objs.overlayFb objs.overlayBo
    (fun h0 q hq he => hfbs q hq ⟨fun hz => h0 (he.symm.trans hz), Or.inr he⟩)
  have hmem₂ : ∀ o, o ∈ L₂.live ↔ o ∈ hw.ledger.live ∧
      ¬ (o.caller = .modeset ∧ objs.owns o.res ∧ ∀ n, o.res ≠ .blob n) := by
    intro o
    rw [hlive₂, hlive₁]
    obtain ⟨c, r⟩ := o
    cases r <;> simp [Objects.owns] <;> grind
  have hacc : Idle dev objs hw → hw.Accounted → L₂.Accounted fun o => o.caller = .modeset := by
    intro h hacc
    refine hacc₂
      (fun h0 q hq hlive he => h.bos q hq ((hlive₁ _).mp hlive).1
        ⟨fun hz => h0 (he.symm.trans hz), Or.inr he⟩)
      (fun h0 => (hlive₁ _).mpr ⟨h.live _ ⟨h0, Or.inr rfl⟩, ?_, by simp⟩)
      (fun h0 => (hlive₁ _).mpr ⟨h.live _ ⟨h0, Or.inr rfl⟩, by simp, ?_⟩)
      (hacc₁ (fun h0 q hq hlive he => h.bos q hq hlive ⟨he ▸ h0, Or.inl he⟩)
        (fun h0 => h.live _ ⟨h0, Or.inl rfl⟩) (fun h0 => h.live _ ⟨h0, Or.inl rfl⟩) hacc)
    · rintro ⟨h1, he⟩
      simp only [Object.mk.injEq, Resource.fb.injEq, true_and] at he
      exact h.fb_distinct h1 he.symm
    · rintro ⟨h1, he⟩
      simp only [Object.mk.injEq, Resource.bo.injEq, true_and] at he
      exact h.bo_distinct h1 he.symm
  have heq : destroyObjects dev objs hw = if objs.modeBlob ≠ 0
      then Hw.destroyBlob dev .modeset objs.modeBlob { hw with ledger := L₂ }
      else { hw with ledger := L₂ } := by
    rw [destroyObjects, heq₁]
    exact congrArg (fun h => if objs.modeBlob ≠ 0 then Hw.destroyBlob dev .modeset objs.modeBlob h
      else h) heq₂
  by_cases h0 : objs.modeBlob = 0
  · refine ⟨L₂, by simp [heq, h0], fun o => ?_, hacc⟩
    rw [hmem₂]
    obtain ⟨c, r⟩ := o
    cases r <;> simp [Objects.owns, h0]
  · refine ⟨L₂.destroy ⟨.modeset, .blob objs.modeBlob⟩
      (Hw.used dev { hw with ledger := L₂ } ⟨.modeset, .blob objs.modeBlob⟩),
      by rw [heq, if_pos h0]; rfl, fun o => ?_, fun h ha => ?_⟩
    · rw [Ledger.live_destroy, Finset.mem_erase, hmem₂]
      obtain ⟨c, r⟩ := o
      cases r <;> simp [Objects.owns]
      grind
    · refine Ledger.Accounted.destroy (hacc h ha) fun _ => ⟨?_, Hw.used_blob dev ?_⟩
      · rw [hmem₂]
        exact ⟨h.live _ ⟨h0, rfl⟩, by simp⟩
      · exact fun c hc he => h.blobs c hc ⟨fun hz => h0 (he.symm.trans hz), he⟩

theorem destroyObjects_passthrough (objs : Objects) (hw : Hw) :
    destroyObjects dev objs hw
      = { destroyObjects dev objs hw with passthrough := hw.passthrough } := by
  have hdumb : ∀ (fb bo : Nat) (hw : Hw),
      (hw.destroyDumbFb dev .modeset fb bo).passthrough = hw.passthrough := by
    intro fb bo hw
    rw [Hw.destroyDumbFb]
    split <;> split <;> rfl
  have hpt : (destroyObjects dev objs hw).passthrough = hw.passthrough := by
    rw [destroyObjects]
    split
    · exact (hdumb _ _ _).trans (hdumb _ _ _)
    · exact (hdumb _ _ _).trans (hdumb _ _ _)
  rw [← hpt]

/-! ## The commit -/

variable (opts : Options)

/-- The state a commit leaves: the request written, the embedder as it was set before. -/
def Hw.afterCommit (hw : Hw) (req : Request) (passthrough : Bool) : Hw :=
  { hw with
    config := req.write hw.config
    commits := hw.commits ++ [{ caller := .modeset, request := req, testOnly := false, ok := true }]
    passthrough := passthrough }

theorem addOutputProperties_eq {ar : Arithmetic} {propId add : Obj → PropName → Bool} {sdi : Bool}
    {connectorId : Nat} {mode : ModeInfo} (hprop : ∀ o p, propId o p = true)
    (hadd : ∀ o p, add o p = true) (hmode : sdi = true → isSdiMode ar mode = true) :
    addOutputProperties propId add ar sdi connectorId mode = some (if sdi then
      (sdiProperties mode.hdisplay mode.vdisplay).map fun (p, v) =>
        { obj := .connector connectorId, prop := some p, value := v } else []) := by
  cases sdi with
  | false => rfl
  | true => simp [addOutputProperties, hmode, hprop, hadd]

theorem ask_known {propId add : Obj → PropName → Bool} (hprop : ∀ o p, propId o p = true)
    (o : Obj) (p : PropName) (v : Nat) : Request.known (ask propId add o p v) = true := by
  rw [ask, hprop]
  split <;> rfl

theorem Request.known_append (req req' : Request) :
    Request.known (req ++ req') = (req.known && Request.known req') := List.all_append

theorem addOutputProperties_known {ar : Arithmetic} {propId add : Obj → PropName → Bool}
    {sdi : Bool} {connectorId : Nat} {mode : ModeInfo} {extra : Request}
    (h : addOutputProperties propId add ar sdi connectorId mode = some extra) :
    extra.known = true := by
  rw [addOutputProperties] at h
  split at h
  · cases h; rfl
  split at h
  · cases h
  dsimp only at h
  split at h
  · cases h
    simp [Request.known]
  · cases h

theorem modesetRequest_known {ar : Arithmetic} {calls : ModesetCalls} {plan : Plan}
    {width height : Nat} {objs : Objects} {overlay sdi : Bool} {extra : Request}
    (hprop : ∀ o p, calls.propId o p = true)
    (hextra : addOutputProperties calls.propId calls.add ar sdi dev.connectorId plan.mode
      = some extra) :
    Request.known (modesetRequest dev calls plan width height objs overlay extra) = true := by
  have hask := @ask_known calls.propId calls.add hprop
  have hopt : ∀ o p v, Request.known (askKnown calls.propId calls.add o p v) = true := by
    intro o p v
    rw [askKnown, if_pos (hprop o p)]
    exact hask o p v
  cases overlay <;> simp [modesetRequest, outputRequest, primaryRequest, overlayRequest,
    Request.known_append, hask, hopt, addOutputProperties_known hextra]

/-- **The commit of a modeset** is accepted with the embedder off, or leaves the configuration. -/
theorem commitModeset_cases (calls : ModesetCalls) (plan : Plan) (width height : Nat)
    (objs : Objects) (overlay : Bool) (hw : Hw) :
    (∃ b cs, commitModeset opts dev calls plan width height objs overlay hw
        = (false, { hw with passthrough := b, commits := cs }) ∧
      (b = hw.passthrough ∨ b = false) ∧
      Hw.lastCommit { hw with passthrough := b, commits := cs } = hw.lastCommit ∧
      ((opts.sdi = true → isSdiMode dev.arithmetic plan.mode = true) → ¬ calls.Succeed)) ∨
    (∃ b extra, commitModeset opts dev calls plan width height objs overlay hw
        = (true, Hw.afterCommit hw
            (modesetRequest dev calls plan width height objs overlay extra) b) ∧
      addOutputProperties calls.propId calls.add dev.arithmetic opts.sdi dev.connectorId plan.mode
        = some extra ∧
      Request.known (modesetRequest dev calls plan width height objs overlay extra) = true ∧
      b = (!opts.sdi && hw.passthrough)) := by
  -- the embedder is switched off before anything is committed
  obtain ⟨b, heq, hb, hhdmi, hsdi⟩ :=
    setSdiFpgaPassthrough_spec opts.sdi false calls.disable hw
  rw [commitModeset]
  cases hset : setSdiFpgaPassthrough opts.sdi false calls.disable hw with
  | mk ok hw' =>
      rw [hset] at heq hsdi
      subst heq
      cases ok with
      | false =>
          refine Or.inl ⟨b, hw.commits, rfl, hb, rfl, fun _ hs => ?_⟩
          have hdone := setSdiFpgaPassthrough_succeed opts.sdi false hw
          rw [← hs.disable, hset] at hdone
          cases hdone
      | true =>
          dsimp only
          cases hextra : addOutputProperties calls.propId calls.add dev.arithmetic opts.sdi
              dev.connectorId plan.mode with
          | none =>
              refine Or.inl ⟨b, hw.commits, rfl, hb, rfl, fun hmode hs => ?_⟩
              rw [addOutputProperties_eq hs.propId hs.add hmode] at hextra
              cases hextra
          | some extra =>
              have hboff : b = (!opts.sdi && hw.passthrough) := by
                cases h : opts.sdi with
                | false => simpa using hhdmi h
                | true => simpa using hsdi rfl h
              dsimp only [Hw.commit]
              -- the kernel refuses the commit, or takes all of it
              cases hok : calls.commit &&
                  Request.known (modesetRequest dev calls plan width height objs overlay extra) with
              | false =>
                  refine Or.inl ⟨b, _, rfl, hb, ?_, fun hmode hs => ?_⟩
                  · exact Hw.lastCommit_append { hw with passthrough := b } _
                  · rw [hs.commit, modesetRequest_known dev hs.propId hextra] at hok
                    cases hok
              | true =>
                  rw [Bool.and_eq_true] at hok
                  exact Or.inr ⟨b, extra, rfl, rfl, hok.2, hboff⟩

/-! ## The modeset as a whole -/

/-- New objects that were never shown are destroyed without a trace. -/
theorem Created.restored {mode : ModeInfo} {format : PixelFormat} {hw hw₁ : Hw} {objs : Objects}
    {overlay : Bool} (h : Created dev mode format hw objs overlay hw₁) {b : Bool}
    {cs : List Commit} (hb : b = hw₁.passthrough ∨ b = false)
    (hlast : Hw.lastCommit { hw₁ with passthrough := b, commits := cs } = hw₁.lastCommit) :
    Restored dev hw (destroyObjects dev objs { hw₁ with passthrough := b, commits := cs }) := by
  have hfbId : hw₁.fbId = hw.fbId := by rw [h.eq]; rfl
  have hmodeId : hw₁.modeId = hw.modeId := by rw [h.eq]; rfl
  have hlast₁ : hw₁.lastCommit = hw.lastCommit := by rw [h.eq]; rfl
  set hw₂ : Hw := { hw₁ with passthrough := b, commits := cs } with hhw₂
  have hshown : ∀ q ∈ dev.planes, ¬ objs.owns (.fb (hw₂.fbId q)) := by
    intro q hq
    show ¬ objs.owns (.fb (hw₁.fbId q))
    rw [hfbId]
    exact h.unshown q hq
  have hold : ∀ n, ⟨.modeset, .fb n⟩ ∈ hw.ledger.live → ¬ objs.owns (.fb n) :=
    fun n hn ho => h.fresh _ ho hn
  obtain ⟨L, heq, hmem, hacc⟩ := destroyObjects_spec dev hshown
  rw [heq]
  refine ⟨?_, ?_, fun n hn => h.fbs n (hold n hn), fun c hc => ?_, hlast.trans hlast₁, ?_, ?_,
    fun hbuf ha => hacc ⟨?_, fun _ => h.fb_distinct, fun _ => h.bo_distinct, ?_, ?_⟩
      (h.accounted hbuf ha)⟩
  · show hw₁.config = hw.config
    rw [h.eq]
  · ext o
    rw [hmem]
    show o ∈ hw₁.ledger.live ∧ _ ↔ _
    rw [h.live]
    have hf := h.fresh o.res
    obtain ⟨c, r⟩ := o
    constructor
    · rintro ⟨hl | hl, hn⟩
      · exact hl
      · exact absurd hl hn
    · intro hl
      refine ⟨Or.inl hl, ?_⟩
      rintro ⟨rfl, ho⟩
      exact hf ho hl
  · show hw₁.blobMode (hw.modeId c) = _
    rw [h.eq]
    exact Function.update_of_ne (h.unset c hc) _ _
  · have hpt : hw₁.passthrough = hw.passthrough := by rw [h.eq]
    rw [← hpt]
    exact hb
  · show hw₁.route = hw.route
    rw [h.eq]
  · intro r hr
    show _ ∈ hw₁.ledger.live
    rw [h.live]
    exact Or.inr ⟨rfl, hr⟩
  · -- A shown framebuffer is an old one, over an old buffer.
    intro q hq hlive ho
    have hq' : ¬ objs.owns (.fb (hw₁.fbId q)) := hshown q hq
    have hlive' : (⟨.modeset, .fb (hw₁.fbId q)⟩ : Object) ∈ hw.ledger.live := by
      rcases (h.live _).mp hlive with hl | hl
      · exact hl
      · exact absurd hl.2 hq'
    have hbuffer := hbuf _ hlive'
    rw [← (h.fbs _ hq').2] at hbuffer
    exact h.fresh _ ho hbuffer
  · intro c hc ho
    have hc' : objs.owns (.blob (hw₁.modeId c)) := ho
    rw [hmodeId] at hc'
    exact h.unset c hc hc'.2

section Outcome

variable (calls : ModesetCalls) (width height : Nat) (fps : ℚ) (enableOverlay : Bool)
  (format : PixelFormat) (hw : Hw) (ctx : Ctx)

/-- The ends of a modeset: it is rejected because its plan or one of its calls failed, or it is
committed and the embedder had the last word. -/
inductive ModesetOutcome : Bool × Hw × Ctx → Prop where
  | rejected (hw' : Hw) (hrestored : Restored dev hw hw')
      (hwhy : planModeset dev.arithmetic opts.sdi calls.connector width height fps = none ∨
        ¬ calls.Succeed) :
      ModesetOutcome (false, hw', ctx)
  | committed (plan : Plan) (extra : Request) (objs : Objects) (overlay : Bool) (hw₁ : Hw)
      (b ok : Bool)
      (hplan : planModeset dev.arithmetic opts.sdi calls.connector width height fps = some plan)
      (hcreated : Created dev plan.mode format hw objs overlay hw₁)
      (hoverlay : overlay = true → enableOverlay = true)
      (hfallback : enableOverlay = true → overlay = false →
        calls.overlay.dumb = none ∨ calls.overlay.addFb = none)
      (hextra : addOutputProperties calls.propId calls.add dev.arithmetic opts.sdi
        dev.connectorId plan.mode = some extra)
      (hknown : Request.known (modesetRequest dev calls plan width height objs overlay extra)
        = true)
      (hquiet : embeds opts overlay = false → ok = true ∧ b = (!opts.sdi && hw.passthrough))
      (hrefused : ok = false → opts.sdiAudioOptional = false)
      (henabled : embeds opts overlay = true → ok = true → opts.sdiAudioOptional = false →
        b = true) :
      ModesetOutcome (ok,
        { destroyObjects dev ctx.objects (Hw.afterCommit hw₁
            (modesetRequest dev calls plan width height objs overlay extra)
            (!opts.sdi && hw.passthrough)) with passthrough := b },
        ctx.committed plan.mode objs overlay)

theorem planModeset_mode {ar : Arithmetic} {sdi : Bool} {connector : Option Connector}
    {width height : Nat} {fps : ℚ} {plan : Plan}
    (h : planModeset ar sdi connector width height fps = some plan) :
    ∃ c, connector = some c ∧ c.connected = true ∧
      selectMode ar sdi c.modes width height fps = some plan.mode := by
  unfold planModeset at h
  split at h
  · cases h
  cases connector with
  | none => cases h
  | some c =>
      dsimp only at h
      split at h
      · cases h
      next hconn =>
      cases hsel : selectMode ar sdi c.modes width height fps with
      | none => rw [hsel] at h; cases h
      | some mode =>
          rw [hsel] at h
          dsimp only at h
          split at h
          · cases h
          · cases h
            exact ⟨c, rfl, by simpa using hconn, hsel⟩

/-- The ends of the video part of a modeset. -/
inductive VideoOutcome : Option Bool × Hw × Ctx → Prop where
  | rejected (hw' : Hw) (hrestored : Restored dev hw hw')
      (hwhy : planModeset dev.arithmetic opts.sdi calls.connector width height fps = none ∨
        ¬ calls.Succeed) :
      VideoOutcome (none, hw', ctx)
  | committed (plan : Plan) (extra : Request) (objs : Objects) (overlay : Bool) (hw₁ : Hw)
      (hplan : planModeset dev.arithmetic opts.sdi calls.connector width height fps = some plan)
      (hcreated : Created dev plan.mode format hw objs overlay hw₁)
      (hoverlay : overlay = true → enableOverlay = true)
      (hfallback : enableOverlay = true → overlay = false →
        calls.overlay.dumb = none ∨ calls.overlay.addFb = none)
      (hextra : addOutputProperties calls.propId calls.add dev.arithmetic opts.sdi
        dev.connectorId plan.mode = some extra)
      (hknown : Request.known (modesetRequest dev calls plan width height objs overlay extra)
        = true) :
      VideoOutcome (some overlay,
        destroyObjects dev ctx.objects (Hw.afterCommit hw₁
          (modesetRequest dev calls plan width height objs overlay extra)
          (!opts.sdi && hw.passthrough)),
        ctx.committed plan.mode objs overlay)

theorem applyVideo_cases :
    VideoOutcome dev opts calls width height fps enableOverlay format hw ctx
      (applyVideo opts dev calls width height fps enableOverlay format hw ctx) := by
  rw [applyVideo]
  cases hplan : planModeset dev.arithmetic opts.sdi calls.connector width height fps with
  | none => exact .rejected hw (.refl dev hw) (Or.inl hplan)
  | some plan =>
  dsimp only
  rcases createObjects_cases dev calls plan.mode enableOverlay format hw with
    ⟨hw₁, hobjs, hrestored, hwhy⟩ | ⟨objs, overlay, hw₁, hobjs, hcreated, hoverlay, hfallback⟩
  · rw [hobjs]
    exact .rejected hw₁ hrestored (Or.inr hwhy)
  rw [hobjs]
  dsimp only
  split
  · next hbad =>
    refine .rejected _ (hcreated.restored dev (Or.inl rfl) rfl) (Or.inr fun hs => ?_)
    rw [hs.alloc, hs.propId] at hbad
    cases hbad
  rcases commitModeset_cases dev opts calls plan width height objs overlay hw₁ with
    ⟨b, cs, hcommit, hb, hlast, hwhy⟩ | ⟨b, extra, hcommit, hextra, hknown, hb⟩
  · rw [hcommit]
    refine .rejected _ (hcreated.restored dev hb hlast) (Or.inr (hwhy ?_))
    obtain ⟨c, -, -, hsel⟩ := planModeset_mode hplan
    exact (selectMode_spec hsel).2.2
  rw [hcommit]
  have hpt : hw₁.passthrough = hw.passthrough := by rw [hcreated.eq]
  rw [hpt] at hb
  subst hb
  exact .committed plan extra objs overlay hw₁ hplan hcreated hoverlay hfallback hextra hknown

/-- **A modeset** is rejected or committed. -/
theorem applyDrmModeset_cases :
    ModesetOutcome dev opts calls width height fps enableOverlay format hw ctx
      (applyDrmModeset opts dev calls width height fps enableOverlay format hw ctx) := by
  have hvideo := applyVideo_cases dev opts calls width height fps enableOverlay format hw ctx
  rw [applyDrmModeset]
  generalize applyVideo opts dev calls width height fps enableOverlay format hw ctx = r at hvideo ⊢
  cases hvideo with
  | rejected hw' hrestored hwhy => exact .rejected hw' hrestored hwhy
  | committed plan extra objs overlay hw₁ hplan hcreated hoverlay hfallback hextra hknown =>
      dsimp only
      by_cases hembeds : embeds opts overlay = true
      · rw [if_pos hembeds]
        have hsdi : opts.sdi = true := by
          rw [embeds, Bool.and_eq_true, Bool.and_eq_true] at hembeds
          exact hembeds.1.1
        -- the embedder is switched on again after the old objects are gone
        obtain ⟨b, heq, -, -, hon⟩ := setSdiFpgaPassthrough_spec opts.sdi true calls.enable
          (destroyObjects dev ctx.objects (Hw.afterCommit hw₁
            (modesetRequest dev calls plan width height objs overlay extra)
            (!opts.sdi && hw.passthrough)))
        generalize setSdiFpgaPassthrough opts.sdi true calls.enable _ = r at heq hon ⊢
        obtain ⟨on, hw₂⟩ := r
        subst heq
        refine .committed plan extra objs overlay hw₁ b _ hplan hcreated hoverlay hfallback hextra
          hknown (fun h => ?_) (fun h => ?_) (fun _ h hopt => ?_)
        · rw [hembeds] at h; cases h
        · rw [Bool.or_eq_false_iff] at h; exact h.2
        · rw [hopt, Bool.or_false] at h
          exact hon h hsdi
      · rw [if_neg hembeds]
        rw [destroyObjects_passthrough dev ctx.objects]
        refine .committed plan extra objs overlay hw₁ (!opts.sdi && hw.passthrough) true hplan
          hcreated hoverlay hfallback hextra hknown (fun _ => ⟨rfl, rfl⟩) (fun h => ?_) (fun h => ?_)
        · cases h
        · exact absurd h hembeds

/-! ## Failure atomicity -/

/-- **A failed modeset** leaves the committed configuration, the context and the kernel objects as
they were, and the embedder as it was or off; or its video was committed and only the embedder
failed to be switched on, and the state is that of a successful call with the embedder off, or on
where the write took effect and only its read back failed. -/
theorem applyDrmModeset_atomic (hw' : Hw) (ctx' : Ctx)
    (hfail : applyDrmModeset opts dev calls width height fps enableOverlay format hw ctx
      = (false, hw', ctx')) :
    (ctx' = ctx ∧ hw'.config = hw.config ∧
      (∀ c ∈ dev.crtcs, hw'.crtcMode c = hw.crtcMode c) ∧ hw'.lastCommit = hw.lastCommit ∧
      hw'.ledger.live = hw.ledger.live ∧ hw'.route = hw.route ∧
      (hw'.passthrough = hw.passthrough ∨ hw'.passthrough = false)) ∨
    (opts.sdi = true ∧ enableOverlay = true ∧ opts.sdiAudioDisabled = false ∧
      opts.sdiAudioOptional = false ∧
      applyDrmModeset opts dev { calls with enable := .succeed } width height fps enableOverlay
        format hw ctx = (true, { hw' with passthrough := true }, ctx') ∧
      (hw'.passthrough = false ∨ (hw'.passthrough = true ∧
        calls.enable = { ControlCalls.succeed with read := false }))) := by
  have hvideo := applyVideo_cases dev opts calls width height fps enableOverlay format hw ctx
  have hsame : applyVideo opts dev { calls with enable := .succeed } width height fps enableOverlay
      format hw ctx
    = applyVideo opts dev calls width height fps enableOverlay format hw ctx := rfl
  rw [applyDrmModeset] at hfail
  rw [applyDrmModeset, hsame]
  generalize applyVideo opts dev calls width height fps enableOverlay format hw ctx = r
    at hvideo hfail ⊢
  cases hvideo with
  | rejected hw₁ h =>
      cases hfail
      refine Or.inl ⟨rfl, h.config, fun c hc => ?_, h.lastCommit, h.live, h.route, h.passthrough⟩
      have hmodeId : hw'.modeId c = hw.modeId c := by
        rw [Hw.modeId, h.config]; rfl
      rw [Hw.crtcMode, Hw.crtcMode, hmodeId, h.modes c hc]
  | committed plan extra objs overlay hw₁ hplan hcreated hoverlay =>
      dsimp only at hfail ⊢
      by_cases hembeds : embeds opts overlay = true
      · rw [if_pos hembeds] at hfail ⊢
        rw [embeds, Bool.and_eq_true, Bool.and_eq_true, Bool.not_eq_true'] at hembeds
        -- the commit left the embedder off
        have hoff : (destroyObjects dev ctx.objects (Hw.afterCommit hw₁
            (modesetRequest dev calls plan width height objs overlay extra)
            (!opts.sdi && hw.passthrough))).passthrough = false := by
          rw [destroyObjects_passthrough, hembeds.1.1]
          rfl
        generalize destroyObjects dev ctx.objects _ = hw₂ at hfail hoff ⊢
        -- the video is committed, so that only the embedder can have failed
        obtain ⟨b, heq, -⟩ := setSdiFpgaPassthrough_spec opts.sdi true calls.enable hw₂
        have hrefused := @setSdiFpgaPassthrough_refused calls.enable hw₂ hoff
        rw [show setSdiFpgaPassthrough true true calls.enable hw₂ =
          setSdiFpgaPassthrough opts.sdi true calls.enable hw₂ by rw [hembeds.1.1]] at hrefused
        generalize setSdiFpgaPassthrough opts.sdi true calls.enable hw₂ = r at heq hfail hrefused
        obtain ⟨on, hw₃⟩ := r
        subst heq
        simp only [Prod.mk.injEq, Bool.or_eq_false_iff] at hfail
        obtain ⟨⟨hon, hopt⟩, rfl, rfl⟩ := hfail
        refine Or.inr ⟨hembeds.1.1, hoverlay hembeds.1.2, hembeds.2, hopt, ?_, hrefused hon⟩
        rw [hembeds.1.1]
        rfl
      · rw [if_neg hembeds] at hfail
        cases hfail

end Outcome

/-- A refused commit after the embedder was switched off leaves it off. -/
theorem applyDrmModeset_leaves_embedder_off :
    let r := applyDrmModeset (sdiOptions false) board
      { ModesetCalls.succeed [mode1080] with commit := false } 1920 1080 60 true .bgr888
      (darkHw true) { fixedWidth := 1920, fixedHeight := 1080, fixedFps := 60 }
    r.1 = false ∧ r.2.1.passthrough ≠ (darkHw true).passthrough := by
  decide +kernel

theorem applyDrmModeset_atomic_refused :
    let r := applyDrmModeset (sdiOptions false) board
      { ModesetCalls.succeed [mode1080] with commit := false } 1920 1080 60 true .bgr888
      (darkHw true) { fixedWidth := 1920, fixedHeight := 1080, fixedFps := 60 }
    r.2.1.config = (darkHw true).config ∧ r.2.1.passthrough = false := by
  refine ⟨?_, by decide +kernel⟩
  rcases applyDrmModeset_atomic board (sdiOptions false)
    { ModesetCalls.succeed [mode1080] with commit := false } 1920 1080 60 true .bgr888
    (darkHw true) { fixedWidth := 1920, fixedHeight := 1080, fixedFps := 60 } _ _
    (Prod.ext (by decide +kernel) rfl) with ⟨-, h, -⟩ | ⟨-, -, -, -, h, -⟩
  · exact h
  · exact absurd (congrArg Prod.fst h) (by decide +kernel)

end QcapDemos.Rx
