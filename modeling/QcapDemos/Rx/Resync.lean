import Mathlib.Data.Option.Basic
import QcapDemos.Lib.Run
import QcapDemos.Rx.Context

set_option autoImplicit false

/-! # The SDI output reset

The embedding of `reinitialize_sdi_output`, a same-mode reset of the output in two atomic
commits with a rollback, and of the poll that requests it. Every call that can fail takes its
outcome from `ResetCalls`. Requests that touch neither planes nor framebuffers keep the picture
that is on screen.
-/

namespace QcapDemos.Rx

open QcapDemos.Drm QcapDemos.Lib

/-- The outcomes of the calls of one reset. The request `off` is added to once, the request `on`
once for each of its properties, and once more on the way back. -/
structure ResetCalls where
  read : Obj → PropName → Bool
  getBlob : Bool
  blob : Option Nat
  allocOff : Bool
  allocOn : Bool
  propId : Obj → PropName → Bool
  addOff : Bool
  addOn : Obj → PropName → Bool
  testOn : Bool
  testOff : Bool
  commitOff : Bool
  commitOn : Bool
  addBack : Bool
  commitBack : Bool

/-- `drm_property_value`. -/
def drmPropertyValue (read : Obj → PropName → Bool) (hw : Hw) (o : Obj) (p : PropName) :
    Option Nat :=
  if read o p then some (hw.config.get o p) else none

/-- `drmModeGetPropertyBlob` on a mode. -/
def getModeBlob (ok : Bool) (hw : Hw) (id : Nat) : Option ModeInfo :=
  if ok && id != 0 then some (hw.blobMode id) else none

section Reset

variable (dev : Device)

/-- The output shows what the context committed, so that a reset may be tried: the id and the
content of its mode. -/
def resettable (calls : ResetCalls) (hw : Hw) (ctx : Ctx) : Option (Nat × ModeInfo) := do
  let value := drmPropertyValue calls.read hw
  let active ← value (.crtc dev.crtcId) .active
  guard (active ≠ 0)
  let modeId ← value (.crtc dev.crtcId) .modeId
  let frac ← value (.connector dev.connectorId) .isFrac
  guard (frac = 0)
  let primary ← value (.plane dev.primaryPlaneId) .fbId
  let overlay ← value (.plane dev.overlayPlaneId) .fbId
  let source ← value (.plane dev.overlayPlaneId) .overlaySource
  guard (primary = ctx.objects.primaryFb ∧ primary ≠ 0 ∧ overlay = ctx.objects.overlayFb ∧
    overlay ≠ 0 ∧ source = 1)
  let old ← getModeBlob calls.getBlob hw modeId
  guard (old = ctx.currentMode ∧ isSdiMode dev.arithmetic ctx.currentMode = true)
  return (modeId, old)

def offRequest : Request := [{ obj := .crtc dev.crtcId, prop := some .active, value := 0 }]

/-- `is_frac` is written back as it was read, which is 0 for a resettable output. -/
def onRequest (blob : Nat) : Request :=
  [{ obj := .crtc dev.crtcId, prop := some .active, value := 1 },
    { obj := .crtc dev.crtcId, prop := some .modeId, value := blob },
    { obj := .connector dev.connectorId, prop := some .isFrac, value := 0 }]

/-- The request `on` with the old mode added, which overrides the new one. -/
def backRequest (blob modeId : Nat) : Request :=
  onRequest dev blob ++ [{ obj := .crtc dev.crtcId, prop := some .modeId, value := modeId }]

/-- Both requests were built. -/
def ResetCalls.built (calls : ResetCalls) : Bool :=
  calls.allocOff && calls.allocOn && calls.propId (.crtc dev.crtcId) .active &&
    calls.propId (.crtc dev.crtcId) .modeId && calls.propId (.connector dev.connectorId) .isFrac &&
    calls.addOff && calls.addOn (.crtc dev.crtcId) .active &&
    calls.addOn (.crtc dev.crtcId) .modeId && calls.addOn (.connector dev.connectorId) .isFrac

/-- The attempt to return to the original state; its failure is only logged. -/
def rollbackSdiOutput (calls : ResetCalls) (blob modeId : Nat) (hw : Hw) : Hw :=
  if calls.addBack then (hw.commit .resync (backRequest dev blob modeId) calls.commitBack).2 else hw

/-- The two trial commits and the two real ones. -/
def resetSdiOutput (calls : ResetCalls) (blob modeId : Nat) (hw : Hw) : Bool × Hw :=
  if !calls.built dev then (false, hw)
  else
    match hw.testCommit .resync (onRequest dev blob) calls.testOn with
    | (false, hw) => (false, hw)
    | (true, hw) =>
        match hw.testCommit .resync (offRequest dev) calls.testOff with
        | (false, hw) => (false, hw)
        | (true, hw) =>
            match hw.commit .resync (offRequest dev) calls.commitOff with
            | (false, hw) => (false, rollbackSdiOutput dev calls blob modeId hw)
            | (true, hw) =>
                match hw.commit .resync (onRequest dev blob) calls.commitOn with
                | (false, hw) => (false, rollbackSdiOutput dev calls blob modeId hw)
                | (true, hw) => (true, hw)

/-- `reinitialize_sdi_output`. -/
def reinitializeSdiOutput (calls : ResetCalls) (hw : Hw) (ctx : Ctx) : Bool × Hw :=
  match resettable dev calls hw ctx with
  | none => (false, hw)
  | some (modeId, old) =>
      match hw.createBlob dev .resync old calls.blob with
      | (none, hw) => (false, hw)
      | (some blob, hw) =>
          match resetSdiOutput dev calls blob modeId hw with
          | (ok, hw) => (ok, hw.destroyBlob dev .resync blob)

/-- `on_sdi_resync_requested`; a failed reset disables the watchdog. -/
def onSdiResyncRequested (calls : ResetCalls) (hw : Hw) (ctx : Ctx) : Bool × Hw × Ctx :=
  match reinitializeSdiOutput dev calls hw ctx with
  | (ok, hw) => (ok, hw, { ctx with sdiResync := { ctx.sdiResync with failed := !ok } })

/-- `poll_sdi_resync` with the status word it may read. The first component is the result of the
reset, where one was requested. -/
def pollSdiResync (now : Nat) (status : UInt32) (calls : ResetCalls) (hw : Hw) (ctx : Ctx) :
    Option Bool × Hw × Ctx :=
  if !ctx.sdiStatusMapped || ctx.sdiResync.failed || now < ctx.sdiResync.nextSampleMs then
    (none, hw, ctx)
  else
    let ctx := { ctx with sdiLastStatus := status }
    let eligible := ctx.modesetActive && ctx.overlayActive && !ctx.avhActive
    match Resync.observe Resync.ring ctx.sdiResync now status eligible with
    | (policy, false) => (none, hw, { ctx with sdiResync := policy })
    | (policy, true) =>
        match onSdiResyncRequested dev calls hw { ctx with sdiResync := policy } with
        | (ok, hw, ctx) => (some ok, hw, ctx)

end Reset

/-! ## What one reset does -/

section Spec

variable (dev : Device)

/-- The output is on and shows what the context committed. -/
structure OnScreen (hw : Hw) (ctx : Ctx) : Prop where
  active : hw.config.get (.crtc dev.crtcId) .active = 1
  mode : hw.crtcMode dev.crtcId = some ctx.currentMode
  timing : isSdiMode dev.arithmetic ctx.currentMode = true
  isFrac : hw.config.get (.connector dev.connectorId) .isFrac = 0
  primary : hw.fbId dev.primaryPlaneId = ctx.objects.primaryFb
  primary_ne : ctx.objects.primaryFb ≠ 0
  overlay : hw.fbId dev.overlayPlaneId = ctx.objects.overlayFb
  overlay_ne : ctx.objects.overlayFb ≠ 0
  source : hw.config.get (.plane dev.overlayPlaneId) .overlaySource = 1

theorem drmPropertyValue_eq_some {read : Obj → PropName → Bool} {hw : Hw} {o : Obj}
    {p : PropName} {v : Nat} (h : drmPropertyValue read hw o p = some v) :
    hw.config.get o p = v := by
  rw [drmPropertyValue] at h
  split at h
  · exact Option.some.inj h
  · cases h

theorem resettable_spec {calls : ResetCalls} {hw : Hw} {ctx : Ctx} {modeId : Nat}
    {old : ModeInfo} (h : resettable dev calls hw ctx = some (modeId, old)) :
    OnScreen dev hw ctx ∧ modeId = hw.modeId dev.crtcId ∧ old = ctx.currentMode := by
  simp only [resettable, Option.bind_eq_bind, Option.bind_eq_some_iff, Option.guard_eq_some',
    Option.pure_def, Option.some.injEq, Prod.mk.injEq] at h
  obtain ⟨active, hactive, -, hon, modeId', hmode, frac, hfrac, -, hfrac0, primary, hprimary,
    overlay, hoverlay, source, hsource, -, ⟨rfl, hp0, rfl, ho0, rfl⟩, old', hold, -,
    ⟨rfl, htiming⟩, rfl, rfl⟩ := h
  replace hactive := drmPropertyValue_eq_some hactive
  replace hmode := drmPropertyValue_eq_some hmode
  have hcontent : hw.crtcMode dev.crtcId = some ctx.currentMode := by
    rw [getModeBlob, ← hmode] at hold
    rw [Hw.crtcMode, Hw.modeId]
    split at hold
    · next h0 =>
      rw [Bool.and_eq_true, bne_iff_ne] at h0
      rw [if_neg h0.2, hold]
    · cases hold
  refine ⟨⟨?_, hcontent, htiming, ?_, drmPropertyValue_eq_some hprimary, hp0,
    drmPropertyValue_eq_some hoverlay, ho0, drmPropertyValue_eq_some hsource⟩,
    hmode.symm, rfl⟩
  · have hle := hw.config.active_le (.crtc dev.crtcId)
    omega
  · rw [drmPropertyValue_eq_some hfrac, hfrac0]

/-- A commit of the reset. -/
def resetCommit (testOnly ok : Bool) (req : Request) : Commit :=
  { caller := .resync, request := req, testOnly := testOnly, ok := ok }

/-- The requests of a reset. -/
def resetRequests (blob modeId : Nat) : List Request :=
  [offRequest dev, onRequest dev blob, backRequest dev blob modeId]

/-- The commit is one of the reset, tried or real. -/
def IsReset (blob modeId : Nat) (testOnly : Bool) (c : Commit) : Prop :=
  c.caller = .resync ∧ c.testOnly = testOnly ∧ c.request ∈ resetRequests dev blob modeId

/-- The ends of the commits of a reset: it is refused before anything is committed for real, or
it fails on the way and the rollback may fail too, or it is done. -/
inductive ResetEnd (calls : ResetCalls) (blob modeId : Nat) (hw : Hw) : Bool × Hw → Prop where
  | refused (cs : List Commit)
      (hcs : ∀ c ∈ cs, IsReset dev blob modeId true c) :
      ResetEnd calls blob modeId hw (false, { hw with commits := hw.commits ++ cs })
  | failed (config : Config) (rest : List Commit)
      (hrest : ∀ c ∈ rest, IsReset dev blob modeId false c)
      (hconfig : config = hw.config ∨
        config = Request.write (backRequest dev blob modeId) hw.config ∨
        config = Request.write (backRequest dev blob modeId)
          (Request.write (offRequest dev) hw.config) ∨
        (config = Request.write (offRequest dev) hw.config ∧
          resetCommit false true (offRequest dev) ∈ rest ∧
          (calls.addBack = false ∨ calls.commitBack = false))) :
      ResetEnd calls blob modeId hw (false, { hw with
        config := config
        commits := hw.commits ++ resetCommit true true (onRequest dev blob) ::
          resetCommit true true (offRequest dev) :: rest })
  | done : ResetEnd calls blob modeId hw (true, { hw with
      config := Request.write (onRequest dev blob) (Request.write (offRequest dev) hw.config)
      commits := hw.commits ++ [resetCommit true true (onRequest dev blob),
        resetCommit true true (offRequest dev), resetCommit false true (offRequest dev),
        resetCommit false true (onRequest dev blob)] })

/-! The three requests of a reset, by name. -/

theorem offRequest_mem (blob modeId : Nat) :
    offRequest dev ∈ resetRequests dev blob modeId :=
  List.mem_cons_self

theorem onRequest_mem (blob modeId : Nat) :
    onRequest dev blob ∈ resetRequests dev blob modeId :=
  List.mem_cons_of_mem _ List.mem_cons_self

theorem backRequest_mem (blob modeId : Nat) :
    backRequest dev blob modeId ∈ resetRequests dev blob modeId :=
  List.mem_cons_of_mem _ (List.mem_cons_of_mem _ List.mem_cons_self)

theorem isReset_resetCommit {blob modeId : Nat} {req : Request}
    (hreq : req ∈ resetRequests dev blob modeId) (testOnly ok : Bool) :
    IsReset dev blob modeId testOnly (resetCommit testOnly ok req) :=
  ⟨rfl, rfl, hreq⟩

/-- What a rollback commits is the way back. -/
theorem isReset_rollback (calls : ResetCalls) (blob modeId : Nat) :
    ∀ c ∈ (if calls.addBack
      then [resetCommit false calls.commitBack (backRequest dev blob modeId)] else []),
      IsReset dev blob modeId false c := by
  intro c hc
  split at hc
  · rw [List.mem_singleton.mp hc]
    exact isReset_resetCommit dev (backRequest_mem dev blob modeId) _ _
  · cases hc

theorem commit_known {caller : Caller} {req : Request} (hknown : req.known = true) (ok : Bool)
    (hw : Hw) : hw.commit caller req ok = (ok, { hw with
      config := if ok then req.write hw.config else hw.config
      commits := hw.commits ++ [{ caller := caller, request := req, testOnly := false, ok := ok }] })
    := by
  rw [Hw.commit, hknown, Bool.and_true]

theorem testCommit_known {caller : Caller} {req : Request} (hknown : req.known = true) (ok : Bool)
    (hw : Hw) : hw.testCommit caller req ok = (ok, { hw with
      commits := hw.commits ++ [{ caller := caller, request := req, testOnly := true, ok := ok }] })
    := by
  rw [Hw.testCommit, hknown, Bool.and_true]

/-- The rollback commits the way back, or nothing. -/
theorem rollbackSdiOutput_eq (calls : ResetCalls) (blob modeId : Nat) (hw : Hw) :
    rollbackSdiOutput dev calls blob modeId hw = { hw with
      config := if calls.addBack && calls.commitBack
        then Request.write (backRequest dev blob modeId) hw.config else hw.config
      commits := hw.commits ++ if calls.addBack
        then [resetCommit false calls.commitBack (backRequest dev blob modeId)] else [] } := by
  rw [rollbackSdiOutput]
  cases calls.addBack with
  | false => simp
  | true => rw [if_pos rfl, commit_known rfl]; rfl

theorem resetSdiOutput_end (calls : ResetCalls) (blob modeId : Nat) (hw : Hw) :
    ResetEnd dev calls blob modeId hw (resetSdiOutput dev calls blob modeId hw) := by
  have hoff : Request.known (offRequest dev) = true := rfl
  have hon : Request.known (onRequest dev blob) = true := rfl
  have hoffReset := isReset_resetCommit dev (offRequest_mem dev blob modeId)
  have honReset := isReset_resetCommit dev (onRequest_mem dev blob modeId)
  have hrest := isReset_rollback dev calls blob modeId
  -- both requests are tried first, and then committed in turn
  rw [resetSdiOutput]
  split
  · have hend : ResetEnd dev calls blob modeId hw (false, _) := .refused [] (by simp)
    simpa using hend
  rw [testCommit_known hon]
  cases calls.testOn with
  | false =>
      refine .refused [resetCommit true false (onRequest dev blob)] fun c hc => ?_
      rw [List.mem_singleton.mp hc]
      exact honReset _ _
  | true =>
  dsimp only
  rw [testCommit_known hoff]
  cases calls.testOff with
  | false =>
      have hend : ResetEnd dev calls blob modeId hw (false, _) := .refused
        [resetCommit true true (onRequest dev blob), resetCommit true false (offRequest dev)]
        fun c hc => by
          rcases List.mem_pair.mp hc with rfl | rfl
          · exact honReset _ _
          · exact hoffReset _ _
      simpa [resetCommit] using hend
  | true =>
  dsimp only
  rw [commit_known hoff]
  cases hcommitOff : calls.commitOff with
  | false =>
      dsimp only
      rw [rollbackSdiOutput_eq]
      have hend : ResetEnd dev calls blob modeId hw (false, _) := .failed
        (if calls.addBack && calls.commitBack
          then Request.write (backRequest dev blob modeId) hw.config else hw.config)
        (resetCommit false false (offRequest dev) :: if calls.addBack
          then [resetCommit false calls.commitBack (backRequest dev blob modeId)] else [])
        (fun c hc => ?_) ?_
      · simpa [resetCommit] using hend
      · rcases List.mem_cons.mp hc with rfl | hc
        · exact hoffReset _ _
        · exact hrest _ hc
      · split
        · exact Or.inr (Or.inl rfl)
        · exact Or.inl rfl
  | true =>
  dsimp only
  rw [commit_known hon]
  cases calls.commitOn with
  | false =>
      dsimp only
      rw [rollbackSdiOutput_eq]
      have hend : ResetEnd dev calls blob modeId hw (false, _) := .failed
        (if calls.addBack && calls.commitBack
          then Request.write (backRequest dev blob modeId)
            (Request.write (offRequest dev) hw.config)
          else Request.write (offRequest dev) hw.config)
        (resetCommit false true (offRequest dev) :: resetCommit false false (onRequest dev blob) ::
          if calls.addBack
          then [resetCommit false calls.commitBack (backRequest dev blob modeId)] else [])
        (fun c hc => ?_) ?_
      · simpa [resetCommit] using hend
      · rcases List.mem_cons.mp hc with rfl | hc
        · exact hoffReset _ _
        rcases List.mem_cons.mp hc with rfl | hc
        · exact honReset _ _
        · exact hrest _ hc
      · split
        · exact Or.inr (Or.inr (Or.inl rfl))
        · next hback =>
          rw [Bool.and_eq_true, not_and_or, Bool.not_eq_true, Bool.not_eq_true] at hback
          exact Or.inr (Or.inr (Or.inr ⟨rfl, List.mem_cons_self, hback⟩))
  | true =>
      have hend : ResetEnd dev calls blob modeId hw (true, _) := .done
      simpa [resetCommit] using hend

/-! ### The properties a reset writes -/

/-- The properties the requests of a reset write. -/
def resetProperties : List (Obj × PropName) :=
  [(.crtc dev.crtcId, .active), (.crtc dev.crtcId, .modeId), (.connector dev.connectorId, .isFrac)]

theorem resetRequests_properties {blob modeId : Nat} {req : Request}
    (hreq : req ∈ resetRequests dev blob modeId) :
    ∀ e ∈ req, ∃ p, e.prop = some p ∧ (e.obj, p) ∈ resetProperties dev := by
  intro e he
  simp only [resetRequests, offRequest, onRequest, backRequest, List.mem_cons, List.not_mem_nil,
    or_false] at hreq
  rcases hreq with rfl | rfl | rfl
  all_goals
    simp only [List.cons_append, List.nil_append, List.mem_cons, List.not_mem_nil, or_false] at he
  · rw [he]; exact ⟨_, rfl, by simp [resetProperties]⟩
  · rcases he with rfl | rfl | rfl <;> exact ⟨_, rfl, by simp [resetProperties]⟩
  · rcases he with rfl | rfl | rfl | rfl <;> exact ⟨_, rfl, by simp [resetProperties]⟩

theorem write_reset_of_not_mem {blob modeId : Nat} {req : Request}
    (hreq : req ∈ resetRequests dev blob modeId) {o : Obj} {p : PropName}
    (hop : (o, p) ∉ resetProperties dev) (c : Config) : (Request.write req c).get o p = c.get o p := by
  rw [Request.get_write, Request.value?_eq_none]
  · rfl
  · rintro e he ⟨rfl, hp⟩
    obtain ⟨p', hp', hmem⟩ := resetRequests_properties dev hreq e he
    rw [hp] at hp'
    exact hop (Option.some.inj hp' ▸ hmem)

theorem modeId_write_off (c : Config) :
    (Request.write (offRequest dev) c).get (.crtc dev.crtcId) .modeId
      = c.get (.crtc dev.crtcId) .modeId := by
  simp [Request.get_write, Request.value?, offRequest]

theorem active_write_on (blob : Nat) (c : Config) :
    (Request.write (onRequest dev blob) c).get (.crtc dev.crtcId) .active = 1 := by
  simp [Request.get_write, Request.value?, onRequest, stored]

theorem modeId_write_on (blob : Nat) (c : Config) :
    (Request.write (onRequest dev blob) c).get (.crtc dev.crtcId) .modeId = blob := by
  simp [Request.get_write, Request.value?, onRequest, stored]

theorem active_write_back (blob modeId : Nat) (c : Config) :
    (Request.write (backRequest dev blob modeId) c).get (.crtc dev.crtcId) .active = 1 := by
  simp [Request.get_write, Request.value?, backRequest, onRequest, stored]

theorem modeId_write_back (blob modeId : Nat) (c : Config) :
    (Request.write (backRequest dev blob modeId) c).get (.crtc dev.crtcId) .modeId = modeId := by
  simp [Request.get_write, Request.value?, backRequest, onRequest, stored]

theorem isFrac_write_back (blob modeId : Nat) (c : Config) :
    (Request.write (backRequest dev blob modeId) c).get (.connector dev.connectorId) .isFrac
      = 0 := by
  simp [Request.get_write, Request.value?, backRequest, onRequest, stored]

/-! ### The ends of a reset -/

section Ends

variable {dev} {calls : ResetCalls} {blob modeId : Nat} {hw hw' : Hw} {ok : Bool}

/-- Only the committed configuration and the history of commits change. -/
theorem ResetEnd.eq (h : ResetEnd dev calls blob modeId hw (ok, hw')) :
    hw' = { hw with config := hw'.config, commits := hw'.commits } := by
  cases h <;> rfl

/-- Whatever a reset writes, it writes one of three properties. -/
theorem ResetEnd.get (h : ResetEnd dev calls blob modeId hw (ok, hw')) {o : Obj} {p : PropName}
    (hop : (o, p) ∉ resetProperties dev) : hw'.config.get o p = hw.config.get o p := by
  have hback := backRequest_mem dev blob modeId
  have hoff := offRequest_mem dev blob modeId
  have hon := onRequest_mem dev blob modeId
  cases h with
  | refused => rfl
  | failed config rest hrest hconfig =>
      show config.get o p = _
      rcases hconfig with rfl | rfl | rfl | ⟨rfl, -⟩
      · rfl
      · exact write_reset_of_not_mem dev hback hop _
      · rw [write_reset_of_not_mem dev hback hop, write_reset_of_not_mem dev hoff hop]
      · exact write_reset_of_not_mem dev hoff hop _
  | done =>
      show (Request.write _ (Request.write _ _)).get o p = _
      rw [write_reset_of_not_mem dev hon hop, write_reset_of_not_mem dev hoff hop]

/-- The CRTC has its old mode or the new one. -/
theorem ResetEnd.modeId_cases (h : ResetEnd dev calls blob modeId hw (ok, hw'))
    (hmode : modeId = hw.modeId dev.crtcId) :
    hw'.modeId dev.crtcId = hw.modeId dev.crtcId ∨ hw'.modeId dev.crtcId = blob := by
  cases h with
  | refused => exact Or.inl rfl
  | failed config rest hrest hconfig =>
      left
      show config.get _ _ = _
      rcases hconfig with rfl | rfl | rfl | ⟨rfl, -⟩
      · rfl
      · rw [modeId_write_back, hmode]
      · rw [modeId_write_back, hmode]
      · exact modeId_write_off dev _
  | done => exact Or.inr (modeId_write_on dev _ _)

/-- Every commit is one of the reset, and nothing is committed for real before both requests were
tried and accepted. -/
theorem ResetEnd.commits (h : ResetEnd dev calls blob modeId hw (ok, hw')) :
    ∃ cs, hw'.commits = hw.commits ++ cs ∧
      (∀ c ∈ cs, c.caller = .resync ∧ c.request ∈ resetRequests dev blob modeId) ∧
      ((∃ c ∈ cs, c.testOnly = false) → ∃ rest, cs = resetCommit true true (onRequest dev blob) ::
        resetCommit true true (offRequest dev) :: rest) := by
  have hoff := offRequest_mem dev blob modeId
  have hon := onRequest_mem dev blob modeId
  cases h with
  | refused cs hcs =>
      refine ⟨cs, rfl, fun c hc => ⟨(hcs c hc).1, (hcs c hc).2.2⟩, ?_⟩
      rintro ⟨c, hc, hreal⟩
      rw [(hcs c hc).2.1] at hreal
      cases hreal
  | failed config rest hrest hconfig =>
      refine ⟨_, rfl, fun c hc => ?_, fun _ => ⟨rest, rfl⟩⟩
      rcases List.mem_cons.mp hc with rfl | hc
      · exact ⟨rfl, hon⟩
      rcases List.mem_cons.mp hc with rfl | hc
      · exact ⟨rfl, hoff⟩
      · exact ⟨(hrest c hc).1, (hrest c hc).2.2⟩
  | done =>
      refine ⟨_, rfl, fun c hc => ?_, fun _ => ⟨_, rfl⟩⟩
      simp only [List.mem_cons, List.not_mem_nil, or_false] at hc
      rcases hc with rfl | rfl | rfl | rfl
      · exact ⟨rfl, hon⟩
      · exact ⟨rfl, hoff⟩
      · exact ⟨rfl, hoff⟩
      · exact ⟨rfl, hon⟩

/-- A reset that is done leaves the CRTC on, with the new mode. -/
theorem ResetEnd.done_on (h : ResetEnd dev calls blob modeId hw (true, hw')) :
    hw'.config.get (.crtc dev.crtcId) .active = 1 ∧ hw'.modeId dev.crtcId = blob := by
  cases h with
  | done => exact ⟨active_write_on dev _ _, modeId_write_on dev _ _⟩

/-- A reset that is not done leaves the output as it was, unless the rollback failed after the
CRTC had been switched off. -/
theorem ResetEnd.kept (h : ResetEnd dev calls blob modeId hw (false, hw'))
    (hactive : hw.config.get (.crtc dev.crtcId) .active = 1)
    (hmode : modeId = hw.modeId dev.crtcId)
    (hfrac : hw.config.get (.connector dev.connectorId) .isFrac = 0) {cs : List Commit}
    (hcs : hw'.commits = hw.commits ++ cs) :
    (∀ op ∈ resetProperties dev, hw'.config.get op.1 op.2 = hw.config.get op.1 op.2) ∨
    (resetCommit false true (offRequest dev) ∈ cs ∧
      (calls.addBack = false ∨ calls.commitBack = false)) := by
  have hthree : ∀ c : Config,
      c.get (.crtc dev.crtcId) .active = 1 → c.get (.crtc dev.crtcId) .modeId = modeId →
      c.get (.connector dev.connectorId) .isFrac = 0 →
      ∀ op ∈ resetProperties dev, c.get op.1 op.2 = hw.config.get op.1 op.2 := by
    intro c h1 h2 h3 op hop
    simp only [resetProperties, List.mem_cons, List.not_mem_nil, or_false] at hop
    rcases hop with rfl | rfl | rfl
    · exact h1.trans hactive.symm
    · exact h2.trans hmode
    · exact h3.trans hfrac.symm
  cases h with
  | refused => exact Or.inl fun _ _ => rfl
  | failed config rest hrest hconfig =>
      rcases hconfig with rfl | rfl | rfl | ⟨-, hmem, hback⟩
      · exact Or.inl fun _ _ => rfl
      · exact Or.inl (hthree _ (active_write_back dev _ _ _) (modeId_write_back dev _ _ _)
          (isFrac_write_back dev _ _ _))
      · exact Or.inl (hthree _ (active_write_back dev _ _ _) (modeId_write_back dev _ _ _)
          (isFrac_write_back dev _ _ _))
      · refine Or.inr ⟨?_, hback⟩
        rw [← List.append_cancel_left hcs]
        simp [hmem]

end Ends

/-! ### The whole reset -/

/-- The state after the temporary blob was created. -/
def Hw.withBlob (hw : Hw) (blob : Nat) (mode : ModeInfo) : Hw :=
  { hw.create ⟨.resync, .blob blob⟩ with blobMode := Function.update hw.blobMode blob mode }

/-- A reset is skipped, or tried with a temporary blob. -/
inductive ResetOutcome (calls : ResetCalls) (hw : Hw) (ctx : Ctx) : Bool × Hw → Prop where
  | skipped : ResetOutcome calls hw ctx (false, hw)
  | tried (blob : Nat) (ok : Bool) (hw₁ : Hw) (hscreen : OnScreen dev hw ctx)
      (hfresh : ⟨.resync, .blob blob⟩ ∉ hw.ledger.live)
      (hunset : ∀ c ∈ dev.crtcs, hw.modeId c ≠ blob) (hne : blob ≠ 0)
      (hforeign : ⟨.modeset, .blob blob⟩ ∉ hw.ledger.live)
      (hend : ResetEnd dev calls blob (hw.modeId dev.crtcId)
        (Hw.withBlob hw blob ctx.currentMode) (ok, hw₁)) :
      ResetOutcome calls hw ctx (ok, hw₁.destroyBlob dev .resync blob)

theorem reinitializeSdiOutput_cases (calls : ResetCalls) (hw : Hw) (ctx : Ctx) :
    ResetOutcome dev calls hw ctx (reinitializeSdiOutput dev calls hw ctx) := by
  rw [reinitializeSdiOutput]
  cases hres : resettable dev calls hw ctx with
  | none => exact .skipped
  | some m =>
  obtain ⟨modeId, old⟩ := m
  obtain ⟨hscreen, rfl, rfl⟩ := resettable_spec dev hres
  dsimp only
  rcases Hw.createBlob_cases dev .resync ctx.currentMode calls.blob hw with
    ⟨-, hblob⟩ | ⟨blob, hne, hfresh, hunset, hblob⟩
  · rw [hblob]
    exact .skipped
  · rw [hblob]
    exact .tried blob _ _ hscreen (hfresh _) hunset hne (hfresh _) (resetSdiOutput_end dev calls _ _ _)

section Outcome

variable {dev} {calls : ResetCalls} {hw hw' : Hw} {ctx : Ctx} {ok : Bool}

/-- The CRTC has a mode of the same content afterwards, however the reset ends. -/
theorem ResetOutcome.crtcMode (h : ResetOutcome dev calls hw ctx (ok, hw')) :
    hw'.crtcMode dev.crtcId = hw.crtcMode dev.crtcId := by
  cases h with
  | skipped => rfl
  | tried blob ok hw₁ hscreen hfresh hunset hne hforeign hend =>
      have hblobMode : hw₁.blobMode = Function.update hw.blobMode blob ctx.currentMode := by
        rw [hend.eq]; rfl
      show hw₁.crtcMode dev.crtcId = _
      rcases hend.modeId_cases rfl with hid | hid
      · replace hid : hw₁.modeId dev.crtcId = hw.modeId dev.crtcId := hid
        rw [Hw.crtcMode, Hw.crtcMode, hid, hblobMode,
          Function.update_of_ne (hunset _ dev.crtc_mem)]
      · rw [hscreen.mode, Hw.crtcMode, hid, if_neg hne, hblobMode, Function.update_self]

theorem ResetOutcome.get (h : ResetOutcome dev calls hw ctx (ok, hw')) {o : Obj} {p : PropName}
    (hop : (o, p) ∉ resetProperties dev) : hw'.config.get o p = hw.config.get o p := by
  cases h with
  | skipped => rfl
  | tried blob ok hw₁ hscreen hfresh hunset hne hforeign hend => exact hend.get hop

/-- The temporary blob is destroyed exactly once, if it was created. -/
theorem ResetOutcome.ledger (h : ResetOutcome dev calls hw ctx (ok, hw')) :
    hw'.ledger = hw.ledger ∨ ∃ blob used, hw'.ledger.live = hw.ledger.live ∧
      hw'.ledger.events = hw.ledger.events ++
        [.created ⟨.resync, .blob blob⟩, .destroyed ⟨.resync, .blob blob⟩ true used] := by
  cases h with
  | skipped => exact Or.inl rfl
  | tried blob ok hw₁ hscreen hfresh hunset hne hforeign hend =>
      have hledger : hw₁.ledger = hw.ledger.create ⟨.resync, .blob blob⟩ := by
        rw [hend.eq]; rfl
      refine Or.inr ⟨blob, hw₁.used dev ⟨.resync, .blob blob⟩, ?_, ?_⟩
      · show hw₁.ledger.live.erase _ = _
        rw [hledger, Ledger.live_create, Finset.erase_insert hfresh]
      · show hw₁.ledger.events ++ [.destroyed _ (decide (_ ∈ hw₁.ledger.live)) _] = _
        rw [hledger]
        simp [Ledger.create]

/-- The commits of a reset are the context's. -/
theorem ResetOutcome.lastCommit (h : ResetOutcome dev calls hw ctx (ok, hw')) :
    hw'.lastCommit = hw.lastCommit ∨ hw'.lastCommit = some .resync := by
  cases h with
  | skipped => exact Or.inl rfl
  | tried blob ok hw₁ hscreen hfresh hunset hne hforeign hend =>
      obtain ⟨cs, hcs, hcaller, -⟩ := hend.commits
      exact @Hw.lastCommit_of_caller .resync hw (hw₁.destroyBlob dev .resync blob) cs hcs
        fun c hc => (hcaller c hc).1

end Outcome

/-! ## Polling -/

/-- One event of the watchdog: a poll, or anything else the receiver does, which leaves the policy
alone. -/
inductive PollEvent where
  | poll (now : Nat) (status : UInt32) (calls : ResetCalls)
  | elsewhere (hw : Hw) (ctx : Ctx)

/-- The watchdog as a machine; a poll answers with the result of the reset it made, if any. -/
def watchdog : Machine (Hw × Ctx) PollEvent (Option Bool) where
  step s
    | .poll now status calls =>
        match pollSdiResync dev now status calls s.1 s.2 with
        | (result, s') => (s', result)
    | .elsewhere hw ctx => ((hw, { ctx with sdiResync := s.2.sdiResync }), none)

/-- A poll without a reset leaves the hardware alone; a failed reset disables the watchdog. -/
theorem pollSdiResync_spec (now : Nat) (status : UInt32) (calls : ResetCalls) (hw : Hw)
    (ctx : Ctx) :
    ((pollSdiResync dev now status calls hw ctx).1 = none →
      (pollSdiResync dev now status calls hw ctx).2.1 = hw) ∧
    ((pollSdiResync dev now status calls hw ctx).1 = some false →
      (pollSdiResync dev now status calls hw ctx).2.2.sdiResync.failed = true) ∧
    (ctx.sdiResync.failed = true →
      pollSdiResync dev now status calls hw ctx = (none, hw, ctx)) := by
  rw [pollSdiResync]
  split
  · simp
  · next hon =>
    have hfailed : ctx.sdiResync.failed ≠ true := fun h => by simp [h] at hon
    dsimp only
    split
    · exact ⟨fun _ => rfl, nofun, fun h => absurd h hfailed⟩
    · refine ⟨nofun, fun h => ?_, fun h => absurd h hfailed⟩
      rw [onSdiResyncRequested] at h ⊢
      simp only [Option.some.injEq] at h
      simp [h]

/-- Once the policy has failed, it stays failed and no reset is made. -/
theorem watchdog_failed (es : List PollEvent) (s : Hw × Ctx) (hs : s.2.sdiResync.failed = true) :
    ∀ o ∈ (watchdog dev).outputs s es, o = none := by
  induction es generalizing s with
  | nil => simp
  | cons e es ih =>
      intro o ho
      rcases List.mem_cons.mp ho with rfl | ho
      · cases e with
        | poll now status calls =>
            exact congrArg Prod.fst ((pollSdiResync_spec dev now status calls s.1 s.2).2.2 hs)
        | elsewhere => rfl
      · refine ih _ ?_ o ho
        cases e with
        | poll now status calls =>
            show (pollSdiResync dev now status calls s.1 s.2).2.2.sdiResync.failed = true
            rw [(pollSdiResync_spec dev now status calls s.1 s.2).2.2 hs]
            exact hs
        | elsewhere => exact hs

/-- After a failed reset no poll resets the output again. -/
theorem watchdog_stops (es : List PollEvent) (s : Hw × Ctx) (p q : List (Option Bool))
    (hout : (watchdog dev).outputs s es = p ++ some false :: q) : ∀ o ∈ q, o = none := by
  induction es generalizing s p with
  | nil => simp at hout
  | cons e es ih =>
      rw [Machine.outputs] at hout
      cases p with
      | cons o p => exact ih _ p (List.cons.inj hout).2
      | nil =>
          obtain ⟨hlast, hrest⟩ := List.cons.inj hout
          rw [← hrest]
          refine watchdog_failed dev es _ ?_
          cases e with
          | poll now status calls =>
              exact (pollSdiResync_spec dev now status calls s.1 s.2).2.1 hlast
          | elsewhere => cases hlast

/-! ## Safety -/

/-- **A reset is safe.** Its requests name no plane and no framebuffer. It commits for real only
what shows on screen and only after both requests were tried and accepted. When it succeeds, the
CRTC is on with a mode of the same content; when it fails, the CRTC and `is_frac` are as they were,
unless the rollback failed after the CRTC had been switched off. The temporary blob is destroyed
exactly once. In a run of polls, no reset follows a failed one. -/
theorem reinitializeSdiOutput_safe (calls : ResetCalls) (hw : Hw) (ctx : Ctx) :
    let r := reinitializeSdiOutput dev calls hw ctx
    (∃ cs, r.2.commits = hw.commits ++ cs ∧
      (∀ c ∈ cs, ∀ e ∈ c.request, (∀ q, e.obj ≠ .plane q) ∧ e.prop ≠ some .fbId) ∧
      ((∃ c ∈ cs, c.testOnly = false) → OnScreen dev hw ctx ∧ ∃ on off rest,
        cs = resetCommit true true on :: resetCommit true true off :: rest) ∧
      (r.1 = false → (∀ p, p = .active ∨ p = .modeId →
          r.2.config.get (.crtc dev.crtcId) p = hw.config.get (.crtc dev.crtcId) p) ∧
        r.2.config.get (.connector dev.connectorId) .isFrac
          = hw.config.get (.connector dev.connectorId) .isFrac ∨
        resetCommit false true (offRequest dev) ∈ cs ∧
          (calls.addBack = false ∨ calls.commitBack = false))) ∧
    (r.1 = true → r.2.config.get (.crtc dev.crtcId) .active = 1 ∧
      r.2.crtcMode dev.crtcId = hw.crtcMode dev.crtcId) ∧
    (r.2.ledger = hw.ledger ∨ ∃ blob used, r.2.ledger.live = hw.ledger.live ∧
      r.2.ledger.events = hw.ledger.events ++
        [.created ⟨.resync, .blob blob⟩, .destroyed ⟨.resync, .blob blob⟩ true used]) ∧
    (∀ es s p q, (watchdog dev).outputs s es = p ++ some false :: q → ∀ o ∈ q, o = none) := by
  intro r
  have hcases : ResetOutcome dev calls hw ctx (r.1, r.2) :=
    reinitializeSdiOutput_cases dev calls hw ctx
  refine ⟨?_, fun hdone => ⟨?_, hcases.crtcMode⟩, hcases.ledger, watchdog_stops dev⟩
  · generalize r.1 = ok at hcases ⊢
    generalize r.2 = hw' at hcases ⊢
    cases hcases with
    | skipped => exact ⟨[], by simp, by simp, by simp, fun _ => Or.inl ⟨fun _ _ => rfl, rfl⟩⟩
    | tried blob ok hw₁ hscreen hfresh hunset hne hforeign hend =>
        -- what is committed is one of the three requests
        obtain ⟨cs, hcs, hreset, htested⟩ := hend.commits
        refine ⟨cs, hcs, fun c hc e he => ?_, fun hreal => ?_, fun hok => ?_⟩
        · obtain ⟨p, hp, hmem⟩ := resetRequests_properties dev (hreset c hc).2 e he
          simp only [resetProperties, List.mem_cons, List.not_mem_nil, or_false,
            Prod.mk.injEq] at hmem
          rw [hp]
          rcases hmem with ⟨ho, rfl⟩ | ⟨ho, rfl⟩ | ⟨ho, rfl⟩ <;> simp [ho]
        · obtain ⟨rest, hrest⟩ := htested hreal
          exact ⟨hscreen, _, _, rest, hrest⟩
        · subst hok
          rcases hend.kept hscreen.active rfl hscreen.isFrac hcs with hkept | hback
          · refine Or.inl ⟨fun p hp => ?_, hkept (_, _) (by simp [resetProperties])⟩
            rcases hp with rfl | rfl <;> exact hkept (_, _) (by simp [resetProperties])
          · exact Or.inr hback
  · rw [hdone] at hcases
    generalize r.2 = hw' at hcases ⊢
    cases hcases with
    | tried blob ok hw₁ hscreen hfresh hunset hne hforeign hend => exact hend.done_on.1

end Spec

end QcapDemos.Rx
