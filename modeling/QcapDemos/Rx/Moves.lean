import Mathlib.Logic.Relation
import QcapDemos.Rx.Ownership

set_option autoImplicit false

/-! # The moves of the program

Every event of the main loop is a sequence of *moves* on the hardware and the context: a modeset, a
reset, a note of a stream's format, a change of the owner, a setting of the audio controls, or
something the AVH receiver does to the display. `step_moves` says so once; an invariant of the
hardware and the context is then proved move by move. What the receiver does is summed up by
`Foreign`: whatever it commits and destroys, the objects of the Ultra modeset stay as they are.
-/

namespace QcapDemos.Rx

open QcapDemos.Drm QcapDemos.Alsa QcapDemos.Lib

/-! ## What another client does -/

section Foreign

variable (dev : Device)

/-- The objects of the Ultra modeset stay as they are, and none of them is shown anew. -/
structure Foreign (hw hw' : Hw) : Prop where
  live : ∀ r, ⟨.modeset, r⟩ ∈ hw'.ledger.live ↔ ⟨.modeset, r⟩ ∈ hw.ledger.live
  accounted : hw.Accounted → hw'.Accounted
  fbs : ∀ n, ⟨.modeset, .fb n⟩ ∈ hw.ledger.live →
    hw'.fbFormat n = hw.fbFormat n ∧ hw'.fbBuffer n = hw.fbBuffer n
  planes : ∀ q, hw'.fbId q ≠ 0 → ⟨.modeset, .fb (hw'.fbId q)⟩ ∈ hw.ledger.live →
    hw'.fbId q = hw.fbId q
  crtcs : ∀ c, hw'.modeId c ≠ 0 → ⟨.modeset, .blob (hw'.modeId c)⟩ ∈ hw.ledger.live →
    hw'.modeId c = hw.modeId c

variable {hw hw₁ hw₂ : Hw}

theorem Foreign.refl (hw : Hw) : Foreign hw hw :=
  ⟨fun _ => Iff.rfl, id, fun _ _ => ⟨rfl, rfl⟩, fun _ _ _ => rfl, fun _ _ _ => rfl⟩

theorem Foreign.trans (h₁ : Foreign hw hw₁) (h₂ : Foreign hw₁ hw₂) : Foreign hw hw₂ where
  live r := (h₂.live r).trans (h₁.live r)
  accounted h := h₂.accounted (h₁.accounted h)
  fbs n hn := by
    obtain ⟨hf, hb⟩ := h₂.fbs n ((h₁.live _).mpr hn)
    exact ⟨hf.trans (h₁.fbs n hn).1, hb.trans (h₁.fbs n hn).2⟩
  planes q hq hn := by
    have heq := h₂.planes q hq ((h₁.live _).mpr hn)
    rw [heq] at hq hn ⊢
    exact h₁.planes q hq hn
  crtcs c hc hn := by
    have heq := h₂.crtcs c hc ((h₁.live _).mpr hn)
    rw [heq] at hc hn ⊢
    exact h₁.crtcs c hc hn

theorem Foreign.ite {c : Prop} [Decidable c] (h : Foreign hw hw₁) :
    Foreign hw (if c then hw₁ else hw) := by
  split
  · exact h
  · exact .refl hw

/-- The audio controls are not part of the display. -/
theorem foreign_audio (hw : Hw) (b : Bool) (r : Nat) :
    Foreign hw { hw with passthrough := b, route := r } :=
  ⟨fun _ => Iff.rfl, id, fun _ _ => ⟨rfl, rfl⟩, fun _ _ _ => rfl, fun _ _ _ => rfl⟩

theorem foreign_create {o : Object} (ho : o.caller ≠ .modeset) (hw : Hw) :
    Foreign hw (hw.create o) where
  live r := by
    have hne : (⟨.modeset, r⟩ : Object) ≠ o := fun h => ho (h ▸ rfl)
    simp [Hw.create, hne]
  accounted h := Ledger.Accounted.create h fun hp => absurd hp ho
  fbs _ _ := ⟨rfl, rfl⟩
  planes _ _ _ := rfl
  crtcs _ _ _ := rfl

theorem foreign_destroy {o : Object} (ho : o.caller ≠ .modeset) (hw : Hw) :
    Foreign hw (hw.destroy dev o) where
  live r := by
    have hne : (⟨.modeset, r⟩ : Object) ≠ o := fun h => ho (h ▸ rfl)
    simp [Hw.destroy, hne]
  accounted h := Ledger.Accounted.destroy h fun hp => absurd hp ho
  fbs _ _ := ⟨rfl, rfl⟩
  planes _ _ _ := rfl
  crtcs _ _ _ := rfl

theorem foreign_rmFb {caller : Caller} (ho : caller ≠ .modeset) (n : Nat) (hw : Hw) :
    Foreign hw (hw.rmFb dev caller n) where
  live := (foreign_destroy dev (o := ⟨caller, .fb n⟩) ho hw).live
  accounted := (foreign_destroy dev (o := ⟨caller, .fb n⟩) ho hw).accounted
  fbs _ _ := ⟨rfl, rfl⟩
  planes q hq _ := by
    have hget : (hw.rmFb dev caller n).fbId q
        = if q ∈ dev.planes ∧ hw.fbId q = n ∧ (PropName.fbId = .fbId ∨ PropName.fbId = .crtcId)
          then 0 else hw.fbId q := rfl
    rw [hget] at hq ⊢
    split
    · next h => rw [if_pos h] at hq; exact absurd rfl hq
    · rfl
  crtcs _ _ _ := rfl

theorem foreign_close {caller : Caller} (ho : caller ≠ .modeset) (hw : Hw) :
    Foreign hw (hw.closeClient caller) where
  live r := by simp [Hw.closeClient, ho.symm]
  accounted h := by
    refine ⟨fun i hi => ?_, h.clean⟩
    have hlive : i ∈ (hw.closeClient caller).ledger.live ↔ i ∈ hw.ledger.live := by
      have hne : i.caller ≠ caller := fun he => ho (he ▸ hi)
      simp [Hw.closeClient, hne]
    rw [if_congr hlive rfl rfl]
    exact h.balance i hi
  fbs _ _ := ⟨rfl, rfl⟩
  planes _ _ _ := rfl
  crtcs _ _ _ := rfl

/-- A request that shows no object of the modeset. -/
def Request.Foreign (hw : Hw) (req : Request) : Prop :=
  ∀ o v, ({ obj := o, prop := some .fbId, value := v } ∈ req →
      v ≠ 0 → ⟨.modeset, .fb v⟩ ∉ hw.ledger.live) ∧
    ({ obj := o, prop := some .modeId, value := v } ∈ req →
      v ≠ 0 → ⟨.modeset, .blob v⟩ ∉ hw.ledger.live)

theorem foreign_commit (caller : Caller) {req : Request} (hreq : Request.Foreign hw req)
    (ok : Bool) : Foreign hw (hw.commit caller req ok).2 where
  live _ := Iff.rfl
  accounted := id
  fbs _ _ := ⟨rfl, rfl⟩
  planes q hq hn := by
    simp only [Hw.commit, Hw.fbId] at hq hn ⊢
    split
    · next hok =>
      rw [if_pos hok, Request.get_write] at hq hn
      rw [Request.get_write]
      cases hv : Request.value? req (.plane q) .fbId with
      | none => rfl
      | some v =>
          rw [hv] at hq hn
          exact absurd hn ((hreq _ v).1 (Request.mem_of_value? hv) hq)
    · rfl
  crtcs c hc hn := by
    simp only [Hw.commit, Hw.modeId] at hc hn ⊢
    split
    · next hok =>
      rw [if_pos hok, Request.get_write] at hc hn
      rw [Request.get_write]
      cases hv : Request.value? req (.crtc c) .modeId with
      | none => rfl
      | some v =>
          rw [hv] at hc hn
          exact absurd hn ((hreq _ v).2 (Request.mem_of_value? hv) hc)
    · rfl

/-! ## What the AVH receiver does -/

/-- A client's call that creates an object, or fails. -/
theorem foreign_createDumb {caller : Caller} (ho : caller ≠ .modeset) (hint : Option Nat)
    (hw : Hw) : Foreign hw (hw.createDumb caller hint).2 := by
  rcases Hw.createDumb_cases caller hint hw with ⟨-, h⟩ | ⟨n, -, -, h⟩
  · rw [h]; exact .refl hw
  · rw [h]; exact foreign_create (o := ⟨caller, .bo n⟩) ho hw

theorem foreign_createBlob {caller : Caller} (ho : caller ≠ .modeset) (mode : ModeInfo)
    (hint : Option Nat) (hw : Hw) :
    Foreign hw (hw.createBlob dev caller mode hint).2 ∧
    ∀ n, (hw.createBlob dev caller mode hint).1 = some n →
      ⟨.modeset, .blob n⟩ ∉ (hw.createBlob dev caller mode hint).2.ledger.live := by
  rcases Hw.createBlob_cases dev caller mode hint hw with ⟨-, h⟩ | ⟨n, -, hfresh, -, h⟩
  · rw [h]; exact ⟨.refl hw, nofun⟩
  · rw [h]
    have hcreate := foreign_create (o := ⟨caller, .blob n⟩) ho hw
    refine ⟨⟨hcreate.live, hcreate.accounted, hcreate.fbs, hcreate.planes, hcreate.crtcs⟩, ?_⟩
    intro m hm hlive
    rw [← Option.some.inj hm] at hlive
    exact hfresh _ ((hcreate.live _).mp hlive)

theorem foreign_addFb {caller : Caller} (ho : caller ≠ .modeset) (format : PixelFormat)
    (bo : Nat) (hint : Option Nat) (hw : Hw) :
    Foreign hw (hw.addFb dev caller format bo hint).2 ∧
    ∀ n, (hw.addFb dev caller format bo hint).1 = some n →
      ⟨.modeset, .fb n⟩ ∉ (hw.addFb dev caller format bo hint).2.ledger.live := by
  rcases Hw.addFb_cases dev caller format bo hint hw with ⟨-, h⟩ | ⟨n, -, hfresh, -, h⟩
  · rw [h]; exact ⟨.refl hw, nofun⟩
  · rw [h]
    have hcreate := foreign_create (o := ⟨caller, .fb n⟩) ho hw
    refine ⟨⟨hcreate.live, hcreate.accounted, fun m hm => ?_, hcreate.planes, hcreate.crtcs⟩, ?_⟩
    · have hne : m ≠ n := fun he => hfresh _ (he ▸ hm)
      exact ⟨Function.update_of_ne hne _ _, Function.update_of_ne hne _ _⟩
    · intro m hm hlive
      rw [← Option.some.inj hm] at hlive
      exact hfresh _ ((hcreate.live _).mp hlive)

/-- An entry of a request under construction is the one that was asked for. -/
theorem mem_ask {propId add : Obj → PropName → Bool} {o : Obj} {p : PropName} {v : Nat} {e : Entry}
    (h : e ∈ ask propId add o p v) :
    e = { obj := o, prop := if propId o p then some p else none, value := v } := by
  rw [ask] at h
  split at h
  · exact List.mem_singleton.mp h
  · cases h

theorem mem_askKnown {propId add : Obj → PropName → Bool} {o : Obj} {p : PropName} {v : Nat}
    {e : Entry} (h : e ∈ askKnown propId add o p v) :
    e = { obj := o, prop := some p, value := v } := by
  rw [askKnown] at h
  split at h
  · next hp => rw [mem_ask h, if_pos hp]
  · cases h

/-- The output properties show no framebuffer, set no mode and select no source. -/
theorem addOutputProperties_shows {ar : Arithmetic} {propId add : Obj → PropName → Bool}
    {sdi : Bool} {connectorId : Nat} {mode : ModeInfo} {extra : Request}
    (h : addOutputProperties propId add ar sdi connectorId mode = some extra) {e : Entry}
    (he : e ∈ extra) :
    e.prop ≠ some .fbId ∧ e.prop ≠ some .modeId ∧ e.prop ≠ some .overlaySource := by
  rw [addOutputProperties] at h
  split at h
  · cases h; cases he
  split at h
  · cases h
  dsimp only at h
  split at h
  · cases h
    simp only [sdiProperties, List.map_cons, List.map_nil, List.mem_cons, List.not_mem_nil,
      or_false] at he
    rcases he with rfl | rfl | rfl | rfl | rfl | rfl | rfl | rfl | rfl | rfl | rfl <;> simp
  · cases h

section Receiver

variable (opts : Options)

theorem foreign_stopRequest (calls : StopCalls) (avh : Avh) (hw : Hw) :
    Request.Foreign hw (stopRequest calls avh) := by
  have hzero : ∀ e ∈ stopRequest calls avh, e.value = 0 := by
    intro e he
    simp only [stopRequest, List.mem_append] at he
    rcases he with ((he | he) | he) | he <;> rw [mem_askKnown he]
  intro o v
  exact ⟨fun he h0 => absurd (hzero _ he) h0, fun he h0 => absurd (hzero _ he) h0⟩

theorem foreign_stopDrmOutput (calls : StopCalls) (hw : Hw) (avh : Avh) :
    Foreign hw (stopDrmOutput opts dev calls hw avh).1 := by
  have havh : Caller.avh ≠ .modeset := nofun
  rw [stopDrmOutput]
  dsimp only
  generalize (if opts.sdi = true then stopHdmiAudioSink avh else avh) = avh
  split
  · exact .refl hw
  refine .trans ?_ (foreign_close havh _)
  refine .trans ?_ (.ite (foreign_destroy dev havh _))
  refine .trans ?_ (.ite (foreign_destroy dev havh _))
  refine .trans ?_ (.ite (foreign_rmFb dev havh avh.drmPrimaryFbId _))
  exact .ite (foreign_commit .avh (foreign_stopRequest calls avh hw) calls.commit)

/-- The request of the output shows the framebuffer and the mode blob it is built with. -/
theorem foreign_startRequest {calls : OutputCalls} {path : Path} {fb blob : Nat} {extra : Request}
    {hw : Hw} (hfb : ⟨.modeset, .fb fb⟩ ∉ hw.ledger.live)
    (hblob : ⟨.modeset, .blob blob⟩ ∉ hw.ledger.live)
    (hextra : addOutputProperties calls.propId calls.add dev.arithmetic opts.sdi path.connectorId
      path.mode = some extra) : Request.Foreign hw (startRequest calls path fb blob ++ extra) := by
  have hshown : ∀ e ∈ startRequest calls path fb blob ++ extra,
      (e.prop = some .fbId → e.value = fb) ∧ (e.prop = some .modeId → e.value = blob) := by
    intro e he
    simp only [startRequest, outputProperties, List.flatMap_cons, List.flatMap_nil,
      List.mem_append, List.not_mem_nil, or_false] at he
    rcases he with ((he | he | he | he | he | he | he | he | he | he | he | he | he) | he) | he
    case inr =>
      have hnot := addOutputProperties_shows hextra he
      exact ⟨fun h => absurd h hnot.1, fun h => absurd h hnot.2.1⟩
    all_goals
      rw [mem_ask he]
      split <;> simp
  intro o v
  refine ⟨fun he _ => ?_, fun he _ => ?_⟩
  · rw [show v = fb from (hshown _ he).1 rfl]
    exact hfb
  · rw [show v = blob from (hshown _ he).2 rfl]
    exact hblob

theorem foreign_commitOutput (calls : OutputCalls) (path : Path) {fb blob : Nat} {hw : Hw}
    (hfb : ⟨.modeset, .fb fb⟩ ∉ hw.ledger.live) (hblob : ⟨.modeset, .blob blob⟩ ∉ hw.ledger.live) :
    Foreign hw (commitOutput opts dev calls path fb blob hw).2 := by
  rw [commitOutput]
  split
  · exact .refl hw
  split
  · exact .refl hw
  next extra hextra => exact foreign_commit .avh (foreign_startRequest dev opts hfb hblob hextra) _

theorem foreign_buildOutput (calls : OutputCalls) (path : Path) (hw : Hw) (avh : Avh) :
    Foreign hw (buildOutput opts dev calls path hw avh).2.1 := by
  have havh : Caller.avh ≠ .modeset := nofun
  rw [buildOutput]
  have hdumb := foreign_createDumb havh calls.dumb hw
  generalize hw.createDumb .avh calls.dumb = r at hdumb ⊢
  obtain ⟨bo?, hw₁⟩ := r
  cases bo? with
  | none => exact hdumb
  | some bo =>
  dsimp only
  refine hdumb.trans ?_
  obtain ⟨hblob, hblob'⟩ := foreign_createBlob dev havh path.mode calls.blob hw₁
  generalize hw₁.createBlob dev .avh path.mode calls.blob = r at hblob hblob' ⊢
  obtain ⟨blob?, hw₂⟩ := r
  cases blob? with
  | none => exact hblob
  | some blob =>
  dsimp only
  refine hblob.trans ?_
  obtain ⟨hfb, hfb'⟩ := foreign_addFb dev havh .bgr888 bo calls.addFb hw₂
  generalize hw₂.addFb dev .avh .bgr888 bo calls.addFb = r at hfb hfb' ⊢
  obtain ⟨fb?, hw₃⟩ := r
  cases fb? with
  | none => exact hfb
  | some fb =>
  dsimp only
  refine hfb.trans (foreign_commitOutput dev opts calls path (hfb' fb rfl) fun hlive => ?_)
  exact hblob' blob rfl ((hfb.live _).mp hlive)

/-- Starting the PCM sets the audio controls. -/
theorem startHdmiAudioSink_hw (sdi : Bool) (calls : SinkCalls) (hw : Hw) (avh : Avh) :
    ∃ b r, (startHdmiAudioSink sdi calls hw avh).2.1
      = { hw with passthrough := b, route := r } := by
  obtain ⟨b, r, heq, -⟩ := selectHdmiAudioRoute_spec sdi 0 calls.route hw
  rw [startHdmiAudioSink]
  generalize selectHdmiAudioRoute sdi 0 calls.route hw = s at heq ⊢
  obtain ⟨ok, hw'⟩ := s
  subst heq
  split
  · exact ⟨_, _, rfl⟩
  split
  · exact ⟨_, _, rfl⟩
  cases ok with
  | false => exact ⟨_, _, rfl⟩
  | true =>
      dsimp only
      split <;> exact ⟨_, _, rfl⟩

theorem foreign_startDrmOutput (calls : OutputCalls) (hw : Hw) (avh : Avh) :
    Foreign hw (startDrmOutput opts dev calls hw avh).2.1 := by
  rw [startDrmOutput]
  dsimp only
  split
  · exact .refl hw
  split
  · exact foreign_stopDrmOutput dev opts calls.stop hw avh
  split
  · exact foreign_stopDrmOutput dev opts calls.stop hw _
  split
  · exact foreign_stopDrmOutput dev opts calls.stop hw _
  next path hpath =>
  have hbuild := foreign_buildOutput dev opts calls path hw { avh with drmOpen := true }
  generalize buildOutput opts dev calls path hw { avh with drmOpen := true } = r at hbuild ⊢
  obtain ⟨ok, hw₁, avh₁⟩ := r
  refine hbuild.trans ?_
  cases ok with
  | false => exact foreign_stopDrmOutput dev opts calls.stop hw₁ avh₁
  | true =>
      dsimp only
      split
      · obtain ⟨b, r, heq⟩ := startHdmiAudioSink_hw opts.sdi calls.audio hw₁
          { avh₁ with drmModesetActive := true, drmOutputMode := path.mode }
        rw [heq]
        exact foreign_audio hw₁ b r
      · exact .refl hw₁

/-- A commit of the library shows none of the program's objects. -/
theorem foreign_sinkRequest (hw : Hw) (c : SinkCommit) : Request.Foreign hw (c.request hw) := by
  intro o v
  constructor
  · intro he hv hlive
    obtain ⟨⟨o', p, x⟩, -, hwrite⟩ := List.mem_map.mp he
    simp only [Entry.mk.injEq, Option.some.injEq] at hwrite
    obtain ⟨-, rfl, rfl⟩ := hwrite
    simp only [sinkValue] at hv hlive
    split_ifs at hv hlive
    · exact hv rfl
    · have hnot := fresh_not_mem (hw.ledger.live.biUnion Object.fbIds) x
      exact hnot (Finset.mem_biUnion.mpr ⟨_, hlive, by simp [Object.fbIds]⟩)
  · intro he hv hlive
    obtain ⟨⟨o', p, x⟩, -, hwrite⟩ := List.mem_map.mp he
    simp only [Entry.mk.injEq, Option.some.injEq] at hwrite
    obtain ⟨-, rfl, rfl⟩ := hwrite
    simp only [sinkValue] at hv hlive
    split_ifs at hv hlive
    · exact hv rfl
    · have hnot := fresh_not_mem (hw.ledger.live.biUnion Object.blobIds) x
      exact hnot (Finset.mem_biUnion.mpr ⟨_, hlive, by simp [Object.blobIds]⟩)

theorem foreign_sinkWork (work : List SinkCommit) (hw : Hw) : Foreign hw (Hw.sinkWork work hw) := by
  induction work generalizing hw with
  | nil => exact .refl hw
  | cons c work ih => exact (foreign_commit .sink (foreign_sinkRequest hw c) c.ok).trans (ih _)

theorem foreign_startVdecSink (calls : VdecSinkCalls) (hw : Hw) (avh : Avh) :
    Foreign hw (startVdecSink calls hw avh).2.1 := by
  rw [startVdecSink]
  dsimp only
  split_ifs <;> first | exact .refl hw | exact foreign_sinkWork calls.work hw

theorem foreign_deleteVdecSink (work : List SinkCommit) (hw : Hw) (avh : Avh) :
    Foreign hw (deleteVdecSink work hw avh).1 := by
  rw [deleteVdecSink]
  split
  · exact foreign_sinkWork work hw
  · exact .refl hw

/-- **An event of the receiver** leaves the objects of the modeset alone. -/
theorem foreign_step (s : Hw × Avh) (e : AvhEvent) : Foreign s.1 (Avh.step opts dev s e).1 := by
  cases e with
  | flows | caps | feed => exact .refl s.1
  | init calls =>
      simp only [Avh.step, Avh.initStep]
      cases s.2.init with
      | idle | setup | finish => exact .refl s.1
      | display =>
          dsimp only
          split
          · exact .refl s.1
          have hstart := foreign_startDrmOutput dev opts calls.output s.1 s.2
          generalize startDrmOutput opts dev calls.output s.1 s.2 = r at hstart ⊢
          obtain ⟨ok, hw₁, avh₁⟩ := r
          cases ok with
          | false => exact hstart
          | true =>
              dsimp only
              have hsink := foreign_startVdecSink calls.sink hw₁ avh₁
              generalize startVdecSink calls.sink hw₁ avh₁ = r at hsink ⊢
              obtain ⟨started, hw₂, avh₂⟩ := r
              cases started <;> exact hstart.trans hsink
  | frame push =>
      simp only [Avh.step, Avh.frame]
      split
      · exact .refl s.1
      · exact .ite (foreign_sinkWork push s.1)

end Receiver

/-! ## What a reset does -/

/-- A reset leaves the objects of the modeset alone. -/
theorem ResetOutcome.foreign {calls : ResetCalls} {hw hw' : Hw} {ctx : Ctx} {ok : Bool}
    (h : ResetOutcome dev calls hw ctx (ok, hw')) : Foreign hw hw' := by
  cases h with
  | skipped => exact .refl hw
  | tried blob ok hw₁ hscreen hfresh hunset hne hforeign hend =>
      have hresync : Caller.resync ≠ .modeset := nofun
      refine .trans ?_ (foreign_destroy dev (o := ⟨.resync, .blob blob⟩) hresync hw₁)
      have hcreate := foreign_create (o := ⟨.resync, .blob blob⟩) hresync hw
      have hother : ∀ {o p}, (o, p) ∉ resetProperties dev →
          hw₁.config.get o p = hw.config.get o p := hend.get
      refine ⟨fun r => ?_, fun hacc => ?_, fun n _ => ?_, fun q _ _ => ?_, fun c hc hlive => ?_⟩
      · rw [hend.eq]; exact hcreate.live r
      · rw [hend.eq]; exact hcreate.accounted hacc
      · rw [hend.eq]; exact ⟨rfl, rfl⟩
      · exact hother (by simp [resetProperties])
      · by_cases hcrtc : c = dev.crtcId
        · subst hcrtc
          rcases hend.modeId_cases rfl with hid | hid
          · exact hid
          · exact absurd (hid ▸ hlive) hforeign
        · exact hother (by simp [resetProperties, hcrtc])

end Foreign

/-! ## Moves -/

section Moves

variable (opts : Options) (dev : Device)

/-- The context notes formats, connector states, the owner, the state of the watchdog. An SDI
output takes RGB streams only. -/
structure Noted (ctx ctx' : Ctx) : Prop where
  objects : ctx'.objects = ctx.objects
  modesetActive : ctx'.modesetActive = ctx.modesetActive
  overlayActive : ctx'.overlayActive = ctx.overlayActive
  currentMode : ctx'.currentMode = ctx.currentMode
  format : opts.sdi = true →
    ctx'.ultraOverlayFormat = ctx.ultraOverlayFormat ∨ ctx'.ultraOverlayFormat = .bgr888

/-- One move of the program; `A` is what is known of the calls of every modeset. -/
inductive Move (A : ModesetCalls → Prop) : Hw × Ctx → Hw × Ctx → Prop where
  | note (hw : Hw) {ctx ctx' : Ctx} (h : Noted opts ctx ctx') : Move A (hw, ctx) (hw, ctx')
  | modeset {calls : ModesetCalls} (hcalls : A calls) (width height : Nat) (fps : ℚ)
      {enableOverlay : Bool} {format : PixelFormat} (hw : Hw) {ctx : Ctx}
      (hformat : enableOverlay = true → format = ctx.ultraOverlayFormat) :
      Move A (hw, ctx)
        (applyDrmModeset opts dev calls width height fps enableOverlay format hw ctx).2
  | reset {calls : ResetCalls} {hw hw' : Hw} {ctx : Ctx} {ok : Bool}
      (h : ResetOutcome dev calls hw ctx (ok, hw')) : Move A (hw, ctx) (hw', ctx)
  | audio (hw : Hw) (ctx : Ctx) (b : Bool) (r : Nat) :
      Move A (hw, ctx) ({ hw with passthrough := b, route := r }, ctx)
  | receiver {hw hw' : Hw} {ctx : Ctx} (h : Foreign hw hw') (hoff : ctx.overlayActive = false) :
      Move A (hw, ctx) (hw', ctx)

/-- Any number of moves. -/
abbrev Moves (A : ModesetCalls → Prop) : Hw × Ctx → Hw × Ctx → Prop :=
  Relation.ReflTransGen (Move opts dev A)

/-- What the moves act on. -/
def State.display (s : State) : Hw × Ctx := (s.hw, s.ctx)

/-- `A` holds of the calls of the modesets of an event. -/
def Event.All (A : ModesetCalls → Prop) : Event → Prop
  | .arbitrate calls => A calls.dummy ∧ A calls.restore
  | .dau calls _ => A calls.modeset ∧ A calls.reject ∧ A calls.fallback
  | .hotplug calls => A calls.modeset
  | _ => True

variable {opts dev} {A : ModesetCalls → Prop} {s : State}

theorem Noted.refl (ctx : Ctx) : Noted opts ctx ctx := ⟨rfl, rfl, rfl, rfl, fun _ => Or.inl rfl⟩

/-! ### Each event is a sequence of moves -/

/-- A poll notes the sample, and resets the output where the policy says so. -/
theorem pollSdiResync_moves (now : Nat) (status : UInt32) (calls : ResetCalls) (hw : Hw)
    (ctx : Ctx) : Moves opts dev A (hw, ctx) (pollSdiResync dev now status calls hw ctx).2 := by
  rw [pollSdiResync]
  split
  · exact .refl
  dsimp only
  split
  · exact .single (.note hw ⟨rfl, rfl, rfl, rfl, fun _ => Or.inl rfl⟩)
  · next policy hpolicy =>
    rw [onSdiResyncRequested]
    set ctx₁ : Ctx := { ctx with sdiLastStatus := status, sdiResync := policy }
    have hnote : Noted opts ctx ctx₁ := ⟨rfl, rfl, rfl, rfl, fun _ => Or.inl rfl⟩
    have hreset := reinitializeSdiOutput_cases dev calls hw ctx₁
    generalize reinitializeSdiOutput dev calls hw ctx₁ = r at hreset ⊢
    obtain ⟨ok, hw'⟩ := r
    refine .head (.note hw hnote) (.head (.reset hreset) ?_)
    exact .single (.note hw' ⟨rfl, rfl, rfl, rfl, fun _ => Or.inl rfl⟩)

/-- A modeset to DUMMY is a move, whatever the format. -/
theorem Move.dummy {calls : ModesetCalls} (hcalls : A calls) (width height : Nat) (fps : ℚ)
    (format : PixelFormat) (hw : Hw) (ctx : Ctx) : Move opts dev A (hw, ctx)
      (applyDrmModeset opts dev calls width height fps false format hw ctx).2 :=
  .modeset hcalls width height fps hw fun h => absurd h Bool.false_ne_true

theorem hotplug_moves {calls : HotplugCalls} (hcalls : A calls.modeset) (hw : Hw) (ctx : Ctx) :
    Moves opts dev A (hw, ctx) (hotplug opts dev calls hw ctx) := by
  rw [hotplug]
  dsimp only
  split
  · exact .refl
  generalize calls.connector.any (·.connected) = connected
  have hnote : Noted opts ctx { ctx with
      lastConnectorConnected := connected
      haveLastConnectorState := true
      hotplugEvents := ctx.hotplugEvents + 1 } := ⟨rfl, rfl, rfl, rfl, fun _ => Or.inl rfl⟩
  split
  · exact .head (.note hw hnote) (.single (.dummy hcalls _ _ _ _ hw _))
  · exact .single (.note hw hnote)

/-- A locked stream inside the contract of an SDI output is RGB. -/
theorem overlayFormatOf_inside {ctx : Ctx} {format : VideoFormat} (hsdi : opts.sdi = true)
    (hlock : format.locked = true) (hin : outsideContract opts ctx format = false) :
    overlayFormatOf format = .bgr888 := by
  simp only [outsideContract, hsdi, hlock, Bool.true_and, Bool.or_eq_false_iff,
    bne_eq_false_iff_eq] at hin
  rw [overlayFormatOf, if_pos hin.2]

/-- Inside the contract, noting a format keeps an SDI output at RGB. -/
theorem noteLocked_noted {ctx : Ctx} {format : VideoFormat}
    (hin : outsideContract opts ctx format = false) : Noted opts ctx (ctx.noteLocked format) := by
  rw [Ctx.noteLocked]
  split
  · next hlocked =>
    refine ⟨rfl, rfl, rfl, rfl, fun hsdi => Or.inr ?_⟩
    simp only [Bool.and_eq_true] at hlocked
    exact overlayFormatOf_inside hsdi hlocked.1.1.1 hin
  · exact .refl ctx

theorem modesetFormat_moves {calls : DauCalls} (hmodeset : A calls.modeset)
    (hfallback : A calls.fallback) (format : VideoFormat) (hw : Hw) (ctx : Ctx) :
    Moves opts dev A (hw, ctx) (modesetFormat opts dev calls format hw ctx).2 := by
  rw [modesetFormat]
  dsimp only
  have hfirst : ∀ w h fps, Move opts dev A (hw, ctx) (applyDrmModeset opts dev calls.modeset w h fps
      format.locked (if format.locked then ctx.ultraOverlayFormat else .yuyv) hw ctx).2 :=
    fun w h fps => .modeset hmodeset w h fps hw fun hlocked => if_pos hlocked
  specialize hfirst (ctx.target opts format).1 (ctx.target opts format).2.1
    (ctx.target opts format).2.2
  generalize applyDrmModeset _ _ _ _ _ _ _ _ _ _ = r at hfirst ⊢
  obtain ⟨ok, hw₁, ctx₁⟩ := r
  cases ok with
  | true => exact .single hfirst
  | false =>
      dsimp only
      split
      · exact .head hfirst (.single (.dummy hfallback _ _ _ _ hw₁ ctx₁))
      · exact .single hfirst

theorem dauSetVideoFormat_moves {calls : DauCalls} (hmodeset : A calls.modeset)
    (hreject : A calls.reject) (hfallback : A calls.fallback) (format : Option VideoFormat)
    (hw : Hw) (ctx : Ctx) :
    Moves opts dev A (hw, ctx) (dauSetVideoFormat opts dev calls format hw ctx).2 := by
  cases format with
  | none => exact .refl
  | some format =>
  rw [dauSetVideoFormat]
  dsimp only
  set ctx₁ : Ctx := { ctx with currentVideoFormat := format, formatChanges := ctx.formatChanges + 1 }
  have hnote₁ : Noted opts ctx ctx₁ := ⟨rfl, rfl, rfl, rfl, fun _ => Or.inl rfl⟩
  refine .head (.note hw hnote₁) ?_
  split
  · exact .single (.dummy hreject _ _ _ _ hw ctx₁)
  next hin =>
  have hnote₂ : Noted opts ctx₁ (ctx₁.noteLocked format) := noteLocked_noted (by simpa using hin)
  split
  · exact .single (.note hw hnote₂)
  split
  · exact .single (.note hw hnote₂)
  split
  · exact .single (.note hw hnote₂)
  · exact .head (.note hw hnote₂) (modesetFormat_moves hmodeset hfallback format hw _)

/-- Without an open output, stopping it leaves the hardware alone. -/
theorem stopDrmOutput_closed (calls : StopCalls) (hw : Hw) {avh : Avh} (h : avh.drmOpen = false) :
    (stopDrmOutput opts dev calls hw avh).1 = hw := by
  rw [stopDrmOutput]
  have hclosed : (if opts.sdi then stopHdmiAudioSink avh else avh).drmOpen = false := by
    split <;> exact h
  rw [hclosed]
  rfl

/-- Closing the receiver's output and giving the sound back to Dante, while the overlay is off or
the receiver has no output. -/
theorem stop_moves (calls : ArbitrateCalls) (hw : Hw) (ctx : Ctx) (avh : Avh)
    (hoff : ctx.overlayActive = false ∨ avh.drmOpen = false) :
    Moves opts dev A (hw, ctx) ((selectHdmiAudioRoute opts.sdi 1 calls.route
      (stopDrmOutput opts dev calls.stop hw avh).1).2, ctx) := by
  have hstop : Moves opts dev A (hw, ctx) ((stopDrmOutput opts dev calls.stop hw avh).1, ctx) := by
    rcases hoff with hoff | hclosed
    · exact .single (.receiver (foreign_stopDrmOutput dev opts calls.stop hw avh) hoff)
    · rw [stopDrmOutput_closed calls.stop hw hclosed]
  obtain ⟨b, r, heq, -⟩ := selectHdmiAudioRoute_spec opts.sdi 1 calls.route
    (stopDrmOutput opts dev calls.stop hw avh).1
  rw [heq]
  exact hstop.tail (.audio _ ctx b r)

theorem restoreUltraOutput_move {calls : ModesetCalls} (hcalls : A calls) (hw : Hw) (ctx : Ctx) :
    Move opts dev A (hw, ctx) (restoreUltraOutput opts dev calls hw ctx).2 :=
  .modeset hcalls _ _ _ hw fun _ => rfl

theorem abandon_moves {calls : ArbitrateCalls} (hrestore : A calls.restore)
    (hoff : s.ctx.overlayActive = false ∨ s.avh.drmOpen = false) :
    Moves opts dev A s.display (abandon opts dev calls s).display :=
  (stop_moves calls s.hw s.ctx s.avh hoff).tail (restoreUltraOutput_move hrestore _ s.ctx)

/-- Handing the output over sets the audio controls and the owner. -/
theorem handOver_moves (calls : ArbitrateCalls) :
    Moves opts dev A s.display (handOver opts calls s).display := by
  rw [handOver]
  dsimp only
  obtain ⟨b, r, heq⟩ := startHdmiAudioSink_hw opts.sdi calls.audio s.hw
    { s.avh with displayEnabled := true }
  rw [heq]
  refine .head (.audio s.hw s.ctx b r) (.single (.note _ ?_))
  exact ⟨rfl, rfl, rfl, rfl, fun _ => Or.inl rfl⟩

/-- **A takeover** as moves. After the modeset to DUMMY the overlay is off, so that the receiver may
commit. -/
theorem takeover_moves (h : Owned s) (hultra : s.ctx.avhActive = false) {calls : ArbitrateCalls}
    (hdummy : A calls.dummy) (hrestore : A calls.restore) :
    Moves opts dev A s.display (takeover opts dev calls s).display := by
  have hdet := h.ultra hultra
  rw [takeover]
  dsimp only
  generalize (if s.ctx.currentMode.hdisplay ≠ 0 then s.ctx.currentMode.hdisplay
    else opts.fixedW) = width
  generalize (if s.ctx.currentMode.vdisplay ≠ 0 then s.ctx.currentMode.vdisplay
    else opts.fixedH) = height
  have hmove := @Move.dummy opts dev A _ hdummy width height opts.fixedFps .yuyv s.hw s.ctx
  split
  · next hw₁ ctx₁ happly =>
    rw [happly] at hmove
    exact .head hmove (@abandon_moves opts dev A { s with hw := hw₁, ctx := ctx₁ } calls hrestore
      (Or.inr hdet.closed))
  next hw₁ ctx₁ happly =>
  rw [happly] at hmove
  refine .head hmove ?_
  have hultra₁ : ctx₁.avhActive = false := (applyDrmModeset_owner happly).trans hultra
  have hoff₁ : ctx₁.overlayActive = false := applyDrmModeset_dummy happly (Or.inl rfl)
  set s₁ : State := { s with hw := hw₁, ctx := ctx₁ }
  have howned₁ : Owned s₁ := ⟨h.decoding, fun _ => hdet, fun havh => by
    rw [show s₁.ctx.avhActive = false from hultra₁] at havh; cases havh⟩
  obtain ⟨howned₂, hhw₂, -⟩ := @threads_owned opts dev s₁ howned₁ hultra₁ calls.gaps.beforeOutput
  have hctx₂ : (s₁.threads opts dev calls.gaps.beforeOutput).ctx = ctx₁ := rfl
  show Moves opts dev A (s₁.hw, ctx₁) _
  rw [← hhw₂]
  generalize s₁.threads opts dev calls.gaps.beforeOutput = s₂ at howned₂ hctx₂ ⊢
  subst hctx₂
  -- From here on the receiver may commit.
  obtain ⟨-, hhid₃, -⟩ := @startDrmOutput_spec opts dev s₂.avh (howned₂.ultra hultra₁)
    calls.output s₂.hw
  have hstart := foreign_startDrmOutput dev opts calls.output s₂.hw s₂.avh
  generalize startDrmOutput opts dev calls.output s₂.hw s₂.avh = r at hhid₃ hstart ⊢
  obtain ⟨ok, hw₃, avh₃⟩ := r
  refine .head (.receiver hstart hoff₁) ?_
  cases ok with
  | false =>
      exact @abandon_moves opts dev A { s₂ with hw := hw₃, avh := avh₃ } calls hrestore
        (Or.inl hoff₁)
  | true =>
  dsimp only
  set s₃ : State := { s₂ with hw := hw₃, avh := avh₃ }
  obtain ⟨hhw₄, -⟩ := @steps_hidden opts dev (s₃.hw, s₃.avh) hhid₃.display calls.gaps.beforeRecheck
  replace hhw₄ : (s₃.threads opts dev calls.gaps.beforeRecheck).hw = hw₃ := hhw₄
  have hctx₄ : (s₃.threads opts dev calls.gaps.beforeRecheck).ctx = s₂.ctx := rfl
  generalize s₃.threads opts dev calls.gaps.beforeRecheck = s₄ at hhw₄ hctx₄ ⊢
  rw [← hhw₄, ← hctx₄]
  have hoff₄ : s₄.ctx.overlayActive = false := hctx₄ ▸ hoff₁
  split
  · exact abandon_moves hrestore (Or.inl hoff₄)
  have hsink := foreign_startVdecSink calls.sink s₄.hw s₄.avh
  generalize startVdecSink calls.sink s₄.hw s₄.avh = r at hsink ⊢
  obtain ⟨ok, hw₅, avh₅⟩ := r
  refine .head (.receiver hsink hoff₄) ?_
  cases ok with
  | false =>
      exact @abandon_moves opts dev A { s₄ with hw := hw₅, avh := avh₅ } calls hrestore
        (Or.inl hoff₄)
  | true => exact @handOver_moves opts dev A { s₄ with hw := hw₅, avh := avh₅ } calls

/-- **The way back** as moves. -/
theorem giveBack_moves (hoff : s.ctx.overlayActive = false) {calls : ArbitrateCalls}
    (hdummy : A calls.dummy) (hrestore : A calls.restore) :
    Moves opts dev A s.display (giveBack opts dev calls s).display := by
  rw [giveBack]
  dsimp only
  have hmove := @Move.dummy opts dev A _ hdummy opts.fixedW opts.fixedH opts.fixedFps .yuyv s.hw
    s.ctx
  generalize happly : applyDrmModeset _ _ _ _ _ _ _ _ _ _ = r at hmove ⊢
  obtain ⟨ok, hw₁, ctx₁⟩ := r
  have hoff₁ : ctx₁.overlayActive = false := applyDrmModeset_dummy happly (Or.inr hoff)
  refine .head hmove ?_
  have hdelete := foreign_deleteVdecSink calls.sinkStop hw₁
    { (if opts.sdi then stopHdmiAudioSink s.avh else s.avh) with displayEnabled := false }
  generalize deleteVdecSink calls.sinkStop hw₁ _ = r at hdelete ⊢
  obtain ⟨hw₂, avh₂⟩ := r
  refine .head (.receiver hdelete hoff₁) ?_
  generalize stopHdmiAudioSink _ = avh₁
  refine (stop_moves calls hw₂ ctx₁ avh₁ (Or.inl hoff₁)).trans ?_
  have hnote : Noted opts ctx₁ { ctx₁ with avhActive := false } :=
    ⟨rfl, rfl, rfl, rfl, fun _ => Or.inl rfl⟩
  exact .head (.note _ hnote) (.single (restoreUltraOutput_move hrestore _ _))

theorem arbitrate_moves (h : Owned s) {calls : ArbitrateCalls} (hdummy : A calls.dummy)
    (hrestore : A calls.restore) :
    Moves opts dev A s.display (arbitrate opts dev calls s).2.display := by
  rw [arbitrate]
  dsimp only
  generalize (s.avh.autoFlowCount != 0) = flow
  obtain ⟨h₁, hctx₁, hhw₁⟩ := @noteFlow_owned opts dev s h calls flow
  obtain ⟨h₂, hctx₂, hhw₂, hup⟩ := @frameReady_owned opts dev _ h₁ calls flow
  generalize frameReady opts dev calls flow (noteFlow opts dev calls flow s) = r
    at h₂ hctx₂ hhw₂ hup ⊢
  obtain ⟨ready, s₂⟩ := r
  have hsame : s.display = s₂.display := Prod.ext (hhw₂.trans hhw₁).symm (hctx₂.trans hctx₁).symm
  rw [hsame]
  dsimp only at hctx₂ hup ⊢
  have h₃ : Owned (if ready then takeover opts dev calls s₂ else s₂) ∧
      Moves opts dev A s₂.display (if ready then takeover opts dev calls s₂ else s₂).display := by
    split
    · next hready =>
      obtain ⟨hultra, hs, hi⟩ := hup hready
      have hultra₂ : s₂.ctx.avhActive = false := hctx₂ ▸ hultra
      exact ⟨(takeover_owned h₂ hultra₂ hs hi calls).1, takeover_moves h₂ hultra₂ hdummy hrestore⟩
    · exact ⟨h₂, .refl⟩
  generalize (if ready then takeover opts dev calls s₂ else s₂) = s₃ at h₃ ⊢
  refine h₃.2.trans ?_
  split
  · next hgone =>
    rw [Bool.and_eq_true] at hgone
    exact giveBack_moves (h₃.1.avh hgone.2).2 hdummy hrestore
  · exact .refl

/-- **Every event is a sequence of moves.** -/
theorem step_moves (h : Owned s) {e : Event} (he : e.All A) :
    Moves opts dev A s.display ((receiver opts dev).step s e).1.display := by
  cases e with
  | avh e =>
      simp only [receiver]
      split
      · cases hs : s.ctx.avhActive with
        | false =>
            obtain ⟨-, hhw, -⟩ := @threads_owned opts dev s h hs [e]
            have hsame : (s.threads opts dev [e]).display = s.display := Prod.ext hhw rfl
            rw [hsame]
        | true =>
            exact .single (.receiver (foreign_step dev opts (s.hw, s.avh) e) (h.avh hs).2)
      · exact .refl
  | arbitrate calls =>
      simp only [receiver]
      split
      · exact arbitrate_moves h he.1 he.2
      · exact .refl
  | dau calls format => exact dauSetVideoFormat_moves he.1 he.2.1 he.2.2 (some format) s.hw s.ctx
  | hotplug calls =>
      simp only [receiver]
      split
      · exact .refl
      · exact hotplug_moves he s.hw s.ctx
  | resync now status calls => exact pollSdiResync_moves now status calls s.hw s.ctx

/-- **A run is a sequence of moves** from a context without objects. -/
theorem run_moves {calls : StartupCalls} {s₀ : State} (hs : Started opts dev calls s₀)
    (hcalls : A calls.modeset) (es : List Event) (hes : ∀ e ∈ es, e.All A) :
    ∃ hw ctx, hw.ledger = Ledger.empty ∧ ctx.objects = {} ∧ ctx.overlayActive = false ∧
      ctx.ultraOverlayFormat = .bgr888 ∧
      Moves opts dev A (hw, ctx) ((receiver opts dev).run s₀ es).display := by
  obtain ⟨hw, initW, initH, initFps, fixedW, fixedH, fixedFps, ok, hw', ctx', hledger, -, -, happly,
    rfl⟩ := hs.cases
  set ctx₀ : Ctx :=
    { fixedWidth := fixedW, fixedHeight := fixedH, fixedFps := fixedFps
      lastConnectorConnected := calls.connected, haveLastConnectorState := true }
  refine ⟨hw, ctx₀, hledger, rfl, rfl, rfl, ?_⟩
  set s₀ : State := { hw := hw', ctx := { ctx' with sdiStatusMapped := opts.sdi && calls.mapped } }
    with hs₀
  have hstart : Moves opts dev A (hw, ctx₀) s₀.display := by
    have hmove := @Move.modeset opts dev A calls.modeset hcalls initW initH initFps
      opts.forceDanteSource .bgr888 hw ctx₀ fun _ => rfl
    rw [happly] at hmove
    exact .head hmove (.single (.note hw' ⟨rfl, rfl, rfl, rfl, fun _ => Or.inl rfl⟩))
  refine hstart.trans ?_
  have hinv := (receiver opts dev).inv_run (fun e => e.All A)
    (fun s => Owned s ∧ Moves opts dev A s₀.display s.display)
    (fun s e h he => ⟨step_owned h.1 e, h.2.trans (step_moves h.1 he)⟩) es s₀ hes
    ⟨startup_owned hs, .refl⟩
  exact hinv.2

end Moves

end QcapDemos.Rx
