import QcapDemos.Decoder.Phases

set_option autoImplicit false

/-! # The start gate of the RX decoder

A unit reaches the decoder only from a worker that has the mutex, that has seen nothing
initializing and a decoder that is started. The first unit after a start is to be a keyframe:
the wait for it is set before the initialization and ended by the keyframe itself, before the
packet pool is asked. Where the pool then refuses the keyframe, the wait is over and the
decoder has seen nothing.
-/

namespace QcapDemos.Decoder

open QcapDemos.Lib

/-! ## What a submission finds -/

/-- Only the packet of a worker is submitted, to the decoder as it is. -/
theorem submitted_step {cfg : Config} {s : DecoderState} {e : Event} {au : AccessUnit}
    {decoder : Option Format} {initializing started accepted : Bool}
    (h : (step cfg s e).2 = some (.submitted au decoder initializing started accepted)) :
    ∃ w outcome first, e = .work w outcome ∧ s.workers w = .submitting au first ∧
      decoder = s.vdec ∧ initializing = s.decoderInitializing ∧ started = s.vdecStarted := by
  cases e with
  | push w au' =>
      revert h
      show (push cfg s w au').2 = _ → _
      fun_cases push cfg s w au' <;> exact fun h => by cases h
  | work w outcome =>
      revert h
      show (work cfg s w outcome).2 = _ → _
      fun_cases work cfg s w outcome with
      | case15 au' first hpc =>
        intro h
        have hout : (submitVdecPacket s au' outcome).2
            = .submitted au decoder initializing started accepted := Option.some.inj h
        refine ⟨w, outcome, first, rfl, ?_⟩
        cases outcome <;> cases hout <;> exact ⟨hpc, rfl, rfl, rfl⟩
      | _ => exact fun h => by cases h
  | init ok =>
      revert h
      show (initThread cfg s ok).2 = _ → _
      fun_cases initThread cfg s ok <;> exact fun h => by cases h
  | caps caps => cases h
  | connected width height fps => cases h
  | stop => cases h
  | stopping => cases h
  | signal => cases h
  | drain frame => cases h
  | display enabled => cases h
  | stopDisplay => cases h

/-- Nothing is submitted while the decoder is initializing, or before it is started. -/
theorem submitted_open {cfg : Config} {s : DecoderState} (hl : Locked cfg s) (hp : Phased s)
    {e : Event} {au : AccessUnit} {decoder : Option Format} {initializing started accepted : Bool}
    (h : (step cfg s e).2 = some (.submitted au decoder initializing started accepted)) :
    initializing = false ∧ started = true := by
  obtain ⟨w, outcome, first, -, hpc, -, rfl, rfl⟩ := submitted_step h
  have howner := owner_of_critical hl hpc rfl
  exact ⟨hp.passed (by rw [howner]; rfl), hp.feeds (by rw [howner]; rfl)⟩

/-! ## The first unit after a start -/

/-- The decoder was started, and nothing was submitted to it since. -/
def freshAfter (fresh : Bool) : Option Output → Bool
  | some (.started _) => true
  | some (.submitted _ _ _ _ _) => false
  | _ => fresh

def fresh (outputs : List (Option Output)) : Bool := outputs.foldl freshAfter false

/-- The packet pool refuses the keyframe that ends the wait. -/
def losesKeyframe (s : DecoderState) : Event → Bool
  | .work w outcome =>
      match s.workers w with
      | .submitting _ true => outcome = .pool || outcome = .invalid
      | _ => false
  | _ => false

/-- A fresh decoder waits for an IDR, or is about to get it. -/
def Waits (fresh : Bool) (s : DecoderState) : Prop :=
  fresh = true → s.vdecStarted = true → s.decoderWaitForIdr = true ∨ s.owner.ends.isSome = true

/-- A step that ends no wait: no keyframe is on its way before it. -/
theorem Waits.keep {b : Bool} {s s' : DecoderState} (h : Waits b s) (hends : s.owner.ends = none)
    (hwait : s'.decoderWaitForIdr = s.decoderWaitForIdr)
    (hstarted : s'.vdecStarted = s.vdecStarted) : Waits b s' := by
  intro hb hs
  rw [hstarted] at hs
  rw [hwait]
  refine .inl ((h hb hs).resolve_right fun hcon => ?_)
  rw [hends] at hcon
  cases hcon

/-- A step that leaves the owner alone. -/
theorem Waits.congr {b : Bool} {s s' : DecoderState} (h : Waits b s) (howner : s'.owner = s.owner)
    (hwait : s'.decoderWaitForIdr = s.decoderWaitForIdr)
    (hstarted : s'.vdecStarted = s.vdecStarted) : Waits b s' := by
  intro hb hs
  rw [howner, hwait]
  exact h hb (hstarted ▸ hs)

theorem Waits.of_stopped {b : Bool} {s : DecoderState} (h : s.vdecStarted = false) : Waits b s := by
  intro _ hs
  rw [h] at hs
  cases hs

theorem waits_push {cfg : Config} {s : DecoderState} (hl : Locked cfg s) {b : Bool}
    (h : Waits b s) (w : Nat) (au : AccessUnit) :
    Waits (freshAfter b (push cfg s w au).2) (push cfg s w au).1 := by
  have hfresh : freshAfter b (push cfg s w au).2 = b := by
    fun_cases push cfg s w au <;> rfl
  rw [hfresh]
  refine h.congr (owner_push hl w au) ?_ ?_
  · fun_cases push cfg s w au <;> rfl
  · fun_cases push cfg s w au <;> rfl

theorem waits_work {cfg : Config} {s : DecoderState} (hl : Locked cfg s) {b : Bool}
    (h : Waits b s) (w : Nat) (outcome : Submit) (hok : losesKeyframe s (.work w outcome) = false) :
    Waits (freshAfter b (work cfg s w outcome).2) (work cfg s w outcome).1 := by
  have howner : ∀ {pc}, s.workers w = pc → pc.critical = true → s.owner = pc :=
    fun hpc hc => owner_of_critical hl hpc hc
  have hends : ∀ {pc}, s.workers w = pc → pc.critical = true → pc.ends = none →
      s.owner.ends = none := by
    intro pc hpc hc he
    rw [howner hpc hc, he]
  fun_cases work cfg s w outcome with
  | case1 => exact h
  | case2 hpc hfree => exact h.keep (by rw [owner_of_free hfree]; rfl) rfl rfl
  | case3 => exact h
  | case4 au hpc hfree => exact h.keep (by rw [owner_of_free hfree]; rfl) rfl rfl
  | case5 => exact h
  | case6 au hpc => exact h.keep (hends hpc rfl rfl) rfl rfl
  | case7 au hpc => exact h.keep (hends hpc rfl rfl) rfl rfl
  | case8 au hpc => exact h.keep (hends hpc rfl rfl) rfl rfl
  | case9 au hpc => exact h.keep (hends hpc rfl rfl) rfl rfl
  | case10 au hpc => exact h.keep (hends hpc rfl rfl) rfl rfl
  | case11 au hpc => exact h.keep (hends hpc rfl rfl) rfl rfl
  | case12 au hpc => exact h.keep (hends hpc rfl rfl) rfl rfl
  | case13 au hpc => exact h.keep (hends hpc rfl rfl) rfl rfl
  | case14 au hpc =>
    -- the wait is over, and the keyframe is on its way
    intro _ _
    refine .inr ?_
    have hlock : s.decoderLock = some (.worker w) := (hl.lock (.worker w)).mp (by
      show (s.workers w).critical = true
      rw [hpc]
      rfl)
    simp [DecoderState.owner, hlock, WorkerPc.ends]
  | case15 au first hpc =>
    cases first with
    | false =>
      have hkeep : Waits b { s with
          workers := Function.update s.workers w .idle
          decoderLock := none
          stats := (submitVdecPacket s au outcome).1 } :=
        h.keep (hends hpc rfl rfl) rfl rfl
      cases outcome with
      | pool => exact hkeep
      | invalid => exact hkeep
      | refused => exact fun hb => by cases hb
      | accepted => exact fun hb => by cases hb
    | true =>
      cases outcome with
      | pool => simp [losesKeyframe, hpc] at hok
      | invalid => simp [losesKeyframe, hpc] at hok
      | refused => exact fun hb => by cases hb
      | accepted => exact fun hb => by cases hb
  | case16 hpc => exact h.keep (hends hpc rfl rfl) rfl rfl
  | case17 => exact h
  | case18 hpc => exact h.keep (hends hpc rfl rfl) rfl rfl
  | case19 hpc => exact fun _ _ => .inl rfl
  | case20 hpc => exact h.keep (hends hpc rfl rfl) rfl rfl

theorem waits_initThread {cfg : Config} {s : DecoderState} (hl : Locked cfg s) (hp : Phased s)
    {b : Bool} (h : Waits b s) (ok : Bool) :
    Waits (freshAfter b (initThread cfg s ok).2) (initThread cfg s ok).1 := by
  have hlock : ∀ {pc}, s.init = pc → pc.critical = true → s.owner = .idle := by
    rintro pc rfl hc
    exact owner_of_init ((hl.lock .init).mp hc)
  fun_cases initThread cfg s ok with
  | case10 hpc hfree => exact h.keep (by rw [owner_of_free hfree]; rfl) rfl rfl
  | case21 hpc =>
    -- the wait was set before the thread was started
    exact fun _ _ => .inl (hp.awaits (by rw [hpc]; rfl))
  | case26 ready hpc => exact h.keep (by rw [hlock hpc rfl]; rfl) rfl rfl
  | case27 hpc => exact Waits.of_stopped (hp.unstarted (by rw [hpc]; rfl))
  | _ => exact h

theorem waits_stopping {cfg : Config} {s : DecoderState} (hl : Locked cfg s) {b : Bool}
    (h : Waits b s) : Waits b (stopping cfg s) := by
  have hlock : ∀ {pc}, s.stopper = pc → pc.critical = true → s.owner = .idle := by
    rintro pc rfl hc
    exact owner_of_stop ((hl.lock .stop).mp hc)
  fun_cases stopping cfg s with
  | case6 hpc hfree => exact h.keep (by rw [owner_of_free hfree]; rfl) rfl rfl
  | case10 hpc =>
    split
    · exact Waits.of_stopped rfl
    · exact h
  | case13 hpc => exact h.keep (by rw [hlock hpc rfl]; rfl) rfl rfl
  | _ => exact h

theorem waits_drain {cfg : Config} {s : DecoderState} (hl : Locked cfg s) {b : Bool}
    (h : Waits b s) (frame : Bool) : Waits b (drain cfg s frame) := by
  have hcallback := hl.lock .callback
  simp only [DecoderState.holds] at hcallback
  fun_cases drain cfg s frame with
  | case2 hpc hfree =>
    cases hsdi : cfg.sdi with
    | true => exact h
    | false =>
      rw [callbackLock, hsdi] at hfree
      exact h.keep (by rw [owner_of_free hfree]; rfl) rfl rfl
  | case4 hpc =>
    cases hsdi : cfg.sdi with
    | true => exact h
    | false =>
      have hlock : s.decoderLock = some .callback := hcallback.mp (by simp [hsdi, hpc])
      have howner : s.owner = .idle := by rw [DecoderState.owner, hlock]
      exact h.keep (by rw [howner]; rfl) rfl rfl
  | _ => exact h

theorem waits_step {cfg : Config} {s : DecoderState} (hl : Locked cfg s) (hp : Phased s) {b : Bool}
    (h : Waits b s) (e : Event) (hok : losesKeyframe s e = false) :
    Waits (freshAfter b (step cfg s e).2) (step cfg s e).1 := by
  cases e with
  | push w au => exact waits_push hl h w au
  | work w outcome => exact waits_work hl h w outcome hok
  | caps caps =>
      show Waits b (applyCaps s caps)
      fun_cases applyCaps s caps <;> exact h
  | connected width height fps =>
      show Waits b (startFromFormat s width height fps)
      fun_cases startFromFormat s width height fps <;> exact h
  | init ok => exact waits_initThread hl hp h ok
  | stop =>
      show Waits b (if s.stopper = .idle then { s with stopper := .join } else s)
      split <;> exact h
  | stopping => exact waits_stopping hl h
  | signal =>
      show Waits b (signal s)
      fun_cases signal s <;> exact h
  | drain frame => exact waits_drain hl h frame
  | display enabled => exact h
  | stopDisplay => exact h

theorem fresh_snoc (cfg : Config) (displayEnabled : Bool) (es : List Event) (e : Event) :
    fresh (outputs cfg displayEnabled (es ++ [e]))
      = freshAfter (fresh (outputs cfg displayEnabled es))
          (step cfg (reached cfg displayEnabled es) e).2 := by
  unfold outputs fresh
  rw [Machine.outputs_snoc, List.foldl_append]
  rfl

theorem waits_reached (cfg : Config) (displayEnabled : Bool) :
    ∀ es, Machine.Admissible
        (fun before e => losesKeyframe (reached cfg displayEnabled before) e = false) es →
      Waits (fresh (outputs cfg displayEnabled es)) (reached cfg displayEnabled es) := by
  refine (machine cfg).history_inv (.initial displayEnabled) _
    (fun es s => Waits (fresh (outputs cfg displayEnabled es)) s) (fun hb => by cases hb) ?_
  intro es e h hok
  obtain ⟨hl, hp⟩ := phased_reached cfg displayEnabled es
  rw [fresh_snoc]
  exact waits_step hl hp h e hok

/-! ## The gate -/

/-- What the event submits, after those before it: nothing while the decoder is initializing or
before it is started, and a keyframe first. -/
def Gated (cfg : Config) (displayEnabled : Bool) (before : List Event) (e : Event) : Prop :=
  ∀ au decoder initializing started accepted,
    (step cfg (reached cfg displayEnabled before) e).2
        = some (.submitted au decoder initializing started accepted) →
      initializing = false ∧ started = true ∧
        (fresh (outputs cfg displayEnabled before) = true → au.isKeyframe = true)

/-- **The start gate.** It holds in every run in which the packet pool takes each keyframe that
ends a wait. -/
theorem decoder_gated (cfg : Config) (displayEnabled : Bool) (es : List Event)
    (hok : Machine.Admissible
      (fun before e => losesKeyframe (reached cfg displayEnabled before) e = false) es) :
    Machine.Admissible (Gated cfg displayEnabled) es := by
  intro before e after hes au decoder initializing started accepted hout
  obtain ⟨hl, hp⟩ := phased_reached cfg displayEnabled before
  obtain ⟨hinitializing, hstarted⟩ := submitted_open hl hp hout
  refine ⟨hinitializing, hstarted, fun hfresh => ?_⟩
  have hbefore : Machine.Admissible
      (fun before e => losesKeyframe (reached cfg displayEnabled before) e = false) before :=
    Machine.Admissible.left (hes ▸ hok)
  obtain ⟨w, outcome, first, rfl, hpc, -, -, rfl⟩ := submitted_step hout
  have howner := owner_of_critical hl hpc rfl
  cases first with
  | true => exact hp.ends au (by rw [howner]; rfl)
  | false =>
      -- a unit that ends no wait is not the first one
      have hwait := hp.submits (by rw [howner]; rfl)
      rcases waits_reached cfg displayEnabled before hbefore hfresh hstarted with hw | he
      · rw [hwait] at hw
        cases hw
      · rw [howner] at he
        cases he

theorem decoder_gated_startRun :
    Machine.Admissible (Gated hdmi false)
      (startRun ++ feed idrUnit 5 .accepted ++ feed sliceUnit 4 .accepted) :=
  decoder_gated hdmi false _ (Machine.admissible_iff_getElem.mpr (by decide +kernel))

/-- The pool has no buffer for the keyframe, and has one for the next unit. -/
theorem decoder_not_gated :
    ¬ Machine.Admissible (Gated hdmi false)
      (startRun ++ feed idrUnit 5 .pool ++ feed sliceUnit 4 .accepted) := by
  intro h
  have hlast := h (startRun ++ feed idrUnit 5 .pool ++ feed sliceUnit 3 .accepted)
    (.work 0 .accepted) [] rfl sliceUnit (some sampleFormat) false true true (by decide +kernel)
  exact absurd (hlast.2.2 (by decide +kernel)) (by decide)

end QcapDemos.Decoder
