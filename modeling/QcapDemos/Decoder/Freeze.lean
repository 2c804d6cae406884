import QcapDemos.Decoder.Phases

set_option autoImplicit false

/-! # The freeze of the decoder's format

The mode of the display, the rectangle of the scaler and the property of the decoder are computed
from the format, at different steps of the initialization thread and partly without
`decoder_lock`. CAPS leave the format alone while the decoder is initializing or started. The
fallback of the QCAP notification looks at `vdec_started` only, and its frame rate goes through
during an initialization.
-/

namespace QcapDemos.Decoder

open Function QcapDemos.Lib

/-! ## The decoder in use -/

/-- The initialization has failed, and the thread has not ended. -/
def InitPc.failed : InitPc → Bool
  | .setupStop | .cleanup | .clear => true
  | .unlockOutput ready | .unlock ready | .finish ready => !ready
  | _ => false

namespace DecoderState

/-- An initialization is scheduled or runs, and has not failed. -/
def scheduled (s : DecoderState) : Bool := s.decoderInitializing && !s.init.failed

/-- From the scheduling of an initialization until it fails or the decoder is stopped. -/
def inUse (s : DecoderState) : Bool := s.vdecStarted || s.scheduled

end DecoderState

/-- The format at the last scheduling. -/
def scheduledAfter (last : Option Format) : Option Output → Option Format
  | some (.scheduled format) => some format
  | _ => last

def lastScheduled (outputs : List (Option Output)) : Option Format :=
  outputs.foldl scheduledAfter none

/-- A step that leaves the format of a decoder in use as it is, and reads the format with which
the initialization was scheduled. -/
def Frozen (cfg : Config) (displayEnabled : Bool) (before : List Event) (e : Event) : Prop :=
  ((reached cfg displayEnabled before).inUse = true →
    (step cfg (reached cfg displayEnabled before) e).1.format
      = (reached cfg displayEnabled before).format) ∧
  ∀ format, (step cfg (reached cfg displayEnabled before) e).2 = some (.reads format) →
    lastScheduled (outputs cfg displayEnabled before) = some format

/-- A QCAP notification with another frame rate, between the scheduling of an initialization and
the start of its decoder. -/
def disturbs (s : DecoderState) : Event → Bool
  | .connected width height fps =>
      s.scheduled && !s.vdecStarted && s.decoderLock = none && width != 0 && height != 0 &&
        (FrameRate.le 1 fps && fps.le 240) && fps ≠ s.format.decFps
  | _ => false

/-! ## Formats that a decoder can be made for -/

/-- The avcC and the size are known. -/
def Format.ready (f : Format) : Bool := f.extraData.isSome && f.decWidth != 0 && f.decHeight != 0

theorem ready_of_valid {c : RawCaps} {f : Format} (h : c.valid = some f) : f.ready = true := by
  revert h
  fun_cases RawCaps.valid c with
  | case1 => exact fun h => by cases h
  | case2 avcc width height _ _ _ _ hok =>
    intro h
    cases h
    simp only [not_or] at hok
    simp [Format.ready, hok.2.2.1, hok.2.2.2]
  | case3 => exact fun h => by cases h

/-- A format that is ready stays so. -/
theorem ready_applyCaps {s : DecoderState} (h : s.format.ready = true) (caps : RawCaps) :
    (applyCaps s caps).format.ready = true := by
  fun_cases applyCaps s caps with
  | case4 format hvalid => exact ready_of_valid hvalid
  | _ => exact h

theorem ready_startFromFormat {s : DecoderState} (h : s.format.ready = true)
    (width height : UInt32) (fps : FrameRate) :
    (startFromFormat s width height fps).format.ready = true := by
  fun_cases startFromFormat s width height fps with
  | case4 =>
    simp only [Format.ready, Bool.and_eq_true, bne_iff_ne] at h
    simp [Format.ready, h.1.1, h.1.2, h.2]
  | _ => exact h

/-- CAPS and the QCAP notification write nothing but the format. -/
theorem applyCaps_eq (s : DecoderState) (caps : RawCaps) :
    applyCaps s caps = { s with format := (applyCaps s caps).format } := by
  fun_cases applyCaps s caps <;> rfl

theorem startFromFormat_eq (s : DecoderState) (width height : UInt32) (fps : FrameRate) :
    startFromFormat s width height fps
      = { s with format := (startFromFormat s width height fps).format } := by
  fun_cases startFromFormat s width height fps <;> rfl

/-- Nothing else writes it. -/
theorem format_step (cfg : Config) (s : DecoderState) {e : Event} (hcaps : ∀ c, e ≠ .caps c)
    (hconnected : ∀ width height fps, e ≠ .connected width height fps) :
    (step cfg s e).1.format = s.format := by
  cases e with
  | push w au =>
      show (push cfg s w au).1.format = _
      fun_cases push cfg s w au <;> rfl
  | work w outcome =>
      show (work cfg s w outcome).1.format = _
      fun_cases work cfg s w outcome <;> rfl
  | caps caps => exact absurd rfl (hcaps caps)
  | connected width height fps => exact absurd rfl (hconnected width height fps)
  | init ok =>
      show (initThread cfg s ok).1.format = _
      fun_cases initThread cfg s ok <;> rfl
  | stop =>
      show (if s.stopper = .idle then { s with stopper := .join } else s).format = _
      split <;> rfl
  | stopping =>
      show (stopping cfg s).format = _
      fun_cases stopping cfg s <;> rfl
  | signal =>
      show (signal s).format = _
      fun_cases signal s <;> rfl
  | drain frame =>
      show (drain cfg s frame).format = _
      fun_cases drain cfg s frame <;> rfl
  | display enabled => rfl
  | stopDisplay => rfl

/-- Where a decoder is scheduled, initializing or started, the format is ready. -/
structure Fit (s : DecoderState) : Prop where
  workers : ∀ w, (s.workers w).schedules = true → s.format.ready = true
  initializing : s.decoderInitializing = true → s.format.ready = true
  started : s.vdecStarted = true → s.format.ready = true

theorem fit_initial (displayEnabled : Bool) : Fit (.initial displayEnabled) where
  workers _ h := by cases h
  initializing h := by cases h
  started h := by cases h

namespace Fit

variable {s : DecoderState}

/-- A worker goes on. -/
theorem update (h : Fit s) (w : Nat) {pc : WorkerPc}
    (hpc : pc.schedules = true → s.format.ready = true) (v : Nat)
    (hv : (update s.workers w pc v).schedules = true) : s.format.ready = true := by
  by_cases hvw : v = w
  · rw [hvw, update_self] at hv
    exact hpc hv
  · rw [update_of_ne hvw] at hv
    exact h.workers v hv

theorem leave (h : Fit s) (w : Nat) {pc : WorkerPc} (hpc : pc.schedules = false) (v : Nat)
    (hv : (Function.update s.workers w pc v).schedules = true) : s.format.ready = true :=
  h.update w (fun hc => by rw [hpc] at hc; cases hc) v hv

/-- A writer of the format. -/
theorem write (h : Fit s) (f : Format) (hready : s.format.ready = true → f.ready = true) :
    Fit { s with format := f } where
  workers w hw := hready (h.workers w hw)
  initializing hi := hready (h.initializing hi)
  started hs := hready (h.started hs)

end Fit

theorem fit_work {cfg : Config} {s : DecoderState} (h : Fit s) (w : Nat) (outcome : Submit) :
    Fit (work cfg s w outcome).1 := by
  have hw : ∀ {pc}, s.workers w = pc → pc.schedules = true → s.format.ready = true := by
    rintro pc rfl hc
    exact h.workers w hc
  fun_cases work cfg s w outcome with
  | case1 => exact h
  | case3 => exact h
  | case5 => exact h
  | case13 au hpc hstarted hready =>
    simp only [not_or] at hready
    have hready : s.format.ready = true := by
      simp [Format.ready, Option.isSome_iff_ne_none, hready.1, hready.2.1, hready.2.2.1]
    exact ⟨h.update w fun _ => hready, h.initializing, h.started⟩
  | case16 hpc => exact ⟨h.update w fun _ => hw hpc rfl, h.initializing, h.started⟩
  | case17 => exact h
  | case18 hpc => exact ⟨h.update w fun _ => hw hpc rfl, fun _ => hw hpc rfl, h.started⟩
  | case19 hpc => exact ⟨h.update w fun _ => hw hpc rfl, h.initializing, h.started⟩
  | _ => exact ⟨h.leave w rfl, h.initializing, h.started⟩

theorem fit_initThread {cfg : Config} {s : DecoderState} (hp : Phased s) (h : Fit s) (ok : Bool) :
    Fit (initThread cfg s ok).1 := by
  fun_cases initThread cfg s ok with
  | case21 hpc =>
    -- the thread runs, so the decoder is initializing
    have hflag := hp.running (by rw [hpc]; rfl)
    exact ⟨h.workers, h.initializing, fun _ => h.initializing hflag⟩
  | case28 => exact ⟨h.workers, fun hc => (by cases hc), h.started⟩
  | _ => exact ⟨h.workers, h.initializing, h.started⟩

theorem fit_step {cfg : Config} {s : DecoderState} (hp : Phased s) (h : Fit s) (e : Event) :
    Fit (step cfg s e).1 := by
  cases e with
  | push w au =>
      show Fit (push cfg s w au).1
      fun_cases push cfg s w au with
      | case3 => exact ⟨h.leave w rfl, h.initializing, h.started⟩
      | case5 => exact ⟨h.leave w rfl, h.initializing, h.started⟩
      | _ => exact ⟨h.workers, h.initializing, h.started⟩
  | work w outcome => exact fit_work h w outcome
  | caps caps =>
      show Fit (applyCaps s caps)
      rw [applyCaps_eq]
      exact h.write _ fun hs => ready_applyCaps hs caps
  | connected width height fps =>
      show Fit (startFromFormat s width height fps)
      rw [startFromFormat_eq]
      exact h.write _ fun hs => ready_startFromFormat hs width height fps
  | init ok => exact fit_initThread hp h ok
  | stop =>
      show Fit (if s.stopper = .idle then { s with stopper := .join } else s)
      split <;> exact ⟨h.workers, h.initializing, h.started⟩
  | stopping =>
      show Fit (stopping cfg s)
      fun_cases stopping cfg s with
      | case10 =>
        -- the teardown clears `vdecStarted` or leaves it as it is
        refine ⟨h.workers, h.initializing, fun hc => h.started ?_⟩
        revert hc
        show (if s.vdec.isSome = true then false else s.vdecStarted) = true → _
        split
        · exact fun hc => by cases hc
        · exact id
      | _ => exact ⟨h.workers, h.initializing, h.started⟩
  | signal =>
      show Fit (signal s)
      fun_cases signal s <;> exact ⟨h.workers, h.initializing, h.started⟩
  | drain frame =>
      show Fit (drain cfg s frame)
      fun_cases drain cfg s frame <;> exact ⟨h.workers, h.initializing, h.started⟩
  | display enabled => exact ⟨h.workers, h.initializing, h.started⟩
  | stopDisplay => exact ⟨h.workers, h.initializing, h.started⟩

/-! ## What the initialization was scheduled with -/

/-- The format is the one with which the initialization was scheduled. -/
def Kept (last : Option Format) (s : DecoderState) : Prop :=
  s.scheduled = true → last = some s.format

theorem Kept.of_back {last : Option Format} {s s' : DecoderState} (h : Kept last s)
    (hback : s'.scheduled = true → s.scheduled = true)
    (hformat : s.scheduled = true → s'.format = s.format) : Kept last s' := by
  intro hs
  rw [hformat (hback hs)]
  exact h (hback hs)

theorem InitPc.not_failed_of_joinable {pc : InitPc} (h : pc.joinable = true) :
    pc.failed = false := by
  cases pc <;> first | rfl | cases h

/-- A worker schedules an initialization only by the store of `decoder_initializing`. -/
theorem kept_work {cfg : Config} {s : DecoderState} (hl : Locked cfg s) (hp : Phased s)
    {last : Option Format} (h : Kept last s) (w : Nat) (outcome : Submit) :
    Kept (scheduledAfter last (work cfg s w outcome).2) (work cfg s w outcome).1 := by
  fun_cases work cfg s w outcome with
  | case15 =>
    cases outcome <;> exact h
  | case16 hpc hjoin =>
    refine h.of_back (fun hs => ?_) fun _ => rfl
    have hs : s.decoderInitializing = true := (Bool.and_eq_true_iff.mp hs).1
    rw [DecoderState.scheduled, hs, InitPc.not_failed_of_joinable hjoin]
    rfl
  | case18 => exact fun _ => rfl
  | case20 hpc =>
    have howner := owner_of_critical hl hpc rfl
    have habsent := hp.joined (by rw [howner]; rfl)
    refine h.of_back (fun hs => ?_) fun _ => rfl
    have hs : s.decoderInitializing = true := (Bool.and_eq_true_iff.mp hs).1
    rw [DecoderState.scheduled, hs, habsent]
    rfl
  | _ => exact h

theorem kept_initThread {cfg : Config} {s : DecoderState} {last : Option Format}
    (h : Kept last s) (ok : Bool) :
    Kept (scheduledAfter last (initThread cfg s ok).2) (initThread cfg s ok).1 := by
  have hstay : ∀ {pc}, s.init = pc → (s.decoderInitializing && !pc.failed) = true →
      s.scheduled = true := by
    rintro pc rfl hs
    exact hs
  have hoff : ∀ {flag : Bool}, (flag && !true) = true → s.scheduled = true := fun hs => by
    rw [Bool.not_true, Bool.and_false] at hs
    cases hs
  fun_cases initThread cfg s ok with
  | case1 | case2 | case11 | case13 | case18 | case25 => exact h
  | case4 hpc | case7 hpc | case8 hpc | case12 hpc | case14 hpc | case19 hpc | case21 hpc =>
    exact h.of_back (fun hs => hstay hpc hs) fun _ => rfl
  | case3 hpc =>
    cases hd : s.displayEnabled with
    | true => exact h.of_back (fun hs => hstay hpc hs) fun _ => rfl
    | false => exact h.of_back (fun hs => hstay hpc hs) fun _ => rfl
  | case10 hpc =>
    cases hsdi : cfg.sdi with
    | true => exact h.of_back (fun hs => hstay hpc hs) fun _ => rfl
    | false => exact h.of_back (fun hs => hstay hpc hs) fun _ => rfl
  | case5 hpc | case6 _ _ hpc | case16 hpc =>
    cases ok with
    | true => exact h.of_back (fun hs => hstay hpc hs) fun _ => rfl
    | false => exact h.of_back (fun hs => hoff hs) fun _ => rfl
  | case23 ready hpc | case26 ready hpc =>
    cases ready with
    | true => exact h.of_back (fun hs => hstay hpc hs) fun _ => rfl
    | false => exact h.of_back (fun hs => hoff hs) fun _ => rfl
  | case28 => exact h.of_back (fun hs => by cases hs) fun _ => rfl
  -- the steps after a failure
  | _ => exact h.of_back (fun hs => hoff hs) fun _ => rfl

/-! ## Which steps keep the format -/

/-- CAPS leave a decoder in use alone. -/
theorem applyCaps_of_inUse {s : DecoderState} (h : s.inUse = true) (caps : RawCaps) :
    applyCaps s caps = s := by
  simp only [DecoderState.inUse, DecoderState.scheduled, Bool.or_eq_true, Bool.and_eq_true] at h
  fun_cases applyCaps s caps with
  | case4 format hvalid hlock hfree =>
    simp only [Bool.or_eq_true, not_or] at hfree
    rcases h with h | h
    · exact absurd h hfree.1
    · exact absurd h.1 hfree.2
  | _ => rfl

/-- The QCAP notification changes the format of a decoder in use exactly where it disturbs. -/
theorem startFromFormat_format {s : DecoderState} (hready : s.format.ready = true)
    (h : s.inUse = true) (width height : UInt32) (fps : FrameRate) :
    (startFromFormat s width height fps).format = s.format ↔
      disturbs s (.connected width height fps) = false := by
  simp only [Format.ready, Bool.and_eq_true, bne_iff_ne] at hready
  fun_cases startFromFormat s width height fps with
  | case1 hzero =>
    rcases hzero with rfl | rfl <;> simp [disturbs]
  | case2 _ hlock => simp [disturbs, hlock]
  | case3 _ _ hstarted => simp [disturbs, hstarted]
  | case4 hsize hlock hstarted =>
    simp only [not_or] at hsize
    simp only [ne_eq, not_not] at hlock
    have hscheduled : s.scheduled = true := by simpa [DecoderState.inUse, hstarted] using h
    rw [if_neg hready.1.2, if_neg hready.2]
    by_cases hrange : (FrameRate.le 1 fps && fps.le 240) = true
    · simp only [disturbs, hscheduled, hstarted, hlock, hrange]
      constructor
      · intro hf
        have hfps : fps = s.format.decFps := congrArg Format.decFps hf
        simp [hfps]
      · intro hf
        have hfps : fps = s.format.decFps := by simpa [hsize.1, hsize.2] using hf
        simp [hfps]
    · simp [disturbs, hrange]

/-- A step from a state in use keeps the format exactly where it does not disturb. -/
theorem format_step_iff {cfg : Config} {s : DecoderState} (hfit : Fit s) (h : s.inUse = true)
    (e : Event) : (step cfg s e).1.format = s.format ↔ disturbs s e = false := by
  have hready : s.format.ready = true := by
    simp only [DecoderState.inUse, DecoderState.scheduled, Bool.or_eq_true, Bool.and_eq_true] at h
    exact h.elim hfit.started fun hs => hfit.initializing hs.1
  cases e with
  | caps caps =>
      refine ⟨fun _ => rfl, fun _ => ?_⟩
      show (applyCaps s caps).format = s.format
      rw [applyCaps_of_inUse h]
  | connected width height fps => exact startFromFormat_format hready h width height fps
  | _ =>
      refine ⟨fun _ => rfl, fun _ => ?_⟩
      exact format_step cfg s (fun c hc => by cases hc) (fun w h f hc => by cases hc)

/-- Nothing is disturbed where no decoder is in use. -/
theorem inUse_of_disturbs {s : DecoderState} {e : Event} (h : disturbs s e = true) :
    s.inUse = true := by
  cases e with
  | connected width height fps =>
      simp only [disturbs, Bool.and_eq_true] at h
      simp [DecoderState.inUse, h]
  | _ => cases h

theorem kept_step {cfg : Config} {s : DecoderState} (hl : Locked cfg s) (hp : Phased s)
    (hfit : Fit s) {last : Option Format} (h : Kept last s) (e : Event)
    (hok : disturbs s e = false) :
    Kept (scheduledAfter last (step cfg s e).2) (step cfg s e).1 := by
  have hformat : s.scheduled = true → (step cfg s e).1.format = s.format := fun hs =>
    (format_step_iff hfit (by rw [DecoderState.inUse, hs, Bool.or_true]) e).mpr hok
  -- only `caps` and `connected` write the format, and here they write what it was
  cases e with
  | push w au =>
      show Kept (scheduledAfter last (push cfg s w au).2) (push cfg s w au).1
      fun_cases push cfg s w au <;> exact h
  | work w outcome => exact kept_work hl hp h w outcome
  | caps caps =>
      refine h.of_back (fun hs => ?_) hformat
      have heq : (step cfg s (.caps caps)).1 = { s with format := _ } := applyCaps_eq s caps
      rw [heq] at hs
      exact hs
  | connected width height fps =>
      refine h.of_back (fun hs => ?_) hformat
      have heq : (step cfg s (.connected width height fps)).1 = { s with format := _ } :=
        startFromFormat_eq s width height fps
      rw [heq] at hs
      exact hs
  | init ok => exact kept_initThread h ok
  | stop =>
      show Kept last (if s.stopper = .idle then { s with stopper := .join } else s)
      split <;> exact h
  | stopping =>
      show Kept last (stopping cfg s)
      fun_cases stopping cfg s with
      | case2 hpc hjoin =>
        refine h.of_back (fun hs => ?_) fun _ => rfl
        have hs : s.decoderInitializing = true := (Bool.and_eq_true_iff.mp hs).1
        rw [DecoderState.scheduled, hs, InitPc.not_failed_of_joinable hjoin]
        rfl
      | _ => exact h
  | signal =>
      show Kept last (signal s)
      fun_cases signal s <;> exact h
  | drain frame =>
      show Kept last (drain cfg s frame)
      fun_cases drain cfg s frame <;> exact h
  | display enabled => exact h
  | stopDisplay => exact h

/-- The thread reads the format before it fails, and as it is. -/
theorem reads_step {cfg : Config} {s : DecoderState} {e : Event} {f : Format}
    (h : (step cfg s e).2 = some (.reads f)) :
    s.init.joinable = false ∧ s.init.failed = false ∧ f = s.format := by
  cases e with
  | push w au =>
      revert h
      show (push cfg s w au).2 = _ → _
      fun_cases push cfg s w au <;> exact fun h => by cases h
  | work w outcome =>
      revert h
      show (work cfg s w outcome).2 = _ → _
      fun_cases work cfg s w outcome with
      | case15 => cases outcome <;> exact fun h => by cases h
      | _ => exact fun h => by cases h
  | init ok =>
      revert h
      show (initThread cfg s ok).2 = _ → _
      fun_cases initThread cfg s ok with
      | case5 hpc | case6 _ _ hpc | case8 hpc | case9 hpc | case19 hpc =>
        intro h
        cases h
        rw [hpc]
        exact ⟨rfl, rfl, rfl⟩
      | _ => exact fun h => by cases h
  | _ => cases h

/-! ## The freeze -/

/-- Both hold in every state that a run reaches. -/
theorem fit_reached (cfg : Config) (displayEnabled : Bool) (es : List Event) :
    Fit (reached cfg displayEnabled es) := by
  refine (machine cfg).history_inv (.initial displayEnabled) (fun _ _ => True) (fun _ s => Fit s)
    (fit_initial displayEnabled) (fun es e h _ => ?_) es fun _ _ _ _ => trivial
  exact fit_step (phased_reached cfg displayEnabled es).2 h e

theorem lastScheduled_snoc (cfg : Config) (displayEnabled : Bool) (es : List Event) (e : Event) :
    lastScheduled (outputs cfg displayEnabled (es ++ [e]))
      = scheduledAfter (lastScheduled (outputs cfg displayEnabled es))
          (step cfg (reached cfg displayEnabled es) e).2 := by
  unfold outputs lastScheduled
  rw [Machine.outputs_snoc, List.foldl_append]
  rfl

theorem kept_reached (cfg : Config) (displayEnabled : Bool) :
    ∀ es, Machine.Admissible
        (fun before e => disturbs (reached cfg displayEnabled before) e = false) es →
      Kept (lastScheduled (outputs cfg displayEnabled es)) (reached cfg displayEnabled es) := by
  refine (machine cfg).history_inv (.initial displayEnabled) _
    (fun es s => Kept (lastScheduled (outputs cfg displayEnabled es)) s) (fun hs => by cases hs) ?_
  intro es e h hok
  obtain ⟨hl, hp⟩ := phased_reached cfg displayEnabled es
  rw [lastScheduled_snoc]
  exact kept_step hl hp (fit_reached cfg displayEnabled es) h e hok

/-- **The freeze.** In a run every step keeps the format of a decoder in use, and every read of
the initialization finds the format with which it was scheduled, exactly where no QCAP
notification brings another frame rate to a decoder that is not started yet. -/
theorem frozen_iff (cfg : Config) (displayEnabled : Bool) (es : List Event) :
    Machine.Admissible (Frozen cfg displayEnabled) es ↔
      Machine.Admissible
        (fun before e => disturbs (reached cfg displayEnabled before) e = false) es := by
  constructor
  · intro h before e after hes
    by_contra hcon
    have huse := inUse_of_disturbs (by simpa using hcon)
    exact hcon ((format_step_iff (fit_reached cfg displayEnabled before) huse e).mp
      ((h before e after hes).1 huse))
  · intro h before e after hes
    refine ⟨fun huse => ?_, fun f hreads => ?_⟩
    · exact (format_step_iff (fit_reached cfg displayEnabled before) huse e).mpr
        (h before e after hes)
    · obtain ⟨hrun, hunfailed, rfl⟩ := reads_step hreads
      have hbefore := Machine.Admissible.left (hes ▸ h)
      refine kept_reached cfg displayEnabled before hbefore ?_
      rw [DecoderState.scheduled, (phased_reached cfg displayEnabled before).2.running hrun,
        hunfailed]
      rfl

/-- CAPS for 30 frames per second schedule the initialization, and while it chooses the mode the
QCAP notification brings 50. -/
def disturbedRun : List Event :=
  scheduleRun ++ [.init true, .init true, .connected 64 48 50, .init true]

/-- The mode is chosen for the other frame rate. -/
theorem not_frozen : ¬ Machine.Admissible (Frozen hdmi true) disturbedRun := by
  intro h
  have hlast := (h (disturbedRun.take 12) (.init true) [] rfl).2 { sampleFormat with decFps := 50 }
    (by decide +kernel)
  exact absurd hlast (by decide +kernel)

end QcapDemos.Decoder
