import QcapDemos.Lib.Mutex
import QcapDemos.Decoder.Machine

set_option autoImplicit false

/-! # The mutexes of the RX decoder

Each mutex is owned by exactly the thread that is in one of its critical sections.
-/

namespace QcapDemos.Decoder

open QcapDemos.Lib

/-! ## The critical sections -/

/-- With `decoder_lock`. -/
def WorkerPc.critical : WorkerPc → Bool
  | .idle | .dropping | .waiting _ => false
  | _ => true

def InitPc.critical : InitPc → Bool
  | .outputLock | .setup | .setupHandlers | .setupStop | .opening | .starting => true
  | .unlockOutput _ | .cleanup | .unlock _ => true
  | _ => false

/-- With `decoder_output_lock`, where the output is SDI. -/
def InitPc.outputCritical : InitPc → Bool
  | .setup | .setupHandlers | .setupStop | .opening | .starting | .unlockOutput _ => true
  | _ => false

theorem InitPc.not_critical_of_joinable {pc : InitPc} (h : pc.joinable = true) :
    pc.critical = false := by
  cases pc <;> first | rfl | cases h

theorem InitPc.not_outputCritical {pc : InitPc} (h : pc.critical = false) :
    pc.outputCritical = false := by
  cases pc <;> first | rfl | cases h

def StopPc.critical : StopPc → Bool
  | .outputLock | .teardown | .async | .unlock => true
  | _ => false

def StopPc.outputCritical : StopPc → Bool
  | .teardown | .async | .unlock => true
  | _ => false

namespace DecoderState

/-- The thread is in a critical section of `decoder_lock`. -/
def holds (cfg : Config) (s : DecoderState) : Owner → Bool
  | .worker w => (s.workers w).critical
  | .init => s.init.critical
  | .stop => s.stopper.critical
  | .callback => !cfg.sdi && s.callback = .holding

/-- The thread is in a critical section of `decoder_output_lock`. -/
def holdsOutput (cfg : Config) (s : DecoderState) : Owner → Bool
  | .worker _ => false
  | .init => cfg.sdi && s.init.outputCritical
  | .stop => cfg.sdi && s.stopper.outputCritical
  | .callback => cfg.sdi && s.callback = .holding

end DecoderState

/-- The owners of the mutexes are the threads in their critical sections. -/
structure Locked (cfg : Config) (s : DecoderState) : Prop where
  lock : Owned s.decoderLock (s.holds cfg)
  outputLock : Owned s.decoderOutputLock (s.holdsOutput cfg)
  /-- `decoder_output_lock` is taken for SDI only. -/
  initSdi : s.init = .outputLock → cfg.sdi = true
  stopSdi : s.stopper = .outputLock → cfg.sdi = true

theorem locked_initial (cfg : Config) (displayEnabled : Bool) :
    Locked cfg (.initial displayEnabled) := by
  constructor
  · intro o
    cases o <;> simp [DecoderState.holds, DecoderState.initial, WorkerPc.critical,
      InitPc.critical, StopPc.critical]
  · intro o
    cases o <;> simp [DecoderState.holdsOutput, DecoderState.initial, InitPc.outputCritical,
      StopPc.outputCritical]
  · exact fun h => by cases h
  · exact fun h => by cases h

namespace Locked

variable {cfg : Config} {s s' : DecoderState}

/-- A step of a worker. -/
theorem worker (h : Locked cfg s) {w : Nat} {pc : WorkerPc}
    (hworkers : s'.workers = Function.update s.workers w pc)
    (hothers : (s'.init, s'.stopper, s'.callback, s'.decoderOutputLock)
      = (s.init, s.stopper, s.callback, s.decoderOutputLock))
    (hpass : Passes (.worker w) (s.workers w).critical pc.critical s.decoderLock s'.decoderLock) :
    Locked cfg s' := by
  simp only [Prod.mk.injEq] at hothers
  obtain ⟨hinit, hstopper, hcallback, houtput⟩ := hothers
  refine ⟨h.lock.pass (o := .worker w) (fun p hp => ?_) ?_, ?_, ?_, ?_⟩
  · cases p with
    | worker v =>
        have hne : v ≠ w := fun e => hp (congrArg Owner.worker e)
        rw [DecoderState.holds, hworkers, Function.update_of_ne hne, DecoderState.holds]
    | init => rw [DecoderState.holds, hinit, DecoderState.holds]
    | stop => rw [DecoderState.holds, hstopper, DecoderState.holds]
    | callback => rw [DecoderState.holds, hcallback, DecoderState.holds]
  · rw [DecoderState.holds, DecoderState.holds, hworkers, Function.update_self]
    exact hpass
  · rw [houtput]
    intro p
    rw [← h.outputLock p]
    cases p with
    | worker v => rfl
    | init => rw [DecoderState.holdsOutput, hinit, DecoderState.holdsOutput]
    | stop => rw [DecoderState.holdsOutput, hstopper, DecoderState.holdsOutput]
    | callback => rw [DecoderState.holdsOutput, hcallback, DecoderState.holdsOutput]
  · rw [hinit]
    exact h.initSdi
  · rw [hstopper]
    exact h.stopSdi

/-- A step of the initialization thread. -/
theorem init (h : Locked cfg s)
    (hothers : (s'.workers, s'.stopper, s'.callback) = (s.workers, s.stopper, s.callback))
    (hpass : Passes .init s.init.critical s'.init.critical s.decoderLock s'.decoderLock)
    (houtput : Passes .init (cfg.sdi && s.init.outputCritical) (cfg.sdi && s'.init.outputCritical)
      s.decoderOutputLock s'.decoderOutputLock)
    (hsdi : s'.init = .outputLock → cfg.sdi = true) : Locked cfg s' := by
  simp only [Prod.mk.injEq] at hothers
  obtain ⟨hworkers, hstopper, hcallback⟩ := hothers
  refine ⟨h.lock.pass (fun p hp => ?_) hpass, h.outputLock.pass (fun p hp => ?_) houtput, hsdi, ?_⟩
  · cases p with
    | worker v => rw [DecoderState.holds, hworkers, DecoderState.holds]
    | init => exact absurd rfl hp
    | stop => rw [DecoderState.holds, hstopper, DecoderState.holds]
    | callback => rw [DecoderState.holds, hcallback, DecoderState.holds]
  · cases p with
    | worker v => rfl
    | init => exact absurd rfl hp
    | stop => rw [DecoderState.holdsOutput, hstopper, DecoderState.holdsOutput]
    | callback => rw [DecoderState.holdsOutput, hcallback, DecoderState.holdsOutput]
  · rw [hstopper]
    exact h.stopSdi

/-- The initialization thread goes on with the mutexes that it has. -/
theorem move (h : Locked cfg s) {pc : InitPc} (hpc : s.init = pc)
    (hothers : (s'.workers, s'.stopper, s'.callback, s'.decoderLock, s'.decoderOutputLock)
      = (s.workers, s.stopper, s.callback, s.decoderLock, s.decoderOutputLock))
    (hcritical : s'.init.critical = pc.critical)
    (houtput : s'.init.outputCritical = pc.outputCritical) (hne : s'.init ≠ .outputLock) :
    Locked cfg s' := by
  simp only [Prod.mk.injEq] at hothers
  obtain ⟨hworkers, hstopper, hcallback, hlock, hlock'⟩ := hothers
  subst hpc
  refine h.init (by rw [hworkers, hstopper, hcallback]) (.keep hcritical hlock) (.keep ?_ hlock')
    (fun hc => absurd hc hne)
  rw [houtput]

/-- A step of `stop_vdec_decoder`. -/
theorem stop (h : Locked cfg s)
    (hothers : (s'.workers, s'.init, s'.callback) = (s.workers, s.init, s.callback))
    (hpass : Passes .stop s.stopper.critical s'.stopper.critical s.decoderLock s'.decoderLock)
    (houtput : Passes .stop (cfg.sdi && s.stopper.outputCritical)
      (cfg.sdi && s'.stopper.outputCritical) s.decoderOutputLock s'.decoderOutputLock)
    (hsdi : s'.stopper = .outputLock → cfg.sdi = true) : Locked cfg s' := by
  simp only [Prod.mk.injEq] at hothers
  obtain ⟨hworkers, hinit, hcallback⟩ := hothers
  refine ⟨h.lock.pass (fun p hp => ?_) hpass, h.outputLock.pass (fun p hp => ?_) houtput, ?_, hsdi⟩
  · cases p with
    | worker v => rw [DecoderState.holds, hworkers, DecoderState.holds]
    | init => rw [DecoderState.holds, hinit, DecoderState.holds]
    | stop => exact absurd rfl hp
    | callback => rw [DecoderState.holds, hcallback, DecoderState.holds]
  · cases p with
    | worker v => rfl
    | init => rw [DecoderState.holdsOutput, hinit, DecoderState.holdsOutput]
    | stop => exact absurd rfl hp
    | callback => rw [DecoderState.holdsOutput, hcallback, DecoderState.holdsOutput]
  · rw [hinit]
    exact h.initSdi

/-- A step of the output callback. -/
theorem callback (h : Locked cfg s)
    (hothers : (s'.workers, s'.init, s'.stopper) = (s.workers, s.init, s.stopper))
    (hpass : Passes .callback (s.holds cfg .callback) (s'.holds cfg .callback) s.decoderLock
      s'.decoderLock)
    (houtput : Passes .callback (s.holdsOutput cfg .callback) (s'.holdsOutput cfg .callback)
      s.decoderOutputLock s'.decoderOutputLock) : Locked cfg s' := by
  simp only [Prod.mk.injEq] at hothers
  obtain ⟨hworkers, hinit, hstopper⟩ := hothers
  refine ⟨h.lock.pass (fun p hp => ?_) hpass, h.outputLock.pass (fun p hp => ?_) houtput, ?_, ?_⟩
  · cases p with
    | worker v => rw [DecoderState.holds, hworkers, DecoderState.holds]
    | init => rw [DecoderState.holds, hinit, DecoderState.holds]
    | stop => rw [DecoderState.holds, hstopper, DecoderState.holds]
    | callback => exact absurd rfl hp
  · cases p with
    | worker v => rfl
    | init => rw [DecoderState.holdsOutput, hinit, DecoderState.holdsOutput]
    | stop => rw [DecoderState.holdsOutput, hstopper, DecoderState.holdsOutput]
    | callback => exact absurd rfl hp
  · rw [hinit]
    exact h.initSdi
  · rw [hstopper]
    exact h.stopSdi

end Locked

/-! ## The steps of a worker -/

theorem locked_push {cfg : Config} {s : DecoderState} (h : Locked cfg s) (w : Nat)
    (au : AccessUnit) : Locked cfg (push cfg s w au).1 := by
  have hidle : ¬ (s.workers w ≠ .idle ∨ au.data.length < 4) → (s.workers w).critical = false := by
    intro hc
    simp only [ne_eq, not_or, not_not] at hc
    rw [hc.1]
    rfl
  fun_cases push cfg s w au with
  | case3 hc | case5 hc => exact h.worker rfl rfl (.keep (hidle hc).symm rfl)
  | _ => exact ⟨h.lock, h.outputLock, h.initSdi, h.stopSdi⟩

/-- The thread is joined, or started. -/
theorem Locked.outside {cfg : Config} {s : DecoderState} (h : Locked cfg s)
    (hinit : s.init.critical = false) (pc : InitPc) (hpc : pc.critical = false)
    (hne : pc ≠ .outputLock) : Locked cfg { s with init := pc } :=
  h.move rfl rfl (hpc.trans hinit.symm)
    ((InitPc.not_outputCritical hpc).trans (InitPc.not_outputCritical hinit).symm) hne

theorem locked_work {cfg : Config} {s : DecoderState} (h : Locked cfg s) (w : Nat)
    (outcome : Submit) : Locked cfg (work cfg s w outcome).1 := by
  have hin : ∀ {pc}, s.workers w = pc → pc.critical = true → (s.workers w).critical = true := by
    rintro pc rfl hc
    exact hc
  fun_cases work cfg s w outcome with
  | case1 | case3 | case5 | case17 => exact h
  | case2 hpc => exact h.worker rfl rfl (.keep (by rw [hpc]; rfl) rfl)
  | case4 au hpc hfree => exact h.worker rfl rfl (.take rfl hfree rfl)
  | case7 au hpc | case9 au hpc | case11 au hpc | case13 au hpc | case14 au hpc =>
    exact h.worker rfl rfl (.keep (hin hpc rfl).symm rfl)
  | case18 hpc | case19 hpc => exact h.worker rfl rfl (.keep (hin hpc rfl).symm rfl)
  | case16 hpc hjoin =>
    have hjoined := h.outside (InitPc.not_critical_of_joinable hjoin) .absent rfl (by decide)
    exact hjoined.worker rfl rfl (.keep (hin hpc rfl).symm rfl)
  | case20 hpc =>
    -- while the worker has the mutex, the initialization thread has not
    have hinit : s.init.critical = false :=
      h.lock.not_critical_of_ne (o := .worker w) (p := .init) (hin hpc rfl) (by simp)
    exact (h.outside hinit .begin rfl (by decide)).worker rfl rfl (.release (hin hpc rfl) rfl rfl)
  | case6 au hpc | case8 au hpc | case10 au hpc | case12 au hpc | case15 au _ hpc =>
    exact h.worker rfl rfl (.release (hin hpc rfl) rfl rfl)

/-! ## The steps of the other threads -/

theorem locked_initThread {cfg : Config} {s : DecoderState} (h : Locked cfg s) (ok : Bool) :
    Locked cfg (initThread cfg s ok).1 := by
  fun_cases initThread cfg s ok with
  | case1 | case2 | case11 | case13 | case18 | case25 => exact h
  | case3 hpc =>
    cases hd : s.displayEnabled <;> exact h.move hpc rfl rfl rfl (fun hc => by cases hc)
  | case5 hpc | case6 _ _ hpc | case16 hpc =>
    cases ok <;> exact h.move hpc rfl rfl rfl (fun hc => by cases hc)
  | case10 hpc hfree =>
    -- on SDI the thread goes on to the second mutex, on HDMI it has all it needs
    have hout : s.init.outputCritical = false := by rw [hpc]; rfl
    cases hsdi : cfg.sdi with
    | true =>
      refine h.init rfl (.take rfl hfree rfl) (.keep ?_ rfl) (fun _ => hsdi)
      rw [hout]
      rfl
    | false =>
      refine h.init rfl (.take rfl hfree rfl) (.keep ?_ rfl) (fun hc => by cases hc)
      rw [hsdi]
      rfl
  | case12 hpc hfree =>
    have hsdi := h.initSdi hpc
    exact h.init rfl (.keep (by rw [hpc]; rfl) rfl) (.take (by rw [hsdi]; rfl) hfree rfl)
      (fun hc => by cases hc)
  | case23 ready hpc =>
    -- the output mutex is given back, the other one is still held
    have hcritical : s.init.critical = true := by rw [hpc]; rfl
    refine h.init rfl (.keep ?_ rfl) ?_ ?_
    · rw [hcritical]
      cases ready <;> rfl
    · cases hsdi : cfg.sdi with
      | true => exact .release (by rw [hpc]; rfl) (by cases ready <;> rfl) rfl
      | false => exact .keep rfl rfl
    · cases ready <;> exact fun hc => by cases hc
  | case26 ready hpc =>
    have hout : s.init.outputCritical = false := by rw [hpc]; rfl
    refine h.init rfl (.release (by rw [hpc]; rfl) ?_ rfl) (.keep ?_ rfl) ?_
    · cases ready <;> rfl
    · rw [hout]
      cases ready <;> rfl
    · cases ready <;> exact fun hc => by cases hc
  | case4 hpc | case7 hpc | case8 hpc | case9 hpc | case14 hpc | case15 hpc | case17 hpc
  | case19 hpc | case20 hpc | case21 hpc | case22 hpc | case24 hpc | case27 hpc | case28 _ hpc =>
    exact h.move hpc rfl rfl rfl (fun hc => by cases hc)

theorem locked_stopping {cfg : Config} {s : DecoderState} (h : Locked cfg s) :
    Locked cfg (stopping cfg s) := by
  have hkeep : ∀ {s' : DecoderState} {pc : StopPc}, s.stopper = pc →
      (s'.workers, s'.init, s'.callback) = (s.workers, s.init, s.callback) →
      s'.decoderLock = s.decoderLock → s'.decoderOutputLock = s.decoderOutputLock →
      s'.stopper.critical = pc.critical → s'.stopper.outputCritical = pc.outputCritical →
      s'.stopper ≠ .outputLock → Locked cfg s' := by
    rintro s' pc rfl hothers hlock houtput hcritical hout hne
    exact h.stop hothers (.keep hcritical hlock) (.keep (by rw [hout]) houtput)
      (fun hc => absurd hc hne)
  fun_cases stopping cfg s with
  | case1 | case3 | case5 | case7 | case9 | case12 => exact h
  | case2 hpc hjoin =>
    -- a thread that can be joined has no mutex
    have hjoined := h.outside (InitPc.not_critical_of_joinable hjoin) .absent rfl (by decide)
    refine hjoined.stop rfl (.keep ?_ rfl) (.keep ?_ rfl) (fun hc => by cases hc)
    · rw [hpc]; rfl
    · rw [hpc]; rfl
  | case4 hpc => exact hkeep hpc rfl rfl rfl rfl rfl (fun hc => by cases hc)
  | case6 hpc hfree =>
    have hout : s.stopper.outputCritical = false := by rw [hpc]; rfl
    cases hsdi : cfg.sdi with
    | true =>
      refine h.stop rfl (.take rfl hfree rfl) (.keep ?_ rfl) (fun _ => hsdi)
      rw [hout]
      rfl
    | false =>
      refine h.stop rfl (.take rfl hfree rfl) (.keep ?_ rfl) (fun hc => by cases hc)
      rw [hsdi]
      rfl
  | case8 hpc hfree =>
    have hsdi := h.stopSdi hpc
    exact h.stop rfl (.keep (by rw [hpc]; rfl) rfl) (.take (by rw [hsdi]; rfl) hfree rfl)
      (fun hc => by cases hc)
  | case10 hpc => exact hkeep hpc rfl rfl rfl rfl rfl (fun hc => by cases hc)
  | case11 hpc => exact hkeep hpc rfl rfl rfl rfl rfl (fun hc => by cases hc)
  | case13 hpc =>
    -- both mutexes are given back, the second one only where it was taken
    refine h.stop rfl (.release (by rw [hpc]; rfl) rfl rfl) ?_ (fun hc => by cases hc)
    cases hsdi : cfg.sdi with
    | true => exact .release (by rw [hpc]; rfl) rfl rfl
    | false => exact .keep rfl rfl

/-- The callback moves where it has no mutex. -/
theorem Locked.call {cfg : Config} {s : DecoderState} (h : Locked cfg s) {pc : CallbackPc}
    (hbefore : s.callback ≠ .holding) (hafter : pc ≠ .holding) :
    Locked cfg { s with callback := pc } := by
  refine h.callback rfl (.keep ?_ rfl) (.keep ?_ rfl)
  · simp [DecoderState.holds, hbefore, hafter]
  · simp [DecoderState.holdsOutput, hbefore, hafter]

theorem locked_drain {cfg : Config} {s : DecoderState} (h : Locked cfg s) (frame : Bool) :
    Locked cfg (drain cfg s frame) := by
  -- which of the two mutexes the callback takes depends on the output
  fun_cases drain cfg s frame with
  | case1 | case3 => exact h
  | case2 hpc hfree =>
    cases hsdi : cfg.sdi with
    | true =>
      rw [callbackLock, hsdi] at hfree
      refine h.callback rfl (.keep ?_ rfl) (.take ?_ hfree rfl)
      · simp [DecoderState.holds, hsdi]
      · simp [DecoderState.holdsOutput, hsdi]
    | false =>
      rw [callbackLock, hsdi] at hfree
      refine h.callback rfl (.take ?_ hfree rfl) (.keep ?_ rfl)
      · simp [DecoderState.holds, hsdi]
      · simp [DecoderState.holdsOutput, hsdi]
  | case4 hpc =>
    have hleft : (if (s.vdec.isSome && s.vdecStarted && frame) = true then CallbackPc.popped
        else .idle) ≠ .holding := by
      split <;> exact fun hc => by cases hc
    cases hsdi : cfg.sdi with
    | true =>
      refine h.callback rfl (.keep ?_ rfl) (.release ?_ ?_ rfl)
      · simp [DecoderState.holds, hsdi]
      · simp [DecoderState.holdsOutput, hsdi, hpc]
      · show (cfg.sdi && decide (_ = CallbackPc.holding)) = false
        rw [decide_eq_false hleft, Bool.and_false]
    | false =>
      refine h.callback rfl (.release ?_ ?_ rfl) (.keep ?_ rfl)
      · simp [DecoderState.holds, hsdi, hpc]
      · show (!cfg.sdi && decide (_ = CallbackPc.holding)) = false
        rw [decide_eq_false hleft, Bool.and_false]
      · simp [DecoderState.holdsOutput, hsdi]
  | case5 hpc => exact h.call (by rw [hpc]; decide) (by decide)

/-- **Mutual exclusion** is kept by every step. -/
theorem locked_step {cfg : Config} {s : DecoderState} (h : Locked cfg s) (e : Event) :
    Locked cfg (step cfg s e).1 := by
  cases e with
  | push w au => exact locked_push h w au
  | work w outcome => exact locked_work h w outcome
  | caps caps =>
      show Locked cfg (applyCaps s caps)
      fun_cases applyCaps s caps <;> exact ⟨h.lock, h.outputLock, h.initSdi, h.stopSdi⟩
  | connected width height fps =>
      show Locked cfg (startFromFormat s width height fps)
      fun_cases startFromFormat s width height fps <;>
        exact ⟨h.lock, h.outputLock, h.initSdi, h.stopSdi⟩
  | init ok => exact locked_initThread h ok
  | stop =>
      show Locked cfg (if s.stopper = .idle then { s with stopper := .join } else s)
      split
      · next hidle =>
        refine h.stop rfl (.keep ?_ rfl) (.keep ?_ rfl) (fun hc => by cases hc)
        · rw [hidle]; rfl
        · rw [hidle]; rfl
      · exact h
  | stopping => exact locked_stopping h
  | signal =>
      show Locked cfg (signal s)
      fun_cases signal s with
      | case1 hc =>
        simp only [Bool.and_eq_true, decide_eq_true_eq] at hc
        exact h.call (by rw [hc.2]; decide) (by decide)
      | case2 => exact h
  | drain frame => exact locked_drain h frame
  | display enabled => exact ⟨h.lock, h.outputLock, h.initSdi, h.stopSdi⟩
  | stopDisplay => exact ⟨h.lock, h.outputLock, h.initSdi, h.stopSdi⟩

theorem locked_reached (cfg : Config) (displayEnabled : Bool) (es : List Event) :
    Locked cfg (reached cfg displayEnabled es) :=
  (machine cfg).inv_run (fun _ => True) (Locked cfg) (fun _ e hs _ => locked_step hs e) es
    (.initial displayEnabled) (fun _ _ => trivial) (locked_initial cfg displayEnabled)

end QcapDemos.Decoder
