import QcapDemos.Decoder.Phases

set_option autoImplicit false

/-! # The output callback and the stop of its handlers

`qcap2_event_handlers_stop` waits for a callback that runs. The callback takes `decoder_lock` on
HDMI and `decoder_output_lock` on SDI, so whoever stops the handlers must not have that mutex
while a callback may run. On SDI the initialization thread unlocks the output mutex before its
cleanup; on HDMI it keeps `decoder_lock`, and a start of the decoder that signals and then fails
leaves it waiting for a callback that waits for the mutex.
-/

namespace QcapDemos.Decoder

open QcapDemos.Lib

/-! ## The deadlock -/

/-- The thread is at a call of `qcap2_event_handlers_stop`. -/
def stopsHandlers (s : DecoderState) : Owner → Bool
  | .init => s.init = .setupStop || s.init = .cleanup
  | .stop => s.stopper = .handlers || s.stopper = .async
  | _ => false

/-- A thread waits in `qcap2_event_handlers_stop` for a callback, with the mutex that the
callback needs. -/
def Deadlocked (cfg : Config) (s : DecoderState) : Prop :=
  ∃ o, stopsHandlers s o = true ∧ s.vdecEventHandlers = true ∧ s.callback ≠ .idle ∧
    callbackLock cfg s = some o

/-- The initialization thread is on its way to the cleanup of a start that failed, or at it. -/
def InitPc.cleans : InitPc → Bool
  | .unlockOutput false | .cleanup => true
  | _ => false

/-- On HDMI no callback runs where the start of the decoder fails, and none is called before its
cleanup has stopped the handlers. -/
def cleansQuietly (cfg : Config) (s : DecoderState) : Event → Bool
  | .init ok => ok || cfg.sdi || s.init ≠ .starting || s.callback = .idle
  | .signal => cfg.sdi || !s.init.cleans || !s.armed
  | _ => true

/-- No unit is fed while `stop_vdec_decoder` runs. -/
def feedsBeforeStop (s : DecoderState) : Event → Bool
  | .push _ _ | .work _ _ => s.stopper = .idle
  | _ => true

def stopsQuietly (cfg : Config) (s : DecoderState) (e : Event) : Bool :=
  cleansQuietly cfg s e && feedsBeforeStop s e

/-! ## What each thread knows of the handlers -/

/-- What the initialization thread knows, at each of its statements. -/
def InitPc.Knows (sdi armed handlers started idle : Bool) : InitPc → Prop
  | .begin | .drm | .mode _ _ | .sink | .lock | .outputLock | .setup => handlers = false
  | .setupHandlers | .opening => armed = false ∧ handlers = true
  | .setupStop => armed = false
  | .starting => handlers = true
  | .unlockOutput true => started = true
  | .unlockOutput false | .cleanup => sdi = false → idle = true
  | .unlock _ | .clear | .finish _ | .done | .absent => handlers = true → started = true

/-- What `stop_vdec_decoder` knows, at each of its statements. -/
def StopPc.Knows (handlers : Bool) (init : InitPc) : StopPc → Prop
  | .idle | .join => True
  | .handlers => init = .absent
  | .lock | .outputLock | .teardown | .async | .unlock => init = .absent ∧ handlers = false

/-- Nothing is known of a callback that runs. -/
theorem InitPc.Knows.of_running {sdi armed handlers started : Bool} {pc : InitPc}
    (h : pc.Knows sdi armed handlers started false) (idle : Bool) :
    pc.Knows sdi armed handlers started idle := by
  cases pc with
  | unlockOutput ready =>
      cases ready with
      | true => exact h
      | false => exact fun hsdi => by cases h hsdi
  | cleanup => exact fun hsdi => by cases h hsdi
  | _ => exact h

/-- The call of a callback. -/
theorem InitPc.Knows.called {sdi handlers started idle : Bool} {pc : InitPc}
    (h : pc.Knows sdi true handlers started idle) (hquiet : sdi = true ∨ pc.cleans = false) :
    pc.Knows sdi true handlers started false := by
  have hsdi : pc.cleans = true → sdi = false → false = true := by
    intro hc hf
    rcases hquiet with ht | hn
    · rw [ht] at hf
      cases hf
    · rw [hn] at hc
      cases hc
  cases pc with
  | unlockOutput ready =>
      cases ready with
      | true => exact h
      | false => exact hsdi rfl
  | cleanup => exact hsdi rfl
  | _ => exact h

/-- A callback runs only after the entry of `qcap2_video_decoder_start`, and before the handlers
are stopped. -/
structure Armed (cfg : Config) (s : DecoderState) : Prop where
  callback : s.callback ≠ .idle → s.armed = true
  handlers : s.armed = true → s.vdecEventHandlers = true
  init : s.init.Knows cfg.sdi s.armed s.vdecEventHandlers s.vdecStarted (s.callback = .idle)
  stop : s.stopper.Knows s.vdecEventHandlers s.init

theorem armed_initial (cfg : Config) (displayEnabled : Bool) :
    Armed cfg (.initial displayEnabled) where
  callback h := absurd rfl h
  handlers h := by cases h
  init h := by cases h
  stop := trivial

namespace Armed

variable {cfg : Config} {s : DecoderState}

/-- The thread's knowledge, at a statement. -/
theorem init_at (h : Armed cfg s) {pc : InitPc} (hpc : s.init = pc) :
    pc.Knows cfg.sdi s.armed s.vdecEventHandlers s.vdecStarted (s.callback = .idle) :=
  hpc ▸ h.init

theorem stop_at (h : Armed cfg s) {pc : StopPc} (hpc : s.stopper = pc) :
    pc.Knows s.vdecEventHandlers s.init := hpc ▸ h.stop

theorem unarmed (h : Armed cfg s) (hnone : s.vdecEventHandlers = false) : s.armed = false := by
  by_contra harmed
  rw [h.handlers (by simpa using harmed)] at hnone
  cases hnone

theorem idle_of_unarmed (h : Armed cfg s) (hnone : s.armed = false) : s.callback = .idle := by
  by_contra hrunning
  rw [h.callback hrunning] at hnone
  cases hnone

/-- The handlers are stopped where no callback runs. -/
theorem idle_of_quiet (h : Armed cfg s) (hquiet : s.handlersQuiet = true) :
    s.callback = .idle := by
  simp only [DecoderState.handlersQuiet, Bool.or_eq_true, Bool.not_eq_true',
    decide_eq_true_eq] at hquiet
  rcases hquiet with hnone | hidle
  · exact h.idle_of_unarmed (h.unarmed hnone)
  · exact hidle

/-- The stop has not joined the thread where the thread runs. -/
theorem stop_of_running (h : Armed cfg s) (hrun : s.init ≠ .absent) (handlers : Bool)
    (pc : InitPc) : s.stopper.Knows handlers pc := by
  cases hpc : s.stopper with
  | idle => trivial
  | join => trivial
  | handlers => exact absurd (h.stop_at hpc) hrun
  | lock => exact absurd (h.stop_at hpc).1 hrun
  | outputLock => exact absurd (h.stop_at hpc).1 hrun
  | teardown => exact absurd (h.stop_at hpc).1 hrun
  | async => exact absurd (h.stop_at hpc).1 hrun
  | unlock => exact absurd (h.stop_at hpc).1 hrun

/-- The initialization thread goes on. -/
theorem move (h : Armed cfg s) {s' : DecoderState}
    (hsame : (s'.callback, s'.armed, s'.vdecEventHandlers, s'.vdecStarted, s'.stopper)
      = (s.callback, s.armed, s.vdecEventHandlers, s.vdecStarted, s.stopper))
    (hrun : s.init ≠ .absent)
    (hknows : s'.init.Knows cfg.sdi s.armed s.vdecEventHandlers s.vdecStarted
      (s.callback = .idle)) : Armed cfg s' := by
  simp only [Prod.mk.injEq] at hsame
  obtain ⟨hcallback, harmed, hhandlers, hstarted, hstopper⟩ := hsame
  refine ⟨?_, ?_, ?_, ?_⟩
  · rw [hcallback, harmed]
    exact h.callback
  · rw [harmed, hhandlers]
    exact h.handlers
  · rw [hcallback, harmed, hhandlers, hstarted]
    exact hknows
  · rw [hstopper]
    exact h.stop_of_running hrun _ _

/-- `StopVdecAsync` in the initialization thread. -/
theorem clear (h : Armed cfg s) (hquiet : s.handlersQuiet = true) (hrun : s.init ≠ .absent)
    {pc : InitPc} (hknows : pc.Knows cfg.sdi false false s.vdecStarted true) :
    Armed cfg { s with vdecEventHandlers := false, armed := false, init := pc } where
  callback hc := absurd (h.idle_of_quiet hquiet) hc
  handlers hc := by cases hc
  init := by
    simp only [h.idle_of_quiet hquiet, decide_true]
    exact hknows
  stop := h.stop_of_running hrun _ _

/-- **No deadlock** where the callback runs only in an armed state. -/
theorem not_deadlocked (h : Armed cfg s) (hl : Locked cfg s) : ¬ Deadlocked cfg s := by
  rintro ⟨o, hstops, hexist, hrunning, howner⟩
  have harmed := h.callback hrunning
  cases o with
  | worker w => cases hstops
  | callback => cases hstops
  | init =>
      simp only [stopsHandlers, Bool.or_eq_true, decide_eq_true_eq] at hstops
      rcases hstops with hpc | hpc
      · have hnone : s.armed = false := h.init_at hpc
        rw [hnone] at harmed
        cases harmed
      · cases hsdi : cfg.sdi with
        | false =>
            have hidle := h.init_at hpc hsdi
            exact hrunning (by simpa using hidle)
        | true =>
            -- on SDI the thread has unlocked the mutex before
            rw [callbackLock, hsdi, if_pos rfl] at howner
            have hc := (hl.outputLock .init).mpr howner
            simp [DecoderState.holdsOutput, hpc, InitPc.outputCritical] at hc
  | stop =>
      simp only [stopsHandlers, Bool.or_eq_true, decide_eq_true_eq] at hstops
      rcases hstops with hpc | hpc
      · -- the stop has no mutex yet
        cases hsdi : cfg.sdi with
        | false =>
            rw [callbackLock, hsdi, if_neg Bool.false_ne_true] at howner
            have hc := (hl.lock .stop).mpr howner
            simp [DecoderState.holds, hpc, StopPc.critical] at hc
        | true =>
            rw [callbackLock, hsdi, if_pos rfl] at howner
            have hc := (hl.outputLock .stop).mpr howner
            simp [DecoderState.holdsOutput, hpc, StopPc.outputCritical] at hc
      · have hnone : s.vdecEventHandlers = false := (h.stop_at hpc).2
        rw [hnone] at hexist
        cases hexist

end Armed

/-! ## The steps -/

theorem absent_or_done {pc : InitPc} (h : pc.joinable = true) : pc = .absent ∨ pc = .done := by
  cases pc <;> first | exact .inl rfl | exact .inr rfl | cases h


theorem armed_work {cfg : Config} {s : DecoderState} (hl : Locked cfg s) (hp : Phased s)
    (h : Armed cfg s) (w : Nat) (outcome : Submit) (hok : s.stopper = .idle) :
    Armed cfg (work cfg s w outcome).1 := by
  have hstop : ∀ handlers pc, s.stopper.Knows handlers pc := fun _ _ => by rw [hok]; trivial
  fun_cases work cfg s w outcome with
  | case16 hpc hjoin =>
    -- a thread that can be joined has no handlers but those of the decoder
    refine ⟨h.callback, h.handlers, ?_, hstop _ _⟩
    rcases absent_or_done hjoin with hinit | hinit <;> exact (h.init_at hinit :)
  | case20 hpc =>
    have howner := owner_of_critical hl hpc rfl
    have hstarted : s.vdecStarted = false := hp.schedules (by rw [howner]; rfl)
    have hknows := h.init_at (hp.joined (by rw [howner]; rfl))
    refine ⟨h.callback, h.handlers, ?_, hstop _ _⟩
    show s.vdecEventHandlers = false
    by_contra hcon
    rw [hknows (by simpa using hcon)] at hstarted
    cases hstarted
  | _ => exact ⟨h.callback, h.handlers, h.init, h.stop⟩

theorem armed_initThread {cfg : Config} {s : DecoderState} (h : Armed cfg s) (ok : Bool)
    (hok : ok = true ∨ cfg.sdi = true ∨ s.init ≠ .starting ∨ s.callback = .idle) :
    Armed cfg (initThread cfg s ok).1 := by
  have hrun : ∀ {pc}, s.init = pc → pc ≠ .absent → s.init ≠ .absent := by
    rintro pc rfl hc
    exact hc
  have hnone : s.vdecEventHandlers = false → s.vdecEventHandlers = true → s.vdecStarted = true :=
    fun hf ht => by rw [hf] at ht; cases ht
  fun_cases initThread cfg s ok with
  | case1 => exact h
  | case2 => exact h
  | case3 hpc =>
    refine h.move rfl (hrun hpc (by decide)) ?_
    cases s.displayEnabled with
    | true => exact (h.init_at hpc :)
    | false => exact (h.init_at hpc :)
  | case4 hpc => exact h.move rfl (hrun hpc (by decide)) (h.init_at hpc :)
  | case5 hpc hdrm size =>
    refine h.move rfl (hrun hpc (by decide)) ?_
    cases ok with
    | true => exact (h.init_at hpc :)
    | false => exact hnone (h.init_at hpc :)
  | case6 width height hpc =>
    refine h.move rfl (hrun hpc (fun hc => by cases hc)) ?_
    cases ok with
    | true => exact (h.init_at hpc :)
    | false => exact hnone (h.init_at hpc :)
  | case7 hpc => exact h.move rfl (hrun hpc (by decide)) (h.init_at hpc :)
  | case8 hpc => exact h.move rfl (hrun hpc (by decide)) (h.init_at hpc :)
  | case9 hpc => exact h.move rfl (hrun hpc (by decide)) (hnone (h.init_at hpc :))
  | case10 hpc =>
    refine h.move rfl (hrun hpc (by decide)) ?_
    cases cfg.sdi with
    | true => exact (h.init_at hpc :)
    | false => exact (h.init_at hpc :)
  | case11 => exact h
  | case12 hpc => exact h.move rfl (hrun hpc (by decide)) (h.init_at hpc :)
  | case13 => exact h
  | case14 hpc =>
    -- the handlers are set before the decoder starts
    have harmed := h.unarmed (h.init_at hpc :)
    exact ⟨h.callback, fun _ => rfl, ⟨harmed, rfl⟩,
      h.stop_of_running (hrun hpc (by decide)) _ _⟩
  | case15 hpc => exact h.move rfl (hrun hpc (by decide)) (h.unarmed (h.init_at hpc :))
  | case16 hpc =>
    refine h.move rfl (hrun hpc (by decide)) ?_
    cases ok with
    | true => exact (h.init_at hpc :)
    | false => exact (h.init_at hpc).1
  | case17 hpc hquiet => exact h.clear hquiet (hrun hpc (by decide)) (fun _ => rfl)
  | case18 => exact h
  | case19 hpc =>
    -- from here on the decoder may call back
    have hexist := (h.init_at hpc).2
    exact ⟨fun _ => rfl, fun _ => hexist, hexist, h.stop_of_running (hrun hpc (by decide)) _ _⟩
  | case20 hpc =>
    have hidle := h.idle_of_unarmed (h.init_at hpc).1
    exact h.move rfl (hrun hpc (by decide)) (fun _ => by simpa using hidle)
  | case21 hpc =>
    exact ⟨h.callback, h.handlers, rfl, h.stop_of_running (hrun hpc (by decide)) _ _⟩
  | case22 hpc hfail =>
    -- the decoder may signal, and HDMI still has the mutex
    refine h.move rfl (hrun hpc (by decide)) fun hsdi => ?_
    rcases hok with hc | hc | hc | hidle
    · exact absurd hc hfail
    · rw [hsdi] at hc
      cases hc
    · exact absurd hpc hc
    · simpa using hidle
  | case23 ready hpc =>
    refine h.move rfl (hrun hpc (fun hc => by cases hc)) ?_
    cases ready with
    | true => exact fun _ => h.init_at hpc
    | false => exact (h.init_at hpc :)
  | case24 hpc hquiet => exact h.clear hquiet (hrun hpc (by decide)) (fun hc => by cases hc)
  | case25 => exact h
  | case26 ready hpc =>
    refine h.move rfl (hrun hpc (fun hc => by cases hc)) ?_
    cases ready with
    | true => exact (h.init_at hpc :)
    | false => exact (h.init_at hpc :)
  | case27 hpc => exact h.move rfl (hrun hpc (by decide)) (h.init_at hpc :)
  | case28 ready hpc => exact h.move rfl (hrun hpc (fun hc => by cases hc)) (h.init_at hpc :)

theorem armed_stopping {cfg : Config} {s : DecoderState} (h : Armed cfg s) :
    Armed cfg (stopping cfg s) := by
  fun_cases stopping cfg s with
  | case1 => exact h
  | case2 hpc hjoin =>
    -- the thread is joined once it is absent or done
    refine ⟨h.callback, h.handlers, ?_, rfl⟩
    rcases absent_or_done hjoin with hinit | hinit <;> exact (h.init_at hinit :)
  | case3 => exact h
  | case4 hpc hquiet =>
    -- the handlers go only where no callback runs
    have habsent : s.init = .absent := h.stop_at hpc
    refine ⟨fun hc => absurd (h.idle_of_quiet hquiet) hc, fun hc => (by cases hc), ?_,
      ⟨habsent, rfl⟩⟩
    rw [habsent]
    exact fun hc => by cases hc
  | case5 => exact h
  | case6 hpc =>
    refine ⟨h.callback, h.handlers, h.init, ?_⟩
    cases cfg.sdi with
    | true => exact (h.stop_at hpc :)
    | false => exact (h.stop_at hpc :)
  | case7 => exact h
  | case8 hpc => exact ⟨h.callback, h.handlers, h.init, (h.stop_at hpc :)⟩
  | case9 => exact h
  | case10 hpc =>
    obtain ⟨habsent, hnone⟩ := h.stop_at hpc
    refine ⟨h.callback, h.handlers, ?_, ⟨habsent, hnone⟩⟩
    show s.init.Knows _ _ s.vdecEventHandlers _ _
    rw [habsent, hnone]
    exact fun hc => by cases hc
  | case11 hpc hquiet =>
    obtain ⟨habsent, -⟩ := h.stop_at hpc
    refine ⟨fun hc => absurd (h.idle_of_quiet hquiet) hc, fun hc => (by cases hc), ?_,
      ⟨habsent, rfl⟩⟩
    rw [habsent]
    exact fun hc => by cases hc
  | case12 => exact h
  | case13 => exact ⟨h.callback, h.handlers, h.init, trivial⟩

theorem armed_drain {cfg : Config} {s : DecoderState} (h : Armed cfg s) (frame : Bool) :
    Armed cfg (drain cfg s frame) := by
  have hrunning : ∀ {pc}, s.callback = pc → pc ≠ .idle → s.armed = true ∧
      ∀ idle, s.init.Knows cfg.sdi s.armed s.vdecEventHandlers s.vdecStarted idle := by
    rintro pc rfl hc
    refine ⟨h.callback hc, fun idle => InitPc.Knows.of_running ?_ idle⟩
    simpa [hc] using h.init
  fun_cases drain cfg s frame with
  | case1 => exact h
  | case2 hpc =>
    obtain ⟨harmed, hknows⟩ := hrunning hpc (by decide)
    exact ⟨fun _ => harmed, h.handlers, hknows _, h.stop⟩
  | case3 => exact h
  | case4 hpc =>
    obtain ⟨harmed, hknows⟩ := hrunning hpc (by decide)
    exact ⟨fun _ => harmed, h.handlers, hknows _, h.stop⟩
  | case5 hpc =>
    obtain ⟨harmed, hknows⟩ := hrunning hpc (by decide)
    exact ⟨fun _ => harmed, h.handlers, hknows _, h.stop⟩

theorem armed_signal {cfg : Config} {s : DecoderState} (h : Armed cfg s)
    (hquiet : cfg.sdi = true ∨ s.init.cleans = false ∨ s.armed = false) :
    Armed cfg (signal s) := by
  fun_cases signal s with
  | case1 hc =>
    simp only [Bool.and_eq_true] at hc
    obtain ⟨⟨-, harmed⟩, -⟩ := hc
    refine ⟨fun _ => harmed, h.handlers, ?_, h.stop⟩
    have hknows := h.init
    rw [harmed] at hknows
    show s.init.Knows cfg.sdi s.armed s.vdecEventHandlers s.vdecStarted false
    rw [harmed]
    refine hknows.called (hquiet.imp_right fun hq => hq.resolve_right fun hn => ?_)
    rw [harmed] at hn
    cases hn
  | case2 => exact h

theorem armed_step {cfg : Config} {s : DecoderState} (hl : Locked cfg s) (hp : Phased s)
    (h : Armed cfg s) (e : Event) (hok : stopsQuietly cfg s e = true) :
    Armed cfg (step cfg s e).1 := by
  obtain ⟨hquiet, hfeeds⟩ := Bool.and_eq_true_iff.mp hok
  cases e with
  | push w au =>
      show Armed cfg (push cfg s w au).1
      fun_cases push cfg s w au <;> exact ⟨h.callback, h.handlers, h.init, h.stop⟩
  | work w outcome => exact armed_work hl hp h w outcome (by simpa [feedsBeforeStop] using hfeeds)
  | caps caps =>
      show Armed cfg (applyCaps s caps)
      fun_cases applyCaps s caps <;> exact ⟨h.callback, h.handlers, h.init, h.stop⟩
  | connected width height fps =>
      show Armed cfg (startFromFormat s width height fps)
      fun_cases startFromFormat s width height fps <;>
        exact ⟨h.callback, h.handlers, h.init, h.stop⟩
  | init ok => exact armed_initThread h ok (by simpa [cleansQuietly, or_assoc] using hquiet)
  | stop =>
      show Armed cfg (if s.stopper = .idle then { s with stopper := .join } else s)
      split
      · exact ⟨h.callback, h.handlers, h.init, trivial⟩
      · exact h
  | stopping => exact armed_stopping h
  | signal => exact armed_signal h (by simpa [cleansQuietly, or_assoc] using hquiet)
  | drain frame => exact armed_drain h frame
  | display enabled => exact ⟨h.callback, h.handlers, h.init, h.stop⟩
  | stopDisplay => exact ⟨h.callback, h.handlers, h.init, h.stop⟩

theorem armed_reached (cfg : Config) (displayEnabled : Bool) (es : List Event)
    (hok : Machine.Admissible
      (fun before e => stopsQuietly cfg (reached cfg displayEnabled before) e = true) es) :
    Armed cfg (reached cfg displayEnabled es) :=
  (machine cfg).history_inv (.initial displayEnabled) _ (fun _ s => Armed cfg s)
    (armed_initial cfg displayEnabled)
    (fun es e h hok => armed_step (phased_reached cfg displayEnabled es).1
      (phased_reached cfg displayEnabled es).2 h e hok) es hok

/-! ## The theorem -/

/-- **Neither side deadlocks.** Where on HDMI no callback runs during the cleanup of a start that
failed, no state of a run has a thread that waits for a callback with the mutex that the callback
needs. -/
theorem never_deadlocked (cfg : Config) (displayEnabled : Bool) (es : List Event)
    (hok : Machine.Admissible
      (fun before e => stopsQuietly cfg (reached cfg displayEnabled before) e = true) es) (n : Nat) :
    ¬ Deadlocked cfg (reached cfg displayEnabled (es.take n)) := by
  rw [← List.take_append_drop n es] at hok
  exact (armed_reached cfg displayEnabled _ hok.left).not_deadlocked
    (phased_reached cfg displayEnabled _).1

/-- The start of the decoder fails with no callback, and the decoder is stopped. -/
def failingRun : List Event :=
  scheduleRun ++ List.replicate 5 (.init true) ++ .init false :: List.replicate 5 (.init true) ++
    .stop :: List.replicate 7 .stopping

/-- At the cleanup. -/
theorem never_deadlocked_failingRun : ¬ Deadlocked hdmi (reached hdmi false (failingRun.take 16)) :=
  never_deadlocked hdmi false _ (Machine.admissible_iff_getElem.mpr (by decide +kernel)) 16

/-- The decoder signals, and its start fails. -/
def deadlockRun : List Event :=
  scheduleRun ++ List.replicate 5 (.init true) ++ [.signal, .init false, .init true]

/-- The initialization thread waits for the callback with `decoder_lock`, for which the callback
waits. -/
theorem init_deadlocked :
    Machine.Admissible (fun before e => feedsBeforeStop (reached hdmi false before) e = true)
        deadlockRun ∧
      Deadlocked hdmi (reached hdmi false deadlockRun) :=
  ⟨Machine.admissible_iff_getElem.mpr (by decide +kernel), .init, by decide +kernel⟩

/-- A step that breaks the condition leads to the deadlock, one step of the initialization thread
later. -/
theorem deadlocked_of_not_quiet {cfg : Config} {s : DecoderState} (hl : Locked cfg s)
    (h : Armed cfg s) {e : Event} (hnot : cleansQuietly cfg s e = false) (ok : Bool) :
    Deadlocked cfg (step cfg (step cfg s e).1 (.init ok)).1 := by
  cases e with
  | init ok' =>
      simp only [cleansQuietly, Bool.or_eq_false_iff, decide_eq_false_iff_not, not_not] at hnot
      obtain ⟨⟨⟨rfl, hsdi⟩, hpc⟩, hrunning⟩ := hnot
      have hlock := (hl.lock .init).mp (by rw [DecoderState.holds, hpc]; rfl)
      have hexist : s.vdecEventHandlers = true := h.init_at hpc
      refine ⟨.init, ?_⟩
      simp [step, initThread, hpc, hsdi, hexist, hrunning, hlock, stopsHandlers, callbackLock]
  | signal =>
      simp only [cleansQuietly, Bool.or_eq_false_iff, Bool.not_eq_false'] at hnot
      obtain ⟨⟨hsdi, hpc⟩, harmed⟩ := hnot
      have hexist := h.handlers harmed
      cases hinit : s.init with
      | unlockOutput ready =>
          cases ready with
          | true => rw [hinit] at hpc; cases hpc
          | false =>
              have hlock := (hl.lock .init).mp (by rw [DecoderState.holds, hinit]; rfl)
              have hidle : s.callback = .idle := by simpa using h.init_at hinit hsdi
              refine ⟨.init, ?_⟩
              simp [step, signal, initThread, hinit, hsdi, hexist, harmed, hidle, hlock,
                stopsHandlers, callbackLock]
      | cleanup =>
          have hlock := (hl.lock .init).mp (by rw [DecoderState.holds, hinit]; rfl)
          have hidle : s.callback = .idle := by simpa using h.init_at hinit hsdi
          refine ⟨.init, ?_⟩
          simp [step, signal, initThread, hinit, hsdi, hexist, harmed, hidle, hlock,
            stopsHandlers, callbackLock, DecoderState.handlersQuiet]
      | _ => rw [hinit] at hpc; cases hpc
  | _ => cases hnot

end QcapDemos.Decoder
