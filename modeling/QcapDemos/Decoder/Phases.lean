import QcapDemos.Decoder.Locks

set_option autoImplicit false

/-! # The phases of the RX decoder

How `decoder_initializing`, `decoder_wait_for_idr` and `vdec_started` go with the places of the
threads. A worker in its critical section and a running initialization thread exclude each
other, except before the thread asks for the mutex.
-/

namespace QcapDemos.Decoder

open QcapDemos.Lib

/-- The worker has seen that nothing is initializing. -/
def WorkerPc.passed : WorkerPc → Bool
  | .gated _ | .accepting _ | .submitting _ _ | .joining | .marking => true
  | _ => false

/-- The worker has seen a decoder that is started. -/
def WorkerPc.feeds : WorkerPc → Bool
  | .accepting _ | .submitting _ _ => true
  | _ => false

/-- The worker has seen that no IDR is waited for. -/
def WorkerPc.submits : WorkerPc → Bool
  | .submitting _ _ => true
  | _ => false

/-- In `start_vdec_decoder_async`. -/
def WorkerPc.schedules : WorkerPc → Bool
  | .joining | .marking | .arming | .spawning => true
  | _ => false

/-- After the join. -/
def WorkerPc.joined : WorkerPc → Bool
  | .marking | .arming | .spawning => true
  | _ => false

/-- After the store of `decoder_initializing`. -/
def WorkerPc.marked : WorkerPc → Bool
  | .arming | .spawning => true
  | _ => false

/-- The thread runs, and it has not started the decoder. -/
def InitPc.unstarted : InitPc → Bool
  | .absent | .done => false
  | .unlockOutput ready | .unlock ready | .finish ready => !ready
  | _ => true

/-- The thread runs, and it has not given the wait for an IDR up. -/
def InitPc.awaits : InitPc → Bool
  | .absent | .done | .finish false => false
  | _ => true

/-- The unit is the keyframe that ends the wait. -/
def WorkerPc.ends : WorkerPc → Option AccessUnit
  | .accepting au | .submitting au true => some au
  | _ => none

/-- The place of the worker that has the mutex. -/
def DecoderState.owner (s : DecoderState) : WorkerPc :=
  match s.decoderLock with
  | some (.worker w) => s.workers w
  | _ => .idle

/-! ## The relation between the places and the flags -/

/-- A worker with the mutex at `pc`, the initialization thread at `init`, and the flags
`decoder_initializing`, `decoder_wait_for_idr` and `vdec_started`. -/
structure Phase (pc : WorkerPc) (init : InitPc) (flag wait started : Bool) : Prop where
  running : init.joinable = false → flag = true
  marked : pc.marked = true → flag = true
  flagged : flag = true → init.joinable = false ∨ pc.marked = true
  passed : pc.passed = true → flag = false
  joined : pc.joined = true → init = .absent
  feeds : pc.feeds = true → started = true
  submits : pc.submits = true → wait = false
  schedules : pc.schedules = true → started = false
  unstarted : init.unstarted = true → started = false
  awaits : init.awaits = true → wait = true
  armed : pc = .spawning → wait = true
  ends : ∀ au, pc.ends = some au → au.isKeyframe = true

namespace Phase

variable {pc pc' : WorkerPc} {init init' : InitPc} {flag wait started : Bool}

theorem not_awaits_of_joinable (h : init.joinable = true) : init.awaits = false := by
  cases init <;> first | rfl | cases h

theorem joined_of_marked (h : pc.marked = true) : pc.joined = true := by
  cases pc <;> first | rfl | cases h

/-- Nothing runs where a worker has passed the look at the flag. -/
theorem joinable_of_passed (h : Phase pc init flag wait started)
    (hpc : pc.passed = true) : init.joinable = true := by
  by_contra hcon
  have htrue := h.running (by simpa using hcon)
  rw [h.passed hpc] at htrue
  cases htrue

/-- While the thread runs, no worker has joined it. -/
theorem not_joined_of_running (h : Phase pc init flag wait started)
    (hinit : init.joinable = false) : pc.joined = false := by
  by_contra hcon
  rw [h.joined (by simpa using hcon)] at hinit
  cases hinit

/-- A worker that is in none of the classes. -/
theorem leave (h : Phase pc init flag wait started) (hmarked : pc.marked = false)
    (hpc : pc' = .idle ∨ ∃ au, pc' = .locked au) : Phase pc' init flag wait started := by
  have hrun : flag = true → init.joinable = false := by
    intro hi
    rcases h.flagged hi with hr | hr
    · exact hr
    · rw [hmarked] at hr
      cases hr
  have hnone : pc'.marked = false ∧ pc'.passed = false ∧ pc'.joined = false ∧ pc'.feeds = false ∧
      pc'.submits = false ∧ pc'.schedules = false ∧ pc' ≠ .spawning ∧ pc'.ends = none := by
    rcases hpc with rfl | ⟨au, rfl⟩ <;> simp [WorkerPc.marked, WorkerPc.passed, WorkerPc.joined,
      WorkerPc.feeds, WorkerPc.submits, WorkerPc.schedules, WorkerPc.ends]
  obtain ⟨hm, hp, hj, hf, hsub, hs, hspawn, he⟩ := hnone
  exact ⟨h.running, by simp [hm], fun hi => .inl (hrun hi), by simp [hp], by simp [hj],
    by simp [hf], by simp [hsub], by simp [hs], h.unstarted, h.awaits, by simp [hspawn], by simp [he]⟩

/-- A worker goes on with a unit, or to the start of the decoder. -/
theorem go (h : Phase pc init flag wait started) (hflag : flag = false)
    (hmarked' : pc'.marked = false)
    (hjoined : pc'.joined = true → init = .absent) (hfeeds : pc'.feeds = true → started = true)
    (hsubmits : pc'.submits = true → wait = false) (hschedules : pc'.schedules = true → started = false)
    (hends : ∀ au, pc'.ends = some au → au.isKeyframe = true) :
    Phase pc' init flag wait started where
  running := h.running
  marked hc := by rw [hmarked'] at hc; cases hc
  flagged hi := by rw [hflag] at hi; cases hi
  passed _ := hflag
  joined := hjoined
  feeds := hfeeds
  submits := hsubmits
  schedules := hschedules
  unstarted := h.unstarted
  awaits := h.awaits
  armed hc := by rw [hc] at hmarked'; cases hmarked'
  ends := hends

/-- The keyframe ends the wait. -/
theorem accept {au : AccessUnit} (h : Phase (.accepting au) init flag wait started) :
    Phase (.submitting au true) init flag false started where
  running := h.running
  marked hc := by cases hc
  flagged hf := .inl ((h.flagged hf).resolve_right fun hm => by cases hm)
  passed _ := h.passed rfl
  joined hc := by cases hc
  feeds _ := h.feeds rfl
  submits _ := rfl
  schedules hc := by cases hc
  unstarted := h.unstarted
  awaits hc := by
    rw [not_awaits_of_joinable (h.joinable_of_passed rfl)] at hc
    cases hc
  armed hc := by cases hc
  ends _ hc := h.ends _ hc

/-- The store of `decoder_initializing` -/
theorem mark (h : Phase .marking init flag wait started) :
    Phase .arming init true wait started where
  running _ := rfl
  marked _ := rfl
  flagged _ := .inr rfl
  passed hc := by cases hc
  joined _ := h.joined rfl
  feeds hc := by cases hc
  submits hc := by cases hc
  schedules _ := h.schedules rfl
  unstarted := h.unstarted
  awaits := h.awaits
  armed hc := by cases hc
  ends _ hc := by cases hc

/-- The store of `decoder_wait_for_idr` -/
theorem arm (h : Phase .arming init flag wait started) :
    Phase .spawning init flag true started where
  running := h.running
  marked _ := h.marked rfl
  flagged _ := .inr rfl
  passed hc := by cases hc
  joined _ := h.joined rfl
  feeds hc := by cases hc
  submits hc := by cases hc
  schedules _ := h.schedules rfl
  unstarted := h.unstarted
  awaits _ := rfl
  armed _ := rfl
  ends _ hc := by cases hc

theorem spawn (h : Phase .spawning init flag wait started) :
    Phase .idle .begin flag wait started where
  running _ := h.marked rfl
  marked hc := by cases hc
  flagged _ := .inl rfl
  passed hc := by cases hc
  joined hc := by cases hc
  feeds hc := by cases hc
  submits hc := by cases hc
  schedules hc := by cases hc
  unstarted _ := h.schedules rfl
  awaits _ := h.armed rfl
  armed hc := by cases hc
  ends _ hc := by cases hc

/-- The initialization thread goes on. -/
theorem move (h : Phase pc init flag wait started) (hinit : init.joinable = false)
    (hinit' : init'.joinable = false) (hunstarted : init'.unstarted = true → init.unstarted = true)
    (hawaits : init'.awaits = true → init.awaits = true) :
    Phase pc init' flag wait started where
  running _ := h.running hinit
  marked := h.marked
  flagged _ := .inl hinit'
  passed := h.passed
  joined hc := by rw [h.not_joined_of_running hinit] at hc; cases hc
  feeds := h.feeds
  submits := h.submits
  schedules := h.schedules
  unstarted hc := h.unstarted (hunstarted hc)
  awaits hc := h.awaits (hawaits hc)
  armed := h.armed
  ends := h.ends

/-- The thread has started the decoder. -/
theorem start (h : Phase .idle .starting flag wait started) :
    Phase .idle (.unlockOutput true) flag wait true where
  running _ := h.running rfl
  marked hc := by cases hc
  flagged _ := .inl rfl
  passed hc := by cases hc
  joined hc := by cases hc
  feeds _ := rfl
  submits hc := by cases hc
  schedules hc := by cases hc
  unstarted hc := by cases hc
  awaits _ := h.awaits rfl
  armed hc := by cases hc
  ends _ hc := by cases hc

/-- The thread gives the wait for an IDR up. -/
theorem giveUp (h : Phase pc .clear flag wait started) :
    Phase pc (.finish false) flag false started where
  running _ := h.running rfl
  marked := h.marked
  flagged _ := .inl rfl
  passed := h.passed
  joined hc := by rw [h.not_joined_of_running rfl] at hc; cases hc
  feeds := h.feeds
  submits _ := rfl
  schedules := h.schedules
  unstarted _ := h.unstarted rfl
  awaits hc := by cases hc
  armed hc := by
    have hj := h.not_joined_of_running rfl
    rw [hc] at hj
    cases hj
  ends := h.ends

/-- The store of `decoder_initializing` at the end of the thread. -/
theorem finish {ready : Bool} (h : Phase pc (.finish ready) flag wait started) :
    Phase pc .done false wait started where
  running hc := by cases hc
  marked hc := by
    have hj := h.not_joined_of_running rfl
    rw [joined_of_marked hc] at hj
    cases hj
  flagged hc := by cases hc
  passed _ := rfl
  joined hc := by rw [h.not_joined_of_running rfl] at hc; cases hc
  feeds := h.feeds
  submits := h.submits
  schedules := h.schedules
  unstarted hc := by cases hc
  awaits hc := by cases hc
  armed := h.armed
  ends := h.ends

/-- `stop_vdec_decoder` has stopped the decoder. -/
theorem stop (h : Phase .idle init flag wait started) : Phase .idle init flag wait false where
  running := h.running
  marked hc := by cases hc
  flagged := h.flagged
  passed hc := by cases hc
  joined hc := by cases hc
  feeds hc := by cases hc
  submits hc := by cases hc
  schedules hc := by cases hc
  unstarted _ := rfl
  awaits := h.awaits
  armed hc := by cases hc
  ends _ hc := by cases hc

/-- The thread is joined. -/
theorem join (h : Phase pc init flag wait started) (hinit : init.joinable = true) :
    Phase pc .absent flag wait started where
  running hc := by cases hc
  marked := h.marked
  flagged hi := by
    rcases h.flagged hi with hr | hr
    · rw [hinit] at hr
      cases hr
    · exact .inr hr
  passed := h.passed
  joined _ := rfl
  feeds := h.feeds
  submits := h.submits
  schedules := h.schedules
  unstarted hc := by cases hc
  awaits hc := by cases hc
  armed := h.armed
  ends := h.ends

end Phase

def Phased (s : DecoderState) : Prop :=
  Phase s.owner s.init s.decoderInitializing s.decoderWaitForIdr s.vdecStarted

theorem phased_initial (displayEnabled : Bool) : Phased (.initial displayEnabled) where
  running h := by cases h
  marked h := by cases h
  flagged h := by cases h
  passed h := by cases h
  joined h := by cases h
  feeds h := by cases h
  submits h := by cases h
  schedules h := by cases h
  unstarted h := by cases h
  awaits h := by cases h
  armed h := by cases h
  ends au h := by cases h

/-! ## The steps -/

theorem owner_of_worker {s : DecoderState} {w : Nat} (h : s.decoderLock = some (.worker w)) :
    s.owner = s.workers w := by
  rw [DecoderState.owner, h]

theorem owner_of_free {s : DecoderState} (h : s.decoderLock = none) : s.owner = .idle := by
  rw [DecoderState.owner, h]

theorem owner_congr {s s' : DecoderState} (hlock : s'.decoderLock = s.decoderLock)
    (hworkers : ∀ v, s.decoderLock = some (.worker v) → s'.workers v = s.workers v) :
    s'.owner = s.owner := by
  unfold DecoderState.owner
  rw [hlock]
  split
  · next v hv => exact hworkers v hv
  · rfl

/-- A worker goes on with the mutex. -/
theorem owner_inside {s s' : DecoderState} {w : Nat} {pc : WorkerPc}
    (hlock : s'.decoderLock = some (.worker w))
    (hworkers : s'.workers = Function.update s.workers w pc) : s'.owner = pc := by
  rw [owner_of_worker hlock, hworkers, Function.update_self]

/-- A worker in its critical section is the owner. -/
theorem owner_of_critical {cfg : Config} {s : DecoderState} (hl : Locked cfg s) {w : Nat}
    {pc : WorkerPc} (hpc : s.workers w = pc) (hc : pc.critical = true) : s.owner = pc := by
  subst hpc
  exact owner_of_worker ((hl.lock (.worker w)).mp hc)

/-- A worker out of its critical section goes on there. -/
theorem owner_outside {s : DecoderState} {w : Nat} (hw : s.decoderLock ≠ some (.worker w))
    (pc : WorkerPc) (stats : Stats) :
    ({ s with workers := Function.update s.workers w pc, stats := stats } : DecoderState).owner
      = s.owner := by
  refine owner_congr rfl fun v hv => ?_
  have hne : v ≠ w := fun e => hw (e ▸ hv)
  exact Function.update_of_ne hne _ _

/-- The owner does not take a unit in. -/
theorem owner_push {cfg : Config} {s : DecoderState} (hl : Locked cfg s) (w : Nat)
    (au : AccessUnit) : (push cfg s w au).1.owner = s.owner := by
  have hout : ¬ (s.workers w ≠ .idle ∨ au.data.length < 4) → s.decoderLock ≠ some (.worker w) := by
    intro hpc hcon
    have hc : (s.workers w).critical = true := (hl.lock (.worker w)).mpr hcon
    simp only [ne_eq, not_or, not_not] at hpc
    rw [hpc.1] at hc
    cases hc
  fun_cases push cfg s w au with
  | case3 hpc | case5 hpc => exact owner_outside (hout hpc) _ _
  | _ => rfl

/-- A step that leaves the owner and the flags alone. -/
theorem Phased.congr {s s' : DecoderState} (h : Phased s) (howner : s'.owner = s.owner)
    (hinit : s'.init = s.init) (hflag : s'.decoderInitializing = s.decoderInitializing)
    (hwait : s'.decoderWaitForIdr = s.decoderWaitForIdr)
    (hstarted : s'.vdecStarted = s.vdecStarted) : Phased s' := by
  unfold Phased
  rw [howner, hinit, hflag, hwait, hstarted]
  exact h

/-- A worker that is outside of its critical section moves there. -/
theorem Phased.outside {s : DecoderState} (h : Phased s) {w : Nat}
    (hw : s.decoderLock ≠ some (.worker w)) (pc : WorkerPc) (stats : Stats) :
    Phased { s with workers := Function.update s.workers w pc, stats := stats } :=
  h.congr (owner_outside hw pc stats) rfl rfl rfl rfl

/-- A worker moves within its critical section. -/
theorem phased_inside {s s' : DecoderState} {w : Nat} {pc : WorkerPc}
    (hlock : s.decoderLock = some (.worker w)) (hlock' : s'.decoderLock = s.decoderLock)
    (hworkers : s'.workers = Function.update s.workers w pc)
    (hphase : Phase pc s'.init s'.decoderInitializing s'.decoderWaitForIdr s'.vdecStarted) :
    Phased s' := by
  unfold Phased
  rw [owner_inside (hlock'.trans hlock) hworkers]
  exact hphase

/-- The mutex is free, or it is with another thread than a worker. -/
theorem phased_without {s : DecoderState} (hlock : ∀ w, s.decoderLock ≠ some (.worker w))
    (hphase : Phase .idle s.init s.decoderInitializing s.decoderWaitForIdr s.vdecStarted) :
    Phased s := by
  have howner : s.owner = .idle := by
    unfold DecoderState.owner
    split
    · next w hw => exact absurd hw (hlock w)
    · rfl
  unfold Phased
  rw [howner]
  exact hphase

theorem phased_push {cfg : Config} {s : DecoderState} (hl : Locked cfg s) (h : Phased s) (w : Nat)
    (au : AccessUnit) : Phased (push cfg s w au).1 := by
  have howner := owner_push hl w au
  refine h.congr howner ?_ ?_ ?_ ?_ <;> fun_cases push cfg s w au <;> rfl

theorem phased_work {cfg : Config} {s : DecoderState} (hl : Locked cfg s) (h : Phased s) (w : Nat)
    (outcome : Submit) : Phased (work cfg s w outcome).1 := by
  have hin : (s.workers w).critical = true → s.decoderLock = some (.worker w) :=
    (hl.lock (.worker w)).mp
  have hphase : ∀ {pc}, s.workers w = pc → pc.critical = true →
      Phase pc s.init s.decoderInitializing s.decoderWaitForIdr s.vdecStarted := by
    rintro pc rfl hc
    exact owner_of_worker (hin hc) ▸ h
  -- inside the mutex the phase is that of the worker, outside it is that of an idle one
  fun_cases work cfg s w outcome with
  | case1 => exact h
  | case2 hpc hfree => exact h.outside (by rw [hfree]; exact fun hcon => by cases hcon) _ _
  | case3 => exact h
  | case4 au hpc hfree =>
    refine phased_inside (s := { s with decoderLock := some (.worker w) }) rfl rfl rfl ?_
    exact (owner_of_free hfree ▸ h : Phase .idle _ _ _ _).leave rfl (.inr ⟨au, rfl⟩)
  | case5 => exact h
  | case6 au hpc =>
    exact phased_without (fun _ hcon => by cases hcon) ((hphase hpc rfl).leave rfl (.inl rfl))
  | case7 au hpc hflag =>
    have hflag' : s.decoderInitializing = false := by simpa using hflag
    exact phased_inside (hin (by rw [hpc]; rfl)) rfl rfl
      ((hphase hpc rfl).go hflag' rfl (fun hc => by cases hc) (fun hc => by cases hc)
        (fun hc => by cases hc) (fun hc => by cases hc) (fun _ hc => by cases hc))
  | case8 au hpc =>
    exact phased_without (fun _ hcon => by cases hcon) ((hphase hpc rfl).leave rfl (.inl rfl))
  | case9 au hpc hstarted hwait hkey =>
    have hp := hphase hpc rfl
    exact phased_inside (hin (by rw [hpc]; rfl)) rfl rfl
      (hp.go (hp.passed rfl) rfl (fun hc => by cases hc) (fun _ => hstarted)
        (fun hc => by cases hc) (fun hc => by cases hc) (fun au' hc => by cases hc; exact hkey))
  | case10 au hpc =>
    exact phased_without (fun _ hcon => by cases hcon) ((hphase hpc rfl).leave rfl (.inl rfl))
  | case11 au hpc hstarted hwait =>
    have hp := hphase hpc rfl
    exact phased_inside (hin (by rw [hpc]; rfl)) rfl rfl
      (hp.go (hp.passed rfl) rfl (fun hc => by cases hc) (fun _ => hstarted)
        (fun _ => by simpa using hwait) (fun hc => by cases hc) (fun _ hc => by cases hc))
  | case12 au hpc =>
    exact phased_without (fun _ hcon => by cases hcon) ((hphase hpc rfl).leave rfl (.inl rfl))
  | case13 au hpc hstarted hready =>
    have hp := hphase hpc rfl
    have hstarted' : s.vdecStarted = false := by simpa using hstarted
    exact phased_inside (hin (by rw [hpc]; rfl)) rfl rfl
      (hp.go (hp.passed rfl) rfl (fun hc => by cases hc) (fun hc => by cases hc)
        (fun hc => by cases hc) (fun _ => hstarted') (fun _ hc => by cases hc))
  | case14 au hpc =>
    -- the worker has an IDR slice, and ends the wait for one
    exact phased_inside (hin (by rw [hpc]; rfl)) rfl rfl (hphase hpc rfl).accept
  | case15 au first hpc =>
    exact phased_without (fun _ hcon => by cases hcon) ((hphase hpc rfl).leave rfl (.inl rfl))
  | case16 hpc hjoin =>
    -- the old thread is joined before a new one is announced
    have hp := hphase hpc rfl
    refine phased_inside (hin (by rw [hpc]; rfl)) rfl rfl ?_
    exact (hp.join hjoin).go (hp.passed rfl) rfl (fun _ => rfl) (fun hc => by cases hc)
      (fun hc => by cases hc) (fun _ => hp.schedules rfl) (fun _ hc => by cases hc)
  | case17 => exact h
  | case18 hpc => exact phased_inside (hin (by rw [hpc]; rfl)) rfl rfl (hphase hpc rfl).mark
  | case19 hpc => exact phased_inside (hin (by rw [hpc]; rfl)) rfl rfl (hphase hpc rfl).arm
  | case20 hpc => exact phased_without (fun _ hcon => by cases hcon) (hphase hpc rfl).spawn

/-- The initialization thread goes on, without a change of the flags. -/
theorem Phased.move {s s' : DecoderState} (h : Phased s) (howner : s'.owner = s.owner)
    (hflags : (s'.decoderInitializing, s'.decoderWaitForIdr, s'.vdecStarted)
      = (s.decoderInitializing, s.decoderWaitForIdr, s.vdecStarted))
    {pc pc' : InitPc} (hpc : s.init = pc) (hpc' : s'.init = pc') (hrun : pc.joinable = false)
    (hrun' : pc'.joinable = false) (hunstarted : pc'.unstarted = true → pc.unstarted = true)
    (hawaits : pc'.awaits = true → pc.awaits = true) : Phased s' := by
  simp only [Prod.mk.injEq] at hflags
  unfold Phased at h ⊢
  rw [hpc] at h
  rw [howner, hflags.1, hflags.2.1, hflags.2.2, hpc']
  exact h.move hrun hrun' hunstarted hawaits

theorem owner_of_init {s : DecoderState} (h : s.decoderLock = some .init) : s.owner = .idle := by
  rw [DecoderState.owner, h]

theorem owner_of_stop {s : DecoderState} (h : s.decoderLock = some .stop) : s.owner = .idle := by
  rw [DecoderState.owner, h]

theorem phased_initThread {cfg : Config} {s : DecoderState} (hl : Locked cfg s) (h : Phased s)
    (ok : Bool) : Phased (initThread cfg s ok).1 := by
  have hlock : ∀ {pc}, s.init = pc → pc.critical = true → s.decoderLock = some .init := by
    rintro pc rfl hc
    exact (hl.lock .init).mp hc
  -- all moves but three leave the phase as it is
  fun_cases initThread cfg s ok with
  | case1 => exact h
  | case2 => exact h
  | case3 hpc =>
    split
    · exact h.move rfl rfl hpc rfl rfl rfl id id
    · exact h.move rfl rfl hpc rfl rfl rfl id id
  | case4 hpc => exact h.move rfl rfl hpc rfl rfl rfl id id
  | case5 hpc =>
    split
    · exact h.move rfl rfl hpc rfl rfl rfl id id
    · exact h.move rfl rfl hpc rfl rfl rfl id id
  | case6 width height hpc =>
    cases ok with
    | true => exact h.move rfl rfl hpc rfl rfl rfl id id
    | false => exact h.move rfl rfl hpc rfl rfl rfl id id
  | case7 hpc => exact h.move rfl rfl hpc rfl rfl rfl id id
  | case8 hpc => exact h.move rfl rfl hpc rfl rfl rfl id id
  | case9 hpc => exact h.move rfl rfl hpc rfl rfl rfl id id
  | case10 hpc hfree =>
    have howner : s.owner = .idle := owner_of_free hfree
    split
    · exact h.move howner.symm rfl hpc rfl rfl rfl id id
    · exact h.move howner.symm rfl hpc rfl rfl rfl id id
  | case11 => exact h
  | case12 hpc => exact h.move rfl rfl hpc rfl rfl rfl id id
  | case13 => exact h
  | case14 hpc => exact h.move rfl rfl hpc rfl rfl rfl id id
  | case15 hpc => exact h.move rfl rfl hpc rfl rfl rfl id id
  | case16 hpc =>
    split
    · exact h.move rfl rfl hpc rfl rfl rfl id id
    · exact h.move rfl rfl hpc rfl rfl rfl id id
  | case17 hpc => exact h.move rfl rfl hpc rfl rfl rfl id id
  | case18 => exact h
  | case19 hpc => exact h.move rfl rfl hpc rfl rfl rfl id id
  | case20 hpc => exact h.move rfl rfl hpc rfl rfl rfl id id
  | case21 hpc =>
    -- the decoder is started
    have hinit := hlock hpc rfl
    unfold Phased at h
    rw [owner_of_init hinit, hpc] at h
    refine phased_without (fun w hcon => ?_) h.start
    rw [show s.decoderLock = some .init from hinit] at hcon
    cases hcon
  | case22 hpc => exact h.move rfl rfl hpc rfl rfl rfl id id
  | case23 ready hpc =>
    cases ready with
    | true => exact h.move rfl rfl hpc rfl rfl rfl id id
    | false => exact h.move rfl rfl hpc rfl rfl rfl id id
  | case24 hpc => exact h.move rfl rfl hpc rfl rfl rfl id id
  | case25 => exact h
  | case26 ready hpc =>
    have howner : s.owner = .idle := owner_of_init (hlock hpc rfl)
    cases ready with
    | true => exact h.move howner.symm rfl hpc rfl rfl rfl id id
    | false => exact h.move howner.symm rfl hpc rfl rfl rfl id id
  | case27 hpc =>
    -- the thread failed, and nobody waits for an IDR slice
    unfold Phased at h
    rw [hpc] at h
    exact h.giveUp
  | case28 ready hpc =>
    -- the thread is done
    unfold Phased at h
    rw [hpc] at h
    exact h.finish

theorem phased_stopping {cfg : Config} {s : DecoderState} (hl : Locked cfg s) (h : Phased s) :
    Phased (stopping cfg s) := by
  have hlock : ∀ {pc}, s.stopper = pc → pc.critical = true → s.owner = .idle := by
    rintro pc rfl hc
    exact owner_of_stop ((hl.lock .stop).mp hc)
  fun_cases stopping cfg s with
  | case1 => exact h
  | case2 hpc hjoin => exact Phase.join h hjoin
  | case3 => exact h
  | case4 => exact h
  | case5 => exact h
  | case6 hpc hfree => exact h.congr (owner_of_free hfree).symm rfl rfl rfl rfl
  | case7 => exact h
  | case8 => exact h
  | case9 => exact h
  | case10 hpc =>
    have howner := hlock hpc rfl
    split
    · -- a decoder is stopped and deleted
      unfold Phased at h
      rw [howner] at h
      show Phase s.owner _ _ _ _
      rw [howner]
      exact h.stop
    · exact h
  | case11 => exact h
  | case12 => exact h
  | case13 hpc => exact h.congr (hlock hpc rfl).symm rfl rfl rfl rfl

theorem phased_drain {cfg : Config} {s : DecoderState} (hl : Locked cfg s) (h : Phased s)
    (frame : Bool) : Phased (drain cfg s frame) := by
  have hcallback := hl.lock .callback
  simp only [DecoderState.holds] at hcallback
  fun_cases drain cfg s frame with
  | case1 => exact h
  | case2 hpc hfree =>
    cases hsdi : cfg.sdi with
    | true => exact h
    | false =>
      rw [callbackLock, hsdi] at hfree
      exact h.congr (owner_of_free hfree).symm rfl rfl rfl rfl
  | case3 => exact h
  | case4 hpc =>
    cases hsdi : cfg.sdi with
    | true => exact h
    | false =>
      have hlock : s.decoderLock = some .callback := hcallback.mp (by simp [hsdi, hpc])
      have howner : s.owner = .idle := by rw [DecoderState.owner, hlock]
      exact h.congr howner.symm rfl rfl rfl rfl
  | case5 => exact h

theorem phased_step {cfg : Config} {s : DecoderState} (hl : Locked cfg s) (h : Phased s)
    (e : Event) : Phased (step cfg s e).1 := by
  cases e with
  | push w au => exact phased_push hl h w au
  | work w outcome => exact phased_work hl h w outcome
  | caps caps =>
      show Phased (applyCaps s caps)
      fun_cases applyCaps s caps <;> exact h
  | connected width height fps =>
      show Phased (startFromFormat s width height fps)
      fun_cases startFromFormat s width height fps <;> exact h
  | init ok => exact phased_initThread hl h ok
  | stop =>
      show Phased (if s.stopper = .idle then { s with stopper := .join } else s)
      split <;> exact h
  | stopping => exact phased_stopping hl h
  | signal =>
      show Phased (signal s)
      fun_cases signal s <;> exact h
  | drain frame => exact phased_drain hl h frame
  | display enabled => exact h
  | stopDisplay => exact h

/-- Both hold in every state that a run reaches. -/
theorem phased_reached (cfg : Config) (displayEnabled : Bool) (es : List Event) :
    Locked cfg (reached cfg displayEnabled es) ∧ Phased (reached cfg displayEnabled es) :=
  (machine cfg).inv_run (fun _ => True) (fun s => Locked cfg s ∧ Phased s)
    (fun _ e hs _ => ⟨locked_step hs.1 e, phased_step hs.1 hs.2 e⟩) es (.initial displayEnabled)
    (fun _ _ => trivial) ⟨locked_initial cfg displayEnabled, phased_initial displayEnabled⟩

end QcapDemos.Decoder
