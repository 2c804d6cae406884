import QcapDemos.Rx.Media

set_option autoImplicit false

/-! # Everything that a media receiver makes goes

Between two calls of a running receiver its flags say what it points at: `owned core f` is the
constant part `core` with what the flags of `f` stand for. Every function of the receiver leads from
such a state to such a state, whatever calls of it fail. So both clients destroy all that they made,
each object once and after all that works with it, in every run. There is one exception, a pad that
could not be added to a sink of the RTSP bridge.
-/

namespace QcapDemos.Rx.Media

open QcapDemos.Lib Holdings Proc

/-! ## The rules -/

/-- The program points at `A`, and its flags are `f`. -/
structure At (A L : Set Object) (f : Fields) (s : State) : Prop where
  owns : Owns A L s.holdings
  fields : s.fields = f

/-- What can get lost. -/
def Lost (L : Set Object) : Prop := ∀ o ∈ L, o = .sinkPad .vsink ∨ o = .sinkPad .asink

theorem unused_of_users {A : Set Object} {f : Fields} {o : Object} (h : ∀ u ∈ users f o, u ∉ A) :
    Unused (uses f) A o := by
  intro u hu
  rw [uses, List.contains_eq_mem, decide_eq_false_iff_not]
  exact fun hmem => h u hmem hu

theorem lost_empty : Lost ∅ := fun _ ho => absurd ho (Set.notMem_empty _)

section Rules

variable {A L : Set Object} {f : Fields} {s : State} {o : Object} {R : State → Prop}

theorem Lost.notMem (hL : Lost L) (h : ∀ e, o ≠ .sinkPad e) : o ∉ L := by
  intro ho
  rcases hL o ho with rfl | rfl
  · exact h _ rfl
  · exact h _ rfl

theorem Lost.unused (hL : Lost L) (f : Fields) (o : Object) : Unused (uses f) L o := by
  apply unused_of_users
  intro u hu
  apply hL.notMem
  rintro e rfl
  cases o with
  | extraData copy =>
      rw [users] at hu
      split_ifs at hu <;> simp at hu
  | _ => simp [users] at hu

theorem At.congr {A' : Set Object} (h : At A L f s) (hA : ∀ o, o ∈ A ↔ o ∈ A') : At A' L f s := by
  have heq : A = A' := Set.ext hA
  exact heq ▸ h

theorem meets_fields {α : Type} {p : Fields → Program α} {Q : α → State → Prop}
    (h : Meets (At A L f) (p f) Q fun _ => R) : Meets (At A L f) (fields >>= p) Q fun _ => R := by
  intro s hs
  have hrun := h s hs
  rw [← hs.fields] at hrun
  exact hrun

theorem at_assign (g : Fields → Fields) :
    Meets (At A L f) (assign g) (fun _ => At A L (g f)) fun _ => R :=
  meets_update fun _ hs => ⟨hs.owns, congrArg g hs.fields⟩

theorem at_create (ok : Bool) (hA : o ∉ A) (hL : o ∉ L) :
    Meets (At A L f) (create o ok) (fun _ => At (if ok then insert o A else A) L f) fun _ => R := by
  refine meets_update fun s hs => ?_
  cases ok with
  | false => exact hs
  | true => exact ⟨hs.owns.create hA hL, hs.fields⟩

theorem at_destroy (hL : Lost L) (ho : o ∈ A) (hoL : o ∉ L) (hu : ∀ u ∈ users f o, u ∉ A) :
    Meets (At A L f) (destroy o) (fun _ => At (A \ {o}) L f) fun _ => R :=
  meets_update fun s hs => by
    obtain ⟨howns, rfl⟩ := hs
    exact ⟨howns.destroy ho hoL (unused_of_users hu) (hL.unused _ o), rfl⟩

theorem at_destroyIfHeld (hL : Lost L) (hoL : o ∉ L) (hu : ∀ u ∈ users f o, u ∉ A) :
    Meets (At A L f) (destroyIfHeld o) (fun _ => At (A \ {o}) L f) fun _ => R :=
  meets_update fun s hs => by
    obtain ⟨howns, rfl⟩ := hs
    exact ⟨howns.destroyIfHeld hoL (unused_of_users hu) (hL.unused _ o), rfl⟩

theorem meets_whenHeld {p : Program Unit} {Q : State → Prop}
    (hheld : o ∈ A → Meets (At A L f) p (fun _ => Q) fun _ => R)
    (hnot : o ∉ A → ∀ s, At A L f s → Q s) :
    Meets (At A L f) (whenHeld o p) (fun _ => Q) fun _ => R := by
  intro s hs
  by_cases ho : o ∈ A
  · rw [whenHeld, if_pos ((hs.owns.held o).mpr ho)]
    exact hheld ho s hs
  · rw [whenHeld, if_neg fun h => ho ((hs.owns.held o).mp h)]
    exact hnot ho s hs

theorem meets_when {P Q : State → Prop} {b : Bool} {p : Program Unit}
    (h : b = true → Meets P p (fun _ => Q) fun _ => R) (hnot : b = false → ∀ s, P s → Q s) :
    Meets P (when b p) (fun _ => Q) fun _ => R := by
  cases b with
  | false => exact meets_pure (hnot rfl)
  | true => exact h rfl

theorem meets_tolerate {P Q : State → Prop} {p : Program Unit}
    (h : Meets P p (fun _ => Q) fun _ => Q) : Meets P (tolerate p) (fun _ => Q) fun _ => R :=
  (Meets.attempt (Q := fun _ => Q) h).bind fun _ => meets_pure fun _ hs => hs

theorem meets_failIf {P : State → Prop} {failed : Bool} {p : Program Unit}
    (h : failed = true → Meets P p (fun _ => R) fun _ => R) :
    Meets P (failIf failed p) (fun _ s => failed = false ∧ P s) fun _ => R := by
  cases failed with
  | false => exact meets_pure fun s hs => ⟨rfl, hs⟩
  | true => exact (h rfl).bind fun _ => meets_raise fun _ hs => hs

theorem at_acquire {ok : Bool} {p : Program Unit} (hA : o ∉ A) (hL : o ∉ L)
    (h : ok = false → Meets (At A L f) p (fun _ => R) fun _ => R) :
    Meets (At A L f) (acquire o ok p) (fun _ s => ok = true ∧ At (insert o A) L f s)
      fun _ => R := by
  refine (at_create ok hA hL).bind fun _ => ?_
  cases ok with
  | false => exact (h rfl).bind fun _ => meets_raise fun _ hs => hs
  | true => exact meets_pure fun _ hs => ⟨rfl, hs⟩

/-- A program that runs where `X` holds. -/
theorem meets_and {X : Prop} {P Q : State → Prop} {p : Program Unit} (hX : X)
    (h : Meets P p (fun _ => Q) fun _ => R) :
    Meets P p (fun _ s => X ∧ Q s) fun _ s => X ∧ R s :=
  h.weaken (fun _ => id) (fun _ _ hs => ⟨hX, hs⟩) fun _ _ hs => ⟨hX, hs⟩

end Rules

/-! ## What the flags stand for -/

/-- What comes and goes while the receiver runs. -/
def Object.transient : Object → Bool
  | .extraData _ | .audioPcm | .drmFd | .vdecSink => true
  | .vdecEvent | .vdecEventHandlers | .vdecPacketPool | .vdec | .vdecInitThread => true
  | _ => false

/-- The flags stand for the object. -/
def Fields.has (f : Fields) : Object → Prop
  | .extraData copy => f.extraData = some copy
  | .audioPcm => f.audioPcmStarted = true
  | .drmFd => f.drmModesetActive = true
  | .vdecSink => f.vdecSinkStarted = true
  | .vdecEvent | .vdecEventHandlers | .vdecPacketPool | .vdec => f.vdecStarted = true
  | .vdecInitThread => f.vdecInitThread = true
  | _ => False

/-- What a receiver points at between two calls. -/
def owned (core : Set Object) (f : Fields) : Set Object := {o | o ∈ core ∨ f.has o}

structure Fields.Sound (f : Fields) : Prop where
  shown : f.vdecSinkStarted = true → f.drmModesetActive = true
  numbered : ∀ copy, f.extraData = some copy → copy < f.copies
  waiting : f.decoderInitializing = true → f.vdecStarted = false
  running : f.decoderInitializing = true → f.vdecInitThread = true

/-- The core has nothing that comes and goes. -/
def Core (core : Set Object) : Prop := ∀ o ∈ core, o.transient = false

/-- A state between two calls, with flags of `P`. -/
def Steady (core L : Set Object) (P : Fields → Prop) (s : State) : Prop :=
  ∃ f, (f.Sound ∧ P f) ∧ At (owned core f) L f s

section Owned

variable {core : Set Object} {f : Fields} {o : Object}

theorem mem_owned : o ∈ owned core f ↔ o ∈ core ∨ f.has o := Iff.rfl

theorem Core.mem_owned (hcore : Core core) (h : o.transient = true) :
    o ∈ owned core f ↔ f.has o := by
  rw [Media.mem_owned, or_iff_right]
  intro ho
  exact absurd h (ne_true_of_eq_false (hcore o ho))

theorem meets_steady {α : Type} {L : Set Object} {P : Fields → Prop} {p : Program α}
    {Q : α → State → Prop} {R : State → Prop}
    (h : ∀ f, f.Sound → P f → Meets (At (owned core f) L f) p Q fun _ => R) :
    Meets (Steady core L P) p Q fun _ => R :=
  meets_exists fun f => meets_assume fun hf => h f hf.1 hf.2

end Owned

/-! ## The audio sink and the DRM output -/

def Fields.Idle (f : Fields) : Prop := f.vdecStarted = false

/-- No decoder, and an output for the sink. -/
def Fields.Shows (f : Fields) : Prop := f.Idle ∧ f.drmModesetActive = true

section Display

variable {core L : Set Object} {f : Fields} {R : State → Prop}

/-- The audio sink may have been started. -/
def Audio (core L : Set Object) (f : Fields) (s : State) : Prop :=
  ∃ b, At (owned core { f with audioPcmStarted := b }) L { f with audioPcmStarted := b } s

theorem audio_of_at {s : State} (h : At (owned core f) L f s) : Audio core L f s :=
  ⟨f.audioPcmStarted, h⟩

theorem startHdmiAudioSink_spec (hL : Lost L) (hcore : Core core) (sdi : Bool) (c : PcmCalls) :
    Meets (At (owned core f) L f) (startHdmiAudioSink sdi c) (fun _ => Audio core L f)
      fun _ => Audio core L f := by
  have hpcm : .audioPcm ∈ owned core f ↔ f.audioPcmStarted = true := hcore.mem_owned rfl
  have hlost : .audioPcm ∉ L := hL.notMem fun _ => nofun
  apply meets_fields
  cases hstarted : f.audioPcmStarted with
  | true => exact meets_pure fun _ hs => audio_of_at hs
  | false =>
      have hnot : .audioPcm ∉ owned core f := by
        rw [hpcm, hstarted]
        exact Bool.false_ne_true
      rw [if_neg Bool.false_ne_true]
      split_ifs
      · exact meets_pure fun _ hs => audio_of_at hs
      refine (meets_failIf fun _ => meets_pure fun _ hs => audio_of_at hs).bind fun _ => ?_
      refine meets_assume fun _ => (at_create c.open' hnot hlost).bind fun _ => ?_
      refine (meets_failIf fun _ => ?_).bind fun _ => meets_assume fun hok => ?_
      · apply (at_destroyIfHeld hL hlost fun u hu => absurd hu List.not_mem_nil).returning
        intro _ s hs
        refine audio_of_at (hs.congr fun o => ?_)
        have hne : o ∈ owned core f → o ≠ .audioPcm := fun ho e => hnot (e ▸ ho)
        cases c.open' <;> simp <;> grind
      · rw [Bool.not_eq_false', Bool.and_eq_true] at hok
        rw [hok.1, if_pos rfl]
        apply (at_assign _).returning
        intro _ s hs
        refine ⟨true, hs.congr fun o => ?_⟩
        rw [Set.mem_insert_iff, mem_owned, mem_owned]
        cases o <;> simp [Fields.has]

theorem stopHdmiAudioSink_spec (hL : Lost L) {A : Set Object} :
    Meets (At A L f) stopHdmiAudioSink
      (fun _ => At (A \ {.audioPcm}) L { f with audioPcmStarted := false }) fun _ => R := by
  have hlost : .audioPcm ∉ L := hL.notMem fun _ => nofun
  exact (at_destroyIfHeld hL hlost fun _ hu => absurd hu List.not_mem_nil).bind fun _ => at_assign _

/-- The flags without an output. -/
def Fields.dark (f : Fields) (sdi : Bool) : Fields :=
  { f with drmModesetActive := false, audioPcmStarted := f.audioPcmStarted && !sdi }

/-- What is left without an output. -/
def darkened (sdi : Bool) (A : Set Object) : Set Object :=
  {o | o ∈ A ∧ o ≠ .drmFd ∧ (sdi = true → o ≠ .audioPcm)}

/-- It closes the connection also where no mode was set on it yet. -/
theorem stopDrmOutput_at (hL : Lost L) (sdi : Bool) {A : Set Object} (hsink : .vdecSink ∉ A)
    (hdrm : .drmFd ∉ A → f.drmModesetActive = false) :
    Meets (At A L f) (stopDrmOutput sdi) (fun _ => At (darkened sdi A) L (f.dark sdi))
      fun _ => R := by
  have hlost : .drmFd ∉ L := hL.notMem fun _ => nofun
  have hstop : Meets (At A L f) (when sdi stopHdmiAudioSink)
      (fun _ => At {o | o ∈ A ∧ (sdi = true → o ≠ .audioPcm)} L
        { f with audioPcmStarted := f.audioPcmStarted && !sdi }) fun _ => R := by
    cases sdi with
    | true =>
        rw [Bool.not_true, Bool.and_false]
        apply (stopHdmiAudioSink_spec hL).returning
        refine fun _ s hs => hs.congr fun o => and_congr_right fun _ => ?_
        exact ⟨fun h _ => h, fun h => h rfl⟩
    | false =>
        rw [Bool.not_false, Bool.and_true]
        exact meets_pure fun _ hs => hs.congr fun o => ⟨fun h => ⟨h, nofun⟩, And.left⟩
  refine hstop.bind fun _ => meets_whenHeld (fun hmem => ?_) fun hmem s hs => ?_
  · refine (at_destroy hL hmem hlost fun u hu h => ?_).bind fun _ => (at_assign _).returning ?_
    · rw [List.mem_singleton.mp hu] at h
      exact hsink h.1
    · refine fun _ s hs => hs.congr fun o => ?_
      show (_ ∧ _) ∧ o ≠ .drmFd ↔ _
      exact and_assoc.trans (and_congr_right fun _ => And.comm)
  · have hnot : .drmFd ∉ A := fun h => hmem ⟨h, fun _ e => nomatch e⟩
    have hfields : f.dark sdi = { f with audioPcmStarted := f.audioPcmStarted && !sdi } := by
      rw [Fields.dark, ← hdrm hnot]
    rw [hfields]
    refine hs.congr fun o => and_congr_right fun ho => ⟨fun h => ⟨fun e => ?_, h⟩, And.right⟩
    exact hnot (e ▸ ho)

theorem owned_dark (hcore : Core core) (sdi : Bool) {A : Set Object}
    (hA : ∀ o, o ≠ .drmFd → (o ∈ A ↔ o ∈ owned core f)) (o : Object) :
    o ∈ darkened sdi A ↔ o ∈ owned core (f.dark sdi) := by
  have hout : ∀ x : Object, x.transient = true → x ∉ core :=
    fun x hx h => absurd hx (ne_true_of_eq_false (hcore x h))
  have hmem : o ∈ darkened sdi A ↔
      (o ∈ owned core f ∧ o ≠ .drmFd) ∧ (sdi = true → o ≠ .audioPcm) := by
    rw [and_assoc]
    constructor
    · exact fun h => ⟨(hA o h.2.1).mp h.1, h.2⟩
    · exact fun h => ⟨(hA o h.2.1).mpr h.1, h.2⟩
  rw [hmem, mem_owned, mem_owned]
  cases o with
  | drmFd => simp [Fields.has, Fields.dark, hout .drmFd rfl]
  | audioPcm =>
      rw [or_iff_right (hout _ rfl), or_iff_right (hout _ rfl)]
      simp [Fields.has, Fields.dark]
  | _ => simp [Fields.has, Fields.dark]

theorem stopDrmOutput_spec (hL : Lost L) (hcore : Core core) (sdi : Bool) {A : Set Object}
    (hA : ∀ o, o ≠ .drmFd → (o ∈ A ↔ o ∈ owned core f)) (hsink : f.vdecSinkStarted = false)
    (hdrm : .drmFd ∉ A → f.drmModesetActive = false) :
    Meets (At A L f) (stopDrmOutput sdi) (fun _ => At (owned core (f.dark sdi)) L (f.dark sdi))
      fun _ => R := by
  have hnosink : .vdecSink ∉ A := by
    have hmem : .vdecSink ∈ owned core f ↔ f.vdecSinkStarted = true := hcore.mem_owned rfl
    rw [hA .vdecSink (fun h => nomatch h), hmem, hsink]
    exact Bool.false_ne_true
  apply (stopDrmOutput_at hL sdi hnosink hdrm).returning
  exact fun _ s hs => hs.congr (owned_dark hcore sdi hA)

/-- The connection is there and its mode was set. -/
theorem owned_active {f : Fields} {o : Object} :
    o ∈ owned core { f with drmModesetActive := true } ↔ o = .drmFd ∨ o ∈ owned core f := by
  rw [mem_owned, mem_owned]
  cases o <;> simp [Fields.has]

theorem startDrmOutput_spec (hL : Lost L) (hcore : Core core) (sdi : Bool) (c : DrmCalls)
    (hsound : f.Sound) (hidle : f.Idle) :
    Meets (At (owned core f) L f) (startDrmOutput sdi c) (fun _ => Steady core L Fields.Shows)
      fun _ => Steady core L Fields.Idle := by
  apply meets_fields
  cases hactive : f.drmModesetActive with
  | true => exact meets_pure fun _ hs => ⟨f, ⟨hsound, hidle, hactive⟩, hs⟩
  | false =>
      rw [if_neg Bool.false_ne_true]
      have hlost : .drmFd ∉ L := hL.notMem fun _ => nofun
      have hnot : .drmFd ∉ owned core f := by
        have hmem : .drmFd ∈ owned core f ↔ f.drmModesetActive = true := hcore.mem_owned rfl
        rw [hmem, hactive]
        exact Bool.false_ne_true
      have hsink : f.vdecSinkStarted = false := by
        rw [← Bool.not_eq_true]
        exact fun h => absurd (hsound.shown h) (ne_true_of_eq_false hactive)
      have hstop : ∀ A : Set Object, (∀ o, o ≠ .drmFd → (o ∈ A ↔ o ∈ owned core f)) →
          Meets (At A L f) (stopDrmOutput sdi) (fun _ => Steady core L Fields.Idle)
            fun _ => Steady core L Fields.Idle := by
        intro A hA
        apply (stopDrmOutput_spec hL hcore sdi hA hsink fun _ => hactive).returning
        refine fun _ s hs =>
          ⟨f.dark sdi, ⟨⟨fun h => ?_, hsound.numbered, hsound.waiting, hsound.running⟩, hidle⟩, hs⟩
        exact absurd h (ne_true_of_eq_false hsink)
      have hopen : ∀ o, o ≠ .drmFd → (o ∈ insert .drmFd (owned core f) ↔ o ∈ owned core f) := by
        intro o ho
        rw [Set.mem_insert_iff]
        exact or_iff_right ho
      refine (at_create c.drmOpen hnot hlost).bind fun _ => ?_
      refine (meets_failIf fun _ => hstop _ ?_).bind fun _ => meets_assume fun hok => ?_
      · cases c.drmOpen with
        | false => exact fun o _ => Iff.rfl
        | true => exact hopen
      rw [Bool.not_eq_false', Bool.and_eq_true] at hok
      rw [hok.1, if_pos rfl]
      refine (meets_failIf fun _ => hstop _ hopen).bind fun _ => meets_assume fun _ => ?_
      have hsound' : ∀ b, ({ f with drmModesetActive := true, audioPcmStarted := b } :
          Fields).Sound :=
        fun b => ⟨fun _ => rfl, hsound.numbered, hsound.waiting, hsound.running⟩
      refine (at_assign _).bind fun _ =>
        Meets.before ?_ fun s hs => hs.congr fun o => owned_active.symm
      refine meets_when (fun _ => meets_tolerate ?_) fun _ s hs => ?_
      · refine (startHdmiAudioSink_spec hL hcore sdi c.pcm).weaken (fun _ => id) ?_ ?_
        · exact fun _ s ⟨b, hs⟩ => ⟨_, ⟨hsound' b, hidle, rfl⟩, hs⟩
        · exact fun _ s ⟨b, hs⟩ => ⟨_, ⟨hsound' b, hidle, rfl⟩, hs⟩
      · exact ⟨_, ⟨hsound' f.audioPcmStarted, hidle, rfl⟩, hs⟩

theorem owned_shown {f : Fields} {o : Object} :
    o ∈ owned core { f with vdecSinkStarted := true } ↔ o = .vdecSink ∨ o ∈ owned core f := by
  rw [mem_owned, mem_owned]
  cases o <;> simp [Fields.has]

/-- Without a decoder, nothing pushes into the sink. -/
theorem sink_unused (hcore : Core core) (hidle : f.Idle) :
    ∀ u ∈ users f .vdecSink, u ∉ insert .vdecSink (owned core f) := by
  intro u hu
  rw [List.mem_singleton.mp hu, Set.mem_insert_iff]
  rintro (h | h)
  · cases h
  · have hmem : .vdecEventHandlers ∈ owned core f ↔ f.vdecStarted = true := hcore.mem_owned rfl
    rw [hmem, hidle] at h
    cases h

theorem startVdecSink_spec (hL : Lost L) (hcore : Core core) (c : SinkCalls) (hsound : f.Sound)
    (hshows : f.Shows) :
    Meets (At (owned core f) L f) (startVdecSink c) (fun _ => Steady core L Fields.Idle)
      fun _ => Steady core L Fields.Idle := by
  have hsteady : ∀ s, At (owned core f) L f s → Steady core L Fields.Idle s :=
    fun s hs => ⟨f, ⟨hsound, hshows.1⟩, hs⟩
  apply meets_fields
  cases hstarted : f.vdecSinkStarted with
  | true => exact meets_pure hsteady
  | false =>
      rw [if_neg Bool.false_ne_true]
      have hlost : .vdecSink ∉ L := hL.notMem fun _ => nofun
      have hnot : .vdecSink ∉ owned core f := by
        have hmem : .vdecSink ∈ owned core f ↔ f.vdecSinkStarted = true := hcore.mem_owned rfl
        rw [hmem, hstarted]
        exact Bool.false_ne_true
      have hdelete : Meets (At (insert .vdecSink (owned core f)) L f) (destroy .vdecSink)
          (fun _ => Steady core L Fields.Idle) fun _ => Steady core L Fields.Idle := by
        apply (at_destroy hL (Set.mem_insert _ _) hlost (sink_unused hcore hshows.1)).returning
        intro _ s hs
        apply hsteady
        rwa [Set.insert_sdiff_self_of_notMem hnot] at hs
      refine (at_acquire hnot hlost fun _ => meets_pure hsteady).bind fun _ =>
        meets_assume fun _ => ?_
      refine (meets_failIf fun _ => hdelete).bind fun _ => meets_assume fun _ => ?_
      refine (meets_failIf fun _ => hdelete).bind fun _ => meets_assume fun _ => ?_
      apply (at_assign _).returning
      intro _ s hs
      refine ⟨{ f with vdecSinkStarted := true }, ⟨?_, hshows.1⟩,
        hs.congr fun o => owned_shown.symm⟩
      exact ⟨fun _ => hshows.2, hsound.numbered, hsound.waiting, hsound.running⟩

theorem startDisplay_spec (hL : Lost L) (hcore : Core core) (cfg : Config) (c : InitCalls) :
    Meets (Steady core L Fields.Idle) (startDisplay cfg c) (fun _ => Steady core L Fields.Idle)
      fun _ => Steady core L Fields.Idle := by
  refine meets_when (fun _ => ?_) fun _ _ hs => hs
  refine Meets.bind (Q := fun _ => Steady core L Fields.Shows) ?_ fun _ => ?_
  · exact meets_steady fun f hsound hidle => startDrmOutput_spec hL hcore cfg.sdi c.drm hsound hidle
  · exact meets_steady fun f hsound hshows => startVdecSink_spec hL hcore c.sink hsound hshows

theorem stopVdecDisplay_at (hL : Lost L) (sdi : Bool) {A : Set Object}
    (hhandlers : .vdecEventHandlers ∉ A) (hdrm : .drmFd ∉ A → f.drmModesetActive = false) :
    Meets (At A L f) (stopVdecDisplay sdi)
      (fun _ => At (darkened sdi (A \ {.vdecSink})) L
        (Fields.dark { f with vdecSinkStarted := false } sdi)) fun _ => R := by
  have hlost : .vdecSink ∉ L := hL.notMem fun _ => nofun
  refine (at_destroyIfHeld hL hlost fun u hu h => ?_).bind fun _ => (at_assign _).bind fun _ => ?_
  · rw [List.mem_singleton.mp hu] at h
    exact hhandlers h
  · refine stopDrmOutput_at hL sdi (fun h => h.2 rfl) fun h => hdrm fun h' => ?_
    exact h ⟨h', fun e => nomatch e⟩

theorem stopVdecDisplay_spec (hL : Lost L) (hcore : Core core) (sdi : Bool) :
    Meets (Steady core L Fields.Idle) (stopVdecDisplay sdi) (fun _ => Steady core L Fields.Idle)
      fun _ => R := by
  refine meets_steady fun f hsound hidle => ?_
  have hhandlers : .vdecEventHandlers ∉ owned core f :=
    fun h => sink_unused hcore hidle _ List.mem_cons_self (Set.mem_insert_of_mem _ h)
  have hdrm : .drmFd ∉ owned core f → f.drmModesetActive = false := by
    rw [hcore.mem_owned (o := .drmFd) rfl]
    exact Bool.eq_false_of_not_eq_true
  have hdrop : ∀ o, o ∈ owned core f \ {.vdecSink} ↔
      o ∈ owned core { f with vdecSinkStarted := false } := by
    intro o
    have hsink : .vdecSink ∉ core := fun h => nomatch hcore _ h
    rw [Set.mem_sdiff, Set.mem_singleton_iff, mem_owned, mem_owned]
    cases o <;> simp [Fields.has, hsink]
  apply (stopVdecDisplay_at hL sdi hhandlers hdrm).returning
  intro _ s hs
  refine ⟨Fields.dark { f with vdecSinkStarted := false } sdi, ⟨⟨?_, ?_, ?_, ?_⟩, hidle⟩,
    hs.congr (owned_dark hcore sdi fun o _ => hdrop o)⟩
  · intro h
    cases h
  · exact hsound.numbered
  · exact hsound.waiting
  · exact hsound.running

end Display

/-! ## The decoder -/

/-- What `StopVdecAsync` destroys. -/
def async : List Object := [.vdecEventHandlers, .vdecPacketPool, .vdecEvent]

section Decoder

variable {core L A base : Set Object} {f : Fields} {R : State → Prop}

theorem Lost.async (hL : Lost L) {o : Object} (ho : o ∈ async) : o ∉ L := by
  apply hL.notMem
  rintro e rfl
  simp [Media.async] at ho

/-- It leads back to `base`, whatever part of the asynchronous objects is there beside it. -/
theorem stopVdecAsync_spec (hL : Lost L) (hvdec : .vdec ∉ A) (hbase : ∀ o ∈ async, o ∉ base)
    (hA : ∀ o, o ∉ async → (o ∈ A ↔ o ∈ base)) :
    Meets (At A L f) stopVdecAsync (fun _ => At base L f) fun _ => R := by
  refine (at_destroyIfHeld hL (hL.async (by simp [async])) fun u hu => ?_).bind fun _ => ?_
  · exact absurd hu List.not_mem_nil
  refine (at_destroyIfHeld hL (hL.async (by simp [async])) fun u hu h => ?_).bind fun _ => ?_
  · rw [List.mem_singleton.mp hu] at h
    exact hvdec h.1
  refine (at_destroyIfHeld hL (hL.async (by simp [async])) fun u hu h => ?_).returning
    fun _ s hs => ?_
  · rcases List.mem_pair.mp hu with rfl | rfl
    · exact h.1.2 rfl
    · exact hvdec h.1.1
  · refine hs.congr fun o => ?_
    simp only [Set.mem_sdiff, Set.mem_singleton_iff]
    by_cases ho : o ∈ async
    · have hin : o = .vdecEventHandlers ∨ o = .vdecPacketPool ∨ o = .vdecEvent := by
        simpa [async] using ho
      have hout := hbase o ho
      grind
    · have hnot : o ≠ .vdecEventHandlers ∧ o ≠ .vdecPacketPool ∧ o ≠ .vdecEvent := by
        simpa [async] using ho
      rw [hA o ho]
      grind

/-- An idle receiver has nothing of the decoder. -/
theorem idle_notMem (hcore : Core core) (hidle : f.Idle) {o : Object}
    (ho : o ∈ .vdec :: async) : o ∉ owned core f := by
  have hmem : o ∈ owned core f ↔ f.vdecStarted = true := by
    rcases List.mem_cons.mp ho with rfl | ho
    · exact hcore.mem_owned rfl
    · rcases List.mem_cons.mp ho with rfl | ho
      · exact hcore.mem_owned rfl
      · rcases List.mem_pair.mp ho with rfl | rfl
        · exact hcore.mem_owned rfl
        · exact hcore.mem_owned rfl
  rw [hmem, hidle]
  exact Bool.false_ne_true

theorem owned_decoding {o : Object} :
    o ∈ owned core { f with vdecStarted := true } ↔ o ∈ .vdec :: async ∨ o ∈ owned core f := by
  rw [mem_owned, mem_owned]
  cases o <;> simp [Fields.has, async]

/-- Some of the asynchronous objects are there beside what an idle receiver has. -/
def Partial (core L : Set Object) (f : Fields) (s : State) : Prop :=
  ∃ A, At A L f s ∧ .vdec ∉ A ∧ ∀ o, o ∉ async → (o ∈ A ↔ o ∈ owned core f)

theorem partial_of_at {s : State} (hcore : Core core) (hidle : f.Idle)
    (hs : At (owned core f) L f s) : Partial core L f s :=
  ⟨_, hs, idle_notMem hcore hidle List.mem_cons_self, fun _ _ => Iff.rfl⟩

/-- The asynchronous objects beside what an idle receiver has. -/
def prepared (core : Set Object) (f : Fields) : Set Object :=
  insert .vdecPacketPool (insert .vdecEventHandlers (insert .vdecEvent (owned core f)))

theorem mem_prepared {o : Object} :
    o ∈ prepared core f ↔ o ∈ async ∨ o ∈ owned core f := by
  simp only [prepared, async, Set.mem_insert_iff, List.mem_cons, List.not_mem_nil, or_false]
  grind

/-- It leaves nothing behind where it fails. -/
theorem setupVdecAsync_spec (hL : Lost L) (hcore : Core core) (hidle : f.Idle) (c : SetupCalls) :
    Meets (At (owned core f) L f) (setupVdecAsync c)
      (fun _ => At (prepared core f) L f) fun _ => At (owned core f) L f := by
  have hbase : ∀ o ∈ async, o ∉ owned core f :=
    fun o ho => idle_notMem hcore hidle (List.mem_cons_of_mem _ ho)
  have hvdec : .vdec ∉ owned core f := idle_notMem hcore hidle List.mem_cons_self
  have mE : .vdecEvent ∈ async := by simp [async]
  have mH : .vdecEventHandlers ∈ async := by simp [async]
  have mP : .vdecPacketPool ∈ async := by simp [async]
  have hstop : ∀ A : Set Object, (∀ o, o ∈ A → o ∈ async ∨ o ∈ owned core f) →
      (∀ o ∈ owned core f, o ∈ A) → Meets (At A L f) stopVdecAsync
        (fun _ => At (owned core f) L f) fun _ => At (owned core f) L f := by
    intro A hsub hsup
    refine stopVdecAsync_spec hL (fun h => ?_) hbase fun o ho => ⟨fun h => ?_, hsup o⟩
    · exact (hsub _ h).elim (by simp [async]) hvdec
    · exact (hsub o h).resolve_left ho
  have hstopE := hstop (insert .vdecEvent (owned core f))
    (by simp [async]; grind) (by simp; grind)
  have hstopH := hstop (insert .vdecEventHandlers (insert .vdecEvent (owned core f)))
    (by simp [async]; grind) (by simp; grind)
  have hstopP := hstop (insert .vdecPacketPool (insert .vdecEventHandlers
    (insert .vdecEvent (owned core f)))) (by simp [async]; grind) (by simp; grind)
  refine (at_acquire (hbase _ mE) (hL.async mE) fun _ => meets_pure fun _ hs => hs).bind fun _ =>
    meets_assume fun _ => ?_
  refine (meets_failIf fun _ => hstopE).bind fun _ => meets_assume fun _ => ?_
  refine (at_acquire (by simp [hbase _ mH]) (hL.async mH) fun _ => hstopE).bind fun _ =>
    meets_assume fun _ => ?_
  refine (meets_failIf fun _ => hstopH).bind fun _ => meets_assume fun _ => ?_
  refine (meets_failIf fun _ => hstopH).bind fun _ => meets_assume fun _ => ?_
  refine (meets_failIf fun _ => hstopH).bind fun _ => meets_assume fun _ => ?_
  refine (at_acquire (by simp [hbase _ mP]) (hL.async mP) fun _ => hstopH).bind fun _ =>
    meets_assume fun _ => ?_
  exact (meets_failIf fun _ => hstopP).returning fun _ _ hs => hs.2

/-- Where it fails, the asynchronous objects are still there. -/
theorem initVdecDecoder_spec (hL : Lost L) (hcore : Core core) (hidle : f.Idle) (c : DecoderCalls) :
    Meets (At (prepared core f) L f) (initVdecDecoder c)
      (fun _ => At (owned core { f with vdecStarted := true }) L { f with vdecStarted := true })
      fun _ => Partial core L f := by
  have hvdec : .vdec ∉ prepared core f := by
    rw [mem_prepared]
    rintro (h | h)
    · simp [async] at h
    · exact idle_notMem hcore hidle List.mem_cons_self h
  have hpartial : ∀ s, At (prepared core f) L f s → Partial core L f s := by
    intro s hs
    refine ⟨_, hs, hvdec, fun o ho => ?_⟩
    rw [mem_prepared]
    exact or_iff_right ho
  have hlost : .vdec ∉ L := hL.notMem fun _ => nofun
  refine (at_acquire hvdec hlost fun _ => meets_pure hpartial).bind fun _ =>
    meets_assume fun _ => ?_
  refine (meets_failIf fun _ => ?_).bind fun _ => meets_assume fun _ => ?_
  · apply (at_destroy hL (Set.mem_insert _ _) hlost
      fun u hu => absurd hu List.not_mem_nil).returning
    intro _ s hs
    apply hpartial
    rwa [Set.insert_sdiff_self_of_notMem hvdec] at hs
  · apply (at_assign _).returning
    intro _ s hs
    refine hs.congr fun o => ?_
    rw [Set.mem_insert_iff, mem_prepared, owned_decoding, List.mem_cons, or_assoc]

/-- What the thread does under the locks of the decoder. -/
theorem startDecoder_spec (hL : Lost L) (hcore : Core core) (c : InitCalls) :
    Meets (Steady core L Fields.Idle) (startDecoder c)
      (fun _ s => ∃ f, ({ f with decoderInitializing := false } : Fields).Sound ∧
        At (owned core f) L f s)
      fun _ => R := by
  refine meets_steady fun f hsound hidle => ?_
  refine Meets.bind (Q := fun started s =>
    if started then
      At (owned core { f with vdecStarted := true }) L { f with vdecStarted := true } s
    else Partial core L f s) (Meets.attempt ?_) fun started => ?_
  · refine Meets.bind ((setupVdecAsync_spec hL hcore hidle c.setup).raising fun _ s hs => ?_)
      fun _ => ?_
    · exact partial_of_at hcore hidle hs
    · exact initVdecDecoder_spec hL hcore hidle c.decoder
  · have hdone : ∀ b, ({ f with decoderInitializing := false, vdecStarted := b } : Fields).Sound :=
      fun b => ⟨hsound.shown, hsound.numbered, nofun, nofun⟩
    cases started with
    | true => exact meets_pure fun s hs => ⟨_, hdone true, hs⟩
    | false =>
        refine meets_exists fun A => ?_
        rintro s ⟨hs, hvdec, hA⟩
        have hbase : ∀ o ∈ async, o ∉ owned core f :=
          fun o ho => idle_notMem hcore hidle (List.mem_cons_of_mem _ ho)
        refine (stopVdecAsync_spec hL hvdec hbase hA s hs).imp (fun _ s hs => ?_) fun _ _ => id
        exact ⟨f, hdone f.vdecStarted, hs⟩

/-- The thread has done its work. -/
def Fields.Settled (f : Fields) : Prop := f.decoderInitializing = false

theorem initThread_spec (hL : Lost L) (hcore : Core core) (cfg : Config) (c : InitCalls) :
    Meets (Steady core L Fields.Idle) (initThread cfg c)
      (fun _ => Steady core L Fields.Settled) fun _ => R := by
  refine Meets.bind (Q := fun _ => Steady core L Fields.Idle) ?_ fun ready => ?_
  · exact Meets.attempt (Q := fun _ => Steady core L Fields.Idle) (startDisplay_spec hL hcore cfg c)
  refine (meets_when (fun _ => startDecoder_spec hL hcore c) fun _ s hs => ?_).bind fun _ => ?_
  · obtain ⟨f, ⟨hsound, -⟩, hs⟩ := hs
    exact ⟨f, ⟨hsound.shown, hsound.numbered, nofun, nofun⟩, hs⟩
  · refine meets_exists fun f => meets_assume fun hsound => ?_
    exact (at_assign _).returning fun _ s hs => ⟨_, ⟨hsound, rfl⟩, hs⟩

theorem finishInitThread_spec (hL : Lost L) (hcore : Core core) (cfg : Config) (c : InitCalls) :
    Meets (Steady core L fun _ => True) (finishInitThread cfg c)
      (fun _ => Steady core L Fields.Settled) fun _ => R := by
  refine meets_steady fun f hsound _ => meets_fields ?_
  refine meets_when (fun hinit => ?_) fun hinit s hs => ⟨f, ⟨hsound, hinit⟩, hs⟩
  apply (initThread_spec hL hcore cfg c).before
  exact fun s hs => ⟨f, ⟨hsound, hsound.waiting hinit⟩, hs⟩

/-- There is no thread. -/
def Fields.Joined (f : Fields) : Prop := f.decoderInitializing = false ∧ f.vdecInitThread = false

theorem owned_joined (hcore : Core core) (o : Object) :
    o ∈ owned core f \ {.vdecInitThread} ↔ o ∈ owned core { f with vdecInitThread := false } := by
  have hthread : .vdecInitThread ∉ core := fun h => nomatch hcore _ h
  rw [Set.mem_sdiff, Set.mem_singleton_iff, mem_owned, mem_owned]
  cases o <;> simp [Fields.has, hthread]

theorem reapInitThread_spec (hL : Lost L) (hcore : Core core) :
    Meets (At (owned core f) L f) reapInitThread
      (fun _ => At (owned core { f with vdecInitThread := false }) L
        { f with vdecInitThread := false }) fun _ => R := by
  have hlost : .vdecInitThread ∉ L := hL.notMem fun _ => nofun
  refine (at_destroyIfHeld hL hlost fun u hu => absurd hu List.not_mem_nil).bind fun _ => ?_
  exact (at_assign _).returning fun _ s hs => hs.congr (owned_joined hcore)

/-- The thread has done its work, and goes. -/
theorem joinInitThread_spec (hL : Lost L) (hcore : Core core) (cfg : Config) (c : InitCalls) :
    Meets (Steady core L fun _ => True) (joinInitThread cfg c)
      (fun _ => Steady core L Fields.Joined) fun _ => R := by
  refine (finishInitThread_spec hL hcore cfg c).bind fun _ => ?_
  refine meets_steady fun f hsound hsettled => ?_
  refine (reapInitThread_spec hL hcore).returning fun _ s hs => ?_
  refine ⟨{ f with vdecInitThread := false }, ⟨⟨hsound.shown, hsound.numbered, hsound.waiting,
    fun h => ?_⟩, hsettled, rfl⟩, hs⟩
  exact absurd h (ne_true_of_eq_false hsettled)

/-- There is nothing to wait for. -/
theorem finishInitThread_settled (hsettled : f.Settled) (cfg : Config) (c : InitCalls) :
    Meets (At A L f) (finishInitThread cfg c) (fun _ => At A L f) fun _ => R :=
  meets_fields (meets_when (fun h => absurd h (ne_true_of_eq_false hsettled)) fun _ _ hs => hs)

/-- Neither a decoder nor a thread that may start one. -/
def Fields.Quiet (f : Fields) : Prop := f.Idle ∧ f.Joined

theorem stopVdecDecoder_spec (hL : Lost L) (hcore : Core core) (cfg : Config) (c : InitCalls) :
    Meets (Steady core L fun _ => True) (stopVdecDecoder cfg c)
      (fun _ => Steady core L Fields.Quiet) fun _ => R := by
  refine (joinInitThread_spec hL hcore cfg c).bind fun _ => meets_steady fun f hsound hjoined => ?_
  have hH : .vdecEventHandlers ∈ async := by simp [async]
  refine (at_destroyIfHeld hL (hL.async hH) fun u hu => absurd hu List.not_mem_nil).bind fun _ => ?_
  have hlost : .vdec ∉ L := hL.notMem fun _ => nofun
  have hidle' : ({ f with vdecStarted := false } : Fields).Idle := rfl
  have hnotH : ∀ {o}, o ∉ async → o ∉ ({.vdecEventHandlers} : Set Object) :=
    fun ho e => ho (Set.mem_singleton_iff.mp e ▸ hH)
  have hstopped : ∀ o, o ∉ .vdec :: async →
      (o ∈ owned core f ↔ o ∈ owned core { f with vdecStarted := false }) := by
    intro o ho
    rw [mem_owned, mem_owned]
    cases o <;> simp_all [Fields.has, async]
  refine Meets.bind (Q := fun _ => Partial core L { f with vdecStarted := false })
    (meets_whenHeld (fun hheld => ?_) fun hnot s hs => ?_) fun _ => ?_
  · refine (at_destroy hL hheld hlost fun u hu => absurd hu List.not_mem_nil).bind fun _ => ?_
    apply (at_assign _).returning
    intro _ s hs
    refine ⟨_, hs, fun h => h.2 rfl, fun o ho => ?_⟩
    by_cases hne : o = .vdec
    · subst hne
      have hout : .vdec ∉ owned core { f with vdecStarted := false } :=
        idle_notMem hcore hidle' List.mem_cons_self
      exact ⟨fun h => absurd rfl h.2, fun h => absurd h hout⟩
    · have hne' : o ∉ ({.vdec} : Set Object) := hne
      rw [← hstopped o (by simp [hne, ho]), Set.mem_sdiff, Set.mem_sdiff, and_iff_left hne',
        and_iff_left (hnotH ho)]
  · have hidle : f.Idle := by
      have hmem : .vdec ∈ owned core f ↔ f.vdecStarted = true := hcore.mem_owned rfl
      rw [Set.mem_sdiff, hmem] at hnot
      exact Bool.eq_false_of_not_eq_true fun h => hnot ⟨h, fun e => nomatch e⟩
    have hsame : { f with vdecStarted := false } = f := by rw [← hidle]
    rw [hsame]
    refine ⟨_, hs, hnot, fun o ho => ?_⟩
    rw [Set.mem_sdiff, and_iff_left (hnotH ho)]
  · refine meets_exists fun A => ?_
    rintro s ⟨hs, hvdec, hA⟩
    have hbase : ∀ o ∈ async, o ∉ owned core { f with vdecStarted := false } :=
      fun o ho => idle_notMem hcore hidle' (List.mem_cons_of_mem _ ho)
    refine (stopVdecAsync_spec hL hvdec hbase hA s hs).imp (fun _ s hs => ?_) fun _ _ => id
    exact ⟨{ f with vdecStarted := false },
      ⟨⟨hsound.shown, hsound.numbered, fun _ => rfl, hsound.running⟩, rfl, hjoined⟩, hs⟩

end Decoder

/-! ## What happens while it runs -/

section Events

variable {core L : Set Object} {f : Fields} {R : State → Prop}

theorem Steady.mono {P P' : Fields → Prop} {s : State} (h : Steady core L P s)
    (hP : ∀ f, P f → P' f) : Steady core L P' s := by
  obtain ⟨f, ⟨hsound, hf⟩, hs⟩ := h
  exact ⟨f, ⟨hsound, hP f hf⟩, hs⟩

theorem mem_owned_extraData (hcore : Core core) {copy : Nat} :
    .extraData copy ∈ owned core f ↔ f.extraData = some copy := hcore.mem_owned rfl

/-- What `extra_data` points at. -/
def current (f : Fields) : Set Object := {o | ∃ copy, f.extraData = some copy ∧ o = .extraData copy}

/-- Without a decoder, and without a thread that starts one, the copy is not used. -/
theorem freeExtraData_spec (hL : Lost L) {A : Set Object}
    (hA : ∀ copy, f.extraData = some copy → .extraData copy ∈ A) (hvdec : .vdec ∉ A)
    (hsettled : f.Settled) :
    Meets (At A L f) freeExtraData
      (fun _ => At (A \ current f) L f) fun _ => R := by
  apply meets_fields
  cases hextra : f.extraData with
  | none =>
      refine meets_pure fun s hs => hs.congr fun o => ?_
      simp [current, hextra]
  | some copy =>
      have hlost : .extraData copy ∉ L := hL.notMem fun _ => nofun
      refine (at_destroy hL (hA copy hextra) hlost fun u hu => ?_).returning fun _ s hs => ?_
      · rw [users, if_pos hextra, if_neg (ne_true_of_eq_false hsettled), List.mem_singleton] at hu
        exact hu ▸ hvdec
      · refine hs.congr fun o => ?_
        simp [current, hextra]

theorem owned_extraData (hcore : Core core) {copy copies : Nat} {o : Object} :
    o ∈ owned core { f with extraData := some copy, copies := copies } ↔
      o = .extraData copy ∨ (o ∈ owned core f ∧ o ∉ current f) := by
  rw [mem_owned, mem_owned]
  cases o with
  | extraData n =>
      have hout : .extraData n ∉ core := fun h => nomatch hcore _ h
      have hold : .extraData n ∈ current f ↔ f.extraData = some n := by
        simp [current]
      rw [hold, or_iff_right hout, or_iff_right hout, Object.extraData.injEq]
      show some copy = some n ↔ n = copy ∨ f.extraData = some n ∧ ¬ f.extraData = some n
      rw [Option.some_inj, or_iff_left and_not_self, eq_comm]
  | _ => simp [Fields.has, current]

theorem rxH264ApplyCaps_spec (hL : Lost L) (hcore : Core core) (copied : Bool) :
    Meets (Steady core L fun _ => True) (rxH264ApplyCaps copied)
      (fun _ => Steady core L fun _ => True) fun _ => Steady core L fun _ => True := by
  refine meets_steady fun f hsound _ => meets_fields ?_
  have hlost : .extraData f.copies ∉ L := hL.notMem fun _ => nofun
  have hnew : .extraData f.copies ∉ owned core f := by
    rw [mem_owned_extraData hcore]
    intro h
    exact absurd (hsound.numbered _ h) (Nat.lt_irrefl _)
  have hsame : ∀ s, At (owned core f) L f s → Steady core L (fun _ => True) s :=
    fun s hs => ⟨f, ⟨hsound, trivial⟩, hs⟩
  refine (at_acquire hnew hlost fun _ => meets_pure hsame).bind fun _ => meets_assume fun _ => ?_
  refine (at_assign _).bind fun _ => ?_
  have hcopies : ({ f with copies := f.copies + 1 } : Fields).Sound := by
    refine ⟨hsound.shown, fun copy h => ?_, hsound.waiting, hsound.running⟩
    exact Nat.lt_succ_of_lt (hsound.numbered copy h)
  split_ifs with hbusy
  · -- the decoder keeps the copy that it has
    refine (at_destroy hL (Set.mem_insert _ _) hlost fun u hu => ?_).returning fun _ s hs => ?_
    · have hother : f.extraData ≠ some f.copies :=
        fun h => absurd (hsound.numbered _ h) (Nat.lt_irrefl _)
      rw [users, if_neg hother] at hu
      exact absurd hu List.not_mem_nil
    · rw [Set.insert_sdiff_self_of_notMem hnew] at hs
      refine ⟨_, ⟨hcopies, trivial⟩, hs.congr fun o => ?_⟩
      rw [mem_owned, mem_owned]
      exact Iff.rfl
  · rw [Bool.or_eq_true, not_or, Bool.not_eq_true, Bool.not_eq_true] at hbusy
    have hvdec : .vdec ∉ insert (.extraData f.copies) (owned core f) := by
      rw [Set.mem_insert_iff]
      rintro (h | h)
      · cases h
      · exact idle_notMem hcore hbusy.1 List.mem_cons_self h
    have hsettled : ({ f with copies := f.copies + 1 } : Fields).Settled := hbusy.2
    refine (freeExtraData_spec hL (fun copy h => Set.mem_insert_of_mem _ ?_) hvdec hsettled).bind
      fun _ => ?_
    · exact (mem_owned_extraData hcore).mpr h
    · apply (at_assign _).returning
      intro _ s hs
      have hnumbered : ∀ copy, some f.copies = some copy → copy < f.copies + 1 :=
        fun copy h => Option.some.inj h ▸ Nat.lt_succ_self _
      refine ⟨{ f with extraData := some f.copies, copies := f.copies + 1 },
        ⟨⟨hsound.shown, hnumbered, hsound.waiting, hsound.running⟩, trivial⟩,
        hs.congr fun o => ?_⟩
      have hfresh : .extraData f.copies ∉ current f := by
        rintro ⟨copy, h, heq⟩
        exact hnew ((mem_owned_extraData hcore).mpr (Object.extraData.inj heq ▸ h))
      rw [owned_extraData hcore, Set.mem_sdiff, Set.mem_insert_iff]
      show (_ ∨ _) ∧ o ∉ current f ↔ _
      by_cases ho : o = .extraData f.copies
      · subst ho
        exact ⟨fun _ => .inl rfl, fun _ => ⟨.inl rfl, hfresh⟩⟩
      · rw [or_iff_right ho, or_iff_right ho]

/-- A thread that is still there has done its work, and makes room for the new one. -/
theorem startVdecDecoderAsync_spec (hL : Lost L) (hcore : Core core) (cfg : Config)
    (c : InitCalls) (hsound : f.Sound) (hidle : f.Idle) (hsettled : f.Settled) :
    Meets (At (owned core f) L f) (startVdecDecoderAsync cfg c)
      (fun _ => Steady core L fun _ => True) fun _ => R := by
  have hlost : .vdecInitThread ∉ L := hL.notMem fun _ => nofun
  have hnew : .vdecInitThread ∉ owned core { f with vdecInitThread := false } := by
    rw [hcore.mem_owned rfl]
    exact Bool.false_ne_true
  have hjoin := (finishInitThread_settled (R := R) hsettled cfg c).bind
    fun _ => reapInitThread_spec hL hcore
  refine hjoin.bind fun _ => (at_assign _).bind fun _ => ?_
  refine (at_create true hnew hlost).bind fun _ => (at_assign _).returning fun _ s hs => ?_
  refine ⟨{ f with decoderInitializing := true, vdecInitThread := true },
    ⟨⟨hsound.shown, hsound.numbered, fun _ => hidle, fun _ => rfl⟩, trivial⟩,
    hs.congr fun o => ?_⟩
  rw [if_pos rfl, Set.mem_insert_iff, mem_owned, mem_owned]
  cases o <;> simp [Fields.has]

theorem rxVideoFeedDecoder_spec (hL : Lost L) (hcore : Core core) (cfg : Config)
    (keyframe : Bool) (c : InitCalls) :
    Meets (Steady core L fun _ => True) (rxVideoFeedDecoder cfg keyframe c)
      (fun _ => Steady core L fun _ => True) fun _ => R := by
  refine meets_steady fun f hsound _ => meets_fields ?_
  have hsame : ∀ s, At (owned core f) L f s → Steady core L (fun _ => True) s :=
    fun s hs => ⟨f, ⟨hsound, trivial⟩, hs⟩
  split_ifs with hbusy
  · exact meets_pure hsame
  · exact meets_pure hsame
  · rw [Bool.or_eq_true, not_or, Bool.not_eq_true, Bool.not_eq_true] at hbusy
    exact startVdecDecoderAsync_spec hL hcore cfg c hsound hbusy.2 hbusy.1

theorem handle_spec (hL : Lost L) (hcore : Core core) (cfg : Config) (e : MediaEvent) :
    Meets (Steady core L fun _ => True) (handle cfg e) (fun _ => Steady core L fun _ => True)
      fun _ => R := by
  cases e with
  | unit keyframe c => exact rxVideoFeedDecoder_spec hL hcore cfg keyframe c
  | initialized c =>
      apply (finishInitThread_spec hL hcore cfg c).returning
      exact fun _ s hs => hs.mono fun _ _ => trivial
  | caps copied => exact meets_tolerate (rxH264ApplyCaps_spec hL hcore copied)
  | rtspCaps differs copied c =>
      refine meets_steady fun f hsound _ => meets_fields ?_
      refine Meets.bind (Q := fun _ => Steady core L fun _ => True) (meets_when (fun _ => ?_) ?_)
        fun _ => meets_tolerate (rxH264ApplyCaps_spec hL hcore copied)
      · have hstop := (stopVdecDecoder_spec (R := R) hL hcore cfg c).before
          fun s (hs : At (owned core f) L f s) => ⟨f, ⟨hsound, trivial⟩, hs⟩
        refine hstop.bind fun _ => ?_
        refine (stopVdecDisplay_spec hL hcore cfg.sdi).weaken ?_ ?_ fun _ _ => id
        · exact fun s hs => hs.mono fun _ h => h.1
        · exact fun _ s hs => hs.mono fun _ _ => trivial
      · exact fun _ s hs => ⟨f, ⟨hsound, trivial⟩, hs⟩

/-- **While it runs,** the flags keep saying what there is. -/
theorem handleAll_spec (hL : Lost L) (hcore : Core core) (cfg : Config) (events : List MediaEvent) :
    Meets (Steady core L fun _ => True) (handleAll cfg events)
      (fun _ => Steady core L fun _ => True) fun _ => R := by
  induction events with
  | nil => exact meets_pure fun _ hs => hs
  | cons e events ih => exact (handle_spec hL hcore cfg e).bind fun _ => ih

end Events

/-! ## Elements and what they own -/

section Elements

variable {A L : Set Object} {f : Fields} {R : State → Prop}

theorem destroyAll_spec (hL : Lost L) {os : List Object} (hnodup : os.Nodup) :
    ∀ {A : Set Object}, (∀ o ∈ os, o ∈ A ∧ o ∉ L ∧ ∀ u ∈ users f o, u ∉ A) →
      Meets (At A L f) (destroyAll os) (fun _ => At {o | o ∈ A ∧ o ∉ os} L f) fun _ => R := by
  induction os with
  | nil =>
      intro A _
      exact meets_pure fun s hs => hs.congr fun o => by simp
  | cons o os ih =>
      intro A h
      obtain ⟨ho, hos⟩ := List.nodup_cons.mp hnodup
      obtain ⟨hA, hlost, hunused⟩ := h o List.mem_cons_self
      refine (at_destroy hL hA hlost hunused).bind fun _ => ?_
      refine (ih hos fun o' ho' => ?_).returning fun _ s hs => hs.congr fun o' => ?_
      · obtain ⟨hA', hlost', hunused'⟩ := h o' (List.mem_cons_of_mem _ ho')
        have hne : o' ∉ ({o} : Set Object) := fun e => ho (Set.mem_singleton_iff.mp e ▸ ho')
        exact ⟨⟨hA', hne⟩, hlost', fun u hu hmem => hunused' u hu hmem.1⟩
      · simp only [Set.mem_ofPred_eq, Set.mem_sdiff, Set.mem_singleton_iff, List.mem_cons, not_or]
        exact and_assoc

/-- An element and what it owns are there together. -/
theorem destroyElement_spec (hL : Lost L) {o : Object} {own : List Object}
    (hnodup : (own ++ [o]).Nodup) (htogether : ∀ x ∈ own, x ∈ A ↔ o ∈ A)
    (hfree : o ∈ A → ∀ x ∈ own ++ [o], x ∉ L ∧ ∀ u ∈ users f x, u ∉ A) :
    Meets (At A L f) (destroyElement o own) (fun _ => At {x | x ∈ A ∧ x ∉ own ++ [o]} L f)
      fun _ => R := by
  have hin : ∀ x ∈ own ++ [o], x ∈ A ↔ o ∈ A := by
    intro x hx
    rcases List.mem_append.mp hx with hx | hx
    · exact htogether x hx
    · rw [List.mem_singleton.mp hx]
  refine meets_whenHeld (fun ho => ?_) fun ho s hs => hs.congr fun x => ?_
  · exact destroyAll_spec hL hnodup fun x hx => ⟨(hin x hx).mpr ho, hfree ho x hx⟩
  · rw [Set.mem_ofPred_eq]
    exact ⟨fun hx => ⟨hx, fun hmem => ho ((hin x hmem).mp hx)⟩, And.left⟩

end Elements

/-! ## The receiver -/

/-- What a receiver has as long as it exists, beside what its owner has. -/
def receiver (own : Set Object) : Set Object :=
  {o | o ∈ [.rx, .videoStats, .audioStats, .h264Parser, .capsPriv, .capsSink, .capsSinkPad] ∨
    o ∈ own}

/-- The owner has nothing of a receiver. -/
def Apart (own : Set Object) : Prop :=
  ∀ o ∈ own, o.transient = false ∧
    o ∉ [.rx, .videoStats, .audioStats, .h264Parser, .capsPriv, .capsSink, .capsSinkPad]

section Receiver

variable {own L : Set Object} {f : Fields} {R : State → Prop}

theorem core_receiver (h : Apart own) : Core (receiver own) := by
  rintro o (ho | ho)
  · simp only [List.mem_cons, List.not_mem_nil, or_false] at ho
    rcases ho with rfl | rfl | rfl | rfl | rfl | rfl | rfl <;> rfl
  · exact (h o ho).1

/-- The parser and its observer. -/
def parserParts : List Object := [.h264Parser, .capsPriv, .capsSink, .capsSinkPad]

theorem Lost.parserParts (hL : Lost L) {o : Object} (ho : o ∈ parserParts) : o ∉ L := by
  apply hL.notMem
  rintro e rfl
  simp [Media.parserParts] at ho

/-- The label leads back to `A`, whatever part of the parser is there beside it. -/
theorem failParser_spec (hL : Lost L) {A B : Set Object} {owned : List Object}
    (howned : owned.Sublist [.capsPriv, .capsSinkPad])
    (htogether : ∀ x ∈ owned, x ∈ B ↔ .capsSink ∈ B)
    (hback : ∀ o, o ∈ A ↔ o ∈ B ∧ o ≠ .h264Parser ∧ o ∉ owned ++ [.capsSink]) :
    Meets (At B L f) (failParser owned) (fun _ => At A L f) fun _ => R := by
  have hparser : .h264Parser ∉ L := hL.notMem fun _ => nofun
  refine (at_destroyIfHeld hL hparser fun u hu => absurd hu List.not_mem_nil).bind fun _ => ?_
  have hmem : ∀ x ∈ owned ++ [.capsSink], x = .capsPriv ∨ x = .capsSinkPad ∨ x = .capsSink := by
    intro x hx
    rcases List.mem_append.mp hx with hx | hx
    · have hpair := howned.subset hx
      simp only [List.mem_cons, List.not_mem_nil, or_false] at hpair
      grind
    · exact .inr (.inr (List.mem_singleton.mp hx))
  have hsublist : (owned ++ [Object.capsSink]).Sublist [.capsPriv, .capsSinkPad, .capsSink] :=
    howned.append_right [Object.capsSink]
  have hne : ∀ x ∈ owned ++ [.capsSink], x ≠ .h264Parser := by
    intro x hx
    rcases hmem x hx with rfl | rfl | rfl <;> exact fun h => nomatch h
  refine (destroyElement_spec hL (hsublist.nodup (by decide)) ?_ ?_).returning fun _ s hs => ?_
  · intro x hx
    have hx' := hne x (List.mem_append_left _ hx)
    simp [htogether x hx, hx']
  · intro _ x hx
    rcases hmem x hx with rfl | rfl | rfl
    · exact ⟨hL.parserParts (by simp [parserParts]), fun u hu => absurd hu List.not_mem_nil⟩
    · exact ⟨hL.parserParts (by simp [parserParts]), fun u hu => absurd hu List.not_mem_nil⟩
    · refine ⟨hL.parserParts (by simp [parserParts]), fun u hu hB => ?_⟩
      rw [List.mem_singleton.mp hu] at hB
      exact hB.2 rfl
  · refine hs.congr fun o => ?_
    rw [hback o, Set.mem_ofPred_eq, Set.mem_sdiff, Set.mem_singleton_iff]
    exact and_assoc

theorem rxH264ParserCreate_spec (hL : Lost L) {A : Set Object} (c : ParserCalls)
    (hfresh : ∀ o ∈ parserParts, o ∉ A) :
    Meets (At A L f) (rxH264ParserCreate c)
      (fun _ s => c.ok = true ∧ At {o | o ∈ parserParts ∨ o ∈ A} L f s)
      fun _ s => c.ok = false ∧ At A L f s := by
  have hne : ∀ o ∈ A, o ≠ .h264Parser ∧ o ≠ .capsPriv ∧ o ≠ .capsSink ∧ o ≠ .capsSinkPad := by
    intro o ho
    have hpart : ∀ x ∈ parserParts, o ≠ x := fun x hx e => hfresh x hx (e ▸ ho)
    exact ⟨hpart _ (by simp [parserParts]), hpart _ (by simp [parserParts]),
      hpart _ (by simp [parserParts]), hpart _ (by simp [parserParts])⟩
  have hP : .h264Parser ∉ A := fun h => (hne _ h).1 rfl
  have hV : .capsPriv ∉ A := fun h => (hne _ h).2.1 rfl
  have hS : .capsSink ∉ A := fun h => (hne _ h).2.2.1 rfl
  have hK : .capsSinkPad ∉ A := fun h => (hne _ h).2.2.2 rfl
  have lost : ∀ o ∈ parserParts, o ∉ L := fun o ho => hL.parserParts ho
  refine (at_create c.parser hP (lost _ (by simp [parserParts]))).bind fun _ => ?_
  refine (at_create c.priv (by cases c.parser <;> simp [hV])
    (lost _ (by simp [parserParts]))).bind fun _ => ?_
  refine (meets_failIf fun hno => ?_).bind fun _ => meets_assume fun hok => ?_
  · have hnot : c.ok = false := by
      rw [Bool.not_eq_true'] at hno
      simp [ParserCalls.ok, hno]
    refine (at_destroyIfHeld hL (lost _ (by simp [parserParts]))
      fun u hu => absurd hu List.not_mem_nil).bind fun _ => meets_and hnot ?_
    refine failParser_spec hL (List.nil_sublist _) (fun x hx => absurd hx List.not_mem_nil)
      fun o => ?_
    have ho := hne o
    cases c.parser <;> cases c.priv <;> simp <;> grind
  rw [Bool.not_eq_false', Bool.and_eq_true] at hok
  rw [hok.1, hok.2, if_pos rfl, if_pos rfl]
  refine (at_acquire (by simp [hS]) (lost _ (by simp [parserParts])) fun hno => ?_).bind fun _ =>
    meets_assume fun hsink => ?_
  · have hnot : c.ok = false := by simp [ParserCalls.ok, hno]
    refine (at_destroy hL (by simp) (lost _ (by simp [parserParts]))
      fun u hu => absurd hu List.not_mem_nil).bind fun _ => meets_and hnot ?_
    refine failParser_spec hL (List.nil_sublist _) (fun x hx => absurd hx List.not_mem_nil)
      fun o => ?_
    have ho := hne o
    simp
    grind
  refine (at_acquire (by simp [hK]) (lost _ (by simp [parserParts])) fun hno => ?_).bind fun _ =>
    meets_assume fun hpad => ?_
  · have hnot : c.ok = false := by simp [ParserCalls.ok, hno]
    refine meets_and hnot (failParser_spec hL (by simp) (by simp) fun o => ?_)
    have ho := hne o
    simp
    grind
  refine (meets_failIf fun hno => ?_).bind fun _ => meets_assume fun hadd => ?_
  · have hnot : c.ok = false := by
      rw [Bool.not_eq_true'] at hno
      simp [ParserCalls.ok, hno]
    refine (at_destroy hL (by simp) (lost _ (by simp [parserParts]))
      fun u hu => absurd hu List.not_mem_nil).bind fun _ => meets_and hnot ?_
    refine failParser_spec hL (by simp) (by simp) fun o => ?_
    have ho := hne o
    simp
    grind
  refine (meets_failIf fun hno => ?_).returning fun _ s hs => ⟨?_, hs.2.congr fun o => ?_⟩
  · have hnot : c.ok = false := by
      rw [Bool.not_eq_true'] at hno
      simp [ParserCalls.ok, hno]
    refine meets_and hnot (failParser_spec hL (List.Sublist.refl _) (by simp) fun o => ?_)
    have ho := hne o
    simp
    grind
  · rw [Bool.not_eq_false'] at hadd
    have hconf := hs.1
    rw [Bool.not_eq_false'] at hconf
    simp [ParserCalls.ok, hok, hsink, hpad, hadd, hconf]
  · simp only [parserParts, Set.mem_insert_iff, Set.mem_ofPred_eq, List.mem_cons, List.not_mem_nil]
    grind

theorem rxH264ParserDestroy_spec (hL : Lost L) {A : Set Object} (hA : ∀ o ∈ parserParts, o ∈ A) :
    Meets (At A L f) rxH264ParserDestroy (fun _ => At {o | o ∈ A ∧ o ∉ parserParts} L f)
      fun _ => R := by
  apply failParser_spec hL (List.Sublist.refl _)
  · intro x hx
    have hpriv := hA .capsPriv (by simp [parserParts])
    have hpad := hA .capsSinkPad (by simp [parserParts])
    have hsink := hA .capsSink (by simp [parserParts])
    rcases List.mem_pair.mp hx with rfl | rfl
    · exact iff_of_true hpriv hsink
    · exact iff_of_true hpad hsink
  · intro o
    simp only [parserParts, Set.mem_ofPred_eq, List.mem_cons, List.cons_append, List.nil_append,
      List.not_mem_nil]
    grind

/-- What works with a receiver of the owner's. -/
def clients : List Object := [.element .vsink, .element .asink, .client]

/-- The constant part of the receiver itself. -/
def receiverParts : List Object := [.videoStats, .audioStats, .rx]

theorem mem_receiver {o : Object} :
    o ∈ receiver own ↔ o ∈ receiverParts ∨ o ∈ parserParts ∨ o ∈ own := by
  simp only [receiver, receiverParts, parserParts, Set.mem_ofPred_eq, List.mem_cons,
    List.not_mem_nil]
  grind

theorem users_receiverParts {o u : Object} (ho : o ∈ receiverParts) (hu : u ∈ users f o) :
    u ∈ clients ∨ u = .capsSink ∨ u = .vdecEventHandlers ∨ u = .vdecInitThread := by
  simp only [receiverParts, List.mem_cons, List.not_mem_nil, or_false] at ho
  rcases ho with rfl | rfl | rfl <;> simp only [users, List.mem_cons, List.not_mem_nil] at hu <;>
    simp only [clients, List.mem_cons, List.not_mem_nil] <;> grind

theorem clients_apart (u : Object) (hu : u ∈ clients) : u ∉ receiverParts := by
  simp only [clients, List.mem_cons, List.not_mem_nil, or_false] at hu
  rcases hu with rfl | rfl | rfl <;> decide

theorem Apart.notMem (hown : Apart own) {o : Object} (ho : o ∈ receiverParts ∨ o ∈ parserParts) :
    o ∉ own := by
  intro hmem
  apply (hown o hmem).2
  simp only [receiverParts, parserParts, List.mem_cons, List.not_mem_nil] at ho ⊢
  grind

/-- What works with a part of the receiver is not there before the receiver. -/
theorem part_unused (hown : Apart own) (hclients : ∀ o ∈ clients, o ∉ own) {o : Object}
    (ho : o ∈ receiverParts) {A : Set Object} (hA : ∀ x ∈ A, x ∈ receiverParts ∨ x ∈ own) :
    ∀ u ∈ users f o, u ∉ A := by
  intro u hu hmem
  rcases users_receiverParts ho hu with hu | rfl | rfl | rfl
  · rcases hA u hmem with h | h
    · exact clients_apart u hu h
    · exact hclients u hu h
  · exact (hA _ hmem).elim (by decide) fun h => hown.notMem (.inr (by decide)) h
  · exact (hA _ hmem).elim (by decide) fun h => absurd (hown _ h).1 (by decide)
  · exact (hA _ hmem).elim (by decide) fun h => absurd (hown _ h).1 (by decide)

/-- What is left before the receiver itself goes. -/
theorem rest_receiver (hown : Apart own) (hquiet : f.Quiet) (sdi : Bool) (o : Object) :
    o ∈ darkened sdi (({o | o ∈ owned (receiver own) f ∧ o ∉ parserParts} \ current f) \
      {.vdecSink}) \ {.audioPcm} ↔ o ∈ receiverParts ∨ o ∈ own := by
  constructor
  · rintro ⟨⟨⟨⟨⟨hmem, hparser⟩, hcopy⟩, hsink⟩, hdrm, -⟩, hpcm⟩
    rcases hmem with hmem | hhas
    · rcases mem_receiver.mp hmem with h | h | h
      · exact .inl h
      · exact absurd h hparser
      · exact .inr h
    · have hdecoder : f.vdecStarted ≠ true := ne_true_of_eq_false hquiet.1
      have hthread : f.vdecInitThread ≠ true := ne_true_of_eq_false hquiet.2.2
      cases o with
      | extraData copy => exact absurd ⟨copy, hhas, rfl⟩ hcopy
      | audioPcm => exact absurd rfl hpcm
      | drmFd => exact absurd rfl hdrm
      | vdecSink => exact absurd rfl hsink
      | vdecEvent => exact absurd hhas hdecoder
      | vdecEventHandlers => exact absurd hhas hdecoder
      | vdecPacketPool => exact absurd hhas hdecoder
      | vdec => exact absurd hhas hdecoder
      | vdecInitThread => exact absurd hhas hthread
      | _ => exact absurd hhas not_false
  · intro h
    have hstays : o.transient = false ∧ o ∉ parserParts := by
      rcases h with h | h
      · simp only [receiverParts, List.mem_cons, List.not_mem_nil, or_false] at h
        rcases h with rfl | rfl | rfl <;> decide
      · refine ⟨(hown o h).1, fun hp => (hown o h).2 ?_⟩
        simp only [parserParts, List.mem_cons, List.not_mem_nil, or_false] at hp
        rcases hp with rfl | rfl | rfl | rfl <;> decide
    have hne : ∀ x : Object, x.transient = true → o ≠ x :=
      fun x hx e => absurd hx (ne_true_of_eq_false (e ▸ hstays.1))
    refine ⟨⟨⟨⟨⟨.inl (mem_receiver.mpr ?_), hstays.2⟩, ?_⟩, hne _ rfl⟩, hne _ rfl,
      fun _ => hne _ rfl⟩, hne _ rfl⟩
    · exact h.imp_right .inr
    · rintro ⟨copy, -, heq⟩
      exact hne _ rfl heq

/-- **The end.** With the clients gone, the receiver leaves what its owner has. -/
theorem stopQcapMediaRx_spec (hL : Lost L) (hown : Apart own) (hclients : ∀ o ∈ clients, o ∉ own)
    (cfg : Config) (c : InitCalls) :
    Meets (Steady (receiver own) L fun _ => True) (stopQcapMediaRx cfg c)
      (fun _ s => ∃ f, At own L f s) fun _ => R := by
  have hcore := core_receiver hown
  refine (stopVdecDecoder_spec hL hcore cfg c).bind fun _ => ?_
  refine meets_steady fun f hsound hquiet => ?_
  have hidle : f.Idle := hquiet.1
  refine (rxH264ParserDestroy_spec hL fun o ho => ?_).bind fun _ => ?_
  · exact .inl (mem_receiver.mpr (.inr (.inl ho)))
  have htransient : ∀ o : Object, o.transient = true → o ∉ parserParts := by
    intro o ho hmem
    simp only [parserParts, List.mem_cons, List.not_mem_nil, or_false] at hmem
    rcases hmem with rfl | rfl | rfl | rfl <;> cases ho
  have hvdec : .vdec ∉ owned (receiver own) f := idle_notMem hcore hidle List.mem_cons_self
  refine (freeExtraData_spec hL (fun copy h => ?_) (fun h => hvdec h.1) hquiet.2.1).bind
    fun _ => ?_
  · exact ⟨(mem_owned_extraData hcore).mpr h, htransient _ rfl⟩
  have hhandlers : .vdecEventHandlers ∉ owned (receiver own) f :=
    idle_notMem hcore hidle (by simp [async])
  refine (stopVdecDisplay_at hL cfg.sdi (fun h => hhandlers h.1.1) fun h => ?_).bind fun _ => ?_
  · apply Bool.eq_false_of_not_eq_true
    intro hactive
    refine h ⟨⟨(hcore.mem_owned rfl).mpr hactive, htransient _ rfl⟩, ?_⟩
    rintro ⟨copy, -, heq⟩
    cases heq
  refine (stopHdmiAudioSink_spec hL).bind fun _ => ?_
  refine Meets.before ?_ fun s hs => hs.congr (rest_receiver hown hquiet cfg.sdi)
  have hpart : ∀ o ∈ receiverParts, o ∉ own := fun o ho => hown.notMem (.inl ho)
  refine (destroyAll_spec hL (by decide) fun o ho => ⟨.inl ho, ?_, fun u hu h => ?_⟩).returning
    fun _ s hs => ⟨_, hs.congr fun o => ?_⟩
  · apply hL.notMem
    rintro e rfl
    simp at ho
  · exact part_unused hown hclients ho (fun _ hx => hx) u hu h
  · show (_ ∨ o ∈ own) ∧ o ∉ receiverParts ↔ o ∈ own
    constructor
    · exact fun h => h.1.resolve_left h.2
    · exact fun h => ⟨.inr h, fun hp => hpart o hp h⟩

theorem initial_sound : ({} : Fields).Sound where
  shown h := by cases h
  numbered _ h := by cases h
  waiting h := by cases h
  running h := by cases h

theorem not_has_initial (o : Object) : ¬ ({} : Fields).has o := by
  cases o <;> simp [Fields.has]

theorem parserParts_apart {o : Object} (ho : o ∈ parserParts) : o ∉ receiverParts := by
  simp only [parserParts, List.mem_cons, List.not_mem_nil, or_false] at ho
  rcases ho with rfl | rfl | rfl | rfl <;> decide

/-- **The start.** It leaves nothing behind where it fails. -/
theorem startQcapMediaRx_spec (hL : Lost L) (hown : Apart own) (hclients : ∀ o ∈ clients, o ∉ own)
    (cfg : Config) (c : MediaCalls) :
    Meets (At own L {}) (startQcapMediaRx cfg c)
      (fun _ s => c.ok = true ∧ Steady (receiver own) L (fun _ => True) s)
      fun _ s => c.ok = false ∧ At own L {} s := by
  have hcore := core_receiver hown
  have lost : ∀ o ∈ receiverParts, o ∉ L := by
    intro o ho
    apply hL.notMem
    rintro e rfl
    simp [receiverParts] at ho
  have mrx : .rx ∈ receiverParts := by decide
  have mvs : .videoStats ∈ receiverParts := by decide
  have mas : .audioStats ∈ receiverParts := by decide
  have hrx : .rx ∉ own := hown.notMem (.inl mrx)
  have hvs : .videoStats ∉ own := hown.notMem (.inl mvs)
  have has : .audioStats ∉ own := hown.notMem (.inl mas)
  refine (at_create true hrx (lost _ mrx)).bind fun _ => ?_
  rw [if_pos rfl]
  refine (at_create c.videoStats (by simp [hvs]) (lost _ mvs)).bind fun _ => ?_
  refine (at_create c.audioStats (by cases c.videoStats <;> simp [has]) (lost _ mas)).bind
    fun _ => ?_
  refine (meets_failIf fun hno => ?_).bind fun _ => meets_assume fun hok => ?_
  · have hnot : c.ok = false := by
      rw [Bool.not_eq_true'] at hno
      simp [MediaCalls.ok, hno]
    generalize hB : (if c.audioStats then insert Object.audioStats
      (if c.videoStats then insert Object.videoStats (insert .rx own) else insert .rx own)
      else if c.videoStats then insert Object.videoStats (insert .rx own) else insert .rx own) = B
    have hsub : ∀ x ∈ B, x ∈ receiverParts ∨ x ∈ own := by
      intro x
      rw [← hB]
      cases c.videoStats <;> cases c.audioStats <;> simp [receiverParts] <;> grind
    refine (at_destroyIfHeld hL (lost _ mvs) (part_unused hown hclients mvs hsub)).bind fun _ =>
      meets_and hnot ?_
    refine (at_destroyIfHeld hL (lost _ mas)
      (part_unused hown hclients mas fun x hx => hsub x hx.1)).bind fun _ => ?_
    refine (at_destroy hL ?_ (lost _ mrx)
      (part_unused hown hclients mrx fun x hx => hsub x hx.1.1)).returning fun _ s hs => ?_
    · rw [← hB]
      cases c.videoStats <;> cases c.audioStats <;> simp
    · refine hs.congr fun o => ?_
      have hne : o ∈ own → o ≠ .rx ∧ o ≠ .videoStats ∧ o ≠ .audioStats :=
        fun ho => ⟨fun e => hrx (e ▸ ho), fun e => hvs (e ▸ ho), fun e => has (e ▸ ho)⟩
      rw [← hB]
      cases c.videoStats <;> cases c.audioStats <;> simp <;> grind
  rw [Bool.not_eq_false', Bool.and_eq_true] at hok
  rw [hok.1, hok.2, if_pos rfl, if_pos rfl]
  have hparts : ∀ o, o ∈ insert Object.audioStats (insert .videoStats (insert .rx own)) ↔
      o ∈ receiverParts ∨ o ∈ own := by
    intro o
    simp only [receiverParts, Set.mem_insert_iff, List.mem_cons, List.not_mem_nil]
    grind
  refine Meets.before ?_ fun s hs => hs.congr hparts
  refine Meets.bind (Q := fun parsed s => c.ok = parsed ∧
    if parsed then At (owned (receiver own) {}) L {} s
    else At {o | o ∈ receiverParts ∨ o ∈ own} L {} s) (Meets.attempt ?_) fun parsed => ?_
  · have hparsed : c.ok = c.parser.ok := by simp [MediaCalls.ok, hok]
    rw [hparsed]
    refine (rxH264ParserCreate_spec hL c.parser fun o ho => ?_).weaken (fun _ => id) ?_
      fun _ _ => id
    · rintro (h | h)
      · exact parserParts_apart ho h
      · exact hown.notMem (.inr ho) h
    · refine fun _ s hs => ⟨hs.1, hs.2.congr fun o => ?_⟩
      rw [mem_owned, or_iff_left (not_has_initial o), mem_receiver]
      exact or_left_comm
  · refine meets_assume fun hparsed => ?_
    cases parsed with
    | false =>
        refine (meets_failIf fun _ => meets_and hparsed ?_).bind fun _ =>
          meets_assume fun h => nomatch h
        refine (destroyAll_spec hL (by decide) fun o ho => ⟨.inl ho, lost o ho, ?_⟩).returning
          fun _ s hs => hs.congr fun o => ?_
        · exact part_unused hown hclients ho fun _ hx => hx
        · show (_ ∨ o ∈ own) ∧ o ∉ receiverParts ↔ o ∈ own
          constructor
          · exact fun h => h.1.resolve_left h.2
          · exact fun h => ⟨.inr h, fun hp => hown.notMem (.inl hp) h⟩
    | true =>
        refine (meets_failIf fun (h : (!true) = true) => nomatch h).bind fun _ =>
          meets_assume fun _ => (meets_tolerate ?_).returning fun _ s hs => ⟨hparsed, hs⟩
        have hsound : ∀ b, ({ audioPcmStarted := b } : Fields).Sound := by
          intro b
          exact ⟨initial_sound.shown, initial_sound.numbered, initial_sound.waiting,
            initial_sound.running⟩
        refine (startHdmiAudioSink_spec hL hcore cfg.sdi c.pcm).weaken (fun _ => id) ?_ ?_
        · exact fun _ s ⟨b, hs⟩ => ⟨_, ⟨hsound b, trivial⟩, hs⟩
        · exact fun _ s ⟨b, hs⟩ => ⟨_, ⟨hsound b, trivial⟩, hs⟩

end Receiver

end QcapDemos.Rx.Media
