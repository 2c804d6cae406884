import Mathlib.Data.List.Induction
import QcapDemos.Rate.Reading

set_option autoImplicit false

/-! # Trials and commits

From the first commit on, only the three properties of the experiment can differ from what they
were, and they are known, so that the original values can be committed from anywhere. `Armed` says
this, with what else the handler relies on. It holds wherever the guarded block ends once it has a
request.
-/

namespace QcapDemos.Rate

open QcapDemos.Lib Proc

/-! ## The order of the commits -/

/-- The requests that the script commits, if nothing fails. -/
def planned (args : Args) : List Handle :=
  if args.reinitializes then [.modesetRequest, .disablingRequest] else [.modesetRequest]

/-- The request has been tried, with success. -/
def Tested (commits : List Commit) (h : Handle) : Prop :=
  ∃ c ∈ commits, c.handle = h ∧ c.testOnly = true ∧ c.ok = true

/-- Before each commit that is neither a trial nor the rollback, every planned request was tried
with success. -/
def Gated (args : Args) (commits : List Commit) : Prop :=
  ∀ before c after, commits = before ++ c :: after → c.handle ≠ .rollbackRequest →
    c.testOnly = false → ∀ h ∈ planned args, Tested before h

section Gated

variable {args : Args} {commits : List Commit} {c : Commit} {h : Handle}

theorem gated_nil : Gated args [] := by
  intro before c after hsplit
  simp at hsplit

theorem Gated.snoc (hg : Gated args commits)
    (hc : c.handle ≠ .rollbackRequest → c.testOnly = false → ∀ h ∈ planned args, Tested commits h) :
    Gated args (commits ++ [c]) := by
  intro before c' after hsplit
  rcases List.eq_nil_or_concat after with rfl | ⟨after', x, rfl⟩
  · obtain ⟨rfl, hlast⟩ := List.append_inj' hsplit rfl
    obtain rfl := (List.cons.inj hlast).1
    exact hc
  · rw [List.concat_eq_append, ← List.cons_append, ← List.append_assoc] at hsplit
    obtain ⟨hsplit, -⟩ := List.append_inj' hsplit rfl
    exact hg before c' after' hsplit

theorem Tested.mono (ht : Tested commits h) : Tested (commits ++ [c]) h := by
  obtain ⟨c', hmem, hc'⟩ := ht
  exact ⟨c', List.mem_append_left _ hmem, hc'⟩

theorem tested_snoc (hc : c.handle = h ∧ c.testOnly = true ∧ c.ok = true) :
    Tested (commits ++ [c]) h :=
  ⟨c, List.mem_append_right _ List.mem_cons_self, hc⟩

end Gated

/-! ## The states of the script -/

/-- The handles in the variables, in the order in which they are given back. -/
def State.holding (s : State) : List Handle :=
  s.disableRequest.toList ++ (s.request.toList ++
    ((if s.newBlob = 0 then none else some Handle.newBlob).toList ++ [.fd]))

/-- Nothing is changed, and there is no request. -/
structure Refused (d₀ : Driver) (s : State) : Prop where
  request : s.request = none
  committed : s.driver.committed = d₀.committed
  isFrac : s.driver.isFrac = d₀.isFrac
  entries : ∀ h, s.entries h = []
  commits : s.commits = []
  held : Held s.holding s

/-- There is a request. `back` is what the rollback contains so far, and `hs` is held beside the
variables. -/
structure Armed {t : Tables} (p : Targets t) (d₀ : Driver) (args : Args) (out : Output)
    (hs : List Handle) (back : Request) (s : State) : Prop where
  connector : s.connector = out.connector
  crtc : s.crtc = out.crtc
  request : s.request = some .modesetRequest
  disableRequest : s.disableRequest ≠ some .rollbackRequest
  near : p.Near d₀ s.driver
  entries : ∀ h, ∀ e ∈ s.entries h, p.Has e.obj e.prop
  back : s.entries .rollbackRequest = back
  gated : Gated args s.commits
  forward : ∀ c ∈ s.commits, c.handle ≠ .rollbackRequest
  held : Held (hs ++ s.holding) s

/-- How the guarded block may fail. -/
def Failing (t : Tables) (d₀ : Driver) (args : Args) (s : State) : Prop :=
  Refused d₀ s ∨ ∃ (p : Targets t) (out : Output), Found p d₀ out ∧ Armed p d₀ args out [] [] s

section Steps

variable {t : Tables} {calls : Calls} {p : Targets t} {d₀ : Driver} {args : Args} {out : Output}
  {hs : List Handle} {back : Request} {s : State} {h : Handle} {e : Entry} {flags : Nat}

theorem Reading.refused {c k : Dict} (hread : Reading d₀ c k [.fd] s) : Refused d₀ s where
  request := hread.request
  committed := by rw [hread.driver]
  isFrac := by rw [hread.driver]
  entries := hread.entries
  commits := hread.commits
  held := by
    rw [State.holding, hread.disableRequest, hread.request, hread.newBlob]
    exact hread.held

theorem add_of_ok (hok : (s.add calls h e).1 = true) :
    calls.add h (s.entries h).length = true ∧
      (s.add calls h e).2 =
        { s with entries := Function.update s.entries h (s.entries h ++ [e]) } := by
  unfold State.add at hok ⊢
  split_ifs at hok ⊢ with hadd
  exact ⟨hadd, rfl⟩

theorem add_of_not_ok (hno : (s.add calls h e).1 = false) :
    calls.add h (s.entries h).length = false ∧ (s.add calls h e).2 = s := by
  unfold State.add at hno ⊢
  split_ifs at hno ⊢ with hadd
  exact ⟨Bool.eq_false_iff.mpr hadd, rfl⟩

theorem has_update {entries : Handle → Request}
    (hentries : ∀ h, ∀ e ∈ entries h, p.Has e.obj e.prop) (hhas : p.Has e.obj e.prop) (h' : Handle) :
    ∀ e' ∈ Function.update entries h (entries h ++ [e]) h', p.Has e'.obj e'.prop := by
  by_cases hh : h' = h
  · subst hh
    rw [Function.update_self]
    intro e' he'
    rcases List.mem_append.mp he' with he' | he'
    · exact hentries h' e' he'
    · rw [List.mem_singleton.mp he']
      exact hhas
  · rw [Function.update_of_ne hh]
    exact hentries h'

theorem Armed.add (ha : Armed p d₀ args out hs back s) (hne : h ≠ .rollbackRequest)
    (hhas : p.Has e.obj e.prop) : Armed p d₀ args out hs back (s.add calls h e).2 := by
  cases hok : (s.add calls h e).1 with
  | false => rwa [(add_of_not_ok hok).2]
  | true =>
      rw [(add_of_ok hok).2]
      exact
        { ha with
          entries := has_update ha.entries hhas
          back := by
            show Function.update s.entries h (s.entries h ++ [e]) .rollbackRequest = back
            rw [Function.update_of_ne hne.symm]
            exact ha.back }

theorem Armed.addBack (ha : Armed p d₀ args out hs back s)
    (hok : (s.add calls .rollbackRequest e).1 = true) (hhas : p.Has e.obj e.prop) :
    Armed p d₀ args out hs (back ++ [e]) (s.add calls .rollbackRequest e).2 := by
  rw [(add_of_ok hok).2]
  exact
    { ha with
      entries := has_update ha.entries hhas
      back := by
        show Function.update s.entries .rollbackRequest
          (s.entries .rollbackRequest ++ [e]) .rollbackRequest = back ++ [e]
        rw [Function.update_self, ha.back] }

/-- A commit changes nothing but the three properties, and a real one comes after the trials. -/
theorem Armed.commit (ha : Armed p d₀ args out hs back s) (hne : h ≠ .rollbackRequest)
    (htested : flags.testBit 8 = false → ∀ h ∈ planned args, Tested s.commits h) :
    Armed p d₀ args out hs back (s.commit t calls h flags).2 :=
  { ha with
    near := ha.near.commit (ha.entries h)
    gated := ha.gated.snoc fun _ => htested
    forward := by
      intro c hc
      rcases List.mem_append.mp hc with hc | hc
      · exact ha.forward c hc
      · rw [List.mem_singleton.mp hc]
        exact hne }

/-- The request is complete and stays so, until it is committed. -/
structure Planned (mode : Drm.ModeInfo) (req : Request) (off : Option Handle) (b : Nat)
    (s : State) : Prop where
  filled : s.entries .modesetRequest = req
  off : s.disableRequest = off
  newBlob : s.newBlob = b
  created : s.driver.blob b = ⟨68, mode⟩

theorem Planned.commit {mode : Drm.ModeInfo} {req : Request} {off : Option Handle} {b : Nat}
    (hp : Planned mode req off b s) : Planned mode req off b (s.commit t calls h flags).2 :=
  { hp with
    created := by
      rw [State.commit, blob_commit]
      exact hp.created }

end Steps

/-! ## Building the requests -/

/-- The blob of the new mode is created, and nothing else is changed. -/
structure Blobbed (d₀ : Driver) (out : Output) (mode : Drm.ModeInfo) (b : Nat) (s : State) :
    Prop where
  connector : s.connector = out.connector
  crtc : s.crtc = out.crtc
  request : s.request = none
  disableRequest : s.disableRequest = none
  newBlob : s.newBlob = b
  newBlob_ne : b ≠ 0
  committed : s.driver.committed = d₀.committed
  isFrac : s.driver.isFrac = d₀.isFrac
  blob : ∀ id ∈ d₀.blobs, s.driver.blob id = d₀.blob id
  created : s.driver.blob b = ⟨68, mode⟩
  entries : ∀ h, s.entries h = []
  commits : s.commits = []
  held : Held [.newBlob, .fd] s

/-- The handle of the request that switches off, where there is one. -/
def offHandle (args : Args) : Option Handle :=
  if args.reinitializes then some .disablingRequest else none

section Build

variable {t : Tables} {calls : Calls} {p : Targets t} {d₀ : Driver} {args : Args} {out : Output}
  {mode : Drm.ModeInfo} {req : Request} {off : Option Handle} {b : Nat} {s : State} {e : Entry}

theorem Blobbed.refused (hb : Blobbed d₀ out mode b s) : Refused d₀ s where
  request := hb.request
  committed := hb.committed
  isFrac := hb.isFrac
  entries := hb.entries
  commits := hb.commits
  held := by
    rw [State.holding, hb.disableRequest, hb.request, hb.newBlob, if_neg hb.newBlob_ne]
    exact hb.held

theorem Reading.createBlob (hread : Reading d₀ out.connector out.crtc [.fd] s)
    (hok : (s.createBlob calls mode).1 = true) :
    ∃ b, Blobbed d₀ out mode b (s.createBlob calls mode).2 := by
  unfold State.createBlob at hok ⊢
  split_ifs at hok ⊢
  have hfresh := fresh_createBlob s.driver calls.blobId mode
  refine ⟨_, hread.connector, hread.crtc, hread.request, hread.disableRequest, rfl, hfresh.1, ?_,
    ?_, ?_, if_pos rfl, hread.entries, hread.commits, hread.held.create (by simp)⟩
  · rw [← hread.driver]
    rfl
  · rw [← hread.driver]
    rfl
  · rw [← hread.driver]
    rintro id hid
    refine if_neg ?_
    rintro rfl
    exact hfresh.2 hid

theorem Reading.createBlob_fails (hread : Reading d₀ out.connector out.crtc [.fd] s)
    (hno : (s.createBlob calls mode).1 = false) : Refused d₀ (s.createBlob calls mode).2 := by
  unfold State.createBlob at hno ⊢
  split_ifs at hno ⊢
  exact hread.refused

/-- With the first request the handler has something to go by. -/
theorem Blobbed.armed (hb : Blobbed d₀ out mode b s) :
    Armed p d₀ args out [] []
        { s.act (.create .modesetRequest) with request := some .modesetRequest } ∧
      Planned mode [] none b
        { s.act (.create .modesetRequest) with request := some .modesetRequest } := by
  refine ⟨⟨hb.connector, hb.crtc, rfl, ?_, ⟨?_, hb.blob⟩, ?_, hb.entries _, ?_, ?_, ?_⟩,
    hb.entries _, hb.disableRequest, hb.newBlob, hb.created⟩
  · show s.disableRequest ≠ _
    rw [hb.disableRequest]
    simp
  · intro obj prop _
    exact congrFun (congrFun hb.committed obj) prop
  · intro h e he
    change e ∈ s.entries h at he
    rw [hb.entries h] at he
    cases he
  · show Gated args s.commits
    rw [hb.commits]
    exact gated_nil
  · intro c hc
    change c ∈ s.commits at hc
    rw [hb.commits] at hc
    cases hc
  · rw [State.holding]
    show Held (s.disableRequest.toList ++ _) _
    rw [hb.disableRequest]
    show Held (_ :: ((if s.newBlob = 0 then none else some _).toList ++ _)) _
    rw [hb.newBlob, if_neg hb.newBlob_ne]
    exact hb.held.create (by simp)

/-- Allocating a request into a variable. -/
theorem meets_alloc {β : Type} {h : Handle} {store : Option Handle → State → State} {f : Failure}
    {rest : Handle → Proc State Failure β} {P : State → Prop} {Q : State → Prop}
    {Q' : β → State → Prop} {R : Failure → State → Prop}
    (hsome : ∀ s, P s → Q (store (some h) (s.act (.create h))))
    (hnone : ∀ s, P s → R f (store none s)) (hrest : Meets Q (rest h) Q' R) :
    Meets P (alloc calls h >>= fun o => update (store o) >>= fun _ => demand o f >>= rest)
      Q' R := by
  unfold alloc handOut
  cases calls.alloc h with
  | false =>
      refine Meets.bind (Q := fun o s => o = none ∧ P s) (meets_call fun s hs => ⟨rfl, hs⟩)
        fun o => ?_
      refine Meets.bind (meets_update (Q := fun _ s => o = none ∧ R f s) ?_) fun _ => ?_
      · rintro s ⟨rfl, hs⟩
        exact ⟨rfl, hnone s hs⟩
      · refine meets_assume ?_
        rintro rfl
        exact Meets.bind (meets_raise (Q := fun _ _ => False) fun _ => id) fun _ _ => False.elim
  | true =>
      refine Meets.bind (Q := fun o s => o = some h ∧ Q (store (some h) s)) (meets_call ?_)
        fun o => ?_
      · intro s hs
        exact ⟨rfl, hsome s hs⟩
      · refine Meets.bind (meets_update (Q := fun _ s => o = some h ∧ Q s) ?_) fun _ => ?_
        · rintro s ⟨rfl, hs⟩
          exact ⟨rfl, hs⟩
        · refine meets_assume ?_
          rintro rfl
          exact hrest

theorem key_bind {β : Type} {d : Dict} {key : String} {v : Value} (h : d.lookup key = some v)
    (f : Value → Proc State Failure β) : d.key key >>= f = f v := by
  rw [Dict.key, h]
  rfl

theorem Planned.add (hp : Planned mode req off b s)
    (hok : (s.add calls .modesetRequest e).1 = true) :
    Planned mode (req ++ [e]) off b (s.add calls .modesetRequest e).2 := by
  rw [(add_of_ok hok).2]
  exact
    { hp with
      filled := by
        show Function.update s.entries .modesetRequest
          (s.entries .modesetRequest ++ [e]) .modesetRequest = req ++ [e]
        rw [Function.update_self, hp.filled] }

theorem Planned.addOff (hp : Planned mode req off b s) :
    Planned mode req off b (s.add calls .disablingRequest e).2 := by
  cases hok : (s.add calls .disablingRequest e).1 with
  | false => rwa [(add_of_not_ok hok).2]
  | true =>
      rw [(add_of_ok hok).2]
      exact
        { hp with
          filled := by
            show Function.update s.entries .disablingRequest
              (s.entries .disablingRequest ++ [e]) .modesetRequest = req
            rw [Function.update_of_ne (by simp), hp.filled] }

/-- An addition to the first request. -/
theorem meets_add {β : Type} {operation : String} {rest : Unit → Proc State Failure β}
    {Q' : β → State → Prop} {R : Failure → State → Prop} (hhas : p.Has e.obj e.prop)
    (hR : ∀ f s, Armed p d₀ args out [] [] s → R f s)
    (hrest : Meets (fun s => Armed p d₀ args out [] [] s ∧ Planned mode (req ++ [e]) off b s)
      (rest ()) Q' R) :
    Meets (fun s => Armed p d₀ args out [] [] s ∧ Planned mode req off b s)
      (add calls .modesetRequest e >>= fun ok => checked ok operation >>= rest) Q' R := by
  refine meets_call_require_bind ?_ ?_ hrest
  · rintro s ⟨ha, hp⟩ hok
    exact ⟨ha.add (by simp) hhas, hp.add hok⟩
  · rintro s ⟨ha, -⟩ -
    exact hR _ _ (ha.add (by simp) hhas)

/-- With the second request the variables hold one handle more. -/
theorem Armed.storeOff (ha : Armed p d₀ args out [] [] s) (hp : Planned mode req none b s) :
    Armed p d₀ args out [] []
      { s.act (.create .disablingRequest) with disableRequest := some .disablingRequest } := by
  refine { ha with disableRequest := by simp, held := ?_ }
  have hheld := ha.held
  rw [State.holding, hp.off, ha.request, hp.newBlob] at hheld
  show Held (.disablingRequest :: (s.request.toList ++
    ((if s.newBlob = 0 then none else some Handle.newBlob).toList ++ [.fd]))) _
  rw [ha.request, hp.newBlob]
  refine hheld.create ?_
  split_ifs
  · simp
  · simp

theorem Armed.storeNone (ha : Armed p d₀ args out [] [] s) (hp : Planned mode req none b s) :
    Armed p d₀ args out [] [] { s with disableRequest := none } := by
  refine { ha with disableRequest := by simp, held := ?_ }
  have hheld := ha.held
  rw [State.holding, hp.off] at hheld
  exact hheld

theorem buildDisable_spec (hfound : Found p d₀ out) :
    Meets (fun s => Armed p d₀ args out [] [] s ∧ Planned mode req none b s)
      (buildDisable calls args out.crtc)
      (fun _ s => Armed p d₀ args out [] [] s ∧ Planned mode req (offHandle args) b s)
      (fun _ => Armed p d₀ args out [] []) := by
  unfold buildDisable offHandle
  cases args.reinitializes with
  | false => exact meets_pure fun s hs => hs
  | true =>
      refine meets_alloc (Q := fun s => Armed p d₀ args out [] [] s ∧
        Planned mode req (some .disablingRequest) b s) ?_ ?_ ?_
      · exact fun s hs => ⟨hs.1.storeOff hs.2, { hs.2 with off := rfl }⟩
      · exact fun s hs => hs.1.storeNone hs.2
      · rw [key_bind hfound.active]
        refine meets_call_require ?_ ?_
        · rintro s ⟨ha, hp⟩ -
          exact ⟨ha.add (by simp) (.inr ⟨rfl, .inr rfl⟩), hp.addOff⟩
        · rintro s ⟨ha, -⟩ -
          exact ha.add (by simp) (.inr ⟨rfl, .inr rfl⟩)

theorem buildRequests_spec (hfound : Found p d₀ out) :
    Meets (Reading d₀ out.connector out.crtc [.fd]) (buildRequests calls args out mode)
      (fun h s => h = .modesetRequest ∧ Armed p d₀ args out [] [] s ∧
        ∃ b, Planned mode (p.request args.fractional b 1) (offHandle args) b s)
      (fun _ => Failing t d₀ args) := by
  have hR : ∀ (_ : Failure) s, Armed p d₀ args out [] [] s → Failing t d₀ args s :=
    fun _ s ha => .inr ⟨p, out, hfound, ha⟩
  unfold buildRequests
  refine meets_call_require_bind (Q := fun s => ∃ b, Blobbed d₀ out mode b s)
    (fun s hread hok => hread.createBlob hok)
    (fun s hread hno => .inl (hread.createBlob_fails hno)) ?_
  refine meets_exists fun b => ?_
  refine meets_alloc (Q := fun s => Armed p d₀ args out [] [] s ∧ Planned mode [] none b s)
    (fun s hb => hb.armed) ?_ ?_
  · intro s hb
    have hnone : Blobbed d₀ out mode b { s with request := none } := { hb with request := rfl }
    exact .inl hnone.refused
  · rw [key_bind hfound.isFrac]
    refine meets_add (.inl ⟨rfl, rfl⟩) hR ?_
    rw [key_bind hfound.modeId]
    refine Meets.bind (Q := fun v s => v = b ∧ Armed p d₀ args out [] [] s ∧
      Planned mode ([] ++ [⟨connectorId, p.isFrac, args.fractional⟩]) none b s) (meets_call ?_) ?_
    · rintro s ⟨ha, hp⟩
      exact ⟨hp.newBlob, ha, hp⟩
    intro v
    refine meets_assume ?_
    rintro rfl
    refine meets_add (.inr ⟨rfl, .inl rfl⟩) hR ?_
    rw [key_bind hfound.active]
    refine meets_add (.inr ⟨rfl, .inr rfl⟩) hR ?_
    refine ((buildDisable_spec hfound).raising hR).bind fun _ => ?_
    exact meets_pure fun s hs => ⟨rfl, hs.1, v, hs.2⟩

end Build

/-! ## Applying them -/

/-- The output is on, in the new mode and at the requested rate. -/
structure Applied {t : Tables} (p : Targets t) (d₀ : Driver) (args : Args) (s : State) : Prop where
  isFrac : s.driver.value t connectorId p.isFrac = args.fractional
  committed : s.driver.committed connectorId p.isFrac = args.fractional
  modeId : s.driver.value t crtcId p.modeId = s.newBlob
  active : s.driver.value t crtcId p.active = 1
  mode : ∃ old clock, old = (d₀.blob (d₀.value t crtcId p.modeId % 2 ^ 32)).mode ∧
    rateForMode old.hdisplay old.vdisplay args.fractional = some clock ∧
    s.driver.blob s.newBlob = ⟨68, { old with clock := clock }⟩

section Apply

variable {t : Tables} {calls : Calls} {p : Targets t} {d₀ : Driver} {args : Args} {out : Output}
  {mode : Drm.ModeInfo} {req : Request} {b : Nat}

/-- The request is complete, and the handler can undo what it does. -/
def Ready (p : Targets t) (d₀ : Driver) (args : Args) (out : Output) (mode : Drm.ModeInfo)
    (req : Request) (b : Nat) (s : State) : Prop :=
  Armed p d₀ args out [] [] s ∧ Planned mode req (offHandle args) b s

theorem Ready.commit {s : State} {h : Handle} {flags : Nat} (hr : Ready p d₀ args out mode req b s)
    (hne : h ≠ .rollbackRequest)
    (htested : flags.testBit 8 = false → ∀ h ∈ planned args, Tested s.commits h) :
    Ready p d₀ args out mode req b (s.commit t calls h flags).2 :=
  ⟨hr.1.commit hne htested, hr.2.commit⟩

theorem testBit_trial : (testOnly ||| allowModeset).testBit 8 = true := by decide

theorem testBit_real : allowModeset.testBit 8 = false := by decide

theorem Ready.trial {s : State} {h : Handle} (hr : Ready p d₀ args out mode req b s)
    (hne : h ≠ .rollbackRequest) :
    Ready p d₀ args out mode req b (s.commit t calls h (testOnly ||| allowModeset)).2 :=
  hr.commit hne fun hreal => nomatch testBit_trial.symm.trans hreal

/-- A trial that succeeds. -/
theorem tested_trial {s : State} {h : Handle}
    (hok : (s.commit t calls h (testOnly ||| allowModeset)).1 = true) :
    Tested (s.commit t calls h (testOnly ||| allowModeset)).2.commits h :=
  tested_snoc ⟨rfl, testBit_trial, hok⟩

theorem applyDisable_spec :
    Meets (fun s => Ready p d₀ args out mode req b s ∧ Tested s.commits .modesetRequest)
      (applyDisable t calls (offHandle args))
      (fun _ s => Ready p d₀ args out mode req b s ∧ ∀ h ∈ planned args, Tested s.commits h)
      (fun _ => Armed p d₀ args out [] []) := by
  cases hre : args.reinitializes with
  | false =>
      rw [show offHandle args = none by simp [offHandle, hre]]
      refine meets_pure fun s hs => ⟨hs.1, fun h hh => ?_⟩
      have hplanned : planned args = [.modesetRequest] := by simp [planned, hre]
      rw [hplanned, List.mem_singleton] at hh
      rw [hh]
      exact hs.2
  | true =>
      rw [show offHandle args = some .disablingRequest by simp [offHandle, hre]]
      have hplanned : planned args = [.modesetRequest, .disablingRequest] := by simp [planned, hre]
      refine meets_call_require_bind (Q := fun s => Ready p d₀ args out mode req b s ∧
        ∀ h ∈ planned args, Tested s.commits h) ?_ ?_ (meets_call_require ?_ ?_)
      · rintro s ⟨hr, htested⟩ hok
        refine ⟨hr.trial (by simp), fun h hh => ?_⟩
        rw [hplanned, List.mem_cons, List.mem_singleton] at hh
        rcases hh with rfl | rfl
        · exact htested.mono
        · exact tested_trial hok
      · rintro s ⟨hr, -⟩ -
        exact (hr.trial (by simp)).1
      · rintro s ⟨hr, htested⟩ -
        exact ⟨hr.commit (by simp) fun _ => htested, fun h hh => (htested h hh).mono⟩
      · rintro s ⟨hr, htested⟩ -
        exact (hr.commit (by simp) fun _ => htested).1

/-- **All or nothing.** What goes through has written the whole request. -/
theorem applyRequests_spec :
    Meets (Ready p d₀ args out mode req b)
      (applyRequests t calls .modesetRequest (offHandle args))
      (fun _ s => Ready p d₀ args out mode req b s ∧ ∃ d, s.driver = req.foldl (Driver.write t) d)
      (fun _ => Armed p d₀ args out [] []) := by
  refine meets_call_require_bind (Q := fun s => Ready p d₀ args out mode req b s ∧
    Tested s.commits .modesetRequest) ?_ ?_
    (applyDisable_spec.bind fun _ => meets_call_require ?_ ?_)
  · intro s hr hok
    exact ⟨hr.trial (by simp), tested_trial hok⟩
  · intro s hr _
    exact (hr.trial (by simp)).1
  · rintro s ⟨hr, htested⟩ hok
    refine ⟨hr.commit (by simp) fun _ => htested, s.driver, ?_⟩
    have hcommit : (calls.commit s.commits.length).ok = true := hok
    rw [← hr.2.filled]
    exact if_pos (by rw [hcommit, Commit.testOnly, testBit_real]; rfl)
  · rintro s ⟨hr, htested⟩ -
    exact (hr.commit (by simp) fun _ => htested).1

theorem newMode_spec {c k : Dict} {hs : List Handle} {old : Drm.ModeInfo} :
    Reads d₀ c k hs (newMode args old) fun mode =>
      ∃ clock, rateForMode old.hdisplay old.vdisplay args.fractional = some clock ∧
        mode = { old with clock := clock } :=
  reads_demand.bind fun clock hclock => reads_pure ⟨clock, hclock, rfl⟩

theorem meets_print {P : State → Prop} {R : Failure → State → Prop} {report : Report}
    (hstable : ∀ s reports, P s → P { s with reports := reports }) (hR : ∀ f s, P s → R f s) :
    Meets P (print calls report) (fun _ => P) R :=
  meets_call_require (fun s hs _ => hstable s _ hs) fun s hs _ => hR _ _ (hstable s _ hs)

/-- What the request writes is what the script is to reach. -/
theorem applied_of_request {d : Driver} {old : Drm.ModeInfo} {clock : Nat} {s : State}
    (hdriver : s.driver = (p.request args.fractional b 1).foldl (Driver.write t) d)
    (hplanned : Planned { old with clock := clock } req (offHandle args) b s)
    (hold : old = (d₀.blob (d₀.value t crtcId p.modeId % 2 ^ 32)).mode)
    (hclock : rateForMode old.hdisplay old.vdisplay args.fractional = some clock) :
    Applied p d₀ args s := by
  refine ⟨?_, ?_, ?_, ?_, old, clock, hold, hclock, ?_⟩
  · rw [hdriver, p.value_request, if_pos p.cached_isFrac]
  · rw [hdriver, p.committed_isFrac]
  · rw [hdriver, p.value_request, if_neg (Targets.not_cached_crtc _),
      if_neg fun h => p.modeId_ne_active h.2, if_pos ⟨rfl, rfl⟩, hplanned.newBlob]
  · rw [hdriver, p.value_request, if_neg (Targets.not_cached_crtc _), if_pos ⟨rfl, rfl⟩]
  · rw [hplanned.newBlob]
    exact hplanned.created

/-- From the complete requests to the end of the guarded block. -/
theorem commitPlan_spec {before : Before} {old : Drm.ModeInfo} {clock : Nat}
    (hold : old = (d₀.blob (d₀.value t crtcId p.modeId % 2 ^ 32)).mode)
    (hclock : rateForMode old.hdisplay old.vdisplay args.fractional = some clock) :
    Meets (Ready p d₀ args out { old with clock := clock } (p.request args.fractional b 1) b)
      (print calls (.plan before clock args.fractional args.reinitializes) >>= fun _ =>
        (call fun s => (s.disableRequest, s)) >>= fun off =>
          applyRequests t calls .modesetRequest off >>= fun _ =>
            print calls (.committed clock args.fractional))
      (fun _ s => Armed p d₀ args out [] [] s ∧ Applied p d₀ args s)
      (fun _ => Armed p d₀ args out [] []) := by
  refine Meets.bind (meets_print ?_ fun _ s hr => hr.1) fun _ => ?_
  · exact fun s reports hr => ⟨{ hr.1 with }, { hr.2 with }⟩
  refine Meets.bind (Q := fun off s => off = offHandle args ∧ Ready p d₀ args out
    { old with clock := clock } (p.request args.fractional b 1) b s) (meets_call ?_) ?_
  · exact fun s hr => ⟨hr.2.off, hr⟩
  intro off
  refine meets_assume ?_
  rintro rfl
  refine applyRequests_spec.bind fun _ => ?_
  refine (meets_print ?_ fun _ s hs => hs.1.1).returning ?_
  · rintro s reports ⟨hr, hd⟩
    exact ⟨⟨{ hr.1 with }, { hr.2 with }⟩, hd⟩
  · rintro _ s ⟨hr, d, hd⟩
    exact ⟨hr.1, applied_of_request hd hr.2 hold hclock⟩

/-- **The guarded block.** -/
theorem modeset_spec {c k : Dict} :
    Meets (Reading d₀ c k [.fd]) (modeset t calls args)
      (fun _ s => ∃ (p : Targets t) (out : Output), Armed p d₀ args out [] [] s ∧
        Applied p d₀ args s)
      (fun _ => Failing t d₀ args) := by
  unfold modeset
  refine Meets.bind (Q := fun out s => ∃ p : Targets t, Found p d₀ out ∧
    Reading d₀ out.connector out.crtc [.fd] s) (readOutput_spec.weaken (fun _ => id) ?_ ?_) ?_
  · rintro out s ⟨hread, p, hfound⟩
    exact ⟨p, hfound, hread⟩
  · rintro f s ⟨c, k, hread⟩
    exact .inl hread.refused
  intro out
  refine meets_exists fun p => meets_assume fun hfound => ?_
  refine (newMode_spec.raising fun _ s hread => .inl hread.refused).bind fun mode => meets_assume ?_
  rintro ⟨clock, hclock, rfl⟩
  refine (buildRequests_spec hfound).bind fun request => meets_assume ?_
  rintro rfl
  refine Meets.before (P := fun s => ∃ b, Ready p d₀ args out { out.mode with clock := clock }
    (p.request args.fractional b 1) b s) ?_ ?_
  · refine meets_exists fun b => (commitPlan_spec hfound.mode hclock).weaken (fun _ => id) ?_ ?_
    · exact fun _ s hs => ⟨p, out, hs⟩
    · exact fun _ s ha => .inr ⟨p, out, hfound, ha⟩
  · rintro s ⟨ha, b, hp⟩
    exact ⟨b, ha, hp⟩

end Apply

end QcapDemos.Rate
