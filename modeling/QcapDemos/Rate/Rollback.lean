import QcapDemos.Rate.Plan

set_option autoImplicit false

/-! # The rollback

What the handler of the script does from where the guarded block has failed, what the last block
gives back, and what both make of a whole run.
-/

namespace QcapDemos.Rate

open QcapDemos.Lib Proc

/-! ## The rollback -/

/-- The request of the rollback can be allocated and filled. -/
def RollbackBuilt (calls : Calls) : Prop :=
  calls.alloc .rollbackRequest = true ∧ ∀ n < 3, calls.add .rollbackRequest n = true

/-- There is one rollback commit, at the end, with the original values, and it restores the output
unless it fails. There is none where it cannot be built. -/
structure RolledBack {t : Tables} (p : Targets t) (calls : Calls) (d₀ : Driver) (s : State) :
    Prop where
  built : RollbackBuilt calls → ∃ before c, s.commits = before ++ [c] ∧
    (∀ b ∈ before, b.handle ≠ .rollbackRequest) ∧ c.handle = .rollbackRequest ∧
    c.request = p.original d₀ ∧ c.testOnly = false ∧ (c.ok = true → Restored t d₀ s.driver)
  notBuilt : ¬ RollbackBuilt calls → ∀ c ∈ s.commits, c.handle ≠ .rollbackRequest

/-- After the handler. -/
structure Ended {t : Tables} (p : Targets t) (calls : Calls) (d₀ : Driver) (args : Args)
    (hs : List Handle) (s : State) : Prop where
  request : s.request = some .modesetRequest
  entries : ∀ h, ∀ e ∈ s.entries h, p.Has e.obj e.prop
  gated : Gated args s.commits
  rolledBack : RolledBack p calls d₀ s
  held : Held (hs ++ s.holding) s

section Rollback

variable {t : Tables} {calls : Calls} {p : Targets t} {d₀ : Driver} {args : Args} {out : Output}
  {hs : List Handle} {back : Request} {s : State} {e : Entry}

theorem Armed.ended (ha : Armed p d₀ args out hs back s) (hnot : ¬ RollbackBuilt calls) :
    Ended p calls d₀ args hs s where
  request := ha.request
  entries := ha.entries
  gated := ha.gated
  rolledBack := ⟨fun hbuilt => absurd hbuilt hnot, fun _ => ha.forward⟩
  held := ha.held

theorem Armed.not_holding (ha : Armed p d₀ args out hs back s) :
    Handle.rollbackRequest ∉ s.holding := by
  have hoff : Handle.rollbackRequest ∉ s.disableRequest.toList := by
    rw [Option.mem_toList]
    exact ha.disableRequest
  rw [State.holding, ha.request]
  split_ifs
  · simp [hoff]
  · simp [hoff]

theorem Ended.release {h : Handle} (he : Ended p calls d₀ args (h :: hs) s) :
    Ended p calls d₀ args hs (s.act (.destroy h)) :=
  { he with
    rolledBack := { he.rolledBack with }
    held := he.held.destroy }

/-- The rollback commit, from wherever the script has failed. -/
theorem Armed.commitBack (ha : Armed p d₀ args out hs (p.original d₀) s)
    (hbuilt : RollbackBuilt calls) :
    Ended p calls d₀ args hs (s.commit t calls .rollbackRequest allowModeset).2 where
  request := ha.request
  entries := ha.entries
  gated := ha.gated.snoc fun hne => absurd rfl hne
  rolledBack := by
    refine ⟨fun _ => ⟨s.commits, _, rfl, ha.forward, rfl, ha.back, testBit_real, ?_⟩,
      fun hnot => absurd hbuilt hnot⟩
    intro hok
    have hcommit : (calls.commit s.commits.length).ok = true := hok
    have hdriver : (s.commit t calls .rollbackRequest allowModeset).2.driver
        = (p.original d₀).foldl (Driver.write t) s.driver := by
      rw [← ha.back]
      exact if_pos (by rw [hcommit, Commit.testOnly, testBit_real]; rfl)
    rw [hdriver]
    exact ha.near.restored
  held := ha.held

/-- An addition to the rollback. -/
theorem meets_addBack {β : Type} {operation : String} {rest : Unit → Proc State Failure β}
    {Q' : β → State → Prop} (hlength : back.length < 3) (hhas : p.Has e.obj e.prop)
    (hrest : Meets (fun s => (∀ n < (back ++ [e]).length, calls.add .rollbackRequest n = true) ∧
      Armed p d₀ args out hs (back ++ [e]) s) (rest ()) Q' fun _ => Ended p calls d₀ args hs) :
    Meets (fun s => (∀ n < back.length, calls.add .rollbackRequest n = true) ∧
        Armed p d₀ args out hs back s)
      (add calls .rollbackRequest e >>= fun ok => checked ok operation >>= rest) Q'
      fun _ => Ended p calls d₀ args hs := by
  refine meets_call_require_bind ?_ ?_ hrest
  · rintro s ⟨hadds, ha⟩ hok
    have hadd := (add_of_ok hok).1
    rw [ha.back] at hadd
    refine ⟨fun n hn => ?_, ha.addBack hok hhas⟩
    rw [List.length_append, List.length_singleton] at hn
    rcases Nat.lt_succ_iff_lt_or_eq.mp hn with hn | rfl
    · exact hadds n hn
    · exact hadd
  · rintro s ⟨-, ha⟩ hno
    obtain ⟨hadd, hsame⟩ := add_of_not_ok hno
    rw [ha.back] at hadd
    rw [hsame]
    refine ha.ended fun hbuilt => ?_
    rw [hbuilt.2 _ hlength] at hadd
    cases hadd

theorem commitRollback_spec (hfound : Found p d₀ out)
    (halloc : calls.alloc .rollbackRequest = true) :
    Meets (Armed p d₀ args out hs [])
      (commitRollback t calls out.connector out.crtc .rollbackRequest)
      (fun _ => Ended p calls d₀ args hs) (fun _ => Ended p calls d₀ args hs) := by
  unfold commitRollback
  rw [key_bind hfound.isFrac]
  refine Meets.before (P := fun s => (∀ n < ([] : Request).length,
    calls.add .rollbackRequest n = true) ∧ Armed p d₀ args out hs [] s) ?_
    fun s ha => ⟨fun n hn => absurd hn (Nat.not_lt_zero n), ha⟩
  refine meets_addBack (by simp) (.inl ⟨rfl, rfl⟩) ?_
  rw [key_bind hfound.modeId]
  refine meets_addBack (by simp) (.inr ⟨rfl, .inl rfl⟩) ?_
  rw [key_bind hfound.active]
  refine meets_addBack (by simp) (.inr ⟨rfl, .inr rfl⟩) (meets_call_require ?_ ?_)
  · rintro s ⟨hadds, ha⟩ -
    exact ha.commitBack ⟨halloc, hadds⟩
  · rintro s ⟨hadds, ha⟩ -
    exact ha.commitBack ⟨halloc, hadds⟩

theorem isEmpty_of_lookup {d : Dict} {key : String} {v : Value} (h : d.lookup key = some v) :
    d.isEmpty = false := by
  cases d with
  | nil => cases h
  | cons x xs => rfl

/-- The handler with its request allocated: it is given back, whatever becomes of the commit. -/
theorem tryRollback_spec (hfound : Found p d₀ out)
    (halloc : calls.alloc .rollbackRequest = true) :
    Meets (Armed p d₀ args out [.rollbackRequest] [])
      (tryRollback t calls out.connector out.crtc (some .rollbackRequest))
      (fun _ => Ended p calls d₀ args []) (fun _ => Ended p calls d₀ args []) := by
  show Meets _ (ensuring (commitRollback t calls out.connector out.crtc .rollbackRequest)
    (release .rollbackRequest)) _ _
  refine Meets.ensuring (commitRollback_spec hfound halloc) (fun _ => ?_) fun _ => ?_
  · exact meets_update fun s he => he.release
  · exact meets_update fun s he => he.release

/-- Allocating the request, and what follows. -/
theorem allocRollback_spec (hfound : Found p d₀ out) :
    Meets (Armed p d₀ args out [] [])
      (alloc calls .rollbackRequest >>= tryRollback t calls out.connector out.crtc)
      (fun _ => Ended p calls d₀ args []) (fun _ => Ended p calls d₀ args []) := by
  unfold alloc handOut
  cases halloc : calls.alloc .rollbackRequest with
  | false =>
      have hnot : ¬ RollbackBuilt calls := by
        intro hbuilt
        rw [hbuilt.1] at halloc
        cases halloc
      refine Meets.bind (Q := fun o s => o = none ∧ Armed p d₀ args out [] [] s)
        (meets_call fun s ha => ⟨rfl, ha⟩) fun o => meets_assume ?_
      rintro rfl
      exact meets_pure fun s ha => ha.ended hnot
  | true =>
      refine Meets.bind (Q := fun o s => o = some .rollbackRequest ∧
        Armed p d₀ args out [.rollbackRequest] [] s) (meets_call ?_) fun o => meets_assume ?_
      · exact fun s ha => ⟨rfl, { ha with held := ha.held.create ha.not_holding }⟩
      · rintro rfl
        exact tryRollback_spec hfound halloc

/-- **The handler.** Where there is a request, it rolls back, and elsewhere it does nothing. -/
theorem rollBack_spec :
    Meets (Failing t d₀ args) (rollBack t calls)
      (fun _ s => Refused d₀ s ∨ ∃ p : Targets t, Ended p calls d₀ args [] s)
      (fun _ s => Refused d₀ s ∨ ∃ p : Targets t, Ended p calls d₀ args [] s) := by
  unfold rollBack
  refine Meets.bind (Q := fun v s => v = s ∧ Failing t d₀ args s) (meets_call fun s hs => ⟨rfl, hs⟩)
    fun v => Meets.of_forall ?_
  rintro s ⟨rfl, hrefused | ⟨p, out, hfound, ha⟩⟩
  · rw [if_neg (by simp [hrefused.request])]
    exact meets_pure fun s hs => .inl (hs ▸ hrefused)
  · rw [if_pos (by simp [ha.connector, ha.crtc, ha.request, isEmpty_of_lookup hfound.isFrac,
      isEmpty_of_lookup hfound.modeId]), ha.connector, ha.crtc]
    refine (allocRollback_spec hfound).weaken (fun _ hs => hs ▸ ha) ?_ ?_
    · exact fun _ s he => .inr ⟨p, he⟩
    · exact fun _ s he => .inr ⟨p, he⟩

end Rollback

/-! ## The whole script -/

/-- What a run of the script guarantees, whichever of its calls fail. -/
structure Outcome (t : Tables) (calls : Calls) (args : Args) (d₀ : Driver) (r : Except Failure Unit)
    (s : State) : Prop where
  planes : ∀ h, ∀ e ∈ s.entries h, e.obj = connectorId ∨ e.obj = crtcId
  gated : Gated args s.commits
  applied : r = .ok () → ∃ p : Targets t, Applied p d₀ args s
  untouched : ∀ f, r = .error f → s.request = none →
    s.driver.committed = d₀.committed ∧ s.driver.isFrac = d₀.isFrac ∧ s.commits = []
  rolledBack : ∀ f, r = .error f → s.request ≠ none → ∃ p : Targets t, RolledBack p calls d₀ s
  released : World.empty.exec s.actions = some World.empty

section Main

variable {t : Tables} {calls : Calls} {args : Args} {d₀ : Driver} {s : State}
  {actions : List (Action Handle)}

theorem Targets.obj_of_has {p : Targets t} {obj prop : Nat} (h : p.Has obj prop) :
    obj = connectorId ∨ obj = crtcId :=
  h.imp And.left And.left

theorem Refused.outcome {f : Failure} (hr : Refused d₀ s)
    (hheld : Held [] { s with actions := actions }) :
    Outcome t calls args d₀ (.error f) { s with actions := actions } where
  planes := by
    intro h e he
    change e ∈ s.entries h at he
    rw [hr.entries] at he
    cases he
  gated := by
    show Gated args s.commits
    rw [hr.commits]
    exact gated_nil
  applied := nofun
  untouched _ _ _ := ⟨hr.committed, hr.isFrac, hr.commits⟩
  rolledBack _ _ hne := absurd hr.request hne
  released := hheld

theorem Ended.outcome {p : Targets t} {f : Failure} (he : Ended p calls d₀ args [] s)
    (hheld : Held [] { s with actions := actions }) :
    Outcome t calls args d₀ (.error f) { s with actions := actions } where
  planes h e hmem := Targets.obj_of_has (he.entries h e hmem)
  gated := he.gated
  applied := nofun
  untouched _ _ hnone := nomatch he.request.symm.trans hnone
  rolledBack _ _ _ := ⟨p, { he.rolledBack with }⟩
  released := hheld

theorem Armed.outcome {p : Targets t} {out : Output} (ha : Armed p d₀ args out [] [] s)
    (happlied : Applied p d₀ args s) (hheld : Held [] { s with actions := actions }) :
    Outcome t calls args d₀ (.ok ()) { s with actions := actions } where
  planes h e hmem := Targets.obj_of_has (ha.entries h e hmem)
  gated := ha.gated
  applied _ := ⟨p, { happlied with }⟩
  untouched := nofun
  rolledBack := nofun
  released := hheld

theorem Held.free {hs : List Handle} {o : Option Handle} (hheld : Held (o.toList ++ hs) s) :
    Held hs (s.free o) := by
  cases o with
  | none =>
      show World.empty.exec (s.actions ++ []) = _
      rw [List.append_nil]
      exact hheld
  | some h => exact hheld.destroy

/-- The last block gives back what the variables hold, and does nothing else. -/
theorem meets_releaseAll {P Q : State → Prop} {R : Failure → State → Prop}
    (hheld : ∀ s, P s → Held s.holding s)
    (hQ : ∀ s actions, P s → Held [] { s with actions := actions } →
      Q { s with actions := actions }) :
    Meets P releaseAll (fun _ => Q) R := by
  refine Meets.of_forall fun s hs => ?_
  have hdisable := (hheld s hs).free
  have hrequest := hdisable.free
  have hblob := hrequest.free
  rintro s₁ rfl
  exact hQ s₁ _ hs hblob.destroy

/-- Nothing is held before the device is open. -/
theorem refused_start {f : Failure} (hs : s = State.start d₀) :
    Outcome t calls args d₀ (.error f) s := by
  subst hs
  refine ⟨?_, gated_nil, nofun, fun _ _ _ => ⟨rfl, rfl, rfl⟩, fun _ _ hne => absurd rfl hne, rfl⟩
  intro h e he
  cases he

theorem validateHost_spec (host : Host) :
    Meets (fun s => s = State.start d₀) (validateHost host) (fun _ s => s = State.start d₀)
      (fun _ s => s = State.start d₀) := by
  have hrequire : ∀ (ok : Bool) (f : Failure), Meets (fun s => s = State.start d₀) (require ok f)
      (fun _ s => s = State.start d₀) fun _ s => s = State.start d₀ :=
    fun ok f => meets_require (fun s hs _ => hs) fun s hs _ => hs
  refine (hrequire _ _).bind fun _ => ?_
  refine Meets.bind (meets_demand (fun s _ hs _ => hs) fun s hs _ => hs) fun _ => ?_
  refine (hrequire _ _).bind fun _ => ?_
  refine Meets.bind (meets_demand (fun s _ hs _ => hs) fun s hs _ => hs) fun _ => ?_
  exact (hrequire _ _).bind fun _ => hrequire _ _

theorem main_spec (host : Host) :
    Meets (fun s => s = State.start d₀) (main t calls host args)
      (fun _ => Outcome t calls args d₀ (.ok ())) fun f => Outcome t calls args d₀ (.error f) := by
  unfold main
  refine ((validateHost_spec host).raising fun _ _ => refused_start).bind fun _ => ?_
  refine Meets.bind (Q := fun fd s => (fd = none ∧ s = State.start d₀) ∨
    (fd = some .fd ∧ Reading d₀ [] [] [.fd] s)) (meets_call ?_) fun fd => ?_
  · rintro s rfl
    cases calls.drmOpen with
    | false => exact .inl ⟨rfl, rfl⟩
    | true => exact .inr ⟨rfl, rfl, rfl, rfl, rfl, rfl, rfl, fun _ => rfl, rfl, rfl⟩
  refine Meets.bind (Q := fun _ => Reading d₀ [] [] [.fd]) (meets_require ?_ ?_) fun _ => ?_
  · rintro s (⟨rfl, -⟩ | ⟨-, hread⟩) hopen
    · cases hopen
    · exact hread
  · rintro s (⟨-, hs⟩ | ⟨rfl, -⟩) hopen
    · exact refused_start hs
    · cases hopen
  refine Meets.ensuring (modeset_spec.rescuing fun _ => rollBack_spec) (fun _ => ?_) fun f => ?_
  · refine meets_releaseAll ?_ ?_
    · rintro s ⟨p, out, ha, -⟩
      exact ha.held
    · rintro s actions ⟨p, out, ha, happlied⟩ hheld
      exact ha.outcome happlied hheld
  · refine meets_releaseAll ?_ ?_
    · rintro s (hrefused | ⟨p, hended⟩)
      · exact hrefused.held
      · exact hended.held
    · rintro s actions (hrefused | ⟨p, hended⟩) hheld
      · exact hrefused.outcome hheld
      · exact hended.outcome hheld

/-- **Validated first, and rolled back.** Whatever fails, the script gives back what it obtained,
and leaves the output in the new state, or in the old one unless the rollback fails. -/
theorem main_outcome (t : Tables) (calls : Calls) (host : Host) (args : Args) (d₀ : Driver) :
    Outcome t calls args d₀ (main t calls host args (State.start d₀)).1
      (main t calls host args (State.start d₀)).2 := by
  have hend : Ends (fun _ => Outcome t calls args d₀ (.ok ()))
      (fun f => Outcome t calls args d₀ (.error f)) (main t calls host args (State.start d₀)) :=
    main_spec host _ rfl
  generalize main t calls host args (State.start d₀) = run at hend ⊢
  obtain ⟨f | u, s⟩ := run
  · exact hend
  · exact hend

end Main

end QcapDemos.Rate
