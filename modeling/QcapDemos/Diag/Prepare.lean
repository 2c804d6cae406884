import QcapDemos.Diag.Drm

set_option autoImplicit false

/-! # Preparing the SDI output for modetest

`sc6f0-sdi-modetest-prepare` writes the SDI properties of a connector whose CRTC is idle, so that
`modetest` can be run on it. It checks the connector and the plane, disables what a failed test has
left where it is told to, writes the properties in one commit and reads them back.
-/

namespace QcapDemos.Diag

open QcapDemos.Lib Proc
open QcapDemos.Rate (Value Dict)

namespace Prepare

/-! ## Profiles -/

/-- `PROPERTIES`. -/
def sdiProperties : List (String × Nat) :=
  [("sdi_mode", 5), ("sdi_data_stream", 8), ("is_frac", 0), ("sdi_420_in", 0), ("sdi_420_out", 0),
    ("sdi_444_out", 0), ("width_out", 3840), ("height_out", 2160), ("in_fmt", 4106),
    ("out_fmt", 8218), ("c_encoding", 0)]

/-- `HD_OVERRIDES`. -/
def hdOverrides : List (String × Nat) :=
  [("sdi_mode", 2), ("sdi_data_stream", 2), ("width_out", 1920), ("height_out", 1080)]

inductive Profile where
  | p2160p60
  | p1080p60
deriving DecidableEq

/-- `PROFILES`. -/
def profiles : Profile → List (String × Nat)
  | .p2160p60 => sdiProperties
  | .p1080p60 => sdiProperties.map fun p => (p.1, (hdOverrides.lookup p.1).getD p.2)

/-- The arguments. The parser lets no other profile through. -/
structure Args where
  bootId : String
  connector : Nat
  crtc : Nat
  primary : Nat
  clearFailed : Bool
  profile : Profile

/-- The host: the files that the script reads, without one that cannot be read, and the return
codes of `pidof` and `fuser`, without one where the program does not run. -/
structure Host where
  product : Option (List UInt8)
  bootId : Option String
  pidof : Option Int
  fuser : Option Int

/-! ## The class `DRM` -/

section Script

variable (a : Answers)

/-- `check`. -/
def check (n : Int) (label : String) : Proc State Failure Unit :=
  require (0 ≤ n) (.osError (label ++ ": result " ++ toString n))

/-- `__init__`. -/
def openDrm : Proc State Failure Unit := do
  require (← handOut a .fd) (.osError "drmOpen")
  rescuing (do
      check (← result a) "universal planes"
      check (← result a) "atomic capability"
      check (← result a) "DRM master")
    (release .fd)

def properties (obj kind : Nat) : Proc State Failure Dict :=
  readProperties a (fun obj => "get properties for " ++ toString obj)
    (fun id => "get property " ++ toString id) (fun v _ => v.id) obj kind

/-- The loop of `commit`. -/
def addUpdates : List Update → Proc State Failure Unit
  | [] => pure ()
  | u :: us => do
      let props ← properties a u.obj u.kind
      let v ← demand (props.lookup u.name)
        (.runtimeError ("Missing required property " ++ u.name))
      check (← add a ⟨u, v.id⟩) ("add " ++ u.name)
      addUpdates us

def commit (updates : List Update) (flags : Nat) : Proc State Failure Unit := do
  require (← alloc a) (.memoryError "drmModeAtomicAlloc")
  ensuring (do
      addUpdates a updates
      check (← atomicCommit a flags) "atomic commit")
    (release .request)

/-! ## The script -/

def print : Proc State Failure Unit := do
  require (decide (0 ≤ (← result a))) (.osError "print")

/-- The writes of `clear_failed`. -/
def disabling (args : Args) : List Update :=
  [⟨args.primary, objectPlane, "FB_ID", 0⟩, ⟨args.primary, objectPlane, "CRTC_ID", 0⟩,
    ⟨args.connector, objectConnector, "CRTC_ID", 0⟩, ⟨args.crtc, objectCrtc, "ACTIVE", 0⟩,
    ⟨args.crtc, objectCrtc, "MODE_ID", 0⟩]

/-- The writes of the profile. -/
def writes (args : Args) : List Update :=
  (profiles args.profile).map fun p => ⟨args.connector, objectConnector, p.1, p.2⟩

/-- The last loop of `prepare`. -/
def readBack (actual : Dict) : List (String × Nat) → Proc State Failure Unit
  | [] => pure ()
  | p :: rest => do
      print a
      require (valueOf actual p.1 == some p.2) (.runtimeError ("Readback mismatch: " ++ p.1))
      readBack actual rest

/-- The block under `clear_failed`. -/
def clearFailed (args : Args) : Proc State Failure Unit :=
  if args.clearFailed then do
    commit a (disabling args) allowModeset
    print a
  else pure ()

def prepare (args : Args) : Proc State Failure Unit := do
  let connectorProps ← properties a args.connector objectConnector
  require (sdiProperties.all fun p => (connectorProps.lookup p.1).isSome)
    (.runtimeError "Connector is not the expected SDI connector")
  let primaryProps ← properties a args.primary objectPlane
  require (valueOf primaryProps "type" == some 1) (.runtimeError "Selected plane is not primary")
  let currentCrtc := (valueOf connectorProps "CRTC_ID").getD 0
  require (currentCrtc == 0 || currentCrtc == args.crtc)
    (.runtimeError "Connector attached to a different CRTC")
  clearFailed a args
  let crtcProps ← properties a args.crtc objectCrtc
  require (valueOf crtcProps "ACTIVE" == some 0)
    (.runtimeError "CRTC must be inactive before preparing properties")
  commit a (writes args) 0
  let actual ← properties a args.connector objectConnector
  readBack a actual (profiles args.profile)

/-- `text.strip()`. -/
def strip (text : String) : List Char :=
  (text.toList.dropWhile Rate.isSpace).rdropWhile Rate.isSpace

def checkHost (host : Host) (args : Args) : Proc State Failure Unit := do
  let product ← demand host.product (.osError "product")
  require (product.rdropWhile (· == 0) == "SC6F0 SDI Dante RX".toUTF8.toList)
    (.systemExit "REFUSE: wrong product")
  let bootId ← demand host.bootId (.osError "boot_id")
  require (strip bootId == args.bootId.toList)
    (.systemExit "REFUSE: boot changed; refresh identity/DRM IDs")
  let pidof ← demand host.pidof (.osError "pidof")
  require (pidof != 0) (.systemExit "REFUSE: competing App/modetest")
  let fuser ← demand host.fuser (.osError "fuser")
  require (fuser == 1) (.systemExit "REFUSE: DRM is in use or fuser failed")

def main (host : Host) (args : Args) : Proc State Failure Unit := do
  checkHost host args
  openDrm a
  ensuring (prepare a args) (release .fd)
  print a

end Script

/-! ## What a run guarantees -/

/-- What the script commits, where nothing fails. -/
def planned (args : Args) : List Effect :=
  (if args.clearFailed then [.commit (disabling args) allowModeset] else []) ++
    [.commit (writes args) 0]

/-- The connector was read as an SDI connector that no other CRTC uses, and the plane as a primary
one. -/
structure Checked (args : Args) (tr : List Event) : Prop where
  connector : ∃ d, .read args.connector objectConnector d ∈ tr ∧
    (∀ p ∈ sdiProperties, (d.lookup p.1).isSome) ∧
    ((valueOf d "CRTC_ID").getD 0 = 0 ∨ (valueOf d "CRTC_ID").getD 0 = args.crtc)
  primary : ∃ d, .read args.primary objectPlane d ∈ tr ∧ valueOf d "type" = some 1

/-- The CRTC was read inactive, and nothing was committed since. -/
def Idle (args : Args) (tr : List Event) : Prop :=
  ∃ before d after, tr = before ++ .read args.crtc objectCrtc d :: after ∧
    valueOf d "ACTIVE" = some 0 ∧ effects after = []

/-- Before each commit the output was checked, its ids were read, and where it writes the profile
the CRTC was idle. -/
def Guarded (args : Args) (tr : List Event) : Prop :=
  ∀ before c after, tr = before ++ .commit c :: after →
    Checked args before ∧ (∀ e ∈ c.request, Resolved before e) ∧ (c.flags = 0 → Idle args before)

/-- The board is the named one, in the same boot, and nobody else uses the output. -/
structure Reserved (host : Host) (args : Args) : Prop where
  product : ∃ bytes, host.product = some bytes ∧
    bytes.rdropWhile (· == 0) = "SC6F0 SDI Dante RX".toUTF8.toList
  bootId : ∃ text, host.bootId = some text ∧ strip text = args.bootId.toList
  pidof : ∃ n, host.pidof = some n ∧ n ≠ 0
  fuser : host.fuser = some 1

/-- The last thing that the script did was to read back the profile. -/
def ReadBack (args : Args) (tr : List Event) : Prop :=
  ∃ before d, tr = before ++ [.read args.connector objectConnector d] ∧
    ∀ p ∈ profiles args.profile, valueOf d p.1 = some p.2

/-- What a run guarantees, whatever the driver answers. -/
structure Outcome (host : Host) (args : Args) (r : Except Failure Unit) (s : State) : Prop where
  reserved : s.actions ≠ [] → Reserved host args
  released : World.empty.exec s.actions = some World.empty
  guarded : Guarded args s.trace
  follows : Follows (planned args) s.trace
  complete : r = .ok () → Fulfills (planned args) s.trace ∧ ReadBack args s.trace

/-! ## Traces -/

section Trace

variable {args : Args} {tr : List Event} {d : Dict} {c : Commit} {done : List Effect}

theorem stable_checked : Stable (Checked args) := by
  rintro tr obj kind d ⟨⟨d₁, h₁, hd₁⟩, d₂, h₂, hd₂⟩
  exact ⟨⟨d₁, List.mem_append_left _ h₁, hd₁⟩, d₂, List.mem_append_left _ h₂, hd₂⟩

theorem stable_idle : Stable (Idle args) := by
  rintro tr obj kind d ⟨before, d', after, rfl, hd', hafter⟩
  refine ⟨before, d', after ++ [.read obj kind d], ?_, hd', ?_⟩
  · rw [List.append_assoc]
    rfl
  · rw [effects_read, hafter]

theorem idle_read (h : valueOf d "ACTIVE" = some 0) :
    Idle args (tr ++ [.read args.crtc objectCrtc d]) :=
  ⟨tr, d, [], rfl, h, rfl⟩

theorem stable_guarded : Stable (Guarded args) := by
  intro tr obj kind d hg before c after hsplit
  rcases split_snoc hsplit with ⟨-, hcon⟩ | ⟨after', hsplit⟩
  · cases hcon
  · exact hg before c after' hsplit

theorem Guarded.commit (hg : Guarded args tr) (hchecked : Checked args tr)
    (hres : ∀ e ∈ c.request, Resolved tr e) (hidle : c.flags = 0 → Idle args tr) :
    Guarded args (tr ++ [.commit c]) := by
  intro before c' after hsplit
  rcases split_snoc hsplit with ⟨rfl, hc⟩ | ⟨after', hsplit⟩
  · obtain rfl := Event.commit.inj hc
    exact ⟨hchecked, hres, hidle⟩
  · exact hg before c' after' hsplit

/-- The output is checked, and `done` is done, with success. -/
structure Stage (args : Args) (done : List Effect) (tr : List Event) : Prop where
  checked : Checked args tr
  guarded : Guarded args tr
  fulfills : Fulfills done tr

theorem stable_stage : Stable (Stage args done) :=
  fun tr obj kind d h =>
    ⟨stable_checked tr obj kind d h.checked, stable_guarded tr obj kind d h.guarded,
      stable_fulfills tr obj kind d h.fulfills⟩

/-- What holds wherever the script stops. -/
structure Progress (args : Args) (tr : List Event) : Prop where
  guarded : Guarded args tr
  follows : Follows (planned args) tr

theorem Stage.progress (h : Stage args done tr) (hdone : done <+: planned args) :
    Progress args tr :=
  ⟨h.guarded, h.fulfills.follows hdone⟩

/-- The next commit, where it succeeds and where it fails. -/
theorem Stage.commit {effect : Effect} (h : Stage args done tr)
    (hmatch : effect.Matches (.commit c)) (hres : ∀ e ∈ c.request, Resolved tr e)
    (hidle : c.flags = 0 → Idle args tr)
    (hdone : done ++ [effect] <+: planned args) :
    (c.ok = true → Stage args (done ++ [effect]) (tr ++ [.commit c])) ∧
      Progress args (tr ++ [.commit c]) := by
  have hguarded := h.guarded.commit h.checked hres hidle
  refine ⟨fun hok => ⟨?_, hguarded, h.fulfills.snoc hmatch hok⟩,
    ⟨hguarded, h.fulfills.follows_snoc hmatch hdone⟩⟩
  obtain ⟨⟨d₁, h₁, hd₁⟩, d₂, h₂, hd₂⟩ := h.checked
  exact ⟨⟨d₁, List.mem_append_left _ h₁, hd₁⟩, d₂, List.mem_append_left _ h₂, hd₂⟩

end Trace

/-! ## The requests -/

section Specs

variable {a : Answers} {args : Args} {T T' F : List Event → Prop} {updates done : List Update}
  {flags : Nat}

/-- The request in hand contains `done` so far. -/
def Filling (T : List Event → Prop) (done : List Update) (s : State) : Prop :=
  ∃ tr w, At [.request, .fd] tr w s ∧ T tr ∧ w.request.map Entry.update = done ∧
    ∀ e ∈ w.request, Resolved tr e

/-- One turn of the loop: the read of the object, with what it returned. -/
theorem meets_readFor (hT : Stable T) (u : Update) :
    Meets (Filling T done) (properties a u.obj u.kind)
      (fun d s => ∃ tr w, At [.request, .fd] (tr ++ [.read u.obj u.kind d]) w s ∧
        T (tr ++ [.read u.obj u.kind d]) ∧ w.request.map Entry.update = done ∧
        ∀ e ∈ w.request, Resolved (tr ++ [.read u.obj u.kind d]) e)
      fun _ => On [.request, .fd] T := by
  refine Meets.of_forall ?_
  rintro s ⟨tr, w, hat, htr, hreq, hres⟩
  refine (readProperties_spec (by simp) (by simp)).weaken
    (fun t ht => ht ▸ hat) (fun d t hat' => ?_) fun _ t hat' => ⟨tr, w, hat', htr⟩
  exact ⟨tr, w, hat', hT _ _ _ _ htr, hreq, fun e he => (hres e he).mono⟩

theorem addUpdates_spec (hT : Stable T) (us : List Update) :
    ∀ done, Meets (Filling T done) (addUpdates a us) (fun _ => Filling T (done ++ us))
      fun _ => On [.request, .fd] T := by
  induction us with
  | nil =>
      intro done
      rw [List.append_nil]
      exact meets_pure fun _ h => h
  | cons u us ih =>
      intro done
      refine Meets.bind (meets_readFor hT u) fun d => ?_
      refine meets_exists fun tr => meets_exists fun w => ?_
      refine Meets.before (P := fun s => (T (tr ++ [.read u.obj u.kind d]) ∧
          w.request.map Entry.update = done ∧
          ∀ e ∈ w.request, Resolved (tr ++ [.read u.obj u.kind d]) e) ∧
          At [.request, .fd] (tr ++ [.read u.obj u.kind d]) w s) ?_ fun s h => ⟨h.2, h.1⟩
      refine meets_assume fun ⟨htr, hreq, hres⟩ => ?_
      have hon : ∀ (f : Failure) s, At [.request, .fd] (tr ++ [.read u.obj u.kind d]) w s →
          On [.request, .fd] T s := fun _ s hat => ⟨_, w, hat, htr⟩
      refine Meets.bind (meets_demand_at.raising hon) fun v => meets_assume fun hv => ?_
      refine Meets.bind (meets_add ⟨u, v.id⟩) fun n => ?_
      -- the entry is in the request where the call succeeded
      have hnext : Meets (Filling T (done ++ [u])) (addUpdates a us)
          (fun _ => Filling T (done ++ u :: us)) fun _ => On [.request, .fd] T := by
        have happend := ih (done ++ [u])
        rwa [List.append_assoc] at happend
      refine Meets.bind (Q := fun _ => Filling T (done ++ [u])) (meets_require ?_ ?_)
        fun _ => hnext
      · intro s hs hok
        rw [if_neg (not_lt.mpr (of_decide_eq_true hok))] at hs
        refine ⟨_, _, hs, htr, ?_, ?_⟩
        · rw [List.map_append, hreq]
          rfl
        · rw [List.forall_mem_append]
          refine ⟨hres, fun e he => ?_⟩
          obtain rfl := List.mem_singleton.mp he
          exact ⟨d, v, List.mem_append_right _ List.mem_cons_self, hv, rfl⟩
      · intro s hs hno
        rw [if_pos (not_le.mp (of_decide_eq_false hno))] at hs
        exact hon .unicodeDecodeError s hs

/-- The rule of `commit`: what the trace has before it, where it succeeds, and where anything
fails. -/
theorem commit_spec (hT : Stable T) (hfail : ∀ tr, T tr → F tr)
    (hcommit : ∀ tr c, T tr → (Effect.commit updates flags).Matches (.commit c) →
      (∀ e ∈ c.request, Resolved tr e) →
      (c.ok = true → T' (tr ++ [.commit c])) ∧ F (tr ++ [.commit c])) :
    Meets (On [.fd] T) (commit a updates flags) (fun _ => On [.fd] T') fun _ => On [.fd] F := by
  unfold commit
  rw [← Proc.bind_assoc]
  refine Meets.bind ((on_alloc (by simp)).raising fun _ _ hon => hon.imp hfail) fun _ => ?_
  refine Meets.before (P := Filling T []) (meets_giveBack ?_) ?_
  · refine Meets.bind ((addUpdates_spec hT updates []).raising
      fun _ s hon => (hon.imp hfail).destroy) fun _ => ?_
    refine meets_exists fun tr => meets_exists fun w => ?_
    refine Meets.before (P := fun s => (T tr ∧ w.request.map Entry.update = [] ++ updates ∧
        ∀ e ∈ w.request, Resolved tr e) ∧ At [.request, .fd] tr w s) ?_ fun s h => ⟨h.2, h.1⟩
    refine meets_assume fun ⟨htr, hreq, hres⟩ => ?_
    refine Meets.bind (meets_atomicCommit flags) fun n => ?_
    have hnext := hcommit tr ⟨w.request, flags, 0 ≤ n⟩ htr ⟨hreq, rfl⟩ hres
    refine meets_require ?_ ?_
    · exact fun s hat hok => ⟨_, w, hat.destroy, hnext.1 hok⟩
    · exact fun s hat _ => ⟨_, w, hat.destroy, hnext.2⟩
  · rintro s ⟨tr, w, hat, hempty, htr⟩
    refine ⟨tr, w, hat, htr, ?_, fun e he => ?_⟩
    · rw [hempty]
      rfl
    · rw [hempty] at he
      cases he

/-! ## The script -/

theorem print_spec {hs : List Handle} :
    Meets (On hs T) (print a) (fun _ => On hs T) fun _ => On hs T :=
  on_result_require

/-- The profile is read back as it was written. -/
theorem readBack_spec {hs : List Handle} {actual : Dict} (ps : List (String × Nat)) :
    Meets (On hs T) (readBack a actual ps)
      (fun _ s => (∀ p ∈ ps, valueOf actual p.1 = some p.2) ∧ On hs T s) fun _ => On hs T := by
  induction ps with
  | nil => exact meets_pure fun s hon => ⟨fun p hp => absurd hp List.not_mem_nil, hon⟩
  | cons p ps ih =>
      refine Meets.bind print_spec fun _ => Meets.bind on_require fun _ => ?_
      refine meets_assume fun hp => ih.returning fun _ s hps => ⟨?_, hps.2⟩
      rw [List.forall_mem_cons]
      exact ⟨beq_iff_eq.mp hp, hps.1⟩

/-- Nothing is committed yet. -/
def Untouched (tr : List Event) : Prop := effects tr = []

theorem stable_untouched : Stable Untouched := by
  intro tr obj kind d h
  rw [Untouched, effects_read]
  exact h

theorem Untouched.guarded {tr : List Event} (h : Untouched tr) : Guarded args tr := by
  rintro before c after rfl
  simp [Untouched, effects, Event.isEffect] at h

theorem Untouched.progress {tr : List Event} (h : Untouched tr) : Progress args tr :=
  ⟨h.guarded, (fulfills_nil h).follows List.nil_prefix⟩

/-- What is committed before the profile. -/
def cleared (args : Args) : List Effect :=
  if args.clearFailed then [.commit (disabling args) allowModeset] else []

theorem clearFailed_spec :
    Meets (On [.fd] (Stage args [])) (clearFailed a args)
      (fun _ => On [.fd] (Stage args (cleared args)))
      fun _ => On [.fd] (Progress args) := by
  unfold clearFailed cleared
  cases hclear : args.clearFailed with
  | false => exact meets_pure fun _ hon => hon
  | true =>
      have hplan : [.commit (disabling args) allowModeset] <+: planned args := by
        rw [planned, hclear]
        exact List.prefix_append _ _
      refine Meets.bind
        (Q := fun _ => On [.fd] (Stage args [.commit (disabling args) allowModeset]))
        (commit_spec stable_stage ?_ ?_) fun _ => print_spec.raising ?_
      · exact fun tr h => h.progress List.nil_prefix
      · intro tr c h hmatch hres
        refine h.commit hmatch hres (fun hzero => ?_) hplan
        exact absurd (hmatch.2.symm.trans hzero) (by decide)
      · exact fun _ s hon => hon.imp fun tr h => h.progress hplan

/-- The profile is committed where the CRTC is idle. -/
theorem commitWrites_spec :
    Meets (On [.fd] fun tr => Stage args (cleared args) tr ∧ Idle args tr)
      (commit a (writes args) 0) (fun _ => On [.fd] (Stage args (planned args)))
      fun _ => On [.fd] (Progress args) := by
  refine commit_spec (stable_stage.and stable_idle) ?_ ?_
  · exact fun tr h => h.1.progress (List.prefix_append _ _)
  · exact fun tr c h hmatch hres => h.1.commit hmatch hres (fun _ => h.2) (List.prefix_refl _)

/-- The checks of the output, before anything is committed. -/
theorem checked_of_reads {tr : List Event} {connectorProps primaryProps : Dict}
    (hconnector : .read args.connector objectConnector connectorProps ∈ tr)
    (hprimary : .read args.primary objectPlane primaryProps ∈ tr)
    (hsdi : (sdiProperties.all fun p => (connectorProps.lookup p.1).isSome) = true)
    (htype : (valueOf primaryProps "type" == some 1) = true)
    (hcrtc : ((valueOf connectorProps "CRTC_ID").getD 0 == 0 ||
      (valueOf connectorProps "CRTC_ID").getD 0 == args.crtc) = true) : Checked args tr := by
  rw [Bool.or_eq_true, beq_iff_eq, beq_iff_eq] at hcrtc
  exact ⟨⟨connectorProps, hconnector, List.all_eq_true.mp hsdi, hcrtc⟩,
    primaryProps, hprimary, beq_iff_eq.mp htype⟩

theorem prepare_spec :
    Meets (On [.fd] fun tr => tr = []) (prepare a args)
      (fun _ => On [.fd] fun tr => Progress args tr ∧ Fulfills (planned args) tr ∧ ReadBack args tr)
      fun _ => On [.fd] (Progress args) := by
  have hfail : ∀ {T : List Event → Prop}, (∀ tr, T tr → Untouched tr) → ∀ (f : Failure) s,
      On [.fd] T s → On [.fd] (Progress args) s :=
    fun hT _ s hon => hon.imp fun tr htr => (hT tr htr).progress
  unfold prepare
  refine Meets.bind ((on_readProperties (D := fun d tr => Untouched tr ∧
      .read args.connector objectConnector d ∈ tr) (by simp) (by simp) ?_).raising
    (hfail ?_)) fun connectorProps => ?_
  · rintro tr d rfl
    exact ⟨rfl, List.mem_cons_self⟩
  · rintro tr rfl
    rfl
  refine Meets.bind (on_require.raising (hfail fun tr h => h.1)) fun _ => ?_
  refine meets_assume fun hsdi => ?_
  refine Meets.bind ((on_readProperties (D := fun d tr => Untouched tr ∧
      .read args.connector objectConnector connectorProps ∈ tr ∧
      .read args.primary objectPlane d ∈ tr) (by simp) (by simp) ?_).raising
    (hfail fun tr h => h.1)) fun primaryProps => ?_
  · rintro tr d ⟨hclean, hread⟩
    exact ⟨stable_untouched _ _ _ _ hclean, List.mem_append_left _ hread,
      List.mem_append_right _ List.mem_cons_self⟩
  refine Meets.bind (on_require.raising (hfail fun tr h => h.1)) fun _ => ?_
  refine meets_assume fun htype => ?_
  refine Meets.bind (on_require.raising (hfail fun tr h => h.1)) fun _ => ?_
  refine meets_assume fun hcrtc => ?_
  refine Meets.before (P := On [.fd] (Stage args [])) ?_ fun s hon => hon.imp fun tr h =>
    ⟨checked_of_reads h.2.1 h.2.2 hsdi htype hcrtc, h.1.guarded, fulfills_nil h.1⟩
  refine Meets.bind clearFailed_spec fun _ => ?_
  have hcleared : ∀ tr, Stage args (cleared args) tr → Progress args tr :=
    fun tr h => h.progress (List.prefix_append _ _)
  refine Meets.bind ((on_readProperties (D := fun d tr => Stage args (cleared args) tr ∧
      ∃ before, tr = before ++ [.read args.crtc objectCrtc d]) (by simp) (by simp) ?_).raising
    fun _ s hon => hon.imp hcleared) fun crtcProps => ?_
  · exact fun tr d h => ⟨stable_stage _ _ _ _ h, tr, rfl⟩
  refine Meets.bind (on_require.raising fun _ s hon => hon.imp fun tr h => hcleared tr h.1)
    fun _ => meets_assume fun hactive => ?_
  refine Meets.before (P := On [.fd] fun tr => Stage args (cleared args) tr ∧ Idle args tr) ?_ ?_
  · refine Meets.bind commitWrites_spec fun _ => ?_
    have hdone : ∀ tr, Stage args (planned args) tr → Progress args tr :=
      fun tr h => h.progress (List.prefix_refl _)
    refine Meets.bind ((on_readProperties (D := fun d tr => Stage args (planned args) tr ∧
        ∃ before, tr = before ++ [.read args.connector objectConnector d]) (by simp) (by simp)
        ?_).raising fun _ s hon => hon.imp hdone) fun actual => ?_
    · exact fun tr d h => ⟨stable_stage _ _ _ _ h, tr, rfl⟩
    refine (readBack_spec _).weaken (fun _ => id) ?_ ?_
    · rintro _ s ⟨hback, hon⟩
      refine hon.imp fun tr h => ⟨hdone tr h.1, h.1.fulfills, ?_⟩
      obtain ⟨before, rfl⟩ := h.2
      exact ⟨before, actual, rfl, hback⟩
    · exact fun _ s hon => hon.imp fun tr h => hdone tr h.1
  · rintro s hon
    refine hon.imp ?_
    rintro tr ⟨h, before, rfl⟩
    exact ⟨h, idle_read (beq_iff_eq.mp hactive)⟩

/-! ## The whole script -/

theorem openDrm_spec :
    Meets (On [] fun tr => tr = []) (openDrm a) (fun _ => On [.fd] fun tr => tr = [])
      fun _ => On [] fun tr => tr = [] := by
  have hcheck : ∀ label, Meets (On [.fd] fun tr => tr = [])
      (result a >>= fun n => check n label) (fun _ => On [.fd] fun tr => tr = [])
      fun _ => On [.fd] fun tr => tr = [] := fun label => on_result_require
  unfold openDrm handOut
  rw [← Proc.bind_assoc]
  refine Meets.bind (Q := fun _ => On [.fd] fun tr => tr = []) ?_ fun _ => ?_
  · rintro s ⟨tr, w, hat, htr⟩
    refine (meets_check_obtain (h := .fd) (by simp) (fun s => ?_) s hat).imp ?_ ?_
    · cases a.found s.turn with
      | false => exact .inl rfl
      | true => exact .inr rfl
    · exact fun _ s hat => ⟨tr, w, hat, htr⟩
    · exact fun _ s hat => ⟨tr, w, hat, htr⟩
  · have hclose : Meets (On [.fd] fun tr => tr = []) (release .fd)
        (fun _ => On [] fun tr => tr = []) fun _ => On [] fun tr => tr = [] :=
      meets_update fun s hon => hon.destroy
    refine Meets.rescuing ?_ fun _ => hclose
    rw [← Proc.bind_assoc]
    refine Meets.bind (hcheck _) fun _ => ?_
    rw [← Proc.bind_assoc]
    exact Meets.bind (hcheck _) fun _ => hcheck _

theorem checkHost_spec {host : Host} {P : State → Prop} :
    Meets P (checkHost host args) (fun _ s => Reserved host args ∧ P s) fun _ => P := by
  have hdemand : ∀ {α : Type} (o : Option α) (f : Failure), Meets P (demand o f)
      (fun v s => o = some v ∧ P s) fun _ => P :=
    fun o f => meets_demand (fun _ _ hs ho => ⟨ho, hs⟩) fun _ hs _ => hs
  have hrequire : ∀ (ok : Bool) (f : Failure), Meets P (require ok f)
      (fun _ s => ok = true ∧ P s) fun _ => P :=
    fun ok f => meets_require (fun _ hs hok => ⟨hok, hs⟩) fun _ hs _ => hs
  refine Meets.bind (hdemand _ _) fun product => meets_assume fun hproduct => ?_
  refine Meets.bind (hrequire _ _) fun _ => meets_assume fun hnamed => ?_
  refine Meets.bind (hdemand _ _) fun bootId => meets_assume fun hbootId => ?_
  refine Meets.bind (hrequire _ _) fun _ => meets_assume fun hsame => ?_
  refine Meets.bind (hdemand _ _) fun pidof => meets_assume fun hpidof => ?_
  refine Meets.bind (hrequire _ _) fun _ => meets_assume fun halone => ?_
  refine Meets.bind (hdemand _ _) fun fuser => meets_assume fun hfuser => ?_
  refine (hrequire _ _).returning fun _ s hunused => ⟨⟨⟨product, hproduct, ?_⟩,
    ⟨bootId, hbootId, ?_⟩, ⟨pidof, hpidof, ?_⟩, ?_⟩, hunused.2⟩
  · exact beq_iff_eq.mp hnamed
  · exact beq_iff_eq.mp hsame
  · exact bne_iff_ne.mp halone
  · rw [hfuser, beq_iff_eq.mp hunused.1]

theorem outcome_of_on {host : Host} {r : Except Failure Unit} {s : State}
    (hreserved : Reserved host args)
    (hon : On [] (fun tr => Progress args tr ∧
      (r = .ok () → Fulfills (planned args) tr ∧ ReadBack args tr)) s) :
    Outcome host args r s := by
  obtain ⟨tr, w, hat, hprogress, hcomplete⟩ := hon
  obtain rfl := hat.trace
  exact ⟨fun _ => hreserved, hat.held, hprogress.guarded, hprogress.follows, hcomplete⟩

theorem main_spec (host : Host) :
    Meets (fun s => s = State.start) (main a host args) (fun _ => Outcome host args (.ok ()))
      fun f => Outcome host args (.error f) := by
  refine Meets.bind (checkHost_spec.raising ?_) fun _ => meets_assume fun hreserved => ?_
  · rintro f s rfl
    have hprogress : Progress args [] := Untouched.progress rfl
    exact ⟨fun hne => absurd rfl hne, rfl, hprogress.guarded, hprogress.follows, nofun⟩
  have hfail : ∀ (f : Failure) s, On [] (Progress args) s → Outcome host args (.error f) s :=
    fun f s hon => outcome_of_on hreserved (hon.imp fun tr h => ⟨h, nofun⟩)
  refine Meets.before (P := On [] fun tr => tr = []) ?_ ?_
  · refine Meets.bind (openDrm_spec.raising fun f s hon => hfail f s (hon.imp ?_)) fun _ => ?_
    · rintro tr rfl
      exact Untouched.progress rfl
    refine Meets.bind (Q := fun _ => On [] fun tr => Progress args tr ∧
      Fulfills (planned args) tr ∧ ReadBack args tr)
      (meets_giveBack ?_) fun _ => ?_
    · exact prepare_spec.weaken (fun _ => id) (fun _ s hon => hon.destroy)
        fun f s hon => hfail f _ hon.destroy
    · refine print_spec.weaken (fun _ => id) ?_ ?_
      · exact fun _ s hon => outcome_of_on hreserved (hon.imp fun tr h => ⟨h.1, fun _ => h.2⟩)
      · exact fun f s hon => hfail f s (hon.imp fun tr h => h.1)
  · rintro s rfl
    exact ⟨[], {}, at_start, rfl⟩

/-- **Nothing is written before the output is checked.** Whatever the driver answers, the script
commits what it plans, in order and with the ids that it read, the profile only while the CRTC is
idle; it ends well only if the profile reads back; and it gives back all that it was handed. -/
theorem prepare_outcome (a : Answers) (host : Host) (args : Args) :
    Outcome host args (main a host args State.start).1 (main a host args State.start).2 := by
  have hend : Ends (fun _ => Outcome host args (.ok ())) (fun f => Outcome host args (.error f))
      (main a host args State.start) := main_spec host _ rfl
  generalize main a host args State.start = run at hend ⊢
  obtain ⟨f | u, s⟩ := run
  · exact hend
  · exact hend

end Specs

end Prepare

end QcapDemos.Diag
