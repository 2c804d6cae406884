import QcapDemos.Rate.Modeset

set_option autoImplicit false

/-! # Reading the output

The first part of the script only reads. On every way out it has given back the lists, properties
and blobs that libdrm handed out, and nothing has changed but the two dictionaries that it
remembers.
-/

namespace QcapDemos.Rate

open QcapDemos.Lib Proc

/-! ## What is held -/

/-- The handles of `hs` are held, the latest first, and all others are given back. -/
def Held (hs : List Handle) (s : State) : Prop := World.empty.exec s.actions = some ⟨hs, []⟩

section Held

variable {hs : List Handle} {s : State} {h : Handle}

theorem Held.create (hheld : Held hs s) (hnew : h ∉ hs) : Held (h :: hs) (s.act (.create h)) := by
  show World.empty.exec (s.actions ++ [.create h]) = _
  have hstep : World.step ⟨hs, []⟩ (.create h) = some ⟨h :: hs, []⟩ :=
    World.step_create_iff.mpr ⟨hnew, rfl⟩
  rw [World.exec_append, hheld, Option.bind_some, World.exec_cons, hstep]
  rfl

theorem Held.destroy (hheld : Held (h :: hs) s) : Held hs (s.act (.destroy h)) := by
  show World.empty.exec (s.actions ++ [.destroy h]) = _
  have hstep : World.step ⟨h :: hs, []⟩ (.destroy h) = some ⟨hs, []⟩ :=
    World.step_destroy_iff.mpr ⟨⟨List.mem_cons_self, List.not_mem_nil⟩, by simp⟩
  rw [World.exec_append, hheld, Option.bind_some, World.exec_cons, hstep]
  rfl

end Held

/-! ## Programs that only read -/

/-- Nothing is changed yet, and the variables hold the dictionaries `c` and `k`. -/
structure Reading (d₀ : Driver) (c k : Dict) (hs : List Handle) (s : State) : Prop where
  connector : s.connector = c
  crtc : s.crtc = k
  request : s.request = none
  disableRequest : s.disableRequest = none
  newBlob : s.newBlob = 0
  driver : s.driver = d₀
  entries : ∀ h, s.entries h = []
  commits : s.commits = []
  held : Held hs s

section Reads

variable {α β : Type} {d₀ : Driver} {c k : Dict} {hs : List Handle} {h : Handle}

theorem Reading.create {s : State} (hs' : Reading d₀ c k hs s) (hnew : h ∉ hs) :
    Reading d₀ c k (h :: hs) (s.act (.create h)) :=
  { hs' with held := hs'.held.create hnew }

theorem Reading.destroy {s : State} (hs' : Reading d₀ c k (h :: hs) s) :
    Reading d₀ c k hs (s.act (.destroy h)) :=
  { hs' with held := hs'.held.destroy }

/-- The program leaves all as it is, and what it returns has `A`. -/
def Reads (d₀ : Driver) (c k : Dict) (hs : List Handle) (p : Proc State Failure α)
    (A : α → Prop) : Prop :=
  Meets (Reading d₀ c k hs) p (fun a s => A a ∧ Reading d₀ c k hs s) fun _ => Reading d₀ c k hs

theorem reads_pure {A : α → Prop} {a : α} (ha : A a) : Reads d₀ c k hs (pure a) A :=
  meets_pure fun _ hs' => ⟨ha, hs'⟩

theorem reads_require {ok : Bool} {e : Failure} :
    Reads d₀ c k hs (require ok e) fun _ => ok = true :=
  meets_require (fun _ hs' hok => ⟨hok, hs'⟩) fun _ hs' _ => hs'

theorem reads_demand {o : Option α} {e : Failure} :
    Reads d₀ c k hs (demand o e) fun a => o = some a :=
  meets_demand (fun _ _ hs' ho => ⟨ho, hs'⟩) fun _ hs' _ => hs'

theorem Reads.bind {p : Proc State Failure α} {f : α → Proc State Failure β} {A : α → Prop}
    {B : β → Prop} (hp : Reads d₀ c k hs p A) (hf : ∀ a, A a → Reads d₀ c k hs (f a) B) :
    Reads d₀ c k hs (p >>= f) B :=
  Meets.bind hp fun a => meets_assume fun ha => hf a ha

/-- A program on what a call hands out, which gives it back in the end. -/
theorem reads_borrow {f : State → Option α × State} {e : Failure} {rest : α → Proc State Failure β}
    {A : α → Prop} {B : β → Prop} (hnew : h ∉ hs)
    (hf : ∀ s, Reading d₀ c k hs s → f s = (none, s) ∨ ∃ a, f s = (some a, s.act (.create h)) ∧ A a)
    (hrest : ∀ a, A a → Meets (Reading d₀ c k (h :: hs)) (rest a)
      (fun b s => B b ∧ Reading d₀ c k hs s) fun _ => Reading d₀ c k hs) :
    Reads d₀ c k hs (call f >>= fun o => demand o e >>= rest) B := by
  refine Meets.bind (Q := fun o s => (o = none ∧ Reading d₀ c k hs s) ∨
      ∃ a, o = some a ∧ A a ∧ Reading d₀ c k (h :: hs) s) (meets_call ?_) ?_
  · intro s hs'
    rcases hf s hs' with hnone | ⟨a, hsome, ha⟩
    · rw [hnone]
      exact .inl ⟨rfl, hs'⟩
    · rw [hsome]
      exact .inr ⟨a, rfl, ha, hs'.create hnew⟩
  · intro o
    refine Meets.bind (Q := fun a s => A a ∧ Reading d₀ c k (h :: hs) s) (meets_demand ?_ ?_) ?_
    · rintro s a (⟨rfl, -⟩ | ⟨a', rfl, ha, hs'⟩) ho
      · cases ho
      · obtain rfl := Option.some.inj ho
        exact ⟨ha, hs'⟩
    · rintro s (⟨-, hs'⟩ | ⟨a, rfl, -⟩) ho
      · exact hs'
      · cases ho
    · exact fun a => meets_assume fun ha => hrest a ha

/-- The end of such a program. -/
theorem meets_giveBack {p : Proc State Failure α} {A : α → Prop}
    (hp : Reads d₀ c k (h :: hs) p A) :
    Meets (Reading d₀ c k (h :: hs)) (ensuring p (release h))
      (fun a s => A a ∧ Reading d₀ c k hs s) fun _ => Reading d₀ c k hs := by
  refine Meets.ensuring hp (fun a => ?_) fun e => ?_
  · exact meets_update fun s hs' => ⟨hs'.1, hs'.2.destroy⟩
  · exact meets_update fun s hs' => hs'.destroy

end Reads

/-! ## The properties of an object -/

section Properties

variable {t : Tables} {calls : Calls} {d₀ : Driver} {c k : Dict} {hs : List Handle}

/-- The last value in the list whose property has the name. -/
def lastNamed (t : Tables) (name : String) (vs : List Value) : Option Value :=
  vs.reverse.find? fun v => t.name v.id = some name

theorem lastNamed_cons (t : Tables) (name : String) (v : Value) (vs : List Value) :
    lastNamed t name (v :: vs)
      = (lastNamed t name vs).or (if t.name v.id = some name then some v else none) := by
  unfold lastNamed
  rw [List.reverse_cons, List.find?_append, List.find?_singleton]
  simp

/-- The last value of a name wins, and what was found before it stays for other names. -/
theorem reads_collect {obj : Nat} (hnew : ∀ i, .prop obj i ∉ hs) (vs : List Value) :
    ∀ (i : Nat) (acc : Dict), Reads d₀ c k hs (collect t calls obj i vs acc) fun dict =>
      ∀ name, dict.lookup name = (lastNamed t name vs).or (acc.lookup name) := by
  induction vs with
  | nil => intro i acc; exact reads_pure fun name => rfl
  | cons v vs ih =>
      intro i acc
      refine reads_borrow (A := fun p => p = ⟨v.id, t.name v.id⟩) (hnew i) ?_ ?_
      · intro s hs'
        cases calls.getProp obj i with
        | false => exact .inl rfl
        | true => exact .inr ⟨_, rfl, rfl⟩
      · rintro p rfl
        refine Meets.bind (meets_giveBack reads_demand) fun name => meets_assume fun hname => ?_
        refine (ih (i + 1) ((name, ⟨v.id, v.value⟩) :: acc)).returning
          fun dict s hdict => ⟨fun key => ?_, hdict.2⟩
        change t.name v.id = some name at hname
        rw [hdict.1 key, lastNamed_cons, Option.or_assoc, List.lookup_cons]
        by_cases hkey : key = name
        · simp [hkey, hname]
        · have hne : ¬ name = key := fun hcon => hkey hcon.symm
          rw [beq_false_of_ne hkey]
          simp [hname, hne]

/-- `properties` returns what the driver has under each name. -/
theorem reads_properties {obj : Nat} (hnew : .props obj ∉ hs) (hnew' : ∀ i, .prop obj i ∉ hs) :
    Reads d₀ c k hs (properties t calls obj) fun dict =>
      ∀ name, dict.lookup name = d₀.property t obj name := by
  refine reads_borrow (h := .props obj)
    (A := fun vs => vs = (t.props obj).map fun prop => ⟨prop, d₀.value t obj prop⟩) hnew ?_ ?_
  · intro s hs'
    rw [← hs'.driver]
    cases calls.getProps obj with
    | false => exact .inl rfl
    | true => exact .inr ⟨_, rfl, rfl⟩
  · rintro vs rfl
    have hnew'' : ∀ i, Handle.prop obj i ∉ Handle.props obj :: hs := by
      intro i hmem
      rcases List.mem_cons.mp hmem with hcon | hmem
      · cases hcon
      · exact hnew' i hmem
    refine (meets_giveBack (reads_collect hnew'' _ 0 [])).returning
      fun dict s hdict => ⟨fun name => ?_, hdict.2⟩
    rw [hdict.1 name, List.lookup_nil, Option.or_none, Driver.property, Tables.find, lastNamed,
      ← List.map_reverse, List.find?_map]
    rfl

end Properties

/-! ## The whole first part -/

section Output

variable {t : Tables} {calls : Calls} {d₀ : Driver} {c k : Dict} {hs : List Handle} {out : Output}

/-- What was read is what the driver had. -/
structure Found (p : Targets t) (d₀ : Driver) (out : Output) : Prop where
  isFrac : out.connector.lookup "is_frac" = some ⟨p.isFrac, d₀.isFrac⟩
  modeId : out.crtc.lookup "MODE_ID" = some ⟨p.modeId, d₀.value t crtcId p.modeId⟩
  active : out.crtc.lookup "ACTIVE" = some ⟨p.active, d₀.value t crtcId p.active⟩
  mode : out.mode = (d₀.blob (d₀.value t crtcId p.modeId % 2 ^ 32)).mode

theorem property_eq_some {obj : Nat} {name : String} {v : Value}
    (h : d₀.property t obj name = some v) :
    t.find obj name = some v.id ∧ v.value = d₀.value t obj v.id := by
  obtain ⟨prop, hprop, rfl⟩ := Option.map_eq_some_iff.mp h
  exact ⟨hprop, rfl⟩

theorem exists_found {isFrac modeId active : Value}
    (hconnector : ∀ name, out.connector.lookup name = d₀.property t connectorId name)
    (hcrtc : ∀ name, out.crtc.lookup name = d₀.property t crtcId name)
    (hfrac : out.connector.lookup "is_frac" = some isFrac)
    (hmodeId : out.crtc.lookup "MODE_ID" = some modeId)
    (hactive : out.crtc.lookup "ACTIVE" = some active)
    (hmode : out.mode = (d₀.blob (modeId.value % 2 ^ 32)).mode) :
    ∃ p : Targets t, Found p d₀ out := by
  obtain ⟨hid₁, hvalue₁⟩ := property_eq_some (hconnector _ ▸ hfrac)
  obtain ⟨hid₂, hvalue₂⟩ := property_eq_some (hcrtc _ ▸ hmodeId)
  obtain ⟨hid₃, hvalue₃⟩ := property_eq_some (hcrtc _ ▸ hactive)
  have hcached : d₀.value t connectorId isFrac.id = d₀.isFrac :=
    if_pos ⟨rfl, Tables.name_find hid₁⟩
  refine ⟨⟨isFrac.id, modeId.id, active.id, hid₁, hid₂, hid₃⟩, ?_, ?_, ?_, ?_⟩
  · rw [hfrac, ← hcached, ← hvalue₁]
  · rw [hmodeId, ← hvalue₂]
  · rw [hactive, ← hvalue₃]
  · rw [hmode, hvalue₂]

theorem reads_oldMode {modeId : Nat} (hnew : .modeBlob ∉ hs) :
    Reads d₀ c k hs (oldMode calls modeId) fun mode =>
      mode = (d₀.blob (modeId % 2 ^ 32)).mode := by
  refine reads_borrow (A := fun blob => blob = d₀.blob (modeId % 2 ^ 32)) hnew ?_ ?_
  · intro s hs'
    rw [← hs'.driver]
    cases calls.getBlob && decide (modeId % 2 ^ 32 ∈ s.driver.blobs) with
    | false => exact .inl rfl
    | true => exact .inr ⟨_, rfl, rfl⟩
  · rintro blob rfl
    exact meets_giveBack (reads_require.bind fun _ _ => reads_pure rfl)

theorem reads_key {d : Dict} {key : String} :
    Reads d₀ c k hs (d.key key) fun v => d.lookup key = some v :=
  reads_demand

/-- What is read once both dictionaries are stored. -/
theorem reads_rest (connector crtc : Dict) {f : Dict → Dict → Proc State Failure Output}
    (hf : ∀ primary overlay, Reads d₀ c k [.fd] (f primary overlay) fun out =>
      out.connector = connector ∧ out.crtc = crtc ∧ ∃ p : Targets t, Found p d₀ out) :
    Reads d₀ c k [.fd]
      (properties t calls primaryId >>= fun primary =>
        properties t calls overlayId >>= fun overlay => f primary overlay)
      fun out => out.connector = connector ∧ out.crtc = crtc ∧ ∃ p : Targets t, Found p d₀ out := by
  refine (reads_properties (by simp) (by simp)).bind fun primary _ => ?_
  exact (reads_properties (by simp) (by simp)).bind fun overlay _ => hf primary overlay

/-- **The first part.** Whether it goes through or not, nothing has changed. -/
theorem readOutput_spec :
    Meets (Reading d₀ c k [.fd]) (readOutput t calls)
      (fun out s => Reading d₀ out.connector out.crtc [.fd] s ∧ ∃ p : Targets t, Found p d₀ out)
      (fun _ s => ∃ c k, Reading d₀ c k [.fd] s) := by
  have hfail : ∀ (c k : Dict) (_ : Failure) s, Reading d₀ c k [.fd] s →
      ∃ c k, Reading d₀ c k [.fd] s := fun c k _ s hs => ⟨c, k, hs⟩
  unfold readOutput
  refine (reads_require.raising (hfail c k)).bind fun _ => meets_assume fun _ => ?_
  refine (reads_require.raising (hfail c k)).bind fun _ => meets_assume fun _ => ?_
  refine ((reads_properties (by simp) (by simp)).raising (hfail c k)).bind fun connector => ?_
  refine (meets_update (Q := fun _ s => (∀ name, connector.lookup name
      = d₀.property t connectorId name) ∧ Reading d₀ connector k [.fd] s) ?_).bind fun _ => ?_
  · rintro s ⟨hconnector, hs⟩
    exact ⟨hconnector, { hs with connector := rfl }⟩
  refine meets_assume fun hconnector => ?_
  refine ((reads_properties (by simp) (by simp)).raising (hfail connector k)).bind fun crtc => ?_
  refine (meets_update (Q := fun _ s => (∀ name, crtc.lookup name
      = d₀.property t crtcId name) ∧ Reading d₀ connector crtc [.fd] s) ?_).bind fun _ => ?_
  · rintro s ⟨hcrtc, hs⟩
    exact ⟨hcrtc, { hs with crtc := rfl }⟩
  refine meets_assume fun hcrtc => ?_
  refine Meets.weaken (reads_rest connector crtc ?_) (fun _ => id) ?_
    (hfail connector crtc)
  · intro primary overlay
    refine reads_key.bind fun _ _ => reads_require.bind fun _ _ => ?_
    refine reads_key.bind fun active hactive => reads_require.bind fun _ _ => ?_
    refine reads_key.bind fun _ _ => reads_require.bind fun _ _ => ?_
    refine reads_key.bind fun _ _ => reads_require.bind fun _ _ => ?_
    refine reads_key.bind fun _ _ => reads_require.bind fun _ _ => ?_
    refine reads_key.bind fun modeId hmodeId => (reads_oldMode (by simp)).bind fun mode hmode => ?_
    refine reads_require.bind fun _ _ => reads_key.bind fun isFrac hfrac => ?_
    exact reads_pure ⟨rfl, rfl, exists_found hconnector hcrtc hfrac hmodeId hactive hmode⟩
  · rintro out s ⟨⟨hc, hk, hfound⟩, hs⟩
    rw [hc, hk]
    exact ⟨hs, hfound⟩

end Output

end QcapDemos.Rate
