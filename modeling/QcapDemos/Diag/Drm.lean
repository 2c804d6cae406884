import QcapDemos.Lib.Proc
import QcapDemos.Rate.Modeset

set_option autoImplicit false

/-! # Diagnostics over libdrm

The diagnostic scripts for the SDI output talk to DRM through libdrm. Each call has a number, and
`Answers` gives what it returns, so that nothing is assumed of the driver: two reads of one
property may differ. The state keeps a trace of what the script saw and did, and of what libdrm
handed out and the script gave back.
-/

namespace QcapDemos.Diag

open QcapDemos.Lib Proc
open QcapDemos.Rate (Value Dict)

/-! ## State -/

/-- The value under a name. -/
def valueOf (dict : Dict) (name : String) : Option Nat := (dict.lookup name).map Value.value

/-- What the scripts have to give back. -/
inductive Handle where
  | fd
  | props
  | prop
  | request
  | blob
deriving DecidableEq

def objectCrtc : Nat := 0xcccccccc

def objectConnector : Nat := 0xc0c0c0c0

def objectPlane : Nat := 0xeeeeeeee

/-- `DRM_MODE_ATOMIC_ALLOW_MODESET`. -/
def allowModeset : Nat := 0x400

/-- `DRM_MODE_ATOMIC_TEST_ONLY`. -/
def testOnly : Nat := 0x100

/-- A property to be written. -/
structure Update where
  obj : Nat
  kind : Nat
  name : String
  value : Nat
deriving DecidableEq

/-- An entry of a request: the update, and the id of the property that was passed for it. -/
structure Entry where
  update : Update
  prop : Nat
deriving DecidableEq

structure Commit where
  request : List Entry
  flags : Nat
  ok : Bool
deriving DecidableEq

/-- What a script saw and did, in order. A command has an output where the script reads a number
off it. -/
inductive Event where
  | read (obj kind : Nat) (dict : Dict)
  | made (blob : Nat) (mode : Drm.ModeInfo)
  | commit (c : Commit)
  | ran (command : List String) (output : Option Nat) (ok : Bool)
  | wrote (path text : String) (ok : Bool)
deriving DecidableEq

/-- What the request in hand contains, and the variables of a script that cleans up once at its
end: whether it has a request, and its blob, zero without one. -/
structure Work where
  request : List Entry := []
  hasRequest : Bool := false
  blob : Nat := 0
deriving DecidableEq

/-- `turn` is the number of calls so far. -/
structure State where
  turn : Nat
  trace : List Event
  work : Work
  actions : List (Action Handle)

def State.start : State := { turn := 0, trace := [], work := {}, actions := [] }

inductive Failure where
  | osError (text : String)
  | runtimeError (text : String)
  | memoryError (text : String)
  | assertionError (text : String)
  | keyError (key : String)
  | valueError (text : String)
  | unicodeDecodeError
  | calledProcessError (command : List String)
  | systemExit (text : String)
deriving DecidableEq

/-- What the calls return, by their numbers: whether a pointer is null, the result of a call that
returns a number, the properties of an object with their values, one property, the id of a blob less
one, and the number that a command prints. -/
structure Answers where
  found : Nat → Bool
  result : Nat → Int
  values : Nat → List Value
  property : Nat → Rate.Property
  blob : Nat → Nat
  output : Nat → Option Nat

/-! ## Calls -/

def State.next (s : State) : State := { s with turn := s.turn + 1 }

def State.act (s : State) (a : Action Handle) : State := { s with actions := s.actions ++ [a] }

def State.note (s : State) (e : Event) : State := { s with trace := s.trace ++ [e] }

def release (h : Handle) : Proc State Failure Unit := update fun s => s.act (.destroy h)

section Calls

variable (a : Answers)

/-- A call that returns a number, negative where it fails. -/
def result : Proc State Failure Int := call fun s => (a.result s.turn, s.next)

/-- A call that hands out `h`, or null. -/
def handOut (h : Handle) : Proc State Failure Bool :=
  call fun s => if a.found s.turn then (true, s.next.act (.create h)) else (false, s.next)

/-- `drmModeObjectGetProperties`. -/
def getProperties : Proc State Failure (Option (List Value)) :=
  call fun s =>
    if a.found s.turn then (some (a.values s.turn), s.next.act (.create .props))
    else (none, s.next)

/-- `drmModeGetProperty`. -/
def getProperty : Proc State Failure (Option Rate.Property) :=
  call fun s =>
    if a.found s.turn then (some (a.property s.turn), s.next.act (.create .prop))
    else (none, s.next)

/-- `drmModeAtomicAlloc`: the request is empty. -/
def alloc : Proc State Failure Bool :=
  call fun s =>
    if a.found s.turn then
      (true, { s.next.act (.create .request) with work := { s.work with request := [] } })
    else (false, s.next)

/-- `drmModeAtomicAddProperty`. -/
def add (e : Entry) : Proc State Failure Int :=
  call fun s =>
    (a.result s.turn,
      if a.result s.turn < 0 then s.next
      else { s.next with work := { s.work with request := s.work.request ++ [e] } })

/-- `drmModeAtomicCommit`. The number is not negative where the commit succeeds, and zero. -/
def atomicCommit (flags : Nat) : Proc State Failure Int :=
  call fun s =>
    (a.result s.turn, s.next.note (.commit ⟨s.work.request, flags, 0 ≤ a.result s.turn⟩))

/-- `drmModeCreatePropertyBlob`, into the variable of the script. Ids are not zero. -/
def createBlob (mode : Drm.ModeInfo) : Proc State Failure Int :=
  call fun s =>
    (a.result s.turn,
      if a.result s.turn < 0 then s.next
      else
        let id := a.blob s.turn + 1
        { (s.next.act (.create .blob)).note (.made id mode) with
          work := { s.work with blob := id } })

/-- A command that is run to its end. -/
def run (command : List String) : Proc State Failure Unit := do
  let n ← call fun s => (a.result s.turn, s.next.note (.ran command none (0 ≤ a.result s.turn)))
  require (0 ≤ n) (.calledProcessError command)

/-- A command that prints a number. -/
def runForNumber (command : List String) : Proc State Failure Nat := do
  let n ← call fun s =>
    (a.result s.turn, s.note (.ran command (a.output s.turn) (0 ≤ a.result s.turn)))
  let output ← call fun s => (a.output s.turn, s.next)
  require (0 ≤ n) (.calledProcessError command)
  demand output (.valueError "invalid literal for int() with base 0")

/-- `Path(path).write_text(text)`. -/
def writeText (path text : String) : Proc State Failure Unit := do
  let n ← call fun s => (a.result s.turn, s.next.note (.wrote path text (0 ≤ a.result s.turn)))
  require (0 ≤ n) (.osError path)

/-! ## Properties -/

/-- The loop of `properties`. The scripts differ in the texts of their errors, and in whether they
keep the id of the list or that of the property. -/
def collect (text : Nat → String) (idOf : Value → Rate.Property → Nat) :
    List Value → Dict → Proc State Failure Dict
  | [], result => pure result
  | v :: vs, result => do
      let p ← demand (← getProperty a) (.osError (text v.id))
      let name ← ensuring (demand p.name .unicodeDecodeError) (release .prop)
      -- a later property takes the place of an earlier one with its name
      collect text idOf vs ((name, ⟨idOf v p, v.value⟩) :: result)

/-- `properties`, with the read noted where it returns. -/
def readProperties (objText : Nat → String) (text : Nat → String)
    (idOf : Value → Rate.Property → Nat) (obj kind : Nat) : Proc State Failure Dict := do
  let values ← demand (← getProperties a) (.osError (objText obj))
  let dict ← ensuring (collect a text idOf values []) (release .props)
  update fun s => s.note (.read obj kind dict)
  pure dict

end Calls

/-! ## Plans -/

/-- Something that a script means to do to the output. -/
inductive Effect where
  | commit (updates : List Update) (flags : Nat)
  | run (command : List String) (output : Option Nat)
  | write (path text : String)
deriving DecidableEq

def Effect.Matches : Effect → Event → Prop
  | .commit updates flags, .commit c => c.request.map Entry.update = updates ∧ c.flags = flags
  | .run command output, .ran command' output' _ => command' = command ∧ output' = output
  | .write path text, .wrote path' text' _ => path' = path ∧ text' = text
  | _, _ => False

/-- The event does something to the output, or tries to. -/
def Event.isEffect : Event → Bool
  | .read _ _ _ | .made _ _ => false
  | _ => true

def Event.ok : Event → Bool
  | .read _ _ _ | .made _ _ => true
  | .commit c => c.ok
  | .ran _ _ ok => ok
  | .wrote _ _ ok => ok

/-- What a script did beside reading. -/
def effects (tr : List Event) : List Event := tr.filter Event.isEffect

/-- What is done so far is the beginning of the plan, and all but the last of it succeeded. -/
structure Follows (plan : List Effect) (tr : List Event) : Prop where
  begun : ∃ done, done <+: plan ∧ List.Forall₂ Effect.Matches done (effects tr)
  stopped : ∀ ev ∈ (effects tr).dropLast, ev.ok = true

/-- All of the plan is done, with success. -/
structure Fulfills (plan : List Effect) (tr : List Event) : Prop where
  done : List.Forall₂ Effect.Matches plan (effects tr)
  ok : ∀ ev ∈ effects tr, ev.ok = true

/-- The id of the entry is one that a read of the object returned under the name. -/
def Resolved (tr : List Event) (e : Entry) : Prop :=
  ∃ d v, .read e.update.obj e.update.kind d ∈ tr ∧ d.lookup e.update.name = some v ∧ v.id = e.prop

/-- A property of traces that survives further reads. -/
def Stable (T : List Event → Prop) : Prop :=
  ∀ tr obj kind d, T tr → T (tr ++ [.read obj kind d])

section Plan

variable {plan done : List Effect} {tr : List Event} {ev : Event} {effect : Effect}

theorem effects_read (tr : List Event) (obj kind : Nat) (d : Dict) :
    effects (tr ++ [.read obj kind d]) = effects tr := by
  rw [effects, List.filter_append]
  exact List.append_nil _

theorem effects_snoc (h : ev.isEffect = true) : effects (tr ++ [ev]) = effects tr ++ [ev] := by
  rw [effects, List.filter_append, List.filter_singleton, h]
  rfl

theorem Effect.Matches.isEffect (h : effect.Matches ev) : ev.isEffect = true := by
  cases ev with
  | read obj kind d => cases effect <;> exact h.elim
  | made blob mode => cases effect <;> exact h.elim
  | commit c => rfl
  | ran command output ok => rfl
  | wrote path text ok => rfl

theorem fulfills_nil (h : effects tr = []) : Fulfills [] tr := by
  refine ⟨?_, ?_⟩
  · rw [h]
    exact .nil
  · rw [h]
    exact fun ev hev => absurd hev List.not_mem_nil

theorem Fulfills.follows (h : Fulfills done tr) (hdone : done <+: plan) : Follows plan tr :=
  ⟨⟨done, hdone, h.done⟩, fun ev hev => h.ok ev (List.mem_of_mem_dropLast hev)⟩

/-- The next effect, with success. -/
theorem Fulfills.snoc (h : Fulfills done tr) (hmatch : effect.Matches ev) (hok : ev.ok = true) :
    Fulfills (done ++ [effect]) (tr ++ [ev]) := by
  refine ⟨?_, ?_⟩
  · rw [effects_snoc hmatch.isEffect]
    exact List.rel_append h.done (.cons hmatch .nil)
  · rw [effects_snoc hmatch.isEffect, List.forall_mem_append]
    exact ⟨h.ok, fun ev' hev' => List.mem_singleton.mp hev' ▸ hok⟩

/-- The next effect, whether it succeeds or not: the script may stop here. -/
theorem Fulfills.follows_snoc (h : Fulfills done tr) (hmatch : effect.Matches ev)
    (hdone : done ++ [effect] <+: plan) : Follows plan (tr ++ [ev]) := by
  refine ⟨⟨_, hdone, ?_⟩, ?_⟩
  · rw [effects_snoc hmatch.isEffect]
    exact List.rel_append h.done (.cons hmatch .nil)
  · rw [effects_snoc hmatch.isEffect, List.dropLast_concat]
    exact h.ok

theorem stable_fulfills : Stable (Fulfills done) := by
  intro tr obj kind d h
  refine ⟨?_, ?_⟩
  · rw [effects_read]
    exact h.done
  · rw [effects_read]
    exact h.ok

theorem Stable.and {T T' : List Event → Prop} (h : Stable T) (h' : Stable T') :
    Stable fun tr => T tr ∧ T' tr :=
  fun tr obj kind d hT => ⟨h tr obj kind d hT.1, h' tr obj kind d hT.2⟩

theorem Resolved.mono {e : Entry} (h : Resolved tr e) : Resolved (tr ++ [ev]) e := by
  obtain ⟨d, v, hmem, hv⟩ := h
  exact ⟨d, v, List.mem_append_left _ hmem, hv⟩

/-- The last event of a trace, or one before it. -/
theorem split_snoc {before after : List Event} {ev' : Event}
    (h : tr ++ [ev] = before ++ ev' :: after) :
    (tr = before ∧ ev = ev') ∨ ∃ after', tr = before ++ ev' :: after' := by
  rcases List.eq_nil_or_concat after with rfl | ⟨after', x, rfl⟩
  · obtain ⟨rfl, hlast⟩ := List.append_inj' h rfl
    exact .inl ⟨rfl, (List.cons.inj hlast).1⟩
  · rw [List.concat_eq_append, ← List.cons_append, ← List.append_assoc] at h
    exact .inr ⟨after', (List.append_inj' h rfl).1⟩

end Plan

/-! ## What is held -/

/-- The handles of `hs` are held, the latest first, and the trace and the variables are these. -/
structure At (hs : List Handle) (tr : List Event) (w : Work) (s : State) : Prop where
  held : World.empty.exec s.actions = some ⟨hs, []⟩
  trace : s.trace = tr
  work : s.work = w

theorem at_start : At [] [] {} State.start := ⟨rfl, rfl, rfl⟩

section At

variable {α β : Type} {a : Answers} {hs : List Handle} {tr : List Event} {w : Work}
  {s : State} {h : Handle} {e : Failure} {R : Failure → State → Prop}

theorem At.next (hat : At hs tr w s) : At hs tr w s.next := { hat with }

theorem At.note (hat : At hs tr w s) (ev : Event) : At hs (tr ++ [ev]) w (s.note ev) :=
  { hat with trace := congrArg (· ++ [ev]) hat.trace }

theorem At.create (hat : At hs tr w s) (hnew : h ∉ hs) :
    At (h :: hs) tr w (s.act (.create h)) where
  held := by
    have hstep : World.step ⟨hs, []⟩ (.create h) = some ⟨h :: hs, []⟩ :=
      World.step_create_iff.mpr ⟨hnew, rfl⟩
    show World.empty.exec (s.actions ++ [.create h]) = _
    rw [World.exec_append, hat.held, Option.bind_some, World.exec_cons, hstep]
    rfl
  trace := hat.trace
  work := hat.work

theorem At.destroy (hat : At (h :: hs) tr w s) : At hs tr w (s.act (.destroy h)) where
  held := by
    have hstep : World.step ⟨h :: hs, []⟩ (.destroy h) = some ⟨hs, []⟩ :=
      World.step_destroy_iff.mpr ⟨⟨List.mem_cons_self, List.not_mem_nil⟩, by simp⟩
    show World.empty.exec (s.actions ++ [.destroy h]) = _
    rw [World.exec_append, hat.held, Option.bind_some, World.exec_cons, hstep]
    rfl
  trace := hat.trace
  work := hat.work

/-- A check, after which all is as before. -/
theorem meets_require_at {ok : Bool} :
    Meets (At hs tr w) (require ok e) (fun _ s => ok = true ∧ At hs tr w s)
      fun _ => At hs tr w :=
  meets_require (fun _ hat hok => ⟨hok, hat⟩) fun _ hat _ => hat

theorem meets_demand_at {o : Option α} :
    Meets (At hs tr w) (demand o e) (fun v s => o = some v ∧ At hs tr w s)
      fun _ => At hs tr w :=
  meets_demand (fun _ _ hat ho => ⟨ho, hat⟩) fun _ hat _ => hat

theorem meets_result : Meets (At hs tr w) (result a) (fun _ => At hs tr w) R :=
  meets_call fun _ hat => hat.next

theorem meets_note (ev : Event) :
    Meets (At hs tr w) (update fun s => s.note ev) (fun _ => At hs (tr ++ [ev]) w) R :=
  meets_update fun _ hat => hat.note ev

theorem meets_atomicCommit (flags : Nat) :
    Meets (At hs tr w) (atomicCommit a flags)
      (fun n => At hs (tr ++ [.commit ⟨w.request, flags, 0 ≤ n⟩]) w) R :=
  meets_call fun s hat => by
    rw [← hat.work]
    exact { hat.next.note _ with work := rfl }

/-- An addition that fails leaves the request as it is. -/
theorem meets_add (entry : Entry) :
    Meets (At hs tr w) (add a entry)
      (fun n s => if n < 0 then At hs tr w s
        else At hs tr { w with request := w.request ++ [entry] } s) R :=
  meets_call fun s hat => by
    by_cases hneg : a.result s.turn < 0
    · simp only [hneg, if_true]
      exact hat.next
    · simp only [hneg, if_false]
      rw [← hat.work]
      exact { hat.next with work := rfl }

/-- A call that hands out `h`, or nothing. -/
theorem meets_obtain {f : State → Option α × State} (hnew : h ∉ hs)
    (hf : ∀ s, f s = (none, s.next) ∨ ∃ v, f s = (some v, s.next.act (.create h))) :
    Meets (At hs tr w) (call f >>= fun o => demand o e) (fun _ => At (h :: hs) tr w)
      fun _ => At hs tr w := by
  intro s hat
  simp only [Bind.bind, call]
  rcases hf s with hnone | ⟨v, hsome⟩
  · rw [hnone]
    exact hat.next
  · rw [hsome]
    exact hat.next.create hnew

/-- A call that hands out `h`, or null. -/
theorem meets_check_obtain {f : State → Bool × State} (hnew : h ∉ hs)
    (hf : ∀ s, f s = (false, s.next) ∨ f s = (true, s.next.act (.create h))) :
    Meets (At hs tr w) (call f >>= fun ok => require ok e) (fun _ => At (h :: hs) tr w)
      fun _ => At hs tr w := by
  intro s hat
  simp only [Bind.bind, call]
  rcases hf s with hnull | hfound
  · rw [hnull]
    exact hat.next
  · rw [hfound]
    exact hat.next.create hnew

/-- What is handed out is given back, however the program on it ends. -/
theorem meets_giveBack {p : Proc State Failure α} {P : State → Prop} {Q : α → State → Prop}
    (hp : Meets P p (fun v s => Q v (s.act (.destroy h))) fun f s => R f (s.act (.destroy h))) :
    Meets P (ensuring p (release h)) Q R :=
  Meets.ensuring hp (fun _ => meets_update fun _ hq => hq) fun _ => meets_update fun _ hr => hr

theorem collect_spec {text : Nat → String} {idOf : Value → Rate.Property → Nat}
    (hnew : .prop ∉ hs) (vs : List Value) :
    ∀ acc, Meets (At hs tr w) (collect a text idOf vs acc) (fun _ => At hs tr w)
      fun _ => At hs tr w := by
  induction vs with
  | nil => intro acc; exact meets_pure fun _ hat => hat
  | cons v vs ih =>
      intro acc
      unfold collect getProperty
      rw [← Proc.bind_assoc]
      refine Meets.bind (meets_obtain hnew fun s => ?_) fun p => ?_
      · cases a.found s.turn with
        | false => exact .inl rfl
        | true => exact .inr ⟨_, rfl⟩
      · refine Meets.bind (meets_giveBack ?_) fun name => ih _
        exact meets_demand_at.weaken (fun _ => id) (fun _ _ hat => hat.2.destroy)
          fun _ _ hat => hat.destroy

/-- Reading the properties of an object leaves a note where it succeeds. -/
theorem readProperties_spec {objText text : Nat → String} {idOf : Value → Rate.Property → Nat}
    {obj kind : Nat} (hnew : .props ∉ hs) (hnew' : .prop ∉ hs) :
    Meets (At hs tr w) (readProperties a objText text idOf obj kind)
      (fun dict => At hs (tr ++ [.read obj kind dict]) w) fun _ => At hs tr w := by
  unfold readProperties getProperties
  rw [← Proc.bind_assoc]
  refine Meets.bind (meets_obtain hnew fun s => ?_) fun values => ?_
  · cases a.found s.turn with
    | false => exact .inl rfl
    | true => exact .inr ⟨_, rfl⟩
  · have hnew'' : Handle.prop ∉ Handle.props :: hs := by simp [hnew']
    refine Meets.bind (Q := fun _ => At hs tr w) (meets_giveBack ?_) fun dict => ?_
    · exact (collect_spec hnew'' values []).weaken (fun _ => id) (fun _ _ hat => hat.destroy)
        fun _ _ hat => hat.destroy
    · exact Meets.bind (meets_note _) fun _ => meets_pure fun _ hat => hat

end At

/-! ## Properties of the trace -/

/-- `hs` is held, and the trace has `T`. -/
def On (hs : List Handle) (T : List Event → Prop) (s : State) : Prop :=
  ∃ tr w, At hs tr w s ∧ T tr

section On

variable {α : Type} {a : Answers} {hs : List Handle} {h : Handle} {T T' : List Event → Prop}
  {s : State} {e : Failure} {R : Failure → State → Prop}

theorem On.imp (hon : On hs T s) (hT : ∀ tr, T tr → T' tr) : On hs T' s := by
  obtain ⟨tr, w, hat, htr⟩ := hon
  exact ⟨tr, w, hat, hT tr htr⟩

theorem On.destroy (hon : On (h :: hs) T s) : On hs T (s.act (.destroy h)) := by
  obtain ⟨tr, w, hat, htr⟩ := hon
  exact ⟨tr, w, hat.destroy, htr⟩

theorem on_require {ok : Bool} :
    Meets (On hs T) (require ok e) (fun _ s => ok = true ∧ On hs T s) fun _ => On hs T :=
  meets_require (fun _ hon hok => ⟨hok, hon⟩) fun _ hon _ => hon

/-- A call whose result is checked by `ok`. -/
theorem on_result_require {ok : Int → Bool} {e : Int → Failure} :
    Meets (On hs T) (result a >>= fun n => require (ok n) (e n)) (fun _ => On hs T)
      fun _ => On hs T := by
  refine Meets.bind (Q := fun _ => On hs T) ?_ fun n => on_require.returning fun _ _ hon => hon.2
  refine meets_call ?_
  rintro s ⟨tr, w, hat, htr⟩
  exact ⟨tr, w, hat.next, htr⟩

theorem on_readProperties {objText text : Nat → String} {idOf : Value → Rate.Property → Nat}
    {obj kind : Nat} {D : Dict → List Event → Prop} (hnew : .props ∉ hs) (hnew' : .prop ∉ hs)
    (hT : ∀ tr d, T tr → D d (tr ++ [.read obj kind d])) :
    Meets (On hs T) (readProperties a objText text idOf obj kind) (fun d => On hs (D d))
      fun _ => On hs T := by
  refine meets_exists fun tr => meets_exists fun w => ?_
  refine Meets.weaken (P := fun s => T tr ∧ At hs tr w s)
    (meets_assume fun htr => (readProperties_spec hnew hnew').weaken (fun _ => id) ?_ ?_)
    (fun s hon => ⟨hon.2, hon.1⟩) (fun _ _ => id) fun _ _ => id
  · exact fun d s hat => ⟨_, w, hat, hT tr d htr⟩
  · exact fun _ s hat => ⟨tr, w, hat, htr⟩

/-- A request is allocated, and is empty. -/
theorem on_alloc (hnew : .request ∉ hs) :
    Meets (On hs T) (alloc a >>= fun ok => require ok e)
      (fun _ s => ∃ tr w, At (.request :: hs) tr w s ∧ w.request = [] ∧ T tr) fun _ => On hs T := by
  rintro s ⟨tr, w, hat, htr⟩
  simp only [Bind.bind, alloc, call]
  cases a.found s.turn with
  | false => exact ⟨tr, w, hat.next, htr⟩
  | true => exact ⟨tr, _, { hat.next.create hnew with work := rfl }, rfl, htr⟩

end On

end QcapDemos.Diag
