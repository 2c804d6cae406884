import Mathlib.Data.Finset.Union
import Mathlib.Data.Finset.Image
import QcapDemos.Lib.Ledger
import QcapDemos.Drm.Mode

set_option autoImplicit false

/-! # The display hardware behind the DRM calls

What the receiver's DRM calls act on: the committed values of the properties of connectors,
CRTCs and planes, and the framebuffers, buffers and mode blobs that its two DRM clients created.
An atomic commit takes effect as a whole or not at all; whether it is accepted is an outcome the
caller of these definitions supplies, except that a request naming an unknown property is
always refused. Object ids are chosen by the kernel: any nonzero id that no live object of the
kind has and that no plane or CRTC still refers to.
-/

namespace QcapDemos.Drm

open QcapDemos.Lib

/-! ## Properties -/

inductive Obj where
  | connector (id : Nat)
  | crtc (id : Nat)
  | plane (id : Nat)
deriving DecidableEq

inductive PropName where
  | crtcId | modeId | active
  | fbId | crtcX | crtcY | crtcW | crtcH | srcX | srcY | srcW | srcH | alpha | overlaySource
  | sdiMode | sdiDataStream | isFrac | sdi420In | sdi420Out | sdi444Out
  | widthOut | heightOut | inFmt | outFmt | cEncoding
deriving DecidableEq

/-- `DRM_FORMAT_BGR888` and `DRM_FORMAT_YUYV`. -/
inductive PixelFormat where
  | bgr888
  | yuyv
deriving DecidableEq

/-- Committed property values. `ACTIVE` is a boolean property. -/
structure Config where
  get : Obj → PropName → Nat
  active_le : ∀ o, get o .active ≤ 1

@[ext] theorem Config.ext {c d : Config} (h : ∀ o p, c.get o p = d.get o p) : c = d := by
  cases c with
  | mk f hf => cases d with
    | mk g hg => congr 1; funext o p; exact h o p

/-- The value a property takes when `v` is written to it. -/
def stored (p : PropName) (v : Nat) : Nat := if p = .active then min v 1 else v

def Config.set (c : Config) (o : Obj) (p : PropName) (v : Nat) : Config where
  get o' p' := if o' = o ∧ p' = p then stored p v else c.get o' p'
  active_le o' := by
    split
    · next h => rw [← h.2, stored, if_pos rfl]; exact Nat.min_le_right _ _
    · exact c.active_le o'

/-- One entry of an atomic request; `prop = none` where the property lookup returned 0. -/
structure Entry where
  obj : Obj
  prop : Option PropName
  value : Nat
deriving DecidableEq

abbrev Request := List Entry

/-- Every property of the request is known. -/
def Request.known (req : Request) : Bool := req.all (·.prop.isSome)

def Entry.write (c : Config) (e : Entry) : Config :=
  match e.prop with
  | some p => c.set e.obj p e.value
  | none => c

/-- The configuration after the request; a later entry overrides an earlier one. -/
def Request.write (req : Request) (c : Config) : Config := req.foldl Entry.write c

/-- The value the request writes to a property, if any. -/
def Request.value? (req : Request) (o : Obj) (p : PropName) : Option Nat :=
  (req.reverse.find? fun e => e.obj == o && e.prop == some p).map Entry.value

theorem Config.get_set (c : Config) (o o' : Obj) (p p' : PropName) (v : Nat) :
    (c.set o p v).get o' p' = if o' = o ∧ p' = p then stored p v else c.get o' p' := rfl

theorem Request.value?_append (req req' : Request) (o : Obj) (p : PropName) :
    Request.value? (req ++ req') o p = (Request.value? req' o p).or (Request.value? req o p) := by
  rw [value?, List.reverse_append, List.find?_append, Option.map_or]
  rfl

theorem Request.value?_snoc (req : Request) (e : Entry) (o : Obj) (p : PropName) :
    Request.value? (req ++ [e]) o p
      = if e.obj = o ∧ e.prop = some p then some e.value else Request.value? req o p := by
  rw [Request.value?_append]
  by_cases h : e.obj = o ∧ e.prop = some p
  · rw [if_pos h]; simp [value?, h]
  · rw [if_neg h]
    have hf : (e.obj == o && e.prop == some p) = false := by simpa [and_comm] using h
    simp [value?, hf]

/-- What a request leaves of a property. -/
theorem Request.get_write (req : Request) (c : Config) (o : Obj) (p : PropName) :
    (Request.write req c).get o p = (Request.value? req o p).elim (c.get o p) (stored p) := by
  induction req using List.reverseRecOn with
  | nil => rfl
  | append_singleton req e ih =>
      rw [Request.value?_snoc, Request.write, List.foldl_append, List.foldl_cons, List.foldl_nil,
        ← Request.write]
      cases hp : e.prop with
      | none => simp [Entry.write, hp, ih]
      | some p' =>
          rw [Entry.write, hp, Config.get_set]
          by_cases h : o = e.obj ∧ p = p'
          · obtain ⟨rfl, rfl⟩ := h
            simp
          · have h' : ¬ (e.obj = o ∧ some p' = some p) := by
              rintro ⟨rfl, he⟩
              exact h ⟨rfl, (Option.some.inj he).symm⟩
            rw [if_neg h, if_neg h', ih]

theorem Request.value?_eq_none {req : Request} {o : Obj} {p : PropName}
    (h : ∀ e ∈ req, ¬ (e.obj = o ∧ e.prop = some p)) : Request.value? req o p = none := by
  rw [value?, Option.map_eq_none_iff, List.find?_eq_none]
  intro e he
  have := h e (List.mem_reverse.mp he)
  simpa [and_comm] using this

theorem Request.mem_of_value? {req : Request} {o : Obj} {p : PropName} {v : Nat}
    (h : Request.value? req o p = some v) :
    { obj := o, prop := some p, value := v } ∈ req := by
  obtain ⟨e, he, rfl⟩ := Option.map_eq_some_iff.mp h
  have hfound := List.find?_some he
  rw [Bool.and_eq_true, beq_iff_eq, beq_iff_eq] at hfound
  rw [← hfound.1, ← hfound.2]
  exact List.mem_reverse.mp (List.mem_of_find?_eq_some he)

/-- A value is written if it is asked for and nothing else is. -/
theorem Request.value?_eq_some {req : Request} {o : Obj} {p : PropName} {v : Nat}
    (hmem : { obj := o, prop := some p, value := v } ∈ req)
    (hall : ∀ e ∈ req, e.obj = o → e.prop = some p → e.value = v) :
    Request.value? req o p = some v := by
  cases hv : Request.value? req o p with
  | none =>
      rw [value?, Option.map_eq_none_iff, List.find?_eq_none] at hv
      exact absurd (hv _ (List.mem_reverse.mpr hmem)) (by simp)
  | some w => rw [← hall _ (Request.mem_of_value? hv) rfl rfl]

/-! ## Objects -/

/-- Who makes a call: the Ultra modeset, the Ultra resync, the AVH receiver, or the library behind
its video sink. The first two share one DRM client. -/
inductive Caller where
  | modeset
  | resync
  | avh
  | sink
deriving DecidableEq

inductive Resource where
  | fb (id : Nat)
  | bo (handle : Nat)
  | blob (id : Nat)
deriving DecidableEq

/-- A kernel object with the caller that created it. -/
structure Object where
  caller : Caller
  res : Resource
deriving DecidableEq

def Object.fbIds (o : Object) : Finset Nat := match o.res with | .fb n => {n} | _ => ∅

def Object.blobIds (o : Object) : Finset Nat := match o.res with | .blob n => {n} | _ => ∅

/-- Buffer handles are local to a client. -/
def Object.boHandles (caller : Caller) (o : Object) : Finset Nat :=
  match o.res with
  | .bo n => if o.caller = caller then {n} else ∅
  | _ => ∅

/-- The objects of the output path, all planes and CRTCs of the device, and how the program
computes the rates of its modes. -/
structure Device where
  connectorId : Nat
  crtcId : Nat
  primaryPlaneId : Nat
  overlayPlaneId : Nat
  planes : Finset Nat
  crtcs : Finset Nat
  arithmetic : Arithmetic := .single
  connector_ne : connectorId ≠ 0
  crtc_ne : crtcId ≠ 0
  primary_ne : primaryPlaneId ≠ 0
  overlay_ne : overlayPlaneId ≠ 0
  planes_ne : primaryPlaneId ≠ overlayPlaneId
  crtc_mem : crtcId ∈ crtcs
  primary_mem : primaryPlaneId ∈ planes
  overlay_mem : overlayPlaneId ∈ planes

/-- One atomic commit, tried or real, and whether it was accepted. -/
structure Commit where
  caller : Caller
  request : Request
  testOnly : Bool
  ok : Bool
deriving DecidableEq

/-- The hardware: committed properties, live objects and their contents, the history of commits,
and the two audio controls of the sound card. -/
structure Hw where
  config : Config
  ledger : Ledger Object
  fbFormat : Nat → PixelFormat
  fbBuffer : Nat → Nat
  blobMode : Nat → ModeInfo
  commits : List Commit
  passthrough : Bool
  route : Nat

namespace Hw

variable (dev : Device)

def fbId (hw : Hw) (plane : Nat) : Nat := hw.config.get (.plane plane) .fbId

def modeId (hw : Hw) (crtc : Nat) : Nat := hw.config.get (.crtc crtc) .modeId

/-- The content of the mode of a CRTC. -/
def crtcMode (hw : Hw) (crtc : Nat) : Option ModeInfo :=
  if hw.modeId crtc = 0 then none else some (hw.blobMode (hw.modeId crtc))

/-- The caller of the last commit that took effect. -/
def lastCommit (hw : Hw) : Option Caller :=
  hw.commits.foldl (fun last c => if c.ok && !c.testOnly then some c.caller else last) none

/-- The configuration on screen uses the object: a plane shows the framebuffer or one of the
client's framebuffers over the buffer, or a CRTC has the mode. -/
def used (hw : Hw) (o : Object) : Bool :=
  match o.res with
  | .fb n => ∃ q ∈ dev.planes, hw.fbId q = n
  | .bo n => ∃ q ∈ dev.planes, ⟨o.caller, .fb (hw.fbId q)⟩ ∈ hw.ledger.live ∧
      hw.fbBuffer (hw.fbId q) = n
  | .blob n => ∃ c ∈ dev.crtcs, hw.modeId c = n

def create (o : Object) (hw : Hw) : Hw := { hw with ledger := hw.ledger.create o }

def destroy (o : Object) (hw : Hw) : Hw := { hw with ledger := hw.ledger.destroy o (hw.used dev o) }

/-- `DRM_IOCTL_MODE_CREATE_DUMB`. -/
def createDumb (caller : Caller) (hint : Option Nat) (hw : Hw) : Option Nat × Hw :=
  match hint with
  | none => (none, hw)
  | some h =>
      let n := fresh (hw.ledger.live.biUnion (Object.boHandles caller)) h
      (some n, hw.create ⟨caller, .bo n⟩)

/-- `drmModeAddFB2` over the buffer `bo`. -/
def addFb (caller : Caller) (format : PixelFormat) (bo : Nat) (hint : Option Nat) (hw : Hw) :
    Option Nat × Hw :=
  match hint with
  | none => (none, hw)
  | some h =>
      let n := fresh (hw.ledger.live.biUnion Object.fbIds ∪ dev.planes.image hw.fbId) h
      (some n, { hw.create ⟨caller, .fb n⟩ with
        fbFormat := Function.update hw.fbFormat n format
        fbBuffer := Function.update hw.fbBuffer n bo })

/-- `drmModeCreatePropertyBlob` with a mode as content. -/
def createBlob (caller : Caller) (mode : ModeInfo) (hint : Option Nat) (hw : Hw) :
    Option Nat × Hw :=
  match hint with
  | none => (none, hw)
  | some h =>
      let n := fresh (hw.ledger.live.biUnion Object.blobIds ∪ dev.crtcs.image hw.modeId) h
      (some n, { hw.create ⟨caller, .blob n⟩ with
        blobMode := Function.update hw.blobMode n mode })

/-- Planes that show a removed framebuffer are disabled. -/
def detach (hw : Hw) (n : Nat) : Config where
  get o p :=
    match o with
    | .plane q =>
        if q ∈ dev.planes ∧ hw.fbId q = n ∧ (p = .fbId ∨ p = .crtcId) then 0
        else hw.config.get o p
    | _ => hw.config.get o p
  active_le o := by
    have := hw.config.active_le o
    cases o with
    | plane q => simpa using this
    | _ => exact this

/-- `drmModeRmFB`. -/
def rmFb (caller : Caller) (n : Nat) (hw : Hw) : Hw :=
  { hw.destroy dev ⟨caller, .fb n⟩ with config := hw.detach dev n }

/-- `DRM_IOCTL_MODE_DESTROY_DUMB`. -/
def destroyDumb (caller : Caller) (n : Nat) (hw : Hw) : Hw := hw.destroy dev ⟨caller, .bo n⟩

/-- `drmModeDestroyPropertyBlob`; a CRTC that has the mode keeps its content. -/
def destroyBlob (caller : Caller) (n : Nat) (hw : Hw) : Hw := hw.destroy dev ⟨caller, .blob n⟩

/-- `drmClose`: what the client still has goes with it. -/
def closeClient (caller : Caller) (hw : Hw) : Hw :=
  { hw with ledger := { hw.ledger with live := hw.ledger.live.filter (·.caller ≠ caller) } }

/-- `drmModeAtomicCommit` with `DRM_MODE_ATOMIC_ALLOW_MODESET`; `ok` is the kernel's verdict on a
request without unknown properties. -/
def commit (caller : Caller) (req : Request) (ok : Bool) (hw : Hw) : Bool × Hw :=
  let ok := ok && req.known
  (ok, { hw with
    config := if ok then req.write hw.config else hw.config
    commits := hw.commits ++ [{ caller := caller, request := req, testOnly := false, ok := ok }] })

/-- The same with `DRM_MODE_ATOMIC_TEST_ONLY`. -/
def testCommit (caller : Caller) (req : Request) (ok : Bool) (hw : Hw) : Bool × Hw :=
  let ok := ok && req.known
  (ok, { hw with
    commits := hw.commits ++ [{ caller := caller, request := req, testOnly := true, ok := ok }] })

/-! ## Dumb framebuffers -/

/-- The outcomes of the two calls behind a dumb framebuffer: the ids, or failure. -/
structure FbCalls where
  dumb : Option Nat
  addFb : Option Nat

/-- `create_dumb_fb`: the framebuffer and its buffer. -/
def createDumbFb (caller : Caller) (format : PixelFormat) (calls : FbCalls) (hw : Hw) :
    Option (Nat × Nat) × Hw :=
  match hw.createDumb caller calls.dumb with
  | (none, hw) => (none, hw)
  | (some bo, hw) =>
      match hw.addFb dev caller format bo calls.addFb with
      | (none, hw) => (none, hw.destroyDumb dev caller bo)
      | (some fb, hw) => (some (fb, bo), hw)

/-- `destroy_dumb_fb`; the caller's variables become zero. -/
def destroyDumbFb (caller : Caller) (fb bo : Nat) (hw : Hw) : Hw :=
  let hw := if fb ≠ 0 then hw.rmFb dev caller fb else hw
  if bo ≠ 0 then hw.destroyDumb dev caller bo else hw

/-! ## What the object calls do -/

theorem lastCommit_append (hw : Hw) (c : Commit) :
    lastCommit { hw with commits := hw.commits ++ [c] }
      = if c.ok && !c.testOnly then some c.caller else hw.lastCommit := by
  rw [lastCommit, List.foldl_append]; rfl

/-- After further commits of one caller, the last one that took effect is as before or the
caller's. -/
theorem lastCommit_of_caller {caller : Caller} {hw hw' : Hw} {cs : List Commit}
    (hcs : hw'.commits = hw.commits ++ cs) (hcaller : ∀ c ∈ cs, c.caller = caller) :
    hw'.lastCommit = hw.lastCommit ∨ hw'.lastCommit = some caller := by
  induction cs using List.reverseRecOn generalizing hw' with
  | nil =>
      left
      rw [lastCommit, hcs, List.append_nil]; rfl
  | append_singleton cs c ih =>
      have hlast : hw'.lastCommit = if c.ok && !c.testOnly then some c.caller
          else lastCommit { hw with commits := hw.commits ++ cs } := by
        rw [← lastCommit_append, lastCommit, hcs, ← List.append_assoc]; rfl
      rw [hlast]
      split
      · right
        rw [hcaller c (by simp)]
      · exact @ih { hw with commits := hw.commits ++ cs } rfl fun a ha => hcaller a (by simp [ha])

/-- The objects of the Ultra modeset are accounted for. -/
def Accounted (hw : Hw) : Prop := hw.ledger.Accounted fun o => o.caller = .modeset

/-- The buffer under each live framebuffer of the modeset is live. -/
def Buffered (hw : Hw) : Prop :=
  ∀ n, ⟨.modeset, .fb n⟩ ∈ hw.ledger.live → ⟨.modeset, .bo (hw.fbBuffer n)⟩ ∈ hw.ledger.live

theorem used_fb {hw : Hw} {caller : Caller} {n : Nat} (h : ∀ q ∈ dev.planes, hw.fbId q ≠ n) :
    hw.used dev ⟨caller, .fb n⟩ = false := by
  simpa [used] using h

theorem used_blob {hw : Hw} {caller : Caller} {n : Nat} (h : ∀ c ∈ dev.crtcs, hw.modeId c ≠ n) :
    hw.used dev ⟨caller, .blob n⟩ = false := by
  simpa [used] using h

theorem used_bo {hw : Hw} {caller : Caller} {n : Nat}
    (h : ∀ q ∈ dev.planes, ⟨caller, .fb (hw.fbId q)⟩ ∈ hw.ledger.live →
      hw.fbBuffer (hw.fbId q) ≠ n) : hw.used dev ⟨caller, .bo n⟩ = false := by
  simpa [used] using h

theorem detach_eq {hw : Hw} {n : Nat} (h : ∀ q ∈ dev.planes, hw.fbId q ≠ n) :
    hw.detach dev n = hw.config := by
  ext o p
  cases o with
  | plane q =>
      have hq : ¬ (q ∈ dev.planes ∧ hw.fbId q = n ∧ (p = .fbId ∨ p = .crtcId)) :=
        fun hcon => h q hcon.1 hcon.2.1
      show (if _ then _ else _) = _
      rw [if_neg hq]
  | connector | crtc => rfl

theorem createDumb_cases (caller : Caller) (hint : Option Nat) (hw : Hw) :
    (hint = none ∧ hw.createDumb caller hint = (none, hw)) ∨
    ∃ n, n ≠ 0 ∧ ⟨caller, .bo n⟩ ∉ hw.ledger.live ∧
      hw.createDumb caller hint = (some n, hw.create ⟨caller, .bo n⟩) := by
  cases hint with
  | none => exact Or.inl ⟨rfl, rfl⟩
  | some h =>
      have hnot := fresh_not_mem (hw.ledger.live.biUnion (Object.boHandles caller)) h
      refine Or.inr ⟨_, fresh_ne_zero _ _, fun hmem => hnot ?_, rfl⟩
      exact Finset.mem_biUnion.mpr ⟨_, hmem, by simp [Object.boHandles]⟩

theorem addFb_cases (caller : Caller) (format : PixelFormat) (bo : Nat) (hint : Option Nat)
    (hw : Hw) :
    (hint = none ∧ hw.addFb dev caller format bo hint = (none, hw)) ∨
    ∃ n, n ≠ 0 ∧ (∀ c, ⟨c, .fb n⟩ ∉ hw.ledger.live) ∧ (∀ q ∈ dev.planes, hw.fbId q ≠ n) ∧
      hw.addFb dev caller format bo hint = (some n, { hw.create ⟨caller, .fb n⟩ with
        fbFormat := Function.update hw.fbFormat n format
        fbBuffer := Function.update hw.fbBuffer n bo }) := by
  cases hint with
  | none => exact Or.inl ⟨rfl, rfl⟩
  | some h =>
      have hnot := fresh_not_mem
        (hw.ledger.live.biUnion Object.fbIds ∪ dev.planes.image hw.fbId) h
      rw [Finset.mem_union, not_or] at hnot
      refine Or.inr ⟨_, fresh_ne_zero _ _, fun c hmem => hnot.1 ?_, fun q hq he => hnot.2 ?_, rfl⟩
      · exact Finset.mem_biUnion.mpr ⟨_, hmem, by simp [Object.fbIds]⟩
      · exact Finset.mem_image.mpr ⟨q, hq, he⟩

theorem createBlob_cases (caller : Caller) (mode : ModeInfo) (hint : Option Nat) (hw : Hw) :
    (hint = none ∧ hw.createBlob dev caller mode hint = (none, hw)) ∨
    ∃ n, n ≠ 0 ∧ (∀ c, ⟨c, .blob n⟩ ∉ hw.ledger.live) ∧ (∀ c ∈ dev.crtcs, hw.modeId c ≠ n) ∧
      hw.createBlob dev caller mode hint = (some n, { hw.create ⟨caller, .blob n⟩ with
        blobMode := Function.update hw.blobMode n mode }) := by
  cases hint with
  | none => exact Or.inl ⟨rfl, rfl⟩
  | some h =>
      have hnot := fresh_not_mem
        (hw.ledger.live.biUnion Object.blobIds ∪ dev.crtcs.image hw.modeId) h
      rw [Finset.mem_union, not_or] at hnot
      refine Or.inr ⟨_, fresh_ne_zero _ _, fun c hmem => hnot.1 ?_, fun c hc he => hnot.2 ?_, rfl⟩
      · exact Finset.mem_biUnion.mpr ⟨_, hmem, by simp [Object.blobIds]⟩
      · exact Finset.mem_image.mpr ⟨c, hc, he⟩

/-- `hw'` differs from `hw` in the history of object events alone, and in no live object. -/
structure Idle (hw hw' : Hw) : Prop where
  eq : hw' = { hw with ledger := hw'.ledger }
  live : hw'.ledger.live = hw.ledger.live
  accounted : hw.Buffered → hw.Accounted → hw'.Accounted

theorem Idle.refl (hw : Hw) : Idle hw hw := ⟨rfl, rfl, fun _ h => h⟩

/-- A buffer that gets no framebuffer is gone again. -/
theorem idle_dumb {hw : Hw} {n : Nat} (hn : ⟨.modeset, .bo n⟩ ∉ hw.ledger.live) :
    Idle hw ((hw.create ⟨.modeset, .bo n⟩).destroyDumb dev .modeset n) where
  eq := rfl
  live := by
    show (insert _ hw.ledger.live).erase _ = _
    exact Finset.erase_insert hn
  accounted hbuf hacc := by
    refine (Ledger.Accounted.create hacc fun _ => hn).destroy fun _ =>
      ⟨Finset.mem_insert_self _ _, used_bo dev fun q _ hlive he => hn ?_⟩
    have hfb : (⟨.modeset, .fb (hw.fbId q)⟩ : Object) ∈ hw.ledger.live := by
      simpa [create, fbId] using hlive
    exact he ▸ hbuf _ hfb

/-- The state after a blob `n` was created by the modeset. -/
structure NewBlob (mode : ModeInfo) (n : Nat) (hw hw' : Hw) : Prop where
  eq : hw' = { hw with
    ledger := hw'.ledger
    blobMode := Function.update hw.blobMode n mode }
  live : hw'.ledger.live = insert ⟨.modeset, .blob n⟩ hw.ledger.live
  ne : n ≠ 0
  fresh : ⟨.modeset, .blob n⟩ ∉ hw.ledger.live
  unset : ∀ c ∈ dev.crtcs, hw.modeId c ≠ n
  accounted : hw.Accounted → hw'.Accounted

theorem NewBlob.buffered {mode : ModeInfo} {n : Nat} {hw hw' : Hw} (h : NewBlob dev mode n hw hw')
    (hbuf : hw.Buffered) : hw'.Buffered := by
  intro m hm
  rw [h.live] at hm ⊢
  rw [h.eq]
  have hold : (⟨.modeset, .fb m⟩ : Object) ∈ hw.ledger.live := by simpa using hm
  exact Finset.mem_insert_of_mem (hbuf m hold)

theorem newBlob_cases (mode : ModeInfo) (hint : Option Nat) (hw : Hw) :
    (hint = none ∧ hw.createBlob dev .modeset mode hint = (none, hw)) ∨
    ∃ n hw', hw.createBlob dev .modeset mode hint = (some n, hw') ∧ NewBlob dev mode n hw hw' := by
  rcases createBlob_cases dev .modeset mode hint hw with h | ⟨n, hne, hfresh, hunset, h⟩
  · exact Or.inl h
  · exact Or.inr ⟨n, _, h, rfl, rfl, hne, hfresh _, hunset, fun hacc =>
      Ledger.Accounted.create hacc fun _ => hfresh _⟩

/-- The state after a framebuffer `fb` over a buffer `bo` was created by the modeset. -/
structure DumbFb (format : PixelFormat) (fb bo : Nat) (hw hw' : Hw) : Prop where
  eq : hw' = { hw with
    ledger := hw'.ledger
    fbFormat := Function.update hw.fbFormat fb format
    fbBuffer := Function.update hw.fbBuffer fb bo }
  live : hw'.ledger.live = insert ⟨.modeset, .fb fb⟩ (insert ⟨.modeset, .bo bo⟩ hw.ledger.live)
  fb_ne : fb ≠ 0
  bo_ne : bo ≠ 0
  fb_fresh : ⟨.modeset, .fb fb⟩ ∉ hw.ledger.live
  bo_fresh : ⟨.modeset, .bo bo⟩ ∉ hw.ledger.live
  unshown : ∀ q ∈ dev.planes, hw.fbId q ≠ fb
  accounted : hw.Accounted → hw'.Accounted

theorem DumbFb.buffered {format : PixelFormat} {fb bo : Nat} {hw hw' : Hw}
    (h : DumbFb dev format fb bo hw hw') (hbuf : hw.Buffered) : hw'.Buffered := by
  intro n hn
  rw [h.live] at hn ⊢
  rw [h.eq]
  show (⟨.modeset, .bo (Function.update hw.fbBuffer fb bo n)⟩ : Object) ∈ _
  by_cases hnf : n = fb
  · rw [hnf, Function.update_self]; simp
  · rw [Function.update_of_ne hnf]
    have hold : (⟨.modeset, .fb n⟩ : Object) ∈ hw.ledger.live := by simpa [hnf] using hn
    exact Finset.mem_insert_of_mem (Finset.mem_insert_of_mem (hbuf n hold))

theorem createDumbFb_cases (format : PixelFormat) (calls : FbCalls) (hw : Hw) :
    (∃ hw', hw.createDumbFb dev .modeset format calls = (none, hw') ∧ Idle hw hw' ∧
      (calls.dumb = none ∨ calls.addFb = none)) ∨
    (∃ fb bo hw', hw.createDumbFb dev .modeset format calls = (some (fb, bo), hw') ∧
      DumbFb dev format fb bo hw hw') := by
  rw [createDumbFb]
  rcases createDumb_cases .modeset calls.dumb hw with ⟨hnone, hdumb⟩ | ⟨bo, hbo, hlive, hdumb⟩
  · rw [hdumb]
    exact Or.inl ⟨hw, rfl, .refl hw, Or.inl hnone⟩
  rw [hdumb]
  dsimp only
  rcases addFb_cases dev .modeset format bo calls.addFb (hw.create ⟨.modeset, .bo bo⟩) with
    ⟨hnone, hadd⟩ | ⟨fb, hfb, hfresh, hshown, hadd⟩
  · rw [hadd]
    exact Or.inl ⟨_, rfl, idle_dumb dev hlive, Or.inr hnone⟩
  · rw [hadd]
    have hnew : (⟨.modeset, .fb fb⟩ : Object) ∉ hw.ledger.live := fun hmem =>
      hfresh .modeset (Finset.mem_insert_of_mem hmem)
    exact Or.inr ⟨fb, bo, _, rfl, {
      eq := rfl
      live := rfl
      fb_ne := hfb
      bo_ne := hbo
      fb_fresh := hnew
      bo_fresh := hlive
      unshown := hshown
      accounted := fun hacc =>
        (Ledger.Accounted.create hacc fun _ => hlive).create fun _ => hfresh .modeset }⟩

/-- **Destroying a framebuffer that is not shown, and its buffer**, touches the ledger alone. -/
theorem destroyDumbFb_spec {hw : Hw} {fb bo : Nat}
    (hfb : fb ≠ 0 → ∀ q ∈ dev.planes, hw.fbId q ≠ fb) :
    ∃ L, hw.destroyDumbFb dev .modeset fb bo = { hw with ledger := L } ∧
      (∀ o, o ∈ L.live ↔ o ∈ hw.ledger.live ∧ ¬ (fb ≠ 0 ∧ o = ⟨.modeset, .fb fb⟩) ∧
        ¬ (bo ≠ 0 ∧ o = ⟨.modeset, .bo bo⟩)) ∧
      ((bo ≠ 0 → ∀ q ∈ dev.planes, ⟨.modeset, .fb (hw.fbId q)⟩ ∈ hw.ledger.live →
          hw.fbBuffer (hw.fbId q) ≠ bo) →
        (fb ≠ 0 → ⟨.modeset, .fb fb⟩ ∈ hw.ledger.live) →
        (bo ≠ 0 → ⟨.modeset, .bo bo⟩ ∈ hw.ledger.live) → hw.Accounted →
        L.Accounted fun o => o.caller = .modeset) := by
  -- the framebuffer goes first, and then its buffer
  have hrm : ∃ L, (if fb ≠ 0 then hw.rmFb dev .modeset fb else hw) = { hw with ledger := L } ∧
      (∀ o, o ∈ L.live ↔ o ∈ hw.ledger.live ∧ ¬ (fb ≠ 0 ∧ o = ⟨.modeset, .fb fb⟩)) ∧
      ((fb ≠ 0 → ⟨.modeset, .fb fb⟩ ∈ hw.ledger.live) → hw.Accounted →
        L.Accounted fun o => o.caller = .modeset) := by
    by_cases h0 : fb = 0
    · exact ⟨hw.ledger, by simp [h0], by simp [h0], fun _ h => h⟩
    · refine ⟨hw.ledger.destroy ⟨.modeset, .fb fb⟩ false, ?_, ?_, ?_⟩
      · rw [if_pos h0, rmFb, destroy, detach_eq dev (hfb h0), used_fb dev (hfb h0)]
      · intro o
        simp [h0, and_comm]
      · intro hlive hacc
        exact Ledger.Accounted.destroy hacc fun _ => ⟨hlive h0, rfl⟩
  obtain ⟨L, heq, hmem, hacc⟩ := hrm
  rw [destroyDumbFb, heq]
  by_cases h0 : bo = 0
  · exact ⟨L, by simp [h0], by simpa [h0] using hmem, fun _ h _ => hacc h⟩
  · refine ⟨L.destroy ⟨.modeset, .bo bo⟩ (Hw.used dev { hw with ledger := L } ⟨.modeset, .bo bo⟩),
      by rw [if_pos h0]; rfl, ?_, ?_⟩
    · intro o
      rw [Ledger.live_destroy, Finset.mem_erase, hmem]
      simp only [ne_eq, h0, not_false_eq_true, true_and]
      tauto
    · intro hbo h1 h2 h3
      refine Ledger.Accounted.destroy (hacc h1 h3) fun _ => ⟨?_, ?_⟩
      · rw [hmem]
        exact ⟨h2 h0, by simp⟩
      · exact used_bo dev fun q hq hlive => hbo h0 q hq ((hmem _).mp hlive).1

end Hw

end QcapDemos.Drm
