import QcapDemos.Diag.Drm

set_option autoImplicit false

/-! # The local output diagnostic

`sc6f0-sdi-local-modeset` takes the framebuffer of the running receiver, programs an integer SDI
mode around it and selects the colour bars. The whole request is tried before anything is changed.
The request, the blob of the mode and the descriptor are given back in one block at the end.
-/

namespace QcapDemos.Diag

open QcapDemos.Lib Proc
open QcapDemos.Rate (Value Dict connectorId crtcId primaryId overlayId)

namespace LocalModeset

/-! ## The mode -/

/-- `--mode`. -/
inductive Mode where
  | m1920x1080
  | m3840x2160
deriving DecidableEq

def Mode.width : Mode → Nat
  | .m1920x1080 => 1920
  | .m3840x2160 => 3840

def Mode.height : Mode → Nat
  | .m1920x1080 => 1080
  | .m3840x2160 => 2160

/-- The timing of the mode. -/
def Mode.timing (m : Mode) : Drm.ModeInfo where
  clock := if m.width = 1920 then 148500 else 594000
  hdisplay := m.width
  hsyncStart := if m.width = 1920 then 2008 else 4016
  hsyncEnd := if m.width = 1920 then 2052 else 4104
  htotal := if m.width = 1920 then 2200 else 4400
  vdisplay := m.height
  vsyncStart := if m.height = 1080 then 1084 else 2168
  vsyncEnd := if m.height = 1080 then 1089 else 2178
  vtotal := if m.height = 1080 then 1125 else 2250
  vrefresh := 60
  flags := 5
  name := toString m.width ++ "x" ++ toString m.height

structure Args where
  mode : Mode
  bypassAnc : Bool

structure Host where
  euid : Nat
  product : Option (List UInt8)
  version : Option String

/-! ## What is written -/

def update (obj kind : Nat) (p : String × Nat) : Update := ⟨obj, kind, p.1, p.2⟩

/-- The properties of the SDI connector. -/
def sdiWrites (m : Mode) : List (String × Nat) :=
  [("sdi_mode", if m.width = 1920 then 2 else 5),
    ("sdi_data_stream", if m.width = 1920 then 2 else 8), ("is_frac", 0), ("sdi_420_in", 0),
    ("sdi_420_out", 0), ("sdi_444_out", 0), ("width_out", m.width), ("height_out", m.height),
    ("in_fmt", 4106), ("out_fmt", 8218), ("c_encoding", 0)]

def connectorWrites (m : Mode) : List (String × Nat) := ("CRTC_ID", 37) :: sdiWrites m

def crtcWrites (blob : Nat) : List (String × Nat) := [("MODE_ID", blob), ("ACTIVE", 1)]

def primaryWrites (m : Mode) (fb : Nat) : List (String × Nat) :=
  [("CRTC_ID", 37), ("FB_ID", fb), ("CRTC_X", 0), ("CRTC_Y", 0), ("CRTC_W", m.width),
    ("CRTC_H", m.height), ("SRC_X", 0), ("SRC_Y", 0), ("SRC_W", m.width <<< 16),
    ("SRC_H", m.height <<< 16)]

def overlayWrites : List (String × Nat) :=
  [("FB_ID", 0), ("CRTC_ID", 0), ("SC6F0_OVERLAY_SOURCE", 0)]

/-! ## The script -/

section Script

variable (a : Answers)

def checked (n : Int) (operation : String) : Proc State Failure Unit :=
  require (0 ≤ n) (.osError operation)

def properties (obj kind : Nat) : Proc State Failure Dict :=
  readProperties a (fun _ => "get properties") (fun _ => "get property") (fun _ p => p.id) obj kind

/-- `props[name]`. -/
def key (props : Dict) (name : String) : Proc State Failure Value :=
  demand (props.lookup name) (.keyError name)

/-- The calls of `put` for one object. -/
def putAll (obj kind : Nat) (props : Dict) : List (String × Nat) → Proc State Failure Unit
  | [] => pure ()
  | p :: ps => do
      let v ← key props p.1
      checked (← add a ⟨update obj kind p, v.id⟩) ("add " ++ p.1)
      putAll obj kind props ps

/-- What was read of the output. -/
structure Output where
  connector : Dict
  crtc : Dict
  primary : Dict
  overlay : Dict
  fb : Nat

def running : Failure := .assertionError "running RX framebuffer required"

/-- The first part: reading and checking the output. -/
def readOutput : Proc State Failure Output := do
  checked (← result a) "universal planes"
  checked (← result a) "atomic mode"
  let connector ← properties a connectorId objectConnector
  let crtc ← properties a crtcId objectCrtc
  let primary ← properties a primaryId objectPlane
  let overlay ← properties a overlayId objectPlane
  require ((connector.lookup "sdi_mode").isSome &&
    (overlay.lookup "SC6F0_OVERLAY_SOURCE").isSome) (.assertionError "")
  let fb ← key primary "FB_ID"
  require (fb.value != 0) running
  let active ← key crtc "ACTIVE"
  require (active.value != 0) running
  pure
    { connector := connector, crtc := crtc, primary := primary, overlay := overlay,
      fb := fb.value }

/-- `request = alloc()`, which a null request does not get past. -/
def allocRequest : Proc State Failure Unit := do
  let request ← alloc a
  Proc.update fun s => { s with work := { s.work with hasRequest := request } }
  require request (.memoryError "atomic request")

/-- The second part: the blob of the mode and the request. -/
def buildRequest (args : Args) (out : Output) : Proc State Failure Unit := do
  checked (← createBlob a args.mode.timing) "create mode blob"
  allocRequest a
  putAll a connectorId objectConnector out.connector (connectorWrites args.mode)
  let blob ← call fun s => (s.work.blob, s)
  putAll a crtcId objectCrtc out.crtc (crtcWrites blob)
  putAll a primaryId objectPlane out.primary (primaryWrites args.mode out.fb)
  putAll a overlayId objectPlane out.overlay overlayWrites

/-- The lower-case hexadecimal digits of a number. -/
def hex (n : Nat) : String := "0x" ++ String.ofList (Nat.toDigits 16 n)

/-- `before & ~(1 << 18)`. -/
def withoutBit18 (n : Nat) : Nat := n ^^^ (n &&& 2 ^ 18)

def audioOff : List String := ["amixer", "-c", "1", "cset", "numid=1", "off"]

def background : String :=
  "/sys/bus/platform/drivers/zzlab-embeddedsw/a0040000.v_tpg/bckgnd_id"

def readControl : List String := ["devmem", "0xb00c0004", "32"]

def writeControl (before : Nat) : List String :=
  ["devmem", "0xb00c0004", "32", hex (withoutBit18 before)]

def bypass (args : Args) : Proc State Failure Unit :=
  if args.bypassAnc then do
    let before ← runForNumber a readControl
    run a (writeControl before)
  else pure ()

/-- The third part: the trial, and then the changes. -/
def applyRequest (args : Args) : Proc State Failure Unit := do
  checked (← atomicCommit a (testOnly ||| allowModeset)) "atomic TEST_ONLY"
  run a audioOff
  checked (← atomicCommit a allowModeset) "atomic modeset"
  writeText a background "9\n"
  bypass a args
  require (decide (0 ≤ (← result a))) (.osError "print")

def modeset (args : Args) : Proc State Failure Unit := do
  let out ← readOutput a
  buildRequest a args out
  applyRequest a args

/-- The last block. -/
def releaseAll : Proc State Failure Unit := do
  Proc.update fun s => if s.work.hasRequest then s.act (.destroy .request) else s
  Proc.update fun s => if s.work.blob ≠ 0 then s.act (.destroy .blob) else s
  release .fd

def checkHost (host : Host) : Proc State Failure Unit := do
  require (host.euid == 0) (.assertionError "root required")
  let product ← demand host.product (.osError "product")
  require ("SC6F0 SDI Dante RX".toUTF8.toList.isPrefixOf (product.rdropWhile (· == 0)))
    (.assertionError "product")
  let version ← demand host.version (.osError "zdev_ver")
  require ("0x26101501 SDIR ".toList.isPrefixOf version.toList) (.assertionError "version")

def main (host : Host) (args : Args) : Proc State Failure Unit := do
  checkHost host
  require (← handOut a .fd) (.osError "drmOpen")
  ensuring (modeset a args) releaseAll

end Script

/-! ## What a run guarantees -/

/-- All that the request contains. -/
def updates (m : Mode) (fb blob : Nat) : List Update :=
  (connectorWrites m).map (update connectorId objectConnector) ++
    (crtcWrites blob).map (update crtcId objectCrtc) ++
    (primaryWrites m fb).map (update primaryId objectPlane) ++
    overlayWrites.map (update overlayId objectPlane)

/-- The changes to the transmitter's control register, which holds `before`. -/
def bypassing (args : Args) (before : Option Nat) : List Effect :=
  if args.bypassAnc then
    .run readControl before :: (before.map fun n => Effect.run (writeControl n) none).toList
  else []

/-- What the script does where nothing fails. -/
def planned (args : Args) (fb blob : Nat) (before : Option Nat) : List Effect :=
  [.commit (updates args.mode fb blob) (testOnly ||| allowModeset), .run audioOff none,
    .commit (updates args.mode fb blob) allowModeset, .write background "9\n"] ++
    bypassing args before

/-- The output was read as that of a running receiver with the framebuffer `fb`, and `blob` holds
the timing. -/
structure Ready (args : Args) (fb blob : Nat) (tr : List Event) : Prop where
  connector : ∃ d, .read connectorId objectConnector d ∈ tr ∧ (d.lookup "sdi_mode").isSome
  overlay : ∃ d, .read overlayId objectPlane d ∈ tr ∧ (d.lookup "SC6F0_OVERLAY_SOURCE").isSome
  primary : fb ≠ 0 ∧ ∃ d, .read primaryId objectPlane d ∈ tr ∧ valueOf d "FB_ID" = some fb
  crtc : ∃ d active, .read crtcId objectCrtc d ∈ tr ∧ valueOf d "ACTIVE" = some active ∧ active ≠ 0
  blob : .made blob args.mode.timing ∈ tr

/-- Before anything is done to the output, it was checked, and every id that is committed was
read. -/
def Guarded (args : Args) (fb blob : Nat) (tr : List Event) : Prop :=
  ∀ before ev after, tr = before ++ ev :: after → ev.isEffect = true →
    Ready args fb blob before ∧ ∀ c, ev = .commit c → ∀ e ∈ c.request, Resolved before e

/-- The script runs as root on the board and with the kernel that it is meant for. -/
structure Accepted (host : Host) : Prop where
  root : host.euid = 0
  product : ∃ bytes, host.product = some bytes ∧
    "SC6F0 SDI Dante RX".toUTF8.toList <+: bytes.rdropWhile (· == 0)
  version : ∃ text, host.version = some text ∧ "0x26101501 SDIR ".toList <+: text.toList

/-- What a run guarantees, whatever is answered. -/
structure Outcome (host : Host) (args : Args) (r : Except Failure Unit) (s : State) : Prop where
  accepted : s.actions ≠ [] → Accepted host
  released : World.empty.exec s.actions = some World.empty
  progress : ∃ fb blob before, Guarded args fb blob s.trace ∧
    Follows (planned args fb blob before) s.trace ∧
    (r = .ok () → Fulfills (planned args fb blob before) s.trace ∧
      (args.bypassAnc = true → before.isSome = true))

/-! ## Traces -/

section Trace

variable {args : Args} {fb blob : Nat} {tr : List Event} {done plan : List Effect} {ev : Event}
  {effect : Effect}

theorem Ready.mono (h : Ready args fb blob tr) : Ready args fb blob (tr ++ [ev]) := by
  obtain ⟨⟨d₁, h₁, hd₁⟩, ⟨d₂, h₂, hd₂⟩, ⟨hfb, d₃, h₃, hd₃⟩, ⟨d₄, n, h₄, hd₄⟩, hblob⟩ := h
  exact ⟨⟨d₁, List.mem_append_left _ h₁, hd₁⟩, ⟨d₂, List.mem_append_left _ h₂, hd₂⟩,
    ⟨hfb, d₃, List.mem_append_left _ h₃, hd₃⟩, ⟨d₄, n, List.mem_append_left _ h₄, hd₄⟩,
    List.mem_append_left _ hblob⟩

/-- Nothing is done yet. -/
theorem guarded_of_effects (h : effects tr = []) : Guarded args fb blob tr := by
  rintro before ev after rfl hev
  simp [effects, hev] at h

/-- The request is built for `fb` and `blob`, and `done` is done, with success. -/
structure Stage (args : Args) (fb blob : Nat) (request : List Entry) (done : List Effect)
    (tr : List Event) : Prop where
  ready : Ready args fb blob tr
  resolved : ∀ e ∈ request, Resolved tr e
  guarded : Guarded args fb blob tr
  fulfills : Fulfills done tr

/-- What holds wherever the script stops. -/
structure Progress (args : Args) (tr : List Event) : Prop where
  progress : ∃ fb blob before, Guarded args fb blob tr ∧ Follows (planned args fb blob before) tr

theorem Progress.of_effects (h : effects tr = []) : Progress args tr :=
  ⟨0, 0, none, guarded_of_effects h, (fulfills_nil h).follows List.nil_prefix⟩

theorem Stage.progress {request : List Entry} {before : Option Nat}
    (h : Stage args fb blob request done tr) (hdone : done <+: planned args fb blob before) :
    Progress args tr :=
  ⟨fb, blob, before, h.guarded, h.fulfills.follows hdone⟩

/-- The next effect, where it succeeds and where it fails. -/
theorem Stage.snoc {request : List Entry} {before : Option Nat}
    (h : Stage args fb blob request done tr) (hmatch : effect.Matches ev)
    (hcommit : ∀ c, ev = .commit c → c.request = request)
    (hdone : done ++ [effect] <+: planned args fb blob before) :
    (ev.ok = true → Stage args fb blob request (done ++ [effect]) (tr ++ [ev])) ∧
      Progress args (tr ++ [ev]) := by
  have hguarded : Guarded args fb blob (tr ++ [ev]) := by
    intro before ev' after hsplit hev
    rcases split_snoc hsplit with ⟨rfl, rfl⟩ | ⟨after', hsplit⟩
    · exact ⟨h.ready, fun c hc e he => h.resolved e (hcommit c hc ▸ he)⟩
    · exact h.guarded before ev' after' hsplit hev
  refine ⟨fun hok => ⟨h.ready.mono, fun e he => (h.resolved e he).mono, hguarded, ?_⟩,
    fb, blob, before, hguarded, ?_⟩
  · exact h.fulfills.snoc hmatch hok
  · exact h.fulfills.follows_snoc hmatch hdone

end Trace

/-! ## What is held -/

/-- What the script holds, by its variables. -/
def holding (w : Work) : List Handle :=
  (if w.hasRequest then [.request] else []) ++ ((if w.blob ≠ 0 then [.blob] else []) ++ [.fd])

/-- The variables say what is held, and the trace has `T`. -/
def Open (T : List Event → Prop) (s : State) : Prop := ∃ tr w, At (holding w) tr w s ∧ T tr

section Specs

variable {a : Answers} {args : Args} {fb blob : Nat} {tr : List Event} {w : Work}
  {hs : List Handle} {T : List Event → Prop} {R : Failure → State → Prop}

theorem At.destroyIf {s : State} {h : Handle} {c : Prop} [Decidable c]
    (hat : At ((if c then [h] else []) ++ hs) tr w s) :
    At hs tr w (if c then s.act (.destroy h) else s) := by
  by_cases hc : c
  · rw [if_pos hc] at hat ⊢
    exact hat.destroy
  · rw [if_neg hc] at hat ⊢
    exact hat

theorem releaseAll_spec : Meets (Open T) releaseAll (fun _ => On [] T) R := by
  refine Meets.bind (Q := fun _ s => ∃ tr w,
    At ((if w.blob ≠ 0 then [.blob] else []) ++ [.fd]) tr w s ∧ T tr) (meets_update ?_) fun _ => ?_
  · rintro s ⟨tr, w, hat, htr⟩
    refine ⟨tr, w, ?_, htr⟩
    rw [hat.work]
    exact At.destroyIf hat
  refine Meets.bind (Q := fun _ => On [.fd] T) (meets_update ?_) fun _ => ?_
  · rintro s ⟨tr, w, hat, htr⟩
    refine ⟨tr, w, ?_, htr⟩
    rw [hat.work]
    exact At.destroyIf hat
  · exact meets_update fun s hon => hon.destroy

theorem checked_spec {text : String} :
    Meets (At hs tr w) (result a >>= fun n => checked n text) (fun _ => At hs tr w)
      fun _ => At hs tr w :=
  Meets.bind meets_result fun _ => meets_require_at.returning fun _ _ hat => hat.2

/-! ## The effects -/

/-- An effect leaves `ev true` in the trace where it succeeds, and `ev false` where it fails. -/
theorem meets_effect {f : State → Int × State} {e : Failure} (ev : Bool → Event)
    (hf : ∀ s, At hs tr w s → At hs (tr ++ [ev (decide (0 ≤ (f s).1))]) w (f s).2) :
    Meets (At hs tr w) (call f >>= fun n => require (decide (0 ≤ n)) e)
      (fun _ => At hs (tr ++ [ev true]) w) fun _ => At hs (tr ++ [ev false]) w := by
  intro s hat
  have hnext := hf s hat
  simp only [Bind.bind, call]
  cases hok : decide (0 ≤ (f s).1) with
  | false =>
      rw [hok] at hnext
      exact hnext
  | true =>
      rw [hok] at hnext
      exact hnext

theorem run_spec (command : List String) :
    Meets (At hs tr w) (run a command) (fun _ => At hs (tr ++ [.ran command none true]) w)
      fun _ => At hs (tr ++ [.ran command none false]) w :=
  meets_effect (fun ok => .ran command none ok) fun _ hat => hat.next.note _

theorem writeText_spec (path text : String) :
    Meets (At hs tr w) (writeText a path text) (fun _ => At hs (tr ++ [.wrote path text true]) w)
      fun _ => At hs (tr ++ [.wrote path text false]) w :=
  meets_effect (fun ok => .wrote path text ok) fun _ hat => hat.next.note _

theorem commit_spec (flags : Nat) (text : String) :
    Meets (At hs tr w) (atomicCommit a flags >>= fun n => checked n text)
      (fun _ => At hs (tr ++ [.commit ⟨w.request, flags, true⟩]) w)
      fun _ => At hs (tr ++ [.commit ⟨w.request, flags, false⟩]) w := by
  refine meets_effect (fun ok => .commit ⟨w.request, flags, ok⟩) fun s hat => ?_
  rw [← hat.work]
  exact { hat.next.note _ with work := rfl }

/-- The command may fail, and so may the conversion of what it printed. -/
theorem runForNumber_spec (command : List String) :
    Meets (At hs tr w) (runForNumber a command)
      (fun n => At hs (tr ++ [.ran command (some n) true]) w)
      fun _ s => ∃ output ok, At hs (tr ++ [.ran command output ok]) w s := by
  intro s hat
  have hnext := (hat.note (.ran command (a.output s.turn) (0 ≤ a.result s.turn))).next
  simp only [runForNumber, Bind.bind, call]
  cases hok : decide (0 ≤ a.result s.turn) with
  | false => exact ⟨_, _, hok ▸ hnext⟩
  | true =>
      cases houtput : a.output s.turn with
      | none =>
          rw [hok, houtput] at hnext
          simp only [State.note, houtput]
          exact ⟨_, _, hnext⟩
      | some n =>
          rw [hok, houtput] at hnext
          simp only [State.note, houtput]
          exact hnext

/-! ## Reading -/

/-- The reads of the first part. -/
def reads (out : Output) : List Event :=
  [.read connectorId objectConnector out.connector, .read crtcId objectCrtc out.crtc,
    .read primaryId objectPlane out.primary, .read overlayId objectPlane out.overlay]

/-- What the first part checks. -/
structure Running (out : Output) : Prop where
  connector : (out.connector.lookup "sdi_mode").isSome
  overlay : (out.overlay.lookup "SC6F0_OVERLAY_SOURCE").isSome
  primary : out.fb ≠ 0 ∧ valueOf out.primary "FB_ID" = some out.fb
  crtc : ∃ active, valueOf out.crtc "ACTIVE" = some active ∧ active ≠ 0

theorem properties_spec {obj kind : Nat} :
    Meets (At [.fd] tr w) (properties a obj kind)
      (fun d => At [.fd] (tr ++ [.read obj kind d]) w) fun _ => At [.fd] tr w :=
  readProperties_spec (by simp) (by simp)

/-- Nothing is done to the output, and all is held as the variables say. -/
def Clean (s : State) : Prop := Open (fun tr => effects tr = []) s

theorem clean_of_at {s : State} (hat : At [.fd] tr {} s) (htr : effects tr = []) : Clean s :=
  ⟨tr, {}, hat, htr⟩

theorem readOutput_spec :
    Meets (At [.fd] [] {}) (readOutput a)
      (fun out s => Running out ∧ At [.fd] (reads out) {} s) fun _ => Clean := by
  have hclean : ∀ {tr : List Event}, effects tr = [] → ∀ (_ : Failure) s, At [.fd] tr {} s →
      Clean s := fun htr _ s hat => clean_of_at hat htr
  unfold readOutput
  rw [← Proc.bind_assoc]
  refine Meets.bind (checked_spec.raising (hclean rfl)) fun _ => ?_
  rw [← Proc.bind_assoc]
  refine Meets.bind (checked_spec.raising (hclean rfl)) fun _ => ?_
  refine Meets.bind (properties_spec.raising (hclean rfl)) fun connector => ?_
  refine Meets.bind (properties_spec.raising (hclean rfl)) fun crtc => ?_
  refine Meets.bind (properties_spec.raising (hclean rfl)) fun primary => ?_
  refine Meets.bind (properties_spec.raising (hclean rfl)) fun overlay => ?_
  refine Meets.bind (meets_require_at.raising (hclean rfl)) fun _ => meets_assume fun hsdi => ?_
  refine Meets.bind (meets_demand_at.raising (hclean rfl)) fun fb => meets_assume fun hfb => ?_
  refine Meets.bind (meets_require_at.raising (hclean rfl)) fun _ => meets_assume fun hshown => ?_
  refine Meets.bind (meets_demand_at.raising (hclean rfl)) fun active => ?_
  refine meets_assume fun hactive => ?_
  refine Meets.bind (meets_require_at.raising (hclean rfl)) fun _ => meets_assume fun hon => ?_
  refine meets_pure fun s hat => ⟨?_, hat⟩
  rw [Bool.and_eq_true] at hsdi
  exact ⟨hsdi.1, hsdi.2, ⟨bne_iff_ne.mp hshown, congrArg (Option.map Value.value) hfb⟩,
    active.value, congrArg (Option.map Value.value) hactive, bne_iff_ne.mp hon⟩

/-! ## The request -/

/-- The request in hand contains `done` so far. -/
def Filling (tr : List Event) (blob : Nat) (done : List Update) (s : State) : Prop :=
  ∃ request, At [.request, .blob, .fd] tr ⟨request, true, blob⟩ s ∧
    request.map Entry.update = done ∧ ∀ e ∈ request, Resolved tr e

theorem Filling.clean {s : State} {done : List Update} (h : Filling tr blob done s)
    (hblob : blob ≠ 0) (htr : effects tr = []) : Clean s := by
  obtain ⟨request, hat, -⟩ := h
  refine ⟨tr, ⟨request, true, blob⟩, ?_, htr⟩
  rw [holding, if_pos hblob]
  exact hat

theorem putAll_spec {obj kind : Nat} {props : Dict} (hblob : blob ≠ 0) (htr : effects tr = [])
    (hread : .read obj kind props ∈ tr) (ps : List (String × Nat)) :
    ∀ done, Meets (Filling tr blob done) (putAll a obj kind props ps)
      (fun _ => Filling tr blob (done ++ ps.map (update obj kind))) fun _ => Clean := by
  induction ps with
  | nil =>
      intro done
      rw [List.map_nil, List.append_nil]
      exact meets_pure fun _ h => h
  | cons p ps ih =>
      intro done
      refine meets_exists fun request => ?_
      refine Meets.before (P := fun s => (request.map Entry.update = done ∧
        ∀ e ∈ request, Resolved tr e) ∧ At [.request, .blob, .fd] tr ⟨request, true, blob⟩ s) ?_
        fun s h => ⟨h.2, h.1⟩
      refine meets_assume fun ⟨hreq, hres⟩ => ?_
      have hclean : ∀ (f : Failure) s, At [.request, .blob, .fd] tr ⟨request, true, blob⟩ s →
          Clean s := fun _ s hat => Filling.clean ⟨request, hat, hreq, hres⟩ hblob htr
      refine Meets.bind (meets_demand_at.raising hclean) fun v => meets_assume fun hv => ?_
      refine Meets.bind (meets_add ⟨update obj kind p, v.id⟩) fun n => ?_
      have hnext := ih (done ++ [update obj kind p])
      rw [List.append_assoc] at hnext
      refine Meets.bind (Q := fun _ => Filling tr blob (done ++ [update obj kind p]))
        (meets_require ?_ ?_) fun _ => hnext
      · intro s hs hok
        rw [if_neg (not_lt.mpr (of_decide_eq_true hok))] at hs
        refine ⟨_, hs, ?_, ?_⟩
        · rw [List.map_append, hreq]
          rfl
        · rw [List.forall_mem_append]
          refine ⟨hres, fun e he => ?_⟩
          obtain rfl := List.mem_singleton.mp he
          exact ⟨props, v, hread, hv, rfl⟩
      · intro s hs hno
        rw [if_pos (not_le.mp (of_decide_eq_false hno))] at hs
        exact hclean (.unicodeDecodeError) s hs

/-- The blob of the mode is made, and is in its variable. -/
theorem createBlob_spec {mode : Drm.ModeInfo} {text : String} :
    Meets (At [.fd] tr {}) (createBlob a mode >>= fun n => checked n text)
      (fun _ s => ∃ blob, blob ≠ 0 ∧ At [.blob, .fd] (tr ++ [.made blob mode]) ⟨[], false, blob⟩ s)
      fun _ => At [.fd] tr {} := by
  intro s hat
  simp only [Bind.bind, createBlob, call]
  cases hok : decide (0 ≤ a.result s.turn) with
  | false =>
      have hneg := not_le.mp (of_decide_eq_false hok)
      simp only [checked, hok, hneg, if_true]
      exact hat.next
  | true =>
      have hpos := not_lt.mpr (of_decide_eq_true hok)
      simp only [checked, hok, hpos, if_false]
      refine ⟨a.blob s.turn + 1, Nat.succ_ne_zero _, ?_⟩
      have hmade := (hat.next.create (h := .blob) (by simp)).note (.made (a.blob s.turn + 1) mode)
      exact { hmade with work := by rw [hat.work] }

/-- The request is allocated, and its variable set. -/
theorem allocRequest_spec :
    Meets (At [.blob, .fd] tr ⟨[], false, blob⟩) (allocRequest a)
      (fun _ => At [.request, .blob, .fd] tr ⟨[], true, blob⟩)
      fun _ => At [.blob, .fd] tr ⟨[], false, blob⟩ := by
  intro s hat
  have hwork : ∀ found, { s.work with request := [], hasRequest := found } =
      (⟨[], found, blob⟩ : Work) := fun found => by rw [hat.work]
  have hlater : ∀ found, { s.work with hasRequest := found } = (⟨[], found, blob⟩ : Work) :=
    fun found => by rw [hat.work]
  simp only [allocRequest, Bind.bind, alloc, call, Proc.update]
  cases a.found s.turn with
  | false => exact { hat.next with work := hlater false }
  | true => exact { hat.next.create (h := .request) (by simp) with work := hwork true }

theorem meets_blob {done : List Update} :
    Meets (Filling tr blob done) (call fun s => (s.work.blob, s))
      (fun b s => b = blob ∧ Filling tr blob done s) R := by
  refine meets_call ?_
  rintro s ⟨request, hat, hreq⟩
  exact ⟨congrArg Work.blob hat.work, request, hat, hreq⟩

theorem buildRequest_spec {out : Output} :
    Meets (At [.fd] (reads out) {}) (buildRequest a args out)
      (fun _ s => ∃ blob, blob ≠ 0 ∧ Filling (reads out ++ [.made blob args.mode.timing]) blob
        (updates args.mode out.fb blob) s) fun _ => Clean := by
  unfold buildRequest
  rw [← Proc.bind_assoc]
  refine Meets.bind (createBlob_spec.raising fun _ s hat => clean_of_at hat rfl) fun _ => ?_
  refine meets_exists fun blob => meets_assume fun hblob => ?_
  -- each part of the request uses the ids that one of the reads returned
  have hput : ∀ {obj kind props}, .read obj kind props ∈ reads out → ∀ ps done,
      Meets (Filling (reads out ++ [.made blob args.mode.timing]) blob done)
        (putAll a obj kind props ps) (fun _ => Filling (reads out ++ [.made blob args.mode.timing])
          blob (done ++ ps.map (update obj kind))) fun _ => Clean :=
    fun hread ps => putAll_spec hblob rfl (List.mem_append_left _ hread) ps
  refine Meets.bind (allocRequest_spec.raising fun _ s hat => ?_) fun _ => ?_
  · refine ⟨reads out ++ [.made blob args.mode.timing], ⟨[], false, blob⟩, ?_, rfl⟩
    rw [holding, if_pos hblob]
    exact hat
  refine Meets.before (P := Filling (reads out ++ [.made blob args.mode.timing]) blob []) ?_
    fun s hat => ⟨[], hat, rfl, fun e he => absurd he List.not_mem_nil⟩
  refine Meets.bind (hput (by simp [reads]) _ _) fun _ => ?_
  refine Meets.bind meets_blob fun b => meets_assume fun hb => ?_
  subst hb
  refine Meets.bind (hput (by simp [reads]) _ _) fun _ => ?_
  refine Meets.bind (hput (by simp [reads]) _ _) fun _ => ?_
  exact (hput (by simp [reads]) _ _).returning fun _ s hfilled => ⟨b, hblob, hfilled⟩

/-! ## The changes -/

/-- The request is built, and `done` is done, with success. -/
def Applying (args : Args) (fb blob : Nat) (request : List Entry) (done : List Effect)
    (s : State) : Prop :=
  ∃ tr, Stage args fb blob request done tr ∧
    At [.request, .blob, .fd] tr ⟨request, true, blob⟩ s

theorem open_of_at {request : List Entry} {s : State}
    (hat : At [.request, .blob, .fd] tr ⟨request, true, blob⟩ s) (hblob : blob ≠ 0) (htr : T tr) :
    Open T s := by
  refine ⟨tr, ⟨request, true, blob⟩, ?_, htr⟩
  rw [holding, if_pos hblob]
  exact hat

/-- One effect of the plan. -/
theorem meets_applying {request : List Entry} {done : List Effect} {before : Option Nat}
    {p : Proc State Failure Unit} {effect : Effect} (ev : Bool → Event) (hblob : blob ≠ 0)
    (hp : ∀ tr, Meets (At [.request, .blob, .fd] tr ⟨request, true, blob⟩) p
      (fun _ => At [.request, .blob, .fd] (tr ++ [ev true]) ⟨request, true, blob⟩)
      fun _ => At [.request, .blob, .fd] (tr ++ [ev false]) ⟨request, true, blob⟩)
    (hok : (ev true).ok = true) (hmatch : ∀ ok, effect.Matches (ev ok))
    (hcommit : ∀ ok c, ev ok = .commit c → c.request = request)
    (hdone : done ++ [effect] <+: planned args fb blob before) :
    Meets (Applying args fb blob request done) p
      (fun _ => Applying args fb blob request (done ++ [effect]))
      fun _ => Open (Progress args) := by
  refine meets_exists fun tr => meets_assume fun hstage => ?_
  refine (hp tr).weaken (fun _ => id) (fun _ s hat => ?_) fun _ s hat => ?_
  · exact ⟨_, (hstage.snoc (hmatch true) (hcommit true) hdone).1 hok, hat⟩
  · exact open_of_at hat hblob (hstage.snoc (hmatch false) (hcommit false) hdone).2

section Rules

variable {request : List Entry} {done : List Effect} {before : Option Nat}

theorem applying_run (hblob : blob ≠ 0) (command : List String)
    (hdone : done ++ [.run command none] <+: planned args fb blob before) :
    Meets (Applying args fb blob request done) (run a command)
      (fun _ => Applying args fb blob request (done ++ [.run command none]))
      fun _ => Open (Progress args) :=
  meets_applying (fun ok => .ran command none ok) hblob (fun _ => run_spec command) rfl
    (fun _ => ⟨rfl, rfl⟩) (fun _ _ => nofun) hdone

theorem applying_write (hblob : blob ≠ 0) (path text : String)
    (hdone : done ++ [.write path text] <+: planned args fb blob before) :
    Meets (Applying args fb blob request done) (writeText a path text)
      (fun _ => Applying args fb blob request (done ++ [.write path text]))
      fun _ => Open (Progress args) :=
  meets_applying (fun ok => .wrote path text ok) hblob (fun _ => writeText_spec path text) rfl
    (fun _ => ⟨rfl, rfl⟩) (fun _ _ => nofun) hdone

theorem applying_commit (hblob : blob ≠ 0)
    (hreq : request.map Entry.update = updates args.mode fb blob) (flags : Nat) (text : String)
    (hdone : done ++ [.commit (updates args.mode fb blob) flags] <+: planned args fb blob before) :
    Meets (Applying args fb blob request done)
      (atomicCommit a flags >>= fun n => checked n text)
      (fun _ => Applying args fb blob request (done ++ [.commit (updates args.mode fb blob) flags]))
      fun _ => Open (Progress args) :=
  meets_applying (fun ok => .commit ⟨request, flags, ok⟩) hblob
    (fun _ => commit_spec flags text) rfl (fun _ => ⟨hreq, rfl⟩)
    (fun _ _ hc => (Event.commit.inj hc) ▸ rfl) hdone

end Rules

/-- What is planned before the control register is touched. -/
def switching (m : Mode) (fb blob : Nat) : List Effect :=
  [.commit (updates m fb blob) (testOnly ||| allowModeset), .run audioOff none,
    .commit (updates m fb blob) allowModeset, .write background "9\n"]

theorem planned_eq {before : Option Nat} :
    planned args fb blob before = switching args.mode fb blob ++ bypassing args before := rfl

theorem bypass_spec {request : List Entry} (hblob : blob ≠ 0) :
    Meets (Applying args fb blob request (switching args.mode fb blob)) (bypass a args)
      (fun _ s => ∃ before, (args.bypassAnc = true → before.isSome = true) ∧
        Applying args fb blob request (planned args fb blob before) s)
      fun _ => Open (Progress args) := by
  unfold bypass
  cases hbypass : args.bypassAnc with
  | false =>
      refine meets_pure fun s happlying => ⟨none, nofun, ?_⟩
      rw [planned_eq, bypassing, hbypass, if_neg Bool.false_ne_true, List.append_nil]
      exact happlying
  | true =>
      have hplan : ∀ output, switching args.mode fb blob ++ [.run readControl output] <+:
          planned args fb blob output := by
        intro output
        rw [planned_eq, bypassing, hbypass, if_pos rfl]
        exact (List.prefix_append_right_inj _).mpr ⟨_, rfl⟩
      refine Meets.bind (Q := fun n => Applying args fb blob request
        (switching args.mode fb blob ++ [.run readControl (some n)])) ?_ fun n => ?_
      · refine meets_exists fun tr => meets_assume fun hstage => ?_
        refine (runForNumber_spec readControl).weaken (fun _ => id) (fun n s hat => ?_) ?_
        · have hmatch : (Effect.run readControl (some n)).Matches
              (.ran readControl (some n) true) := ⟨rfl, rfl⟩
          exact ⟨_, (hstage.snoc hmatch (fun _ => nofun) (hplan (some n))).1 rfl, hat⟩
        · rintro _ s ⟨output, ok, hat⟩
          have hmatch : (Effect.run readControl output).Matches (.ran readControl output ok) :=
            ⟨rfl, rfl⟩
          exact open_of_at hat hblob (hstage.snoc hmatch (fun _ => nofun) (hplan output)).2
      · have hdone : switching args.mode fb blob ++ [.run readControl (some n)] ++
            [.run (writeControl n) none] = planned args fb blob (some n) := by
          rw [planned_eq, bypassing, hbypass, if_pos rfl, List.append_assoc]
          rfl
        have hwrite : Meets (Applying args fb blob request _) (run a (writeControl n)) _ _ :=
          applying_run hblob (writeControl n) ⟨[], (List.append_nil _).trans hdone⟩
        rw [hdone] at hwrite
        exact hwrite.returning fun _ s happlying => ⟨some n, fun _ => rfl, happlying⟩

/-- All is done. -/
def Complete (args : Args) (tr : List Event) : Prop :=
  ∃ fb blob before, Guarded args fb blob tr ∧ Fulfills (planned args fb blob before) tr ∧
    (args.bypassAnc = true → before.isSome = true)

theorem applyRequest_spec {request : List Entry} (hblob : blob ≠ 0)
    (hreq : request.map Entry.update = updates args.mode fb blob) :
    Meets (Applying args fb blob request []) (applyRequest a args) (fun _ => Open (Complete args))
      fun _ => Open (Progress args) := by
  have hplan : ∀ done, done <+: switching args.mode fb blob → done <+: planned args fb blob none :=
    fun done hdone => hdone.trans (List.prefix_append _ _)
  unfold applyRequest
  rw [← Proc.bind_assoc]
  refine Meets.bind (applying_commit hblob hreq _ _ (hplan _ ⟨_, rfl⟩)) fun _ => ?_
  refine Meets.bind (applying_run hblob _ (hplan _ ⟨_, rfl⟩)) fun _ => ?_
  rw [← Proc.bind_assoc]
  refine Meets.bind (applying_commit hblob hreq _ _ (hplan _ ⟨_, rfl⟩)) fun _ => ?_
  refine Meets.bind (applying_write hblob _ _ (hplan _ ⟨_, rfl⟩)) fun _ => ?_
  refine Meets.bind (bypass_spec hblob) fun _ => ?_
  refine meets_exists fun before => meets_assume fun hbefore => meets_exists fun tr =>
    meets_assume fun hstage => ?_
  refine Meets.bind meets_result fun n => meets_require ?_ ?_
  · exact fun s hat _ => open_of_at hat hblob
      ⟨fb, blob, before, hstage.guarded, hstage.fulfills, hbefore⟩
  · exact fun s hat _ => open_of_at hat hblob (hstage.progress (List.prefix_refl _))

/-! ## The whole script -/

/-- What was checked and made, as the plan needs it. -/
theorem ready_of_running {out : Output} (hout : Running out) :
    Ready args out.fb blob (reads out ++ [.made blob args.mode.timing]) where
  connector := ⟨out.connector, by simp [reads], hout.connector⟩
  overlay := ⟨out.overlay, by simp [reads], hout.overlay⟩
  primary := ⟨hout.primary.1, out.primary, by simp [reads], hout.primary.2⟩
  crtc := by
    obtain ⟨active, hactive⟩ := hout.crtc
    exact ⟨out.crtc, active, by simp [reads], hactive⟩
  blob := by simp

theorem modeset_spec :
    Meets (At [.fd] [] {}) (modeset a args) (fun _ => Open (Complete args))
      fun _ => Open (Progress args) := by
  have hclean : ∀ (_ : Failure) s, Clean s → Open (Progress args) s := by
    rintro _ s ⟨tr, w, hat, htr⟩
    exact ⟨tr, w, hat, Progress.of_effects htr⟩
  refine Meets.bind (readOutput_spec.raising hclean) fun out => meets_assume fun hout => ?_
  refine Meets.bind (buildRequest_spec.raising hclean) fun _ => ?_
  refine meets_exists fun blob => meets_assume fun hblob => meets_exists fun request => ?_
  refine Meets.before (P := fun s => (request.map Entry.update = updates args.mode out.fb blob ∧
    ∀ e ∈ request, Resolved (reads out ++ [.made blob args.mode.timing]) e) ∧
    At [.request, .blob, .fd] (reads out ++ [.made blob args.mode.timing]) ⟨request, true, blob⟩ s)
    (meets_assume fun ⟨hreq, hres⟩ => ?_) fun s h => ⟨h.2, h.1⟩
  refine (applyRequest_spec hblob hreq).before fun s hat => ⟨_, ?_, hat⟩
  exact ⟨ready_of_running hout, hres, guarded_of_effects rfl, fulfills_nil rfl⟩

theorem checkHost_spec {host : Host} {P : State → Prop} :
    Meets P (checkHost host) (fun _ s => Accepted host ∧ P s) fun _ => P := by
  have hdemand : ∀ {α : Type} (o : Option α) (f : Failure),
      Meets P (demand o f) (fun v s => o = some v ∧ P s) fun _ => P :=
    fun o f => meets_demand (fun _ _ hs ho => ⟨ho, hs⟩) fun _ hs _ => hs
  have hrequire : ∀ (ok : Bool) (f : Failure),
      Meets P (require ok f) (fun _ s => ok = true ∧ P s) fun _ => P :=
    fun ok f => meets_require (fun _ hs hok => ⟨hok, hs⟩) fun _ hs _ => hs
  refine Meets.bind (hrequire _ _) fun _ => meets_assume fun hroot => ?_
  refine Meets.bind (hdemand _ _) fun product => meets_assume fun hproduct => ?_
  refine Meets.bind (hrequire _ _) fun _ => meets_assume fun hnamed => ?_
  refine Meets.bind (hdemand _ _) fun version => meets_assume fun hversion => ?_
  refine (hrequire _ _).returning fun _ s hkernel => ⟨⟨?_, ⟨product, hproduct, ?_⟩,
    version, hversion, ?_⟩, hkernel.2⟩
  · exact beq_iff_eq.mp hroot
  · exact List.isPrefixOf_iff_prefix.mp hnamed
  · exact List.isPrefixOf_iff_prefix.mp hkernel.1

section Ending

variable {host : Host} {s : State}

theorem outcome_of_progress {e : Failure} (haccepted : s.actions ≠ [] → Accepted host)
    (hon : On [] (Progress args) s) : Outcome host args (.error e) s := by
  obtain ⟨tr, w, hat, fb, blob, before, hguarded, hfollows⟩ := hon
  obtain rfl := hat.trace
  exact ⟨haccepted, hat.held, fb, blob, before, hguarded, hfollows, nofun⟩

theorem outcome_of_complete (haccepted : s.actions ≠ [] → Accepted host)
    (hon : On [] (Complete args) s) : Outcome host args (.ok ()) s := by
  obtain ⟨tr, w, hat, fb, blob, before, hguarded, hfulfills, hbefore⟩ := hon
  obtain rfl := hat.trace
  exact ⟨haccepted, hat.held, fb, blob, before, hguarded, hfulfills.follows (List.prefix_refl _),
    fun _ => ⟨hfulfills, hbefore⟩⟩

end Ending

theorem main_spec (host : Host) :
    Meets (fun s => s = State.start) (main a host args) (fun _ => Outcome host args (.ok ()))
      fun f => Outcome host args (.error f) := by
  refine Meets.bind (checkHost_spec.raising ?_) fun _ => meets_assume fun haccepted => ?_
  · rintro f s rfl
    exact outcome_of_progress (fun hne => absurd rfl hne)
      ⟨[], {}, at_start, Progress.of_effects rfl⟩
  refine Meets.before (P := At [] [] {}) ?_ fun s hs => hs ▸ at_start
  unfold handOut
  rw [← Proc.bind_assoc]
  refine Meets.bind ((meets_check_obtain (h := .fd) (by simp) fun s => ?_).raising
    fun f s hat => ?_) fun _ => ?_
  · cases a.found s.turn with
    | false => exact .inl rfl
    | true => exact .inr rfl
  · exact outcome_of_progress (fun _ => haccepted) ⟨[], {}, hat, Progress.of_effects rfl⟩
  refine Meets.ensuring modeset_spec (fun _ => ?_) fun f => ?_
  · exact releaseAll_spec.returning fun _ s hon => outcome_of_complete (fun _ => haccepted) hon
  · exact releaseAll_spec.returning fun _ s hon => outcome_of_progress (fun _ => haccepted) hon

/-- **The output is changed only after the whole request was tried.** Whatever the driver and the
commands answer, the script does what it plans, in order and up to its first failure, with the
framebuffer, the blob and the ids that it read of a running receiver; and it gives back all that it
was handed. -/
theorem localModeset_outcome (a : Answers) (host : Host) (args : Args) :
    Outcome host args (main a host args State.start).1 (main a host args State.start).2 := by
  have hend : Ends (fun _ => Outcome host args (.ok ())) (fun f => Outcome host args (.error f))
      (main a host args State.start) := main_spec host _ rfl
  generalize main a host args State.start = run at hend ⊢
  obtain ⟨f | u, s⟩ := run
  · exact hend
  · exact hend

end Specs

end LocalModeset

end QcapDemos.Diag
