import Mathlib.Data.List.DropRight
import QcapDemos.Lib.Lifecycle
import QcapDemos.Lib.Proc
import QcapDemos.Rate.Driver

set_option autoImplicit false

/-! # The rate experiment

`sc6f0-sdi-rate-modeset` switches the SDI output between the integer and the fractional rate. It
reads the properties of the output, builds the requests, tries them, commits them, and where
anything raises it commits the original values. Every call of libdrm takes its outcome from `Calls`.
-/

namespace QcapDemos.Rate

open QcapDemos.Lib Proc

/-! ## State -/

/-- What libdrm hands out and the script has to give back. -/
inductive Handle where
  | fd
  | props (obj : Nat)
  | prop (obj i : Nat)
  | modeBlob
  | newBlob
  | modesetRequest
  | disablingRequest
  | rollbackRequest
deriving DecidableEq

/-- `DRM_MODE_ATOMIC_ALLOW_MODESET`. -/
def allowModeset : Nat := 0x400

/-- `DRM_MODE_ATOMIC_TEST_ONLY`. -/
def testOnly : Nat := 0x100

/-- A commit with the request that it was given. -/
structure Commit where
  handle : Handle
  request : Request
  flags : Nat
  ok : Bool
deriving DecidableEq

def Commit.testOnly (c : Commit) : Bool := c.flags.testBit 8

/-- The part `before` of the report. -/
structure Before where
  pixelClockKhz : Nat
  isFrac : Nat
  primaryFb : Nat
  overlayFb : Nat
  overlaySource : Nat
  hdisplay : Nat
  vdisplay : Nat
  htotal : Nat
  vtotal : Nat
deriving DecidableEq

/-- A line of the report. -/
inductive Report where
  | plan (before : Before) (pixelClockKhz isFrac : Nat) (reinitializes : Bool)
  | committed (pixelClockKhz isFrac : Nat)
deriving DecidableEq

abbrev Dict := List (String × Value)

/-- The variables of `main` that outlive an exception, the driver, the contents of the requests, and
what has been done: commits, reports, and what was obtained and given back. A dictionary is empty
before it is read, and a request is missing before it is allocated. -/
structure State where
  connector : Dict
  crtc : Dict
  request : Option Handle
  disableRequest : Option Handle
  newBlob : Nat
  driver : Driver
  entries : Handle → Request
  commits : List Commit
  reports : List Report
  actions : List (Action Handle)

def State.start (d : Driver) : State where
  connector := []
  crtc := []
  request := none
  disableRequest := none
  newBlob := 0
  driver := d
  entries _ := []
  commits := []
  reports := []
  actions := []

def State.act (s : State) (a : Action Handle) : State := { s with actions := s.actions ++ [a] }

inductive Failure where
  | osError (operation : String)
  | runtimeError (text : String)
  | memoryError (text : String)
  | valueError (text : String)
  | keyError (key : String)
  | unicodeDecodeError
deriving DecidableEq

/-- The arguments. The parser lets no other rate through. -/
structure Args where
  fractional : Nat
  reinitializes : Bool
  fractional_le : fractional ≤ 1

/-- The host: who runs the script, the files that it reads, and whether libdrm loads. -/
structure Host where
  euid : Nat
  product : Option (List UInt8)
  version : Option String
  libdrm : Bool

/-- The outcomes of the calls. Additions are counted within a request; commits and reports are
counted throughout. -/
structure Calls where
  drmOpen : Bool
  cap : Nat → Bool
  getProps : Nat → Bool
  getProp : Nat → Nat → Bool
  getBlob : Bool
  createBlob : Bool
  blobId : Nat
  alloc : Handle → Bool
  add : Handle → Nat → Bool
  commit : Nat → CommitResult
  print : Nat → Bool

/-! ## Checks of the host -/

/-- The characters at which `split` splits. -/
def isSpace (c : Char) : Bool :=
  let n := c.toNat
  (9 ≤ n && n ≤ 13) || (28 ≤ n && n ≤ 32) || n == 0x85 || n == 0xa0 || n == 0x1680 ||
    (0x2000 ≤ n && n ≤ 0x200a) || n == 0x2028 || n == 0x2029 || n == 0x202f || n == 0x205f ||
    n == 0x3000

/-- `version.split()`. -/
def fields (version : String) : List (List Char) :=
  (version.toList.splitOnP isSpace).filter (· ≠ [])

def validateVersion (version : String) : Proc State Failure Unit :=
  require
    (match fields version with
    | abi :: kind :: _ =>
        (abi == "0x26102005".toList || abi == "0x26102101".toList) && kind == "SDIR".toList
    | _ => false)
    (.runtimeError "Requires known SDIR probe ABI2/ABI3 FPGA")

/-- `rate_for_mode`, in kHz. -/
def rateForMode (width height fractional : Nat) : Option Nat :=
  if Drm.sdiSize width height && (fractional == 0 || fractional == 1) then
    some
      (if width = 1920 then (if fractional ≠ 0 then 148350 else 148500)
      else (if fractional ≠ 0 then 593406 else 594000))
  else none

def validateHost (host : Host) : Proc State Failure Unit := do
  require (host.euid == 0) (.runtimeError "root required")
  let product ← demand host.product (.osError "product")
  require ("SC6F0 SDI Dante RX".toUTF8.toList.isPrefixOf (product.rdropWhile (· == 0)))
    (.runtimeError "Not the named SDI RX product")
  let version ← demand host.version (.osError "zdev_ver")
  validateVersion version
  require host.libdrm (.osError "libdrm.so.2")

/-! ## Calls of libdrm -/

section Script

variable (t : Tables) (calls : Calls)

def checked (ok : Bool) (operation : String) : Proc State Failure Unit :=
  require ok (.osError operation)

/-- A call that hands out `h` where it succeeds. -/
def handOut (ok : Bool) (h : Handle) : Proc State Failure (Option Handle) :=
  call fun s => if ok then (some h, s.act (.create h)) else (none, s)

def release (h : Handle) : Proc State Failure Unit := update fun s => s.act (.destroy h)

/-- `drmModeObjectGetProperties`: the ids, with the values of now. -/
def getProps (obj : Nat) : Proc State Failure (Option (List Value)) :=
  call fun s =>
    if calls.getProps obj then
      (some ((t.props obj).map fun prop => ⟨prop, s.driver.value t obj prop⟩),
        s.act (.create (.props obj)))
    else (none, s)

structure Property where
  id : Nat
  name : Option String

/-- `drmModeGetProperty`, of the property at `i` of a list. -/
def getProp (obj i id : Nat) : Proc State Failure (Option Property) :=
  call fun s =>
    if calls.getProp obj i then (some ⟨id, t.name id⟩, s.act (.create (.prop obj i)))
    else (none, s)

/-- `drmModeGetPropertyBlob`, which takes an id of 32 bits. -/
def getBlob (id : Nat) : Proc State Failure (Option Blob) :=
  call fun s =>
    if calls.getBlob && id % 2 ^ 32 ∈ s.driver.blobs then
      (some (s.driver.blob (id % 2 ^ 32)), s.act (.create .modeBlob))
    else (none, s)

/-- `drmModeCreatePropertyBlob`. -/
def State.createBlob (s : State) (mode : Drm.ModeInfo) : Bool × State :=
  if calls.createBlob then
    (true, { s.act (.create .newBlob) with
      newBlob := (s.driver.createBlob calls.blobId mode).1
      driver := (s.driver.createBlob calls.blobId mode).2 })
  else (false, s)

/-- `drmModeAtomicAlloc`. -/
def alloc (h : Handle) : Proc State Failure (Option Handle) := handOut (calls.alloc h) h

/-- `drmModeAtomicAddProperty`. -/
def State.add (s : State) (h : Handle) (e : Entry) : Bool × State :=
  if calls.add h (s.entries h).length then
    (true, { s with entries := Function.update s.entries h (s.entries h ++ [e]) })
  else (false, s)

/-- `drmModeAtomicCommit`. -/
def State.commit (s : State) (h : Handle) (flags : Nat) : Bool × State :=
  let result := calls.commit s.commits.length
  let c : Commit := ⟨h, s.entries h, flags, result.ok⟩
  (result.ok, { s with
    driver := s.driver.commit t c.request c.testOnly result
    commits := s.commits ++ [c] })

def createBlob (mode : Drm.ModeInfo) : Proc State Failure Bool :=
  call fun s => s.createBlob calls mode

def add (h : Handle) (e : Entry) : Proc State Failure Bool := call fun s => s.add calls h e

def commit (h : Handle) (flags : Nat) : Proc State Failure Bool :=
  call fun s => s.commit t calls h flags

def print (report : Report) : Proc State Failure Unit := do
  let ok ← call fun s => (calls.print s.reports.length, { s with reports := s.reports ++ [report] })
  require ok (.osError "print")

/-! ## The script -/

/-- `d[key]`. -/
def Dict.key (d : Dict) (key : String) : Proc State Failure Value :=
  demand (d.lookup key) (.keyError key)

/-- The loop of `properties`, from property `i`. -/
def collect (obj : Nat) : Nat → List Value → Dict → Proc State Failure Dict
  | _, [], result => pure result
  | i, v :: vs, result => do
      let p ← demand (← getProp t calls obj i v.id) (.osError "get property")
      let name ← ensuring (demand p.name .unicodeDecodeError) (release (.prop obj i))
      -- a later property takes the place of an earlier one with its name
      collect obj (i + 1) vs ((name, ⟨p.id, v.value⟩) :: result)

def properties (obj : Nat) : Proc State Failure Dict := do
  let values ← demand (← getProps t calls obj) (.osError "get properties")
  ensuring (collect t calls obj 0 values []) (release (.props obj))

/-- What is read of the output. -/
structure Output where
  connector : Dict
  crtc : Dict
  mode : Drm.ModeInfo
  before : Before

/-- The mode that `MODE_ID` refers to. -/
def oldMode (modeId : Nat) : Proc State Failure Drm.ModeInfo := do
  let blob ← demand (← getBlob calls modeId) (.osError "get mode blob")
  ensuring (do
      require (blob.length == 68) (.runtimeError "Unexpected DRM mode ABI")
      pure blob.mode)
    (release .modeBlob)

/-- The first part of `main`: reading and checking the output. -/
def readOutput : Proc State Failure Output := do
  checked (calls.cap 2) "universal planes"
  checked (calls.cap 3) "atomic"
  let connector ← properties t calls connectorId
  update fun s => { s with connector := connector }
  let crtc ← properties t calls crtcId
  update fun s => { s with crtc := crtc }
  let primary ← properties t calls primaryId
  let overlay ← properties t calls overlayId
  let inactive := Failure.runtimeError
    "Requires active primary + Dante overlay; no changes issued"
  require ((← connector.key "CRTC_ID").value == 37) inactive
  require ((← crtc.key "ACTIVE").value != 0) inactive
  let primaryFb ← primary.key "FB_ID"
  require (primaryFb.value != 0) inactive
  let overlayFb ← overlay.key "FB_ID"
  require (overlayFb.value != 0) inactive
  let source ← overlay.key "SC6F0_OVERLAY_SOURCE"
  require (source.value == 1) inactive
  let mode ← oldMode calls (← crtc.key "MODE_ID").value
  require (!mode.interlaced && [148500, 148350, 594000, 593406].contains mode.clock)
    (.runtimeError "Unexpected interlace/rate")
  let isFrac ← connector.key "is_frac"
  pure
    { connector := connector
      crtc := crtc
      mode := mode
      before :=
        { pixelClockKhz := mode.clock
          isFrac := isFrac.value
          primaryFb := primaryFb.value
          overlayFb := overlayFb.value
          overlaySource := source.value
          hdisplay := mode.hdisplay
          vdisplay := mode.vdisplay
          htotal := mode.htotal
          vtotal := mode.vtotal } }

/-- The mode at the requested rate. -/
def newMode (args : Args) (mode : Drm.ModeInfo) : Proc State Failure Drm.ModeInfo := do
  let clock ← demand (rateForMode mode.hdisplay mode.vdisplay args.fractional)
    (.valueError "Only 1080p/2160p integer/fractional 60 family is supported")
  pure { mode with clock := clock }

/-- The request that switches the output off, where it is to be cycled. -/
def buildDisable (args : Args) (crtc : Dict) : Proc State Failure Unit :=
  if args.reinitializes then do
    let off ← alloc calls .disablingRequest
    update fun s => { s with disableRequest := off }
    let off ← demand off (.memoryError "disable request")
    let active ← crtc.key "ACTIVE"
    checked (← add calls off ⟨crtcId, active.id, 0⟩) "add inactive"
  else pure ()

/-- The second part of `main`: the blob of the new mode and the requests. -/
def buildRequests (args : Args) (out : Output) (mode : Drm.ModeInfo) :
    Proc State Failure Handle := do
  checked (← createBlob calls mode) "create mode blob"
  let request ← alloc calls .modesetRequest
  update fun s => { s with request := request }
  let request ← demand request (.memoryError "atomic request")
  let isFrac ← out.connector.key "is_frac"
  checked (← add calls request ⟨connectorId, isFrac.id, args.fractional⟩) "add is_frac"
  let modeId ← out.crtc.key "MODE_ID"
  let newBlob ← call fun s => (s.newBlob, s)
  checked (← add calls request ⟨crtcId, modeId.id, newBlob⟩) "add MODE_ID"
  let active ← out.crtc.key "ACTIVE"
  checked (← add calls request ⟨crtcId, active.id, 1⟩) "add ACTIVE"
  buildDisable calls args out.crtc
  pure request

/-- The two commits of the request that switches off. -/
def applyDisable : Option Handle → Proc State Failure Unit
  | none => pure ()
  | some off => do
      checked (← commit t calls off (testOnly ||| allowModeset)) "disable TEST_ONLY"
      checked (← commit t calls off allowModeset) "atomic output disable"

/-- `apply_requests`. -/
def applyRequests (request : Handle) (disableRequest : Option Handle) :
    Proc State Failure Unit := do
  checked (← commit t calls request (testOnly ||| allowModeset)) "atomic TEST_ONLY"
  applyDisable t calls disableRequest
  checked (← commit t calls request allowModeset) "atomic rate modeset"

/-- The block that `main` guards. -/
def modeset (args : Args) : Proc State Failure Unit := do
  let out ← readOutput t calls
  let mode ← newMode args out.mode
  let request ← buildRequests calls args out mode
  print calls (.plan out.before mode.clock args.fractional args.reinitializes)
  let disableRequest ← call fun s => (s.disableRequest, s)
  applyRequests t calls request disableRequest
  print calls (.committed mode.clock args.fractional)

/-- The commit of the original values. -/
def commitRollback (connector crtc : Dict) (rollback : Handle) : Proc State Failure Unit := do
  let isFrac ← connector.key "is_frac"
  checked (← add calls rollback ⟨connectorId, isFrac.id, isFrac.value⟩) "rollback is_frac"
  let modeId ← crtc.key "MODE_ID"
  checked (← add calls rollback ⟨crtcId, modeId.id, modeId.value⟩) "rollback mode"
  let active ← crtc.key "ACTIVE"
  checked (← add calls rollback ⟨crtcId, active.id, active.value⟩) "rollback ACTIVE"
  checked (← commit t calls rollback allowModeset) "rollback commit"

/-- The rest of the handler, once its request is allocated or not. -/
def tryRollback (connector crtc : Dict) : Option Handle → Proc State Failure Unit
  | none => pure ()
  | some rollback =>
      ensuring (commitRollback t calls connector crtc rollback) (release rollback)

/-- The handler of `main`. -/
def rollBack : Proc State Failure Unit := do
  let s ← call fun s => (s, s)
  if !s.connector.isEmpty && !s.crtc.isEmpty && s.request.isSome then do
    let rollback ← alloc calls .rollbackRequest
    tryRollback t calls s.connector s.crtc rollback
  else pure ()

/-- Give back what a variable holds. -/
def State.free (s : State) (o : Option Handle) : State :=
  { s with actions := s.actions ++ (o.map Action.destroy).toList }

/-- The last block of `main`. Closing the device does not fail. -/
def releaseAll : Proc State Failure Unit := do
  update fun s => s.free s.disableRequest
  update fun s => s.free s.request
  update fun s => s.free (if s.newBlob = 0 then none else some .newBlob)
  release .fd

def main (host : Host) (args : Args) : Proc State Failure Unit := do
  validateHost host
  let fd ← handOut calls.drmOpen .fd
  checked fd.isSome "drmOpen"
  ensuring (rescuing (modeset t calls args) (rollBack t calls)) releaseAll

end Script

end QcapDemos.Rate
