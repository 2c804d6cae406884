import QcapDemos.Resync.Policy
import QcapDemos.Drm.Kernel

set_option autoImplicit false

/-! # The Ultra-direct context

The options of a run and the fields of `ultra_direct_context_t` that its logic reads. The ids of
the connector, the CRTC and the two planes are the `Device`; the five kernel objects of the last
modeset are grouped in `Objects`.
-/

namespace QcapDemos.Rx

open QcapDemos.Drm

/-- The command line and the output backend, fixed for a run of `run_ultra_direct`.
`forceFlag` is `--force-dante-source`. -/
structure Options where
  sdi : Bool
  sdiAudioOptional : Bool
  sdiAudioDisabled : Bool
  fixedModeOverride : Bool
  forceFlag : Bool
  autoMode : Bool
  fixedW : Nat
  fixedH : Nat
  fixedFps : Nat

/-- `main` passes `force_dante_source || auto_mode`. -/
def Options.forceDanteSource (o : Options) : Bool := o.forceFlag || o.autoMode

inductive ColorFormat where
  | yuv444
  | yuv422
  | yuv420
  | rgb
deriving DecidableEq

/-- `struct video_format` of the DAU service. -/
structure VideoFormat where
  width : Nat := 0
  height : Nat := 0
  framerate : Nat := 0
  colorformat : ColorFormat := .yuv444
  bpp : Nat := 0
  interlaced : Bool := false
  locked : Bool := false
deriving DecidableEq

/-- The pixel format of the overlay for a stream. -/
def overlayFormatOf (f : VideoFormat) : PixelFormat :=
  if f.colorformat = .rgb then .bgr888 else .yuyv

/-- What `drmModeGetConnector` reports of the output connector. -/
structure Connector where
  connected : Bool
  modes : List ModeInfo

/-- The framebuffers, buffers and mode blob of a modeset; 0 where there is none. -/
structure Objects where
  primaryFb : Nat := 0
  primaryBo : Nat := 0
  overlayFb : Nat := 0
  overlayBo : Nat := 0
  modeBlob : Nat := 0
deriving DecidableEq

/-- The object is one of the five. -/
def Objects.owns (objs : Objects) : Resource → Prop
  | .fb n => n ≠ 0 ∧ (n = objs.primaryFb ∨ n = objs.overlayFb)
  | .bo n => n ≠ 0 ∧ (n = objs.primaryBo ∨ n = objs.overlayBo)
  | .blob n => n ≠ 0 ∧ n = objs.modeBlob

instance (objs : Objects) : DecidablePred objs.owns
  | .fb n => inferInstanceAs (Decidable (n ≠ 0 ∧ (n = objs.primaryFb ∨ n = objs.overlayFb)))
  | .bo n => inferInstanceAs (Decidable (n ≠ 0 ∧ (n = objs.primaryBo ∨ n = objs.overlayBo)))
  | .blob n => inferInstanceAs (Decidable (n ≠ 0 ∧ n = objs.modeBlob))

/-- `ultra_direct_context_t`. -/
structure Ctx where
  objects : Objects := {}
  modesetActive : Bool := false
  overlayActive : Bool := false
  avhActive : Bool := false
  currentMode : ModeInfo := {}
  currentVideoFormat : VideoFormat := {}
  lastLockedVideoFormat : VideoFormat := {}
  ultraOverlayFormat : PixelFormat := .bgr888
  fixedWidth : Nat
  fixedHeight : Nat
  fixedFps : Nat
  lastConnectorConnected : Bool := false
  haveLastConnectorState : Bool := false
  formatChanges : Nat := 0
  hotplugEvents : Nat := 0
  sdiStatusMapped : Bool := false
  sdiLastStatus : UInt32 := Resync.invalidStatus
  sdiResync : Resync.Policy Resync.Attempts := Resync.initial Resync.noAttempts

/-! ## A concrete board -/

/-- One connector, one CRTC and two planes. -/
def board : Device where
  connectorId := 1
  crtcId := 2
  primaryPlaneId := 3
  overlayPlaneId := 4
  planes := {3, 4}
  crtcs := {2}
  connector_ne := by decide
  crtc_ne := by decide
  primary_ne := by decide
  overlay_ne := by decide
  planes_ne := by decide
  crtc_mem := by decide
  primary_mem := by decide
  overlay_mem := by decide

/-- 1080p60 at 148.5 MHz. -/
def mode1080 : ModeInfo :=
  { clock := 148500, hdisplay := 1920, htotal := 2200, vdisplay := 1080, vtotal := 1125,
    vrefresh := 60, name := "1920x1080" }

/-- An SDI output at 1080p60, in `ultra-direct` mode or in `auto` mode. -/
def sdiOptions (autoMode : Bool) : Options where
  sdi := true
  sdiAudioOptional := false
  sdiAudioDisabled := false
  fixedModeOverride := true
  forceFlag := false
  autoMode := autoMode
  fixedW := 1920
  fixedH := 1080
  fixedFps := 60

/-- A board on which nothing is committed yet. -/
def darkHw (passthrough : Bool) : Hw where
  config := { get := fun _ _ => 0, active_le := fun _ => Nat.zero_le 1 }
  ledger := .empty
  fbFormat := fun _ => .bgr888
  fbBuffer := fun _ => 0
  blobMode := fun _ => {}
  commits := []
  passthrough := passthrough
  route := 0

end QcapDemos.Rx
