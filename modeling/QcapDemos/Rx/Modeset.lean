import QcapDemos.Alsa.Control
import QcapDemos.Rx.Context

set_option autoImplicit false

/-! # The Ultra modeset

The embedding of `apply_drm_modeset` in its stages: the plan (mode and rectangle), the new kernel
objects, the atomic request, the commit between the two settings of the audio embedder. Each call
that can fail takes its outcome from `ModesetCalls`. Functions answer `true` where the source
returns 0. Filling the overlay buffer and the sysfs writes to the test pattern generator and the
mixer change nothing that the receiver reads back, and are left out.
-/

namespace QcapDemos.Rx

open QcapDemos.Drm QcapDemos.Alsa

/-- The outcomes of the calls one modeset makes: the connector, the ids of created objects,
property lookups, additions to the request, the two control writes, the commit. -/
structure ModesetCalls where
  connector : Option Connector
  blob : Option Nat
  primary : Hw.FbCalls
  overlay : Hw.FbCalls
  alloc : Bool
  propId : Obj → PropName → Bool
  add : Obj → PropName → Bool
  disable : ControlCalls
  commit : Bool
  enable : ControlCalls

/-- No call fails, whatever the connector reports. -/
structure ModesetCalls.Succeed (calls : ModesetCalls) : Prop where
  blob : calls.blob ≠ none
  primaryDumb : calls.primary.dumb ≠ none
  primaryFb : calls.primary.addFb ≠ none
  overlayDumb : calls.overlay.dumb ≠ none
  overlayFb : calls.overlay.addFb ≠ none
  alloc : calls.alloc = true
  propId : ∀ o p, calls.propId o p = true
  add : ∀ o p, calls.add o p = true
  disable : calls.disable = .succeed
  commit : calls.commit = true
  enable : calls.enable = .succeed

/-- Every call succeeds and the connector offers `modes`. -/
def ModesetCalls.succeed (modes : List ModeInfo) : ModesetCalls where
  connector := some { connected := true, modes := modes }
  blob := some 0
  primary := { dumb := some 0, addFb := some 0 }
  overlay := { dumb := some 0, addFb := some 0 }
  alloc := true
  propId _ _ := true
  add _ _ := true
  disable := .succeed
  commit := true
  enable := .succeed

structure Plan where
  mode : ModeInfo
  rectW : Nat
  rectH : Nat

/-- The checks and choices before the first object is created. -/
def planModeset (ar : Arithmetic) (sdi : Bool) (connector : Option Connector) (width height : Nat)
    (fps : ℚ) : Option Plan :=
  if width = 0 ∨ height = 0 ∨ 3840 < width ∨ 2160 < height then none
  else
    match connector with
    | none => none
    | some c =>
        if !c.connected then none
        else
          match selectMode ar sdi c.modes width height fps with
          | none => none
          | some mode =>
              let rect := letterbox width height mode.hdisplay mode.vdisplay
              if rect.1 = 0 ∨ rect.2 = 0 then none
              else some { mode := mode, rectW := rect.1, rectH := rect.2 }

/-! ## Objects -/

section Objects

variable (dev : Device)

/-- The mode blob and the framebuffers. Without an overlay framebuffer the modeset proceeds
without overlay; the second component says whether the overlay is still wanted. -/
def createObjects (calls : ModesetCalls) (mode : ModeInfo) (enableOverlay : Bool)
    (overlayFormat : PixelFormat) (hw : Hw) : Option (Objects × Bool) × Hw :=
  match hw.createBlob dev .modeset mode calls.blob with
  | (none, hw) => (none, hw)
  | (some blob, hw) =>
      match hw.createDumbFb dev .modeset .bgr888 calls.primary with
      | (none, hw) => (none, hw.destroyBlob dev .modeset blob)
      | (some (fb, bo), hw) =>
          let objs : Objects := { primaryFb := fb, primaryBo := bo, modeBlob := blob }
          if !enableOverlay then (some (objs, false), hw)
          else
            match hw.createDumbFb dev .modeset overlayFormat calls.overlay with
            | (none, hw) => (some (objs, false), hw)
            | (some (fb, bo), hw) => (some ({ objs with overlayFb := fb, overlayBo := bo }, true), hw)

/-- Destroy the framebuffers and the mode blob, where there are any. -/
def destroyObjects (objs : Objects) (hw : Hw) : Hw :=
  let hw := hw.destroyDumbFb dev .modeset objs.primaryFb objs.primaryBo
  let hw := hw.destroyDumbFb dev .modeset objs.overlayFb objs.overlayBo
  if objs.modeBlob ≠ 0 then hw.destroyBlob dev .modeset objs.modeBlob else hw

end Objects

/-! ## The request -/

section Request

variable (propId add : Obj → PropName → Bool)

/-- `drmModeAtomicAddProperty` with a looked up property, its result ignored. -/
def ask (o : Obj) (p : PropName) (v : Nat) : Request :=
  if add o p then [{ obj := o, prop := if propId o p then some p else none, value := v }] else []

/-- The same, where the property exists. -/
def askKnown (o : Obj) (p : PropName) (v : Nat) : Request :=
  if propId o p then ask propId add o p v else []

def outputRequest (dev : Device) (blob : Nat) : Request :=
  ask propId add (.connector dev.connectorId) .crtcId dev.crtcId ++
  ask propId add (.crtc dev.crtcId) .modeId blob ++
  ask propId add (.crtc dev.crtcId) .active 1

def primaryRequest (dev : Device) (mode : ModeInfo) (fb : Nat) : Request :=
  let plane := Obj.plane dev.primaryPlaneId
  ask propId add plane .crtcId dev.crtcId ++
  ask propId add plane .fbId fb ++
  ask propId add plane .crtcX 0 ++
  ask propId add plane .crtcY 0 ++
  ask propId add plane .crtcW mode.hdisplay ++
  ask propId add plane .crtcH mode.vdisplay ++
  ask propId add plane .srcX 0 ++
  ask propId add plane .srcY 0 ++
  ask propId add plane .srcW (mode.hdisplay * 2 ^ 16) ++
  ask propId add plane .srcH (mode.vdisplay * 2 ^ 16) ++
  askKnown propId add plane .alpha 0xffff

/-- The disabled route is DUMMY (0); the Dante stream is source 1. -/
def overlayRequest (dev : Device) (plan : Plan) (width height fb : Nat) (overlay : Bool) :
    Request :=
  let plane := Obj.plane dev.overlayPlaneId
  ask propId add plane .overlaySource (if overlay then 1 else 0) ++
  if overlay then
    ask propId add plane .crtcId dev.crtcId ++
    ask propId add plane .fbId fb ++
    ask propId add plane .crtcX ((plan.mode.hdisplay - plan.rectW) / 2) ++
    ask propId add plane .crtcY ((plan.mode.vdisplay - plan.rectH) / 2) ++
    ask propId add plane .crtcW plan.rectW ++
    ask propId add plane .crtcH plan.rectH ++
    ask propId add plane .srcX 0 ++
    ask propId add plane .srcY 0 ++
    ask propId add plane .srcW (width * 2 ^ 16) ++
    ask propId add plane .srcH (height * 2 ^ 16) ++
    askKnown propId add plane .alpha 0xffff
  else
    ask propId add plane .crtcId 0 ++
    ask propId add plane .fbId 0

/-- `sdi_properties`. -/
def sdiProperties (width height : Nat) : List (PropName × Nat) :=
  [(.sdiMode, if width = 1920 then 2 else 5), (.sdiDataStream, if width = 1920 then 2 else 8),
    (.isFrac, 0), (.sdi420In, 0), (.sdi420Out, 0), (.sdi444Out, 0), (.widthOut, width),
    (.heightOut, height), (.inFmt, 0x100a), (.outFmt, 0x201a), (.cEncoding, 0)]

/-- `add_output_properties`: the entries it adds, or failure. -/
def addOutputProperties (ar : Arithmetic) (sdi : Bool) (connectorId : Nat) (mode : ModeInfo) :
    Option Request :=
  if !sdi then some []
  else if !isSdiMode ar mode then none
  else
    let props := sdiProperties mode.hdisplay mode.vdisplay
    let o := Obj.connector connectorId
    if props.all fun (p, _) => propId o p && add o p then
      some (props.map fun (p, v) => { obj := o, prop := some p, value := v })
    else none

end Request

/-! ## The modeset -/

section Modeset

variable (opts : Options) (dev : Device)

/-- The whole request; `extra` are the output properties. -/
def modesetRequest (calls : ModesetCalls) (plan : Plan) (width height : Nat) (objs : Objects)
    (overlay : Bool) (extra : Request) : Request :=
  outputRequest calls.propId calls.add dev objs.modeBlob ++
    primaryRequest calls.propId calls.add dev plan.mode objs.primaryFb ++
    overlayRequest calls.propId calls.add dev plan width height objs.overlayFb overlay ++
    extra

/-- The embedder is switched off before the commit. -/
def commitModeset (calls : ModesetCalls) (plan : Plan) (width height : Nat) (objs : Objects)
    (overlay : Bool) (hw : Hw) : Bool × Hw :=
  match setSdiFpgaPassthrough opts.sdi false calls.disable hw with
  | (false, hw) => (false, hw)
  | (true, hw) =>
      match addOutputProperties calls.propId calls.add dev.arithmetic opts.sdi dev.connectorId
          plan.mode with
      | none => (false, hw)
      | some extra =>
          hw.commit .modeset (modesetRequest dev calls plan width height objs overlay extra)
            calls.commit

/-- The context after a successful commit. -/
def Ctx.committed (ctx : Ctx) (mode : ModeInfo) (objs : Objects) (overlay : Bool) : Ctx :=
  { ctx with objects := objs, modesetActive := true, overlayActive := overlay, currentMode := mode }

/-- The modeset up to the commit and the exchange of the objects. The first component is `none`
on failure, else whether the overlay is enabled. -/
def applyVideo (calls : ModesetCalls) (width height : Nat) (fps : ℚ) (enableOverlay : Bool)
    (overlayFormat : PixelFormat) (hw : Hw) (ctx : Ctx) : Option Bool × Hw × Ctx :=
  match planModeset dev.arithmetic opts.sdi calls.connector width height fps with
  | none => (none, hw, ctx)
  | some plan =>
      match createObjects dev calls plan.mode enableOverlay overlayFormat hw with
      | (none, hw) => (none, hw, ctx)
      | (some (objs, overlay), hw) =>
          if !calls.alloc || !calls.propId (.plane dev.overlayPlaneId) .overlaySource then
            (none, destroyObjects dev objs hw, ctx)
          else
            match commitModeset opts dev calls plan width height objs overlay hw with
            | (false, hw) => (none, destroyObjects dev objs hw, ctx)
            | (true, hw) =>
                (some overlay, destroyObjects dev ctx.objects hw,
                  ctx.committed plan.mode objs overlay)

/-- The embedder is switched on after the commit. -/
def embeds (overlay : Bool) : Bool := opts.sdi && overlay && !opts.sdiAudioDisabled

/-- `apply_drm_modeset`. The video stays committed when the embedder refuses. -/
def applyDrmModeset (calls : ModesetCalls) (width height : Nat) (fps : ℚ) (enableOverlay : Bool)
    (overlayFormat : PixelFormat) (hw : Hw) (ctx : Ctx) : Bool × Hw × Ctx :=
  match applyVideo opts dev calls width height fps enableOverlay overlayFormat hw ctx with
  | (none, hw, ctx) => (false, hw, ctx)
  | (some overlay, hw, ctx) =>
      if embeds opts overlay then
        match setSdiFpgaPassthrough opts.sdi true calls.enable hw with
        | (on, hw) => (on || opts.sdiAudioOptional, hw, ctx)
      else (true, hw, ctx)

end Modeset

end QcapDemos.Rx
