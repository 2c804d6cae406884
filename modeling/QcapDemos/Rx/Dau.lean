import QcapDemos.Rx.Modeset

set_option autoImplicit false

/-! # The DAU notifications

The embedding of `dau_set_video_format`, the handler of the notification that carries the Dante
stream's video format and lock state, and of `restore_ultra_output`, which uses the last locked
one.
-/

namespace QcapDemos.Rx

open QcapDemos.Drm

/-- The reply to a DAU call. -/
inductive Reply where
  | success
  | error (message : String)
deriving DecidableEq

/-- The outcomes of the modesets of one notification: the stream's own, the one to DUMMY after a
stream was rejected, the one to DUMMY after a failure. -/
structure DauCalls where
  modeset : ModesetCalls
  reject : ModesetCalls
  fallback : ModesetCalls

section Dau

variable (opts : Options) (dev : Device)

/-- The stream is outside the configured SDI contract. -/
def outsideContract (ctx : Ctx) (format : VideoFormat) : Bool :=
  opts.sdi && format.locked &&
    (format.width != ctx.fixedWidth || format.height != ctx.fixedHeight ||
      format.framerate != ctx.fixedFps || format.interlaced || format.colorformat != .rgb)

/-- A locked format with a size and a rate is remembered for the next modeset. -/
def Ctx.noteLocked (ctx : Ctx) (format : VideoFormat) : Ctx :=
  if format.locked && format.width != 0 && format.height != 0 && format.framerate != 0 then
    { ctx with
      lastLockedVideoFormat := format
      ultraOverlayFormat := overlayFormatOf format }
  else ctx

/-- The size and rate of the output for a stream. -/
def Ctx.target (ctx : Ctx) (format : VideoFormat) : Nat × Nat × Nat :=
  if opts.fixedModeOverride then (ctx.fixedWidth, ctx.fixedHeight, ctx.fixedFps)
  else (format.width, format.height, format.framerate)

/-- The SDI output already shows the stream in this format. -/
def unchangedFormat (ctx : Ctx) (format : VideoFormat) (previous : PixelFormat) : Bool :=
  let (targetW, targetH, targetFps) := ctx.target opts format
  opts.sdi && format.locked && ctx.modesetActive && ctx.overlayActive &&
    previous == ctx.ultraOverlayFormat &&
    ctx.currentMode.hdisplay == targetW && ctx.currentMode.vdisplay == targetH &&
    |modeVrefresh dev.arithmetic ctx.currentMode - targetFps| < 5 / 1000

/-- The modeset of a notification, with the DUMMY output as the last resort. -/
def modesetFormat (calls : DauCalls) (format : VideoFormat) (hw : Hw) (ctx : Ctx) :
    Reply × Hw × Ctx :=
  let (targetW, targetH, targetFps) := ctx.target opts format
  let overlayFormat := if format.locked then ctx.ultraOverlayFormat else .yuyv
  match applyDrmModeset opts dev calls.modeset targetW targetH targetFps format.locked
      overlayFormat hw ctx with
  | (true, hw, ctx) => (.success, hw, ctx)
  | (false, hw, ctx) =>
      let (hw, ctx) :=
        if format.locked && ctx.currentMode.hdisplay != 0 then
          (applyDrmModeset opts dev calls.fallback ctx.currentMode.hdisplay
            ctx.currentMode.vdisplay (modeVrefresh dev.arithmetic ctx.currentMode) false .yuyv hw
            ctx).2
        else (hw, ctx)
      (.error "DRM overlay modeset failed", hw, ctx)

/-- `dau_set_video_format`. -/
def dauSetVideoFormat (calls : DauCalls) (format : Option VideoFormat) (hw : Hw) (ctx : Ctx) :
    Reply × Hw × Ctx :=
  match format with
  | none => (.error "NULL format", hw, ctx)
  | some format =>
      let ctx := { ctx with
        currentVideoFormat := format
        formatChanges := ctx.formatChanges + 1 }
      let previous := ctx.ultraOverlayFormat
      if outsideContract opts ctx format then
        (.error "Stream does not match SDI timing/RGB contract",
          (applyDrmModeset opts dev calls.reject ctx.fixedWidth ctx.fixedHeight ctx.fixedFps false
            .yuyv hw ctx).2)
      else
        let ctx := ctx.noteLocked format
        if ctx.avhActive then (.success, hw, ctx)
        else if opts.forceDanteSource && !format.locked then (.success, hw, ctx)
        else if unchangedFormat opts dev ctx format previous then (.success, hw, ctx)
        else modesetFormat opts dev calls format hw ctx

/-- The size and rate to return to. -/
def Ctx.restored (ctx : Ctx) : Nat × Nat × Nat :=
  let format := ctx.lastLockedVideoFormat
  if opts.fixedModeOverride || !format.locked then (ctx.fixedWidth, ctx.fixedHeight, ctx.fixedFps)
  else (format.width, format.height, format.framerate)

/-- `restore_ultra_output`. -/
def restoreUltraOutput (calls : ModesetCalls) (hw : Hw) (ctx : Ctx) : Bool × Hw × Ctx :=
  let (width, height, fps) := ctx.restored opts
  applyDrmModeset opts dev calls width height fps true ctx.ultraOverlayFormat hw ctx

end Dau

end QcapDemos.Rx
