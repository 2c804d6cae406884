import QcapDemos.Decoder.Freeze

set_option autoImplicit false

/-! # What is built for the format

The decoder and the display are built by the initialization thread, from the format that it
finds. While the format stays, both are those of the format.
-/

namespace QcapDemos.Decoder

open QcapDemos.Lib

/-- What the initialization thread has built so far, at each of its statements. The mode is
chosen for the size of the format, on SDI for that of the output. -/
def InitPc.Builds (sdi : Bool) (format : Format) (vdec : Option Format)
    (drm : Option (UInt32 × UInt32)) : InitPc → Prop
  | .mode width height => drm = none ∧ (sdi = false → (width, height) = format.dims)
  | .sink => drm.isSome = true
  | .starting => vdec = some format
  | _ => True

/-- The decoder that is started and the display are those of the format. -/
structure Built (cfg : Config) (s : DecoderState) : Prop where
  init : s.init.Builds cfg.sdi s.format s.vdec s.drm
  drm : cfg.sdi = false → ∀ size, s.drm = some size → size = s.format.dims
  sink : ∀ size, s.sink = some size → size = s.format.dims
  shown : s.sink.isSome = true → s.drm.isSome = true
  started : s.vdecStarted = true → s.vdec = some s.format

theorem built_initial (cfg : Config) (displayEnabled : Bool) :
    Built cfg (.initial displayEnabled) where
  init := trivial
  drm _ _ h := by cases h
  sink _ h := by cases h
  shown h := by cases h
  started h := by cases h

namespace Built

variable {cfg : Config} {s : DecoderState}

theorem init_at (h : Built cfg s) {pc : InitPc} (hpc : s.init = pc) :
    pc.Builds cfg.sdi s.format s.vdec s.drm := hpc ▸ h.init

/-- The initialization thread goes on, and builds nothing. -/
theorem move (h : Built cfg s) {s' : DecoderState}
    (hsame : (s'.format, s'.vdec, s'.vdecStarted, s'.drm, s'.sink)
      = (s.format, s.vdec, s.vdecStarted, s.drm, s.sink))
    (hinit : s'.init.Builds cfg.sdi s.format s.vdec s.drm) : Built cfg s' := by
  simp only [Prod.mk.injEq] at hsame
  obtain ⟨hformat, hvdec, hstarted, hdrm, hsink⟩ := hsame
  constructor
  · rw [hformat, hvdec, hdrm]
    exact hinit
  · rw [hdrm, hformat]
    exact h.drm
  · rw [hsink, hformat]
    exact h.sink
  · rw [hsink, hdrm]
    exact h.shown
  · rw [hstarted, hvdec, hformat]
    exact h.started

/-- The thread that has ended, or is joined, builds nothing. -/
theorem builds_of_joinable {pc : InitPc} (h : pc.joinable = true) (sdi : Bool) (format : Format)
    (vdec : Option Format) (drm : Option (UInt32 × UInt32)) :
    pc.Builds sdi format vdec drm := by
  cases pc <;> trivial

/-- Another format of the same size, where no decoder is started or built. -/
theorem write (h : Built cfg s) (hjoin : s.init.joinable = true) (hstarted : s.vdecStarted = false)
    {f : Format} (hdims : s.format.dims = f.dims ∨ s.drm = none) :
    Built cfg { s with format := f } := by
  have hnone : s.drm = none → s.sink = none := by
    intro hdrm
    by_contra hcon
    have hs := h.shown (Option.isSome_iff_ne_none.mpr hcon)
    rw [hdrm] at hs
    cases hs
  refine ⟨builds_of_joinable hjoin _ _ _ _, fun hsdi size hs => ?_, fun size hs => ?_, h.shown,
    fun hs => ?_⟩
  · rcases hdims with hd | hd
    · exact (h.drm hsdi size hs).trans hd
    · rw [hd] at hs
      cases hs
  · rcases hdims with hd | hd
    · exact (h.sink size hs).trans hd
    · rw [hnone hd] at hs
      cases hs
  · rw [hstarted] at hs
    cases hs

/-- `stop_vdec_display`, with no initialization thread. -/
theorem stopDisplay (h : Built cfg s) (hjoin : s.init.joinable = true) :
    Built cfg { s with drm := none, sink := none } where
  init := builds_of_joinable hjoin _ _ _ _
  drm _ _ hs := by cases hs
  sink _ hs := by cases hs
  shown hs := by cases hs
  started := h.started

end Built

/-- Only the thread that starts the decoder looks at it. -/
theorem builds_of_not_critical {pc : InitPc} (hpc : pc.critical = false) {sdi : Bool}
    {format : Format} {vdec : Option Format} {drm : Option (UInt32 × UInt32)}
    (h : pc.Builds sdi format vdec drm) (vdec' : Option Format) :
    pc.Builds sdi format vdec' drm := by
  cases pc with
  | starting => cases hpc
  | _ => exact h

theorem built_work {cfg : Config} {s : DecoderState} (h : Built cfg s) (w : Nat)
    (outcome : Submit) : Built cfg (work cfg s w outcome).1 := by
  fun_cases work cfg s w outcome with
  | case16 | case20 => exact h.move rfl trivial
  | _ => exact h.move rfl h.init

theorem built_initThread {cfg : Config} {s : DecoderState} (hp : Phased s) (h : Built cfg s)
    (ok : Bool) : Built cfg (initThread cfg s ok).1 := by
  have hunstarted : ∀ {pc}, s.init = pc → pc.unstarted = true → s.vdecStarted = true → False := by
    rintro pc rfl hc hs
    rw [hp.unstarted hc] at hs
    cases hs
  fun_cases initThread cfg s ok with
  | case1 | case2 | case11 | case13 | case18 | case25 => exact h
  | case3 hpc =>
    refine h.move rfl ?_
    cases s.displayEnabled <;> trivial
  | case4 hpc hdrm => exact h.move rfl hdrm
  | case5 hpc hdrm size =>
    refine h.move rfl ?_
    cases ok with
    | true => exact ⟨by simpa using hdrm, fun hsdi => by simp [size, hsdi]⟩
    | false => trivial
  | case6 width height hpc =>
    obtain ⟨hnone, hdims⟩ := h.init_at hpc
    -- no rectangle was left over from another mode
    have hsink : s.sink = none := by
      by_contra hcon
      have hs := h.shown (Option.isSome_iff_ne_none.mpr hcon)
      rw [hnone] at hs
      cases hs
    cases ok with
    | true =>
      refine ⟨rfl, fun hsdi size hs => ?_, h.sink, fun _ => rfl, h.started⟩
      cases hs
      exact hdims hsdi
    | false =>
      refine ⟨trivial, fun _ _ hs => (by cases hs), h.sink, fun hs => ?_, h.started⟩
      rw [hsink] at hs
      cases hs
  | case8 hpc =>
    have hactive := h.init_at hpc
    refine ⟨trivial, h.drm, fun size hs => ?_, fun _ => hactive, h.started⟩
    cases hs
    rfl
  | case10 =>
    refine h.move rfl ?_
    cases cfg.sdi <;> trivial
  | case16 =>
    refine h.move rfl ?_
    cases ok <;> trivial
  | case19 hpc =>
    exact ⟨rfl, h.drm, h.sink, h.shown, fun hs => (hunstarted hpc rfl hs).elim⟩
  | case20 hpc | case22 hpc =>
    exact ⟨trivial, h.drm, h.sink, h.shown, fun hs => (hunstarted hpc rfl hs).elim⟩
  | case21 hpc =>
    have hvdec := h.init_at hpc
    exact ⟨trivial, h.drm, h.sink, h.shown, fun _ => hvdec⟩
  | case23 ready | case26 ready =>
    refine h.move rfl ?_
    cases ready <;> trivial
  | _ => exact h.move rfl trivial

theorem built_stopping {cfg : Config} {s : DecoderState} (hl : Locked cfg s) (h : Built cfg s) :
    Built cfg (stopping cfg s) := by
  fun_cases stopping cfg s with
  | case2 => exact h.move rfl trivial
  | case10 hpc =>
    -- the stop has the mutex, so the thread does not start the decoder
    have hinit : s.init.critical = false :=
      hl.lock.not_critical_of_ne (o := .stop) (p := .init)
        (by rw [DecoderState.holds, hpc]; rfl) (by simp)
    refine ⟨?_, h.drm, h.sink, h.shown, ?_⟩
    · exact builds_of_not_critical hinit h.init _
    · show (if s.vdec.isSome = true then false else s.vdecStarted) = true → _
      intro hs
      split at hs
      · cases hs
      · next hnone =>
        rw [h.started hs] at hnone
        exact absurd rfl hnone
  | _ => exact h.move rfl h.init

end QcapDemos.Decoder
