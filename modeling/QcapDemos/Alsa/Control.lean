import QcapDemos.Drm.Kernel

set_option autoImplicit false

/-! # The audio controls of the sound card

The two mixer controls the receiver sets: the SDI embedder ("SDI FPGA Passthrough") and the
input route. Both functions answer `true` where the source returns 0.
-/

namespace QcapDemos.Alsa

open QcapDemos.Drm

/-- The outcomes behind one write to the passthrough control. A write that the driver accepts
need not take effect, which only the read back shows. -/
structure ControlCalls where
  card : Bool
  opened : Bool
  write : Bool
  latched : Bool
  read : Bool

/-- Every step succeeds and the write takes effect. -/
def ControlCalls.succeed : ControlCalls :=
  { card := true, opened := true, write := true, latched := true, read := true }

/-- `set_sdi_fpga_passthrough`. -/
def setSdiFpgaPassthrough (sdi enable : Bool) (calls : ControlCalls) (hw : Hw) : Bool × Hw :=
  if !sdi then (true, hw)
  else if !calls.card || !calls.opened || !calls.write then (false, hw)
  else
    let hw := if calls.latched then { hw with passthrough := enable } else hw
    (calls.read && hw.passthrough == enable, hw)

theorem setSdiFpgaPassthrough_succeed (sdi enable : Bool) (hw : Hw) :
    (setSdiFpgaPassthrough sdi enable .succeed hw).1 = true := by
  cases sdi <;> simp [setSdiFpgaPassthrough, ControlCalls.succeed]

structure RouteCalls where
  disable : ControlCalls
  card : Bool
  opened : Bool
  write : Bool

/-- Every step succeeds. -/
def RouteCalls.succeed : RouteCalls :=
  { disable := .succeed, card := true, opened := true, write := true }

/-- `select_hdmi_audio_route`: the source is never changed while the embedder is enabled. -/
def selectHdmiAudioRoute (sdi : Bool) (route : Nat) (calls : RouteCalls) (hw : Hw) : Bool × Hw :=
  match setSdiFpgaPassthrough sdi false calls.disable hw with
  | (false, hw) => (false, hw)
  | (true, hw) =>
      if !calls.card || !calls.opened || !calls.write then (false, hw)
      else (true, { hw with route := route })

/-- **Setting the embedder** changes the passthrough alone, to the requested value or not at all,
and not at all without an SDI output; success means that it has the requested value. -/
theorem setSdiFpgaPassthrough_spec (sdi enable : Bool) (calls : ControlCalls) (hw : Hw) :
    ∃ b, (setSdiFpgaPassthrough sdi enable calls hw).2 = { hw with passthrough := b } ∧
      (b = hw.passthrough ∨ b = enable) ∧ (sdi = false → b = hw.passthrough) ∧
      ((setSdiFpgaPassthrough sdi enable calls hw).1 = true → sdi = true → b = enable) := by
  rw [setSdiFpgaPassthrough]
  cases sdi with
  | false => exact ⟨hw.passthrough, by simp⟩
  | true =>
      by_cases hcalls : (!calls.card || !calls.opened || !calls.write) = true
      · exact ⟨hw.passthrough, by simp [hcalls]⟩
      · cases calls.latched with
        | false => exact ⟨hw.passthrough, by simp [hcalls]⟩
        | true => exact ⟨enable, by simp [hcalls]⟩

/-- A refused enable of an embedder that is off leaves it off, or the write took effect and only its
read back failed. -/
theorem setSdiFpgaPassthrough_refused {calls : ControlCalls} {hw : Hw}
    (hoff : hw.passthrough = false) (hfail : (setSdiFpgaPassthrough true true calls hw).1 = false) :
    (setSdiFpgaPassthrough true true calls hw).2.passthrough = false ∨
      ((setSdiFpgaPassthrough true true calls hw).2.passthrough = true ∧
        calls = { ControlCalls.succeed with read := false }) := by
  obtain ⟨card, opened, write, latched, read⟩ := calls
  rw [setSdiFpgaPassthrough] at hfail ⊢
  cases card <;> cases opened <;> cases write <;> cases latched <;> simp_all [ControlCalls.succeed]

/-- Selecting a route changes the route, and at most clears the passthrough. -/
theorem selectHdmiAudioRoute_spec (sdi : Bool) (route : Nat) (calls : RouteCalls) (hw : Hw) :
    ∃ b r, (selectHdmiAudioRoute sdi route calls hw).2
        = { hw with passthrough := b, route := r } ∧
      (b = hw.passthrough ∨ b = false) ∧ (r = hw.route ∨ r = route) := by
  obtain ⟨b, heq, hb, -⟩ := setSdiFpgaPassthrough_spec sdi false calls.disable hw
  rw [selectHdmiAudioRoute]
  cases hset : setSdiFpgaPassthrough sdi false calls.disable hw with
  | mk ok hw' =>
      rw [hset] at heq
      subst heq
      cases ok with
      | false => exact ⟨b, hw.route, rfl, hb, Or.inl rfl⟩
      | true =>
          by_cases hcalls : (!calls.card || !calls.opened || !calls.write) = true
          · exact ⟨b, hw.route, by simp [hcalls], hb, Or.inl rfl⟩
          · exact ⟨b, route, by simp [hcalls], hb, Or.inr rfl⟩

end QcapDemos.Alsa
