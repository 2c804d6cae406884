import QcapDemos.Lib.CString

set_option autoImplicit false

/-! # The uevents of the HDMI connector

The receiver watches the kernel's uevents for a hotplug of its connector. A message is a sequence of
fields that a NUL ends. The loop of `is_target_connector_uevent` bounds the fields by the length of
the message, but the comparisons of a field go on to a NUL: a last field without one is compared
together with what an earlier message left behind it in the buffer.
-/

namespace QcapDemos.Rx

open QcapDemos.Lib.CString

def SUBSYSTEM_DRM : List UInt8 := ascii "SUBSYSTEM=drm"
def HOTPLUG : List UInt8 := ascii "HOTPLUG=1"
def CONNECTOR : List UInt8 := ascii "CONNECTOR="
def DEVPATH : List UInt8 := ascii "DEVPATH="
def CHANGE : List UInt8 := ascii "change@"
def HDMI_A_1 : List UInt8 := ascii "HDMI-A-1"

/-- The flags of `is_target_connector_uevent`. -/
structure UeventFlags where
  isDrm : Bool := false
  isHotplug : Bool := false
  connectorMatched : Bool := false
  hasConnectorName : Bool := false
deriving DecidableEq

/-- The comparisons of the field at `s`. -/
def compareField (s : List UInt8) (flags : UeventFlags) : Option UeventFlags := do
  if ← strEq s SUBSYSTEM_DRM then pure { flags with isDrm := true }
  else if ← strEq s HOTPLUG then pure { flags with isHotplug := true }
  else if ← strPrefix s CONNECTOR then
    let flags := { flags with hasConnectorName := true }
    if ← strEq (s.drop 10) HDMI_A_1 then pure { flags with connectorMatched := true }
    else pure flags
  else if ← (do if ← strPrefix s DEVPATH then pure true else strPrefix s CHANGE) then
    if ← strContains HDMI_A_1 s then pure { flags with connectorMatched := true }
    else pure flags
  else pure flags

/-- The loop over `off`. -/
def ueventLoop (buf : List UInt8) (len off : Nat) (flags : UeventFlags) : Option UeventFlags :=
  if off < len then
    let s := buf.drop off
    -- the length of the message bounds `n`, but not the comparisons at `s`
    let n := strnlen s (len - off)
    if n = 0 then ueventLoop buf len (off + 1) flags
    else (compareField s flags).bind (ueventLoop buf len (off + n + 1))
  else some flags
termination_by len - off

/-- A message of `len` bytes at the head of the buffer `buf`. -/
def isTargetConnectorUevent (buf : List UInt8) (len : Nat) : Option Bool :=
  (ueventLoop buf len 0 {}).map fun flags =>
    flags.isDrm && flags.isHotplug && (!flags.hasConnectorName || flags.connectorMatched)

/-! ## What the fields say -/

/-- The fields of a message. -/
def fields (message : List UInt8) : List (List UInt8) := message.splitOn 0

/-- The fields announce a hotplug of the connector, or of one that they do not name. -/
def IsTarget (message : List UInt8) : Prop :=
  SUBSYSTEM_DRM ∈ fields message ∧ HOTPLUG ∈ fields message ∧
    ((∀ f ∈ fields message, ¬ CONNECTOR <+: f) ∨ CONNECTOR ++ HDMI_A_1 ∈ fields message ∨
      ∃ f ∈ fields message, (DEVPATH <+: f ∨ CHANGE <+: f) ∧ HDMI_A_1 <:+: f)

instance (message : List UInt8) : Decidable (IsTarget message) :=
  inferInstanceAs (Decidable (_ ∧ _ ∧ (_ ∨ _ ∨ _)))

/-- What is made of a message is what its fields say, whatever follows it in the buffer. -/
def DependsOnMessage (message : List UInt8) : Prop :=
  ∀ rest, isTargetConnectorUevent (message ++ rest) message.length
    = some (decide (IsTarget message))

/-- A field whose comparisons are decided before it ends: it is no beginning of what it is compared
with, and where a connector is looked for in it, the connector is found. -/
structure FieldSettled (f : List UInt8) : Prop where
  subsystem : ¬ f <+: SUBSYSTEM_DRM
  hotplug : ¬ f <+: HOTPLUG
  connector : ¬ f <+: CONNECTOR ++ HDMI_A_1
  devpath : ¬ f <+: DEVPATH
  change : ¬ f <+: CHANGE
  found : DEVPATH <+: f ∨ CHANGE <+: f → HDMI_A_1 <:+: f

/-- What a field does to the flags. -/
def noteField (flags : UeventFlags) (f : List UInt8) : UeventFlags :=
  if f = SUBSYSTEM_DRM then { flags with isDrm := true }
  else if f = HOTPLUG then { flags with isHotplug := true }
  else if CONNECTOR <+: f then
    { flags with
      hasConnectorName := true
      connectorMatched := flags.connectorMatched || f == CONNECTOR ++ HDMI_A_1 }
  else if DEVPATH <+: f ∨ CHANGE <+: f then
    { flags with connectorMatched := flags.connectorMatched || decide (HDMI_A_1 <:+: f) }
  else flags

section Field

variable {f : List UInt8}

theorem nul_not_mem_literals : 0 ∉ SUBSYSTEM_DRM ∧ 0 ∉ HOTPLUG ∧ 0 ∉ CONNECTOR ∧ 0 ∉ DEVPATH ∧
    0 ∉ CHANGE ∧ 0 ∉ HDMI_A_1 := by decide

theorem drop_connector (g rest : List UInt8) : (CONNECTOR ++ g ++ rest).drop 10 = g ++ rest := rfl

/-- The comparisons at `s` come out as they do for the field `f`. -/
structure ComparesAs (s f : List UInt8) : Prop where
  subsystem : strEq s SUBSYSTEM_DRM = some (decide (f = SUBSYSTEM_DRM))
  hotplug : strEq s HOTPLUG = some (decide (f = HOTPLUG))
  connector : strPrefix s CONNECTOR = some (decide (CONNECTOR <+: f))
  name : ∀ g, f = CONNECTOR ++ g → strEq (s.drop 10) HDMI_A_1 = some (decide (g = HDMI_A_1))
  devpath : strPrefix s DEVPATH = some (decide (DEVPATH <+: f))
  change : strPrefix s CHANGE = some (decide (CHANGE <+: f))
  contained : DEVPATH <+: f ∨ CHANGE <+: f →
    strContains HDMI_A_1 s = some (decide (HDMI_A_1 <:+: f))

theorem compareField_eq {s : List UInt8} (h : ComparesAs s f) (flags : UeventFlags) :
    compareField s flags = some (noteField flags f) := by
  unfold compareField noteField
  rw [h.subsystem, h.hotplug, h.connector, h.devpath, h.change]
  simp only [Option.bind_eq_bind, Option.bind_some, decide_eq_true_eq]
  by_cases h1 : f = SUBSYSTEM_DRM
  · rw [if_pos h1, if_pos h1]
    rfl
  rw [if_neg h1, if_neg h1]
  by_cases h2 : f = HOTPLUG
  · rw [if_pos h2, if_pos h2]
    rfl
  rw [if_neg h2, if_neg h2]
  by_cases h3 : CONNECTOR <+: f
  · rw [if_pos h3, if_pos h3]
    obtain ⟨g, rfl⟩ := h3
    rw [h.name g rfl]
    by_cases h4 : g = HDMI_A_1
    · simp [h4]
    · simp [h4]
  rw [if_neg h3, if_neg h3]
  by_cases h4 : DEVPATH <+: f
  · rw [h.contained (.inl h4)]
    by_cases h5 : HDMI_A_1 <:+: f
    · simp [h4, h5]
    · simp [h4, h5]
  · by_cases h5 : CHANGE <+: f
    · rw [h.contained (.inr h5)]
      by_cases h6 : HDMI_A_1 <:+: f
      · simp [h4, h5, h6]
      · simp [h4, h5, h6]
    · simp [h4, h5]

/-- A field that a NUL ends is compared by what it says. -/
theorem comparesAs_nul (hf : 0 ∉ f) (rest : List UInt8) : ComparesAs (f ++ 0 :: rest) f := by
  obtain ⟨hsub, hhot, hcon, hdev, hcha, hhdmi⟩ := nul_not_mem_literals
  refine
    { subsystem := strEq_nul hf hsub rest
      hotplug := strEq_nul hf hhot rest
      connector := strPrefix_nul hcon rest
      name := ?_
      devpath := strPrefix_nul hdev rest
      change := strPrefix_nul hcha rest
      contained := fun _ => strContains_nul hf hhdmi (by decide) rest }
  rintro g rfl
  rw [drop_connector]
  exact strEq_nul (fun h => hf (List.mem_append_right CONNECTOR h)) hhdmi rest

/-- And so is a field that is settled before it ends. -/
theorem comparesAs_settled (hf : 0 ∉ f) (h : FieldSettled f) (rest : List UInt8) :
    ComparesAs (f ++ rest) f := by
  have hne {lit : List UInt8} (hlit : ¬ f <+: lit) : ¬ f = lit :=
    fun heq => hlit (heq ▸ List.prefix_rfl)
  have hcon : ¬ f <+: CONNECTOR :=
    fun hpre => h.connector (hpre.trans (List.prefix_append CONNECTOR HDMI_A_1))
  refine
    { subsystem := ?_
      hotplug := ?_
      connector := strPrefix_settled (.inl hcon) rest
      name := ?_
      devpath := strPrefix_settled (.inl h.devpath) rest
      change := strPrefix_settled (.inl h.change) rest
      contained := fun hpath => ?_ }
  · rw [decide_eq_false (hne h.subsystem)]
    exact strEq_settled hf h.subsystem rest
  · rw [decide_eq_false (hne h.hotplug)]
    exact strEq_settled hf h.hotplug rest
  · rintro g rfl
    have hg : ¬ g <+: HDMI_A_1 :=
      fun hpre => h.connector ((List.prefix_append_right_inj CONNECTOR).mpr hpre)
    have hg' : ¬ g = HDMI_A_1 := fun heq => hg (heq ▸ List.prefix_rfl)
    rw [drop_connector, decide_eq_false hg']
    exact strEq_settled (fun h => hf (List.mem_append_right CONNECTOR h)) hg rest
  · rw [decide_eq_true (h.found hpath)]
    exact strContains_settled hf (h.found hpath) (by decide) rest

/-- Two literals that a field begins with begin with each other. -/
theorem not_prefix_of {a b : List UInt8} (ha : a <+: f) (hab : ¬ a <+: b) (hba : ¬ b <+: a) :
    ¬ b <+: f ∧ ¬ f <+: b := by
  constructor
  · intro hb
    rcases List.prefix_or_prefix_of_prefix ha hb with h | h
    · exact hab h
    · exact hba h
  · exact fun hb => hab (ha.trans hb)

/-- A comparison with a literal runs beyond the field, or is settled in it. -/
theorem prefix_cases (f lit : List UInt8) :
    (f <+: lit ∧ f ≠ lit) ∨ (¬ f <+: lit ∨ f = lit) := by
  by_cases hpre : f <+: lit
  · by_cases heq : f = lit
    · exact .inr (.inr heq)
    · exact .inl ⟨hpre, heq⟩
  · exact .inr (.inl hpre)

/-- A field that names another connector is settled. -/
theorem FieldSettled.of_connector {g : List UInt8} (hg : ¬ g <+: HDMI_A_1) :
    FieldSettled (CONNECTOR ++ g) := by
  have hpre : CONNECTOR <+: CONNECTOR ++ g := List.prefix_append CONNECTOR g
  have hdev := not_prefix_of hpre (b := DEVPATH) (by decide) (by decide)
  have hcha := not_prefix_of hpre (b := CHANGE) (by decide) (by decide)
  exact
    { subsystem := (not_prefix_of hpre (by decide) (by decide)).2
      hotplug := (not_prefix_of hpre (by decide) (by decide)).2
      connector := fun h => hg ((List.prefix_append_right_inj CONNECTOR).mp h)
      devpath := hdev.2
      change := hcha.2
      found := fun hpath => absurd hpath (not_or.mpr ⟨hdev.1, hcha.1⟩) }

/-- A path that contains the connector is settled. -/
theorem FieldSettled.of_path (hpath : DEVPATH <+: f ∨ CHANGE <+: f) (hfound : HDMI_A_1 <:+: f) :
    FieldSettled f := by
  -- what does not contain the connector is shorter than the field
  have hshort {lit : List UInt8} (hlit : ¬ HDMI_A_1 <:+: lit) : ¬ f <+: lit :=
    fun hpre => hlit (hfound.trans hpre.isInfix)
  refine ⟨hshort (by decide), hshort (by decide), ?_, hshort (by decide), hshort (by decide),
    fun _ => hfound⟩
  rcases hpath with hdev | hcha
  · exact (not_prefix_of hdev (by decide) (by decide)).2
  · exact (not_prefix_of hcha (by decide) (by decide)).2

/-- Any other last field is compared with bytes beyond it. -/
theorem compareField_unsettled (hf : 0 ∉ f) (h : ¬ FieldSettled f) (flags : UeventFlags) :
    compareField f flags = none := by
  have hsettled {lit : List UInt8} (hlit : ¬ f <+: lit) : strEq f lit = some false := by
    have heq := strEq_settled hf hlit []
    rwa [List.append_nil] at heq
  have hpref {lit : List UInt8} (hlit : ¬ f <+: lit ∨ f = lit) :
      strPrefix f lit = some (decide (lit <+: f)) := by
    have heq := strPrefix_settled hlit []
    rwa [List.append_nil] at heq
  -- the first comparison that is not settled reads on, those before it are decided
  unfold compareField
  by_cases h1 : f <+: SUBSYSTEM_DRM
  · rw [strEq_unsettled h1]
    rfl
  by_cases h2 : f <+: HOTPLUG
  · rw [hsettled h1, strEq_unsettled h2]
    rfl
  rw [hsettled h1, hsettled h2]
  simp only [Option.bind_eq_bind, Option.bind_some, Bool.false_eq_true, if_false]
  rcases prefix_cases f CONNECTOR with h3 | h3
  · rw [strPrefix_unsettled h3.1 h3.2]
    rfl
  rw [hpref h3]
  by_cases hcon : CONNECTOR <+: f
  · obtain ⟨g, rfl⟩ := hcon
    have hg : g <+: HDMI_A_1 := by
      by_contra hg
      exact h (.of_connector hg)
    have hname : strEq ((CONNECTOR ++ g).drop 10) HDMI_A_1 = none := strEq_unsettled hg
    rw [hname]
    simp
  have hnot : DEVPATH <+: f ∨ CHANGE <+: f → ¬ HDMI_A_1 <:+: f :=
    fun hpath hfound => h (.of_path hpath hfound)
  rw [decide_eq_false hcon]
  simp only [Option.bind_some, Bool.false_eq_true, if_false]
  rcases prefix_cases f DEVPATH with h4 | h4
  · rw [strPrefix_unsettled h4.1 h4.2]
    rfl
  rw [hpref h4]
  by_cases hdev : DEVPATH <+: f
  · rw [decide_eq_true hdev, strContains_unsettled hf (hnot (.inl hdev))]
    rfl
  rcases prefix_cases f CHANGE with h5 | h5
  · rw [strPrefix_unsettled h5.1 h5.2, decide_eq_false hdev]
    rfl
  rw [hpref h5]
  by_cases hcha : CHANGE <+: f
  · rw [decide_eq_false hdev, decide_eq_true hcha, strContains_unsettled hf (hnot (.inr hcha))]
    rfl
  -- nothing that the field is compared with begins it, so that it is settled
  have hconnector : ¬ f <+: CONNECTOR ++ HDMI_A_1 := by
    intro hpre
    rcases List.prefix_or_prefix_of_prefix hpre (List.prefix_append CONNECTOR HDMI_A_1) with
      hle | hge
    · exact h3.elim (fun hnot => hnot hle) fun heq => hcon (heq ▸ List.prefix_rfl)
    · exact hcon hge
  refine absurd ⟨h1, h2, hconnector, ?_, ?_, fun hpath => ?_⟩ h
  · exact h4.resolve_right fun heq => hdev (heq ▸ List.prefix_rfl)
  · exact h5.resolve_right fun heq => hcha (heq ▸ List.prefix_rfl)
  · exact absurd hpath (not_or.mpr ⟨hdev, hcha⟩)

end Field

/-! ## The loop over the fields -/

/-- What is left of a message after the last NUL. -/
def lastField (message : List UInt8) : List UInt8 := (fields message).getLastD []

/-- The message ends with a NUL, or its last field is settled without one. -/
def EndsSettled (message : List UInt8) : Prop :=
  lastField message = [] ∨ FieldSettled (lastField message)

section Loop

variable {f : List UInt8}

theorem fields_last (hf : 0 ∉ f) : fields f = [f] := List.splitOn_eq_singleton hf

theorem fields_cons (hf : 0 ∉ f) (l : List UInt8) : fields (f ++ 0 :: l) = f :: fields l :=
  List.splitOn_append_cons_self_of_not_mem hf l

theorem lastField_last (hf : 0 ∉ f) : lastField f = f := by
  rw [lastField, fields_last hf]
  rfl

theorem lastField_cons (hf : 0 ∉ f) (l : List UInt8) : lastField (f ++ 0 :: l) = lastField l := by
  have hne : fields l ≠ [] := List.splitOn_ne_nil 0 l
  obtain ⟨g, gs, hgs⟩ := List.exists_cons_of_ne_nil hne
  rw [lastField, lastField, fields_cons hf, hgs]
  rfl

theorem noteField_nil (flags : UeventFlags) : noteField flags [] = flags := rfl

/-- One turn of the loop: a field that a NUL ends. -/
theorem ueventLoop_nul (hf : 0 ∉ f) (front l : List UInt8) {len : Nat}
    (hlen : front.length + f.length < len) (flags : UeventFlags) :
    ueventLoop (front ++ (f ++ 0 :: l)) len front.length flags
      = ueventLoop ((front ++ f ++ [0]) ++ l) len (front ++ f ++ [0]).length
          (noteField flags f) := by
  have hbuf : front ++ (f ++ 0 :: l) = (front ++ f ++ [0]) ++ l := by simp
  have hnext : (front ++ f ++ [0]).length = front.length + f.length + 1 := by
    rw [List.length_append, List.length_append]
    rfl
  have hn : strnlen (f ++ 0 :: l) (len - front.length) = f.length :=
    strnlen_of_nul hf l (by omega)
  rw [ueventLoop, if_pos (by omega), List.drop_left]
  simp only [hn]
  -- an empty field is a NUL that is passed over, with the same effect
  by_cases hempty : f.length = 0
  · obtain rfl := List.eq_nil_of_length_eq_zero hempty
    rw [if_pos hempty, hnext, noteField_nil, hbuf]
    rfl
  · rw [if_neg hempty, compareField_eq (comparesAs_nul hf l), Option.bind_some, hnext, hbuf]

/-- The last turn of the loop. -/
theorem ueventLoop_last (hf : 0 ∉ f) (front rest : List UInt8) (flags : UeventFlags) :
    ueventLoop (front ++ (f ++ rest)) (front.length + f.length) front.length flags
      = if f = [] then some flags else compareField (f ++ rest) flags := by
  by_cases hempty : f = []
  · subst hempty
    rw [if_pos rfl, ueventLoop, if_neg (by simp)]
  · have hpos : f.length ≠ 0 := fun h => hempty (List.eq_nil_of_length_eq_zero h)
    have hleft : front.length + f.length - front.length = f.length := by omega
    rw [if_neg hempty, ueventLoop, if_pos (by omega), List.drop_left, hleft]
    simp only [strnlen_of_not_mem hf, if_neg hpos]
    cases hcompare : compareField (f ++ rest) flags with
    | none => rfl
    | some flags' => rw [Option.bind_some, ueventLoop, if_neg (by omega)]

/-- A message that ends settled is read field by field, whatever follows it. -/
theorem ueventLoop_settled (rest : List UInt8) (message : List UInt8) :
    ∀ (front : List UInt8) (flags : UeventFlags), EndsSettled message →
      ueventLoop (front ++ (message ++ rest)) (front.length + message.length) front.length flags
        = some ((fields message).foldl noteField flags) := by
  induction message using fields_induction with
  | last f hf =>
      intro front flags hsettled
      rw [EndsSettled, lastField_last hf] at hsettled
      rw [ueventLoop_last hf, fields_last hf, List.foldl_cons, List.foldl_nil]
      by_cases hempty : f = []
      · rw [if_pos hempty, hempty, noteField_nil]
      · rw [if_neg hempty]
        exact compareField_eq (comparesAs_settled hf (hsettled.resolve_left hempty) rest) flags
  | more f l hf ih =>
      intro front flags hsettled
      rw [EndsSettled, lastField_cons hf] at hsettled
      have hlen : front.length + (f ++ 0 :: l).length = (front ++ f ++ [0]).length + l.length := by
        simp only [List.length_append, List.length_cons, List.length_nil]
        omega
      rw [List.append_assoc, List.cons_append, ueventLoop_nul hf front (l ++ rest), hlen,
        fields_cons hf, List.foldl_cons]
      · exact ih _ _ hsettled
      · rw [List.length_append, List.length_cons]
        omega

/-- Of any other message the loop reads bytes beyond its end. -/
theorem ueventLoop_unsettled (message : List UInt8) :
    ∀ (front : List UInt8) (flags : UeventFlags), ¬ EndsSettled message →
      ueventLoop (front ++ message) (front.length + message.length) front.length flags
        = none := by
  induction message using fields_induction with
  | last f hf =>
      intro front flags hsettled
      rw [EndsSettled, lastField_last hf, not_or] at hsettled
      have hlast := ueventLoop_last hf front [] flags
      rw [List.append_nil, if_neg hsettled.1] at hlast
      rw [hlast]
      exact compareField_unsettled hf hsettled.2 flags
  | more f l hf ih =>
      intro front flags hsettled
      rw [EndsSettled, lastField_cons hf] at hsettled
      have hlen : front.length + (f ++ 0 :: l).length = (front ++ f ++ [0]).length + l.length := by
        simp only [List.length_append, List.length_cons, List.length_nil]
        omega
      rw [ueventLoop_nul hf front l, hlen]
      · exact ih _ _ hsettled
      · rw [List.length_append, List.length_cons]
        omega

end Loop

/-! ## The verdict -/

theorem foldl_noteField {p : UeventFlags → Bool} {t : List UInt8 → Bool}
    (h : ∀ flags f, p (noteField flags f) = (p flags || t f)) (fs : List (List UInt8))
    (flags : UeventFlags) : p (fs.foldl noteField flags) = (p flags || fs.any t) := by
  induction fs generalizing flags with
  | nil => simp
  | cons f fs ih => rw [List.foldl_cons, ih, h, List.any_cons, Bool.or_assoc]

/-- What one field adds to each flag. -/
theorem noteField_flags (flags : UeventFlags) (f : List UInt8) :
    (noteField flags f).isDrm = (flags.isDrm || decide (f = SUBSYSTEM_DRM)) ∧
    (noteField flags f).isHotplug = (flags.isHotplug || decide (f = HOTPLUG)) ∧
    (noteField flags f).hasConnectorName = (flags.hasConnectorName || decide (CONNECTOR <+: f)) ∧
    (noteField flags f).connectorMatched = (flags.connectorMatched ||
      decide (f = CONNECTOR ++ HDMI_A_1 ∨ ((DEVPATH <+: f ∨ CHANGE <+: f) ∧ HDMI_A_1 <:+: f))) := by
  unfold noteField
  by_cases h1 : f = SUBSYSTEM_DRM
  · subst h1
    have hnot : ¬ SUBSYSTEM_DRM = HOTPLUG ∧ ¬ CONNECTOR <+: SUBSYSTEM_DRM ∧
        ¬ SUBSYSTEM_DRM = CONNECTOR ++ HDMI_A_1 ∧ ¬ DEVPATH <+: SUBSYSTEM_DRM ∧
        ¬ CHANGE <+: SUBSYSTEM_DRM := by decide
    simp [hnot]
  by_cases h2 : f = HOTPLUG
  · subst h2
    have hnot : ¬ CONNECTOR <+: HOTPLUG ∧ ¬ HOTPLUG = CONNECTOR ++ HDMI_A_1 ∧
        ¬ DEVPATH <+: HOTPLUG ∧ ¬ CHANGE <+: HOTPLUG := by decide
    simp [h1, hnot]
  by_cases h3 : CONNECTOR <+: f
  · have hdev := not_prefix_of h3 (b := DEVPATH) (by decide) (by decide)
    have hcha := not_prefix_of h3 (b := CHANGE) (by decide) (by decide)
    rw [if_neg h1, if_neg h2, if_pos h3]
    simp [h1, h2, h3, hdev.1, hcha.1, Bool.beq_eq_decide_eq]
  have h3' : ¬ f = CONNECTOR ++ HDMI_A_1 := fun h => h3 (h ▸ List.prefix_append CONNECTOR HDMI_A_1)
  rw [if_neg h1, if_neg h2, if_neg h3]
  by_cases h4 : DEVPATH <+: f ∨ CHANGE <+: f
  · rw [if_pos h4]
    simp [h1, h2, h3, h3', h4]
  · rw [if_neg h4]
    simp [h1, h2, h3, h3', h4]

/-- The flags after all fields say whether the message is one of the connector. -/
theorem verdict_iff {fs : List (List UInt8)} {flags : UeventFlags}
    (h : fs.foldl noteField {} = flags) :
    (flags.isDrm && flags.isHotplug && (!flags.hasConnectorName || flags.connectorMatched)) = true ↔
      SUBSYSTEM_DRM ∈ fs ∧ HOTPLUG ∈ fs ∧
        ((∀ f ∈ fs, ¬ CONNECTOR <+: f) ∨ CONNECTOR ++ HDMI_A_1 ∈ fs ∨
          ∃ f ∈ fs, (DEVPATH <+: f ∨ CHANGE <+: f) ∧ HDMI_A_1 <:+: f) := by
  have hdrm := foldl_noteField (fun flags f => (noteField_flags flags f).1) fs {}
  have hhotplug := foldl_noteField (fun flags f => (noteField_flags flags f).2.1) fs {}
  have hname := foldl_noteField (fun flags f => (noteField_flags flags f).2.2.1) fs {}
  have hmatched := foldl_noteField (fun flags f => (noteField_flags flags f).2.2.2) fs {}
  rw [← h]
  simp only [hdrm, hhotplug, hname, hmatched, Bool.false_or, Bool.and_eq_true, Bool.or_eq_true,
    Bool.not_eq_true', List.any_eq_true, List.any_eq_false, decide_eq_true_eq, and_assoc]
  constructor
  · rintro ⟨⟨f, hf, rfl⟩, ⟨g, hg, rfl⟩, hconnector⟩
    refine ⟨hf, hg, hconnector.imp id ?_⟩
    rintro ⟨h, hh, rfl | hpath⟩
    · exact .inl hh
    · exact .inr ⟨h, hh, hpath⟩
  · rintro ⟨hf, hg, hconnector⟩
    refine ⟨⟨_, hf, rfl⟩, ⟨_, hg, rfl⟩, hconnector.imp id ?_⟩
    rintro (hh | ⟨h, hh, hpath⟩)
    · exact ⟨_, hh, .inl rfl⟩
    · exact ⟨h, hh, .inr hpath⟩

/-- **What is made of a message depends on the message only, and is what its fields say, exactly if
the message ends with a NUL or with a field that is settled without one.** -/
theorem dependsOnMessage_iff (message : List UInt8) :
    DependsOnMessage message ↔ EndsSettled message := by
  constructor
  · intro h
    by_contra hnot
    have hloop := ueventLoop_unsettled message [] {} hnot
    rw [List.nil_append, List.length_nil, Nat.zero_add] at hloop
    have hnone : isTargetConnectorUevent message message.length = none := by
      rw [isTargetConnectorUevent, hloop]
      rfl
    have hsome := h []
    rw [List.append_nil, hnone] at hsome
    cases hsome
  · intro h rest
    have hloop := ueventLoop_settled rest message [] {} h
    rw [List.nil_append, List.length_nil, Nat.zero_add] at hloop
    rw [isTargetConnectorUevent, hloop, Option.map_some, Option.some.injEq, Bool.eq_iff_iff,
      verdict_iff rfl, decide_eq_true_eq]
    rfl

/-- A message without a NUL at its end, and what an earlier one left behind it. -/
def stoppedMessage : List UInt8 := ascii "SUBSYSTEM=drm" ++ [0] ++ ascii "HOTPLUG=1"

theorem stoppedMessage_stale :
    isTargetConnectorUevent (stoppedMessage ++ [0]) stoppedMessage.length = some true ∧
    isTargetConnectorUevent (stoppedMessage ++ ascii "2" ++ [0]) stoppedMessage.length
      = some false := by decide +kernel

theorem not_dependsOnMessage : ¬ ∀ message, DependsOnMessage message := by
  intro h
  have hnul := h stoppedMessage [0]
  have hstale := h stoppedMessage (ascii "2" ++ [0])
  rw [stoppedMessage_stale.1] at hnul
  rw [← List.append_assoc, stoppedMessage_stale.2, ← hnul] at hstale
  cases hstale

end QcapDemos.Rx
