import Mathlib.Data.Prod.Lex
import QcapDemos.Drm.Startup
import QcapDemos.Rx.Ownership
import QcapDemos.Rx.Timing

set_option autoImplicit false

/-! # The timing of the AVH output

`start_drm_output` chooses a timing in one scan over the modes of a connector. Exactness is compared
first, then the area, and only then the rate and the 594 MHz clock. So an exact timing is chosen
wherever it stands in the list, and without one a largest timing, and `selected_exact` tells which.
-/

namespace QcapDemos.Rx

open QcapDemos.Drm QcapDemos.Lib

/-! ## The scan -/

section Scan

variable (ar : Arithmetic) (sdi : Bool) (width height rate : Nat) (fps : ℚ)
  (modes : List ModeInfo)

/-- A candidate with what the scan notes of it. -/
def choiceOf (c : ModeInfo) : Choice := { mode := c, exact := exactMode ar width height fps c }

/-- The candidates of the scan. -/
def choices : List Choice := (modes.filter (eligible ar sdi)).map (choiceOf ar width height fps)

/-- What is compared first. -/
def rank (c : Choice) : Bool ×ₗ Nat := toLex (c.exact, c.mode.area)

/-- What decides between choices of one rank. -/
def tieBreak (c best : Choice) : Bool :=
  modeVrefresh ar best.mode + 5 / 1000 < modeVrefresh ar c.mode ||
    (width == 3840 && height == 2160 && rate == 60 && c.mode.clock == 594000 &&
      best.mode.clock != 594000)

theorem chooseMode_eq_champion :
    chooseMode ar sdi width height rate fps modes =
      champion (preferred ar width height rate) (choices ar sdi width height fps modes) := by
  rw [champion, choices, List.foldl_map, List.foldl_filter, chooseMode]
  congr 1
  funext best c
  cases eligible ar sdi c <;> rfl

theorem preferred_iff (c best : Choice) :
    preferred ar width height rate c best = true ↔ rank best < rank c ∨
      (rank c = rank best ∧ tieBreak ar width height rate c best = true) := by
  have hrank : rank best < rank c ↔ (best.exact = false ∧ c.exact = true) ∨
      (best.exact = c.exact ∧ best.mode.area < c.mode.area) := by
    rw [rank, rank, Prod.Lex.toLex_lt_toLex]
    exact or_congr_left Bool.lt_iff
  have hsame : rank c = rank best ↔ c.exact = best.exact ∧ c.mode.area = best.mode.area := by
    rw [rank, rank, toLex_inj, Prod.mk.injEq]
  rw [hrank, hsame, preferred, tieBreak]
  simp only [Bool.or_eq_true, Bool.and_eq_true, Bool.not_eq_true', decide_eq_true_eq, beq_iff_eq]
  constructor
  · rintro (⟨hc, hbest⟩ | ⟨hexact, harea | ⟨harea, htiming⟩⟩)
    · exact .inl (.inl ⟨hbest, hc⟩)
    · exact .inl (.inr ⟨hexact.symm, harea⟩)
    · exact .inr ⟨⟨hexact, harea⟩, htiming⟩
  · rintro ((⟨hbest, hc⟩ | ⟨hexact, harea⟩) | ⟨⟨hexact, harea⟩, htiming⟩)
    · exact .inl ⟨hc, hbest⟩
    · exact .inr ⟨hexact.symm, .inl harea⟩
    · exact .inr ⟨hexact, .inr ⟨harea, htiming⟩⟩

end Scan

/-! ## What is chosen -/

/-- The choice among the modes of a connector: a supported mode, exact if a supported one is, and
else one of the largest. -/
structure WellChosen (ar : Arithmetic) (sdi : Bool) (width height : Nat) (fps : ℚ)
    (modes : List ModeInfo) (choice : Choice) : Prop where
  listed : choice.mode ∈ modes
  supported : eligible ar sdi choice.mode = true
  exact : (∃ c ∈ modes, eligible ar sdi c = true ∧ exactMode ar width height fps c = true) →
    exactMode ar width height fps choice.mode = true
  largest : (¬ ∃ c ∈ modes, eligible ar sdi c = true ∧ exactMode ar width height fps c = true) →
    ∀ c ∈ modes, eligible ar sdi c = true → c.area ≤ choice.mode.area
  reports : choice.exact = true ↔
    ∃ c ∈ modes, eligible ar sdi c = true ∧ exactMode ar width height fps c = true

section Chosen

variable {ar : Arithmetic} {sdi : Bool} {width height rate : Nat} {fps : ℚ}
  {modes : List ModeInfo} {choice : Choice}

theorem mem_choices {c : Choice} :
    c ∈ choices ar sdi width height fps modes ↔
      ∃ m ∈ modes, eligible ar sdi m = true ∧ choiceOf ar width height fps m = c := by
  simp only [choices, List.mem_map, List.mem_filter, and_assoc]

/-- A larger rank is that of an exact timing, or of a timing as exact and no smaller. -/
theorem rank_le {c best : Choice} (h : rank c ≤ rank best) :
    (c.exact = true → best.exact = true) ∧
      (c.exact = best.exact → c.mode.area ≤ best.mode.area) := by
  rw [rank, rank, Prod.Lex.toLex_le_toLex] at h
  rcases h with hlt | ⟨hexact, harea⟩
  · obtain ⟨hc, hbest⟩ := Bool.lt_iff.mp hlt
    refine ⟨fun _ => hbest, fun heq => ?_⟩
    have hc' : c.exact = false := hc
    have hbest' : best.exact = true := hbest
    rw [hc', hbest'] at heq
    cases heq
  · have hexact' : c.exact = best.exact := hexact
    exact ⟨fun hc => hexact' ▸ hc, fun _ => harea⟩

/-- **The scan chooses well**, whatever the order of the modes. -/
theorem chooseMode_wellChosen
    (h : chooseMode ar sdi width height rate fps modes = some choice) :
    WellChosen ar sdi width height fps modes choice := by
  rw [chooseMode_eq_champion, champion_lex rank (preferred_iff ar width height rate)] at h
  obtain ⟨hmem, hgreatest⟩ := mem_greatest.mp (champion_mem h)
  obtain ⟨m, hm, helig, rfl⟩ := mem_choices.mp hmem
  have hle (c : ModeInfo) (hc : c ∈ modes) (hcelig : eligible ar sdi c = true) :
      rank (choiceOf ar width height fps c) ≤ rank (choiceOf ar width height fps m) :=
    hgreatest _ (mem_choices.mpr ⟨c, hc, hcelig, rfl⟩)
  have hexact : (∃ c ∈ modes, eligible ar sdi c = true ∧ exactMode ar width height fps c = true) →
      exactMode ar width height fps m = true := by
    rintro ⟨c, hc, hcelig, hcexact⟩
    exact (rank_le (hle c hc hcelig)).1 hcexact
  refine ⟨hm, helig, hexact, fun hno c hc hcelig => ?_, fun hm' => ⟨m, hm, helig, hm'⟩, hexact⟩
  -- without an exact timing all ranks are areas
  have hplain (c : ModeInfo) (hc : c ∈ modes) (hcelig : eligible ar sdi c = true) :
      exactMode ar width height fps c = false :=
    Bool.eq_false_iff.mpr fun hcexact => hno ⟨c, hc, hcelig, hcexact⟩
  exact (rank_le (hle c hc hcelig)).2 ((hplain c hc hcelig).trans (hplain m hm helig).symm)

/-- A path is that of a connected output, with the choice among its modes. -/
theorem findPath_chosen {res : Resources} {path : Path}
    (h : findPath ar sdi width height rate fps res = some path) :
    ∃ k ∈ res.connectors, k.id = path.connectorId ∧ k.output = true ∧
      k.connector.connected = true ∧ chooseMode ar sdi width height rate fps k.connector.modes =
        some { mode := path.mode, exact := path.selectedExact } := by
  unfold findPath at h
  obtain ⟨video, -, hrest⟩ := Option.bind_eq_some_iff.mp h
  obtain ⟨⟨k, choice, crtc, c⟩, hsettled, hlast⟩ := Option.bind_eq_some_iff.mp hrest
  obtain ⟨primary, -, hpath⟩ := Option.bind_eq_some_iff.mp hlast
  obtain ⟨k', hk', hsome⟩ := List.exists_of_findSome?_eq_some hsettled
  split at hsome
  · cases hsome
  · rename_i husable
    simp only [Bool.or_eq_true, Bool.not_eq_true', not_or, Bool.not_eq_false] at husable
    obtain ⟨choice', hchosen, hreached⟩ := Option.bind_eq_some_iff.mp hsome
    obtain ⟨x, -, hx⟩ := Option.map_eq_some_iff.mp hreached
    cases hx
    cases hpath
    exact ⟨_, hk', rfl, husable.1, husable.2, hchosen⟩

end Chosen

section Output

variable (opts : Options) (dev : Device) (calls : OutputCalls) (hw : Hw) (avh : Avh)

theorem buildOutput_connector (path : Path) :
    (buildOutput opts dev calls path hw avh).2.2.drmConnectorId = path.connectorId := by
  rw [buildOutput]
  dsimp only
  split
  · rfl
  split
  · rfl
  split <;> rfl

/-- The output shows the mode of its path on the connector of the path. -/
theorem startDrmOutput_path {hw' : Hw} {avh' : Avh} (hoff : avh.drmModesetActive = false)
    (h : startDrmOutput opts dev calls hw avh = (true, hw', avh')) :
    ∃ res path, calls.resources = some res ∧
      findPath dev.arithmetic opts.sdi (avh.wanted opts).1 (avh.wanted opts).2.1
        (avh.wanted opts).2.2 avh.decFps res = some path ∧
      avh'.drmConnectorId = path.connectorId ∧ avh'.drmOutputMode = path.mode := by
  rw [startDrmOutput, if_neg (by simp [hoff])] at h
  -- a path that fails answers `false`
  split at h
  · cases h
  dsimp only at h
  split at h
  · cases h
  split at h
  · cases h
  rename_i path hpath
  obtain ⟨res, hres, hfound⟩ := Option.bind_eq_some_iff.mp hpath
  refine ⟨res, path, hres, hfound, ?_⟩
  have hconnector := buildOutput_connector opts dev calls hw { avh with drmOpen := true } path
  generalize buildOutput opts dev calls path hw { avh with drmOpen := true } = r at hconnector h
  obtain ⟨ok, hw₁, avh₁⟩ := r
  cases ok with
  | false => cases h
  | true =>
      dsimp only at hconnector h
      split at h
      · obtain ⟨-, hend⟩ := Prod.mk.inj h
        have havh := congrArg Prod.snd hend
        dsimp only at havh
        rw [← havh, startHdmiAudioSink_eq]
        exact ⟨hconnector, rfl⟩
      · cases h
        exact ⟨hconnector, rfl⟩

/-- **The timing of the AVH output**: an exact supported timing wherever the connector it settles on
lists one, and else a largest supported one; the flag says which. -/
theorem startDrmOutput_chooses :
    (∀ res path, findPath dev.arithmetic opts.sdi (avh.wanted opts).1 (avh.wanted opts).2.1
        (avh.wanted opts).2.2 avh.decFps res = some path →
      ∃ k ∈ res.connectors, k.id = path.connectorId ∧ k.output = true ∧
        k.connector.connected = true ∧
        chooseMode dev.arithmetic opts.sdi (avh.wanted opts).1 (avh.wanted opts).2.1
          (avh.wanted opts).2.2 avh.decFps k.connector.modes =
            some { mode := path.mode, exact := path.selectedExact } ∧
        WellChosen dev.arithmetic opts.sdi (avh.wanted opts).1 (avh.wanted opts).2.1 avh.decFps
          k.connector.modes { mode := path.mode, exact := path.selectedExact }) ∧
    (avh.drmModesetActive = false → ∀ hw' avh',
      startDrmOutput opts dev calls hw avh = (true, hw', avh') →
      ∃ res path, calls.resources = some res ∧
        findPath dev.arithmetic opts.sdi (avh.wanted opts).1 (avh.wanted opts).2.1
          (avh.wanted opts).2.2 avh.decFps res = some path ∧
        avh'.drmConnectorId = path.connectorId ∧ avh'.drmOutputMode = path.mode) := by
  refine ⟨fun res path hpath => ?_, fun hoff hw' avh' h => ?_⟩
  · obtain ⟨k, hk, hid, houtput, hconnected, hchosen⟩ := findPath_chosen hpath
    exact ⟨k, hk, hid, houtput, hconnected, hchosen, chooseMode_wellChosen hchosen⟩
  · exact startDrmOutput_path opts dev calls hw avh hoff h

end Output

/-- A 1080p60 stream on the board. -/
theorem startDrmOutput_chooses_board :
    let avh : Avh := { decWidth := 1920, decHeight := 1080 }
    let r := startDrmOutput hdmiOptions board .succeed (darkHw false) avh
    ∃ k ∈ boardResources.connectors, k.id = r.2.2.drmConnectorId ∧ ∃ exact,
      WellChosen .single false 1920 1080 60 k.connector.modes ⟨r.2.2.drmOutputMode, exact⟩ := by
  intro avh r
  have hchooses := startDrmOutput_chooses hdmiOptions board .succeed (darkHw false) avh
  have hstarted : r.1 = true := by decide +kernel
  obtain ⟨res, path, hres, hpath, hconnector, hmode⟩ :=
    hchooses.2 rfl r.2.1 r.2.2 (Prod.ext hstarted rfl)
  obtain ⟨k, hk, hid, -, -, -, hchosen⟩ := hchooses.1 res path hpath
  cases hres
  refine ⟨k, hk, hid.trans hconnector.symm, path.selectedExact, ?_⟩
  rw [hmode]
  exact hchosen

end QcapDemos.Rx
