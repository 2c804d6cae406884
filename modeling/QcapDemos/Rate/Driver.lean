import Mathlib.Tactic.SplitIfs
import QcapDemos.Drm.Mode
import QcapDemos.Lib.Ledger

set_option autoImplicit false

/-! # The driver under the rate experiment

The properties of the objects of the output, as the script sees them through libdrm: by id, with the
names and the values that a read returns, and the requests that write them. `is_frac` of the
connector is not part of the atomic state. The driver keeps it in a cache that any commit may
change, a failed one and a `TEST_ONLY` one too.
-/

namespace QcapDemos.Rate

open QcapDemos.Lib

def connectorId : Nat := 39

def crtcId : Nat := 37

def primaryId : Nat := 32

def overlayId : Nat := 34

/-! ## Properties -/

/-- The properties of the objects, in the order of a read, and the names of properties. A name is
missing where it does not decode. -/
structure Tables where
  props : Nat → List Nat
  name : Nat → Option String

/-- The property of an object with a name: the last one, where there are several. -/
def Tables.find (t : Tables) (obj : Nat) (name : String) : Option Nat :=
  (t.props obj).reverse.find? fun prop => t.name prop = some name

/-- The property is the one that the driver caches. -/
def Tables.Cached (t : Tables) (obj prop : Nat) : Prop :=
  obj = connectorId ∧ t.name prop = some "is_frac"

instance (t : Tables) (obj prop : Nat) : Decidable (t.Cached obj prop) :=
  inferInstanceAs (Decidable (_ ∧ _))

theorem Tables.name_find {t : Tables} {obj prop : Nat} {name : String}
    (h : t.find obj name = some prop) : t.name prop = some name := by
  have hfound := List.find?_some h
  simpa using hfound

/-- The length of a property blob, and the mode in its bytes. -/
structure Blob where
  length : Nat
  mode : Drm.ModeInfo

/-- The committed value of each property, the cached `is_frac`, and the blobs: the ids in use, and
what they hold. -/
structure Driver where
  committed : Nat → Nat → Nat
  isFrac : Nat
  blobs : Finset Nat
  blob : Nat → Blob

/-- The value that a read returns. -/
def Driver.value (t : Tables) (d : Driver) (obj prop : Nat) : Nat :=
  if t.Cached obj prop then d.isFrac else d.committed obj prop

/-- The id and the value of a property. -/
structure Value where
  id : Nat
  value : Nat
deriving DecidableEq

/-- What a read returns under a name. -/
def Driver.property (t : Tables) (d : Driver) (obj : Nat) (name : String) : Option Value :=
  (t.find obj name).map fun prop => ⟨prop, d.value t obj prop⟩

/-! ## Commits -/

structure Entry where
  obj : Nat
  prop : Nat
  value : Nat
deriving DecidableEq

abbrev Request := List Entry

def Driver.write (t : Tables) (d : Driver) (e : Entry) : Driver :=
  { d with
    committed := fun obj prop =>
      if obj = e.obj ∧ prop = e.prop then e.value else d.committed obj prop
    isFrac := if t.Cached e.obj e.prop then e.value else d.isFrac }

/-- Whether a commit succeeds, and the cached `is_frac` after it, where it does not write it. -/
structure CommitResult where
  ok : Bool
  isFrac : Nat

/-- `drmModeAtomicCommit`. Nothing of a request is committed unless all of it is. -/
def Driver.commit (t : Tables) (d : Driver) (req : Request) (testOnly : Bool)
    (result : CommitResult) : Driver :=
  if result.ok && !testOnly then req.foldl (Driver.write t) d
  else { d with isFrac := result.isFrac }

/-- `drmModeCreatePropertyBlob`, with an id that is not in use and not zero. -/
def Driver.createBlob (d : Driver) (hint : Nat) (mode : Drm.ModeInfo) : Nat × Driver :=
  let id := fresh d.blobs hint
  (id, { d with
    blobs := insert id d.blobs
    blob := fun i => if i = id then ⟨68, mode⟩ else d.blob i })

section Commit

variable {t : Tables} {d : Driver} {req : Request} {testOnly : Bool} {result : CommitResult}

@[simp] theorem blob_write (d : Driver) (e : Entry) : (d.write t e).blob = d.blob := rfl

theorem blob_foldl_write (req : Request) (d : Driver) :
    (req.foldl (Driver.write t) d).blob = d.blob := by
  induction req generalizing d with
  | nil => rfl
  | cons e req ih => rw [List.foldl_cons, ih, blob_write]

@[simp] theorem blob_commit : (d.commit t req testOnly result).blob = d.blob := by
  unfold Driver.commit
  split_ifs
  · exact blob_foldl_write req d
  · rfl

/-- A request changes no property that it does not name. -/
theorem committed_foldl_write {obj prop : Nat} (h : ∀ e ∈ req, ¬ (obj = e.obj ∧ prop = e.prop)) :
    (req.foldl (Driver.write t) d).committed obj prop = d.committed obj prop := by
  induction req generalizing d with
  | nil => rfl
  | cons e req ih =>
      rw [List.forall_mem_cons] at h
      rw [List.foldl_cons, ih h.2]
      exact if_neg h.1

theorem committed_commit {obj prop : Nat} (h : ∀ e ∈ req, ¬ (obj = e.obj ∧ prop = e.prop)) :
    (d.commit t req testOnly result).committed obj prop = d.committed obj prop := by
  unfold Driver.commit
  split_ifs
  · exact committed_foldl_write h
  · rfl

theorem fresh_createBlob (d : Driver) (hint : Nat) (mode : Drm.ModeInfo) :
    (d.createBlob hint mode).1 ≠ 0 ∧ (d.createBlob hint mode).1 ∉ d.blobs :=
  ⟨fresh_ne_zero _ _, fresh_not_mem _ _⟩

end Commit

/-! ## The three properties of the experiment -/

/-- The ids of `is_frac`, `MODE_ID` and `ACTIVE`. -/
structure Targets (t : Tables) where
  isFrac : Nat
  modeId : Nat
  active : Nat
  isFrac_eq : t.find connectorId "is_frac" = some isFrac
  modeId_eq : t.find crtcId "MODE_ID" = some modeId
  active_eq : t.find crtcId "ACTIVE" = some active

namespace Targets

variable {t : Tables} (p : Targets t)

/-- The request that writes the three. -/
def request (isFrac modeId active : Nat) : Request :=
  [⟨connectorId, p.isFrac, isFrac⟩, ⟨crtcId, p.modeId, modeId⟩, ⟨crtcId, p.active, active⟩]

/-- The request that writes the values that a read returned. -/
def original (d : Driver) : Request :=
  p.request d.isFrac (d.value t crtcId p.modeId) (d.value t crtcId p.active)

/-- The property is one of the three. -/
def Has (obj prop : Nat) : Prop :=
  (obj = connectorId ∧ prop = p.isFrac) ∨ (obj = crtcId ∧ (prop = p.modeId ∨ prop = p.active))

theorem cached_isFrac : t.Cached connectorId p.isFrac := ⟨rfl, Tables.name_find p.isFrac_eq⟩

theorem not_cached_crtc (prop : Nat) : ¬ t.Cached crtcId prop := fun h => absurd h.1 (by decide)

theorem modeId_ne_active : p.modeId ≠ p.active := by
  intro h
  have hmode := Tables.name_find p.modeId_eq
  rw [h, Tables.name_find p.active_eq] at hmode
  exact absurd hmode (by decide)

/-- What a read returns when the request is committed. -/
theorem value_request (isFrac modeId active : Nat) (d : Driver) (obj prop : Nat) :
    ((p.request isFrac modeId active).foldl (Driver.write t) d).value t obj prop =
      if t.Cached obj prop then isFrac
      else if obj = crtcId ∧ prop = p.active then active
      else if obj = crtcId ∧ prop = p.modeId then modeId
      else d.committed obj prop := by
  simp only [request, List.foldl_cons, List.foldl_nil, Driver.value, Driver.write,
    if_pos p.cached_isFrac, if_neg (not_cached_crtc _)]
  by_cases hcached : t.Cached obj prop
  · rw [if_pos hcached, if_pos hcached]
  · rw [if_neg hcached, if_neg hcached]
    have hfrac : ¬ (obj = connectorId ∧ prop = p.isFrac) := by
      rintro ⟨rfl, rfl⟩
      exact hcached p.cached_isFrac
    rw [if_neg hfrac]

/-- What is committed of `is_frac` then. -/
theorem committed_isFrac (isFrac modeId active : Nat) (d : Driver) :
    ((p.request isFrac modeId active).foldl (Driver.write t) d).committed connectorId p.isFrac
      = isFrac := by
  have hne : ¬ connectorId = crtcId := by decide
  simp [request, Driver.write, hne]

/-- Only the three differ from the driver `d₀`, and its blobs are as they were. -/
structure Near (d₀ d : Driver) : Prop where
  committed : ∀ obj prop, ¬ p.Has obj prop → d.committed obj prop = d₀.committed obj prop
  blob : ∀ id ∈ d₀.blobs, d.blob id = d₀.blob id

variable {p}

theorem Near.commit {d₀ d : Driver} {req : Request} {testOnly : Bool} {result : CommitResult}
    (h : p.Near d₀ d) (hreq : ∀ e ∈ req, p.Has e.obj e.prop) :
    p.Near d₀ (d.commit t req testOnly result) := by
  refine ⟨fun obj prop hnot => ?_, ?_⟩
  · rw [← h.committed obj prop hnot]
    refine committed_commit ?_
    rintro e he ⟨rfl, rfl⟩
    exact hnot (hreq e he)
  · rw [blob_commit]
    exact h.blob

end Targets

/-- Every property reads as it did, `is_frac` is committed as it was read, and the mode that
`MODE_ID` refers to is the same. -/
structure Restored (t : Tables) (d₀ d : Driver) : Prop where
  value : ∀ obj prop, d.value t obj prop = d₀.value t obj prop
  isFrac : ∀ prop, t.find connectorId "is_frac" = some prop →
    d.committed connectorId prop = d₀.isFrac
  blob : ∀ id ∈ d₀.blobs, d.blob id = d₀.blob id

/-- **The rollback.** Committed from anywhere near, the original values restore the driver. -/
theorem Targets.Near.restored {t : Tables} {p : Targets t} {d₀ d : Driver} (h : p.Near d₀ d) :
    Restored t d₀ ((p.original d₀).foldl (Driver.write t) d) := by
  refine ⟨fun obj prop => ?_, fun prop hprop => ?_, ?_⟩
  · rw [Targets.original, p.value_request]
    split_ifs with hcached hactive hmode
    · rw [Driver.value, if_pos hcached]
    · obtain ⟨rfl, rfl⟩ := hactive
      rfl
    · obtain ⟨rfl, rfl⟩ := hmode
      rfl
    · rw [Driver.value, if_neg hcached]
      refine h.committed obj prop ?_
      rintro (⟨rfl, rfl⟩ | ⟨hcrtc, hmem | hmem⟩)
      · exact hcached p.cached_isFrac
      · exact hmode ⟨hcrtc, hmem⟩
      · exact hactive ⟨hcrtc, hmem⟩
  · obtain rfl := Option.some.inj (p.isFrac_eq.symm.trans hprop)
    exact p.committed_isFrac _ _ _ d
  · rw [blob_foldl_write]
    exact h.blob

end QcapDemos.Rate
