import QcapDemos.Probe.Capture

set_option autoImplicit false

/-! # The axis probe: reading the 64-bit reference

The reference counter is read as two words of 32 bits, the high one before and after the low one.
The counter goes on between the reads. `observe` reads it before and after each tick counter of the
environment, to know when the tick was read.
-/

namespace QcapDemos.Probe

open QcapDemos.Lib QcapDemos.Lib.Reader

/-- The reference counter, which is the version of the ticks: how far it advances before each
access. The tick counters of the environment, the other registers and the clock of the host read
whatever they read, access by access. -/
structure Reference where
  gap : Nat → Nat
  env : Nat → Nat → UInt32
  other : Nat → Nat → UInt32
  monotonicNs : Nat → Nat

/-- The register of the probe at `offset`, read by access number `k` while the counter is `n`. -/
def Reference.register (R : Reference) (offset n k : Nat) : Nat :=
  if offset = 0x24 then n / 2 ^ 32 % 2 ^ 32
  else if offset = 0x20 then n % 2 ^ 32
  else (R.other k offset).toNat

/-- Two references, with what is read between them. -/
structure Bracket where
  before : Nat
  ref0 : Nat
  value : Nat
  ref1 : Nat
  after : Nat

/-- An entry of what `observe` returns. -/
structure TickReading where
  value : Nat
  referenceMidpoint : Rat
  monotonicMidpointNs : Rat
  readDurationNs : Int

def Bracket.reading (b : Bracket) : TickReading :=
  { value := b.value
    referenceMidpoint := ((b.ref0 + b.ref1 : Nat) : Rat) / 2
    monotonicMidpointNs := ((b.before + b.after : Nat) : Rat) / 2
    readDurationNs := b.after - b.before }

section Program

variable (R : Reference)

/-- `read32` of the probe. -/
def probeRead32 (offset : Nat) : Access Nat := do
  raiseIf (¬ ValidOffset offset) ⟨.valueError, "Invalid probe register offset"⟩
  access R.gap (R.register offset)

/-- `read32` of the environment. -/
def envRead32 (offset : Nat) : Access Nat := do
  raiseIf (¬ ValidOffset offset) ⟨.valueError, "Invalid probe register offset"⟩
  access R.gap fun _ k => (R.env k offset).toNat

/-- `time.monotonic_ns`, which is no access. -/
def monotonicNs : Access Nat := fun t => .ok (R.monotonicNs t.accesses, t)

/-- What the loop of `read_reference` does with the attempts that are left. -/
def readAttempts : Nat → Access Nat
  | 0 => throw ⟨.runtimeError, "Reference changed repeatedly; no coherent read"⟩
  | attempts + 1 => do
      let hi ← probeRead32 R 0x24
      let lo ← probeRead32 R 0x20
      let again ← probeRead32 R 0x24
      if again = hi then pure (hi <<< 32 ||| lo) else readAttempts attempts

def readReference : Access Nat := readAttempts R 5

/-- One turn of the loop of `observe`. -/
def bracket (index : Nat) : Access Bracket := do
  let before ← monotonicNs R
  let ref0 ← readReference R
  let value ← envRead32 R (0xC + index * 4)
  let ref1 ← readReference R
  let after ← monotonicNs R
  pure { before := before, ref0 := ref0, value := value, ref1 := ref1, after := after }

def brackets : Access (List Bracket) := (List.range 4).mapM (bracket R)

def observe : Access (List (String × TickReading)) := do
  let bs ← brackets R
  pure (bs.mapIdx fun index b => (toString index, b.reading))

end Program

/-! ## The words that are read -/

section Reads

variable {R : Reference} {t t' : Tick}

theorem valid_words : ValidOffset 0x24 ∧ ValidOffset 0x20 := by decide

theorem probeRead32_run {offset : Nat} (h : ValidOffset offset) (t : Tick) :
    probeRead32 R offset t
      = .ok (R.register offset (t.after R.gap 1).version t.accesses, t.after R.gap 1) := by
  rw [probeRead32, bind_run (raiseIf_run (not_not.mpr h) _ t)]
  rfl

theorem register_hi (n k : Nat) (h : n < 2 ^ 64) : R.register 0x24 n k = n / 2 ^ 32 := by
  show n / 2 ^ 32 % 2 ^ 32 = n / 2 ^ 32
  exact Nat.mod_eq_of_lt (by omega)

theorem register_lo (n k : Nat) : R.register 0x20 n k = n % 2 ^ 32 := rfl

/-- The three reads of an attempt. -/
theorem readAttempts_succ_run (attempts : Nat) (t : Tick) :
    readAttempts R (attempts + 1) t =
      let hi := R.register 0x24 (t.after R.gap 1).version t.accesses
      let lo := R.register 0x20 (t.after R.gap 2).version (t.accesses + 1)
      let again := R.register 0x24 (t.after R.gap 3).version (t.accesses + 2)
      if again = hi then .ok (hi <<< 32 ||| lo, t.after R.gap 3)
      else readAttempts R attempts (t.after R.gap 3) := by
  rw [readAttempts, bind_run (probeRead32_run valid_words.1 t),
    bind_run (probeRead32_run valid_words.2 _), bind_run (probeRead32_run valid_words.1 _)]
  simp only [← Tick.after_add, Tick.accesses_after]
  split_ifs
  · rfl
  · rfl

end Reads

/-- The high word after `k` accesses of a call at `t`. -/
def Reference.highAfter (R : Reference) (t : Tick) (k : Nat) : Nat :=
  (t.after R.gap k).version / 2 ^ 32

/-- A call at `t` returns with attempt number `n`, the first one whose two high words agree. The
value is the counter at the low-word read of that attempt. -/
structure Coherent (R : Reference) (t t' : Tick) (n v : Nat) : Prop where
  ends : t' = t.after R.gap (3 * n + 3)
  same : R.highAfter t (3 * n + 1) = R.highAfter t (3 * n + 3)
  first : ∀ m < n, R.highAfter t (3 * m + 1) ≠ R.highAfter t (3 * m + 3)
  value : v = (t.after R.gap (3 * n + 2)).version

section Coherent

variable {R : Reference} {t t' : Tick} {v : Nat}

/-- An attempt that fails comes before the ones of the rest of the call. -/
theorem Coherent.of_rest {n : Nat} (hfail : R.highAfter t 1 ≠ R.highAfter t 3)
    (h : Coherent R (t.after R.gap 3) t' n v) : Coherent R t t' (n + 1) v := by
  have hshift (k : Nat) : R.highAfter (t.after R.gap 3) k = R.highAfter t (3 + k) := by
    rw [Reference.highAfter, Reference.highAfter, Tick.after_add]
  have hfirst := h.first
  have hsame := h.same
  simp only [hshift] at hfirst hsame
  refine ⟨?_, ?_, fun m hm => ?_, ?_⟩
  · rw [h.ends, ← Tick.after_add]
    congr 1
    omega
  · rw [show 3 * (n + 1) + 1 = 3 + (3 * n + 1) by omega,
      show 3 * (n + 1) + 3 = 3 + (3 * n + 3) by omega]
    exact hsame
  · cases m with
    | zero => exact hfail
    | succ m =>
        rw [show 3 * (m + 1) + 1 = 3 + (3 * m + 1) by omega,
          show 3 * (m + 1) + 3 = 3 + (3 * m + 3) by omega]
        exact hfirst m (by omega)
  · rw [h.value, ← Tick.after_add]
    congr 2
    omega

theorem readAttempts_le {attempts : Nat} (h : readAttempts R attempts t = .ok (v, t')) :
    t.version ≤ t'.version := by
  induction attempts generalizing t with
  | zero => exact absurd h throw_ne_ok
  | succ attempts ih =>
      have h03 := Tick.version_after_le R.gap (Nat.zero_le 3) t
      rw [readAttempts_succ_run] at h
      simp only at h
      split_ifs at h
      · obtain ⟨-, rfl⟩ := Prod.mk.inj (Except.ok.inj h)
        exact h03
      · exact h03.trans (ih h)

/-- Of the attempts that are left, one is coherent if the loop returns. -/
theorem readAttempts_spec {attempts : Nat} (h : readAttempts R attempts t = .ok (v, t'))
    (hroom : t'.version < 2 ^ 64) : ∃ n < attempts, Coherent R t t' n v := by
  induction attempts generalizing t with
  | zero => exact absurd h throw_ne_ok
  | succ attempts ih =>
      rw [readAttempts_succ_run] at h
      have h12 := Tick.version_after_le R.gap (show 1 ≤ 2 by decide) t
      have h23 := Tick.version_after_le R.gap (show 2 ≤ 3 by decide) t
      -- the counter has not wrapped at the end of the attempt, whether it is the last or not
      have hle : (t.after R.gap 3).version ≤ t'.version := by
        simp only at h
        split_ifs at h
        · obtain ⟨-, rfl⟩ := Prod.mk.inj (Except.ok.inj h)
          exact le_rfl
        · exact readAttempts_le h
      have hhi := register_hi (R := R) (t.after R.gap 1).version t.accesses (by omega)
      have hagain := register_hi (R := R) (t.after R.gap 3).version (t.accesses + 2) (by omega)
      rw [hhi, hagain, register_lo] at h
      by_cases hsame : (t.after R.gap 3).version / 2 ^ 32 = (t.after R.gap 1).version / 2 ^ 32
      · simp only [if_pos hsame] at h
        obtain ⟨hv, rfl⟩ := Prod.mk.inj (Except.ok.inj h)
        rw [words_eq h12 h23 hsame.symm] at hv
        exact ⟨0, Nat.succ_pos _, rfl, hsame.symm, nofun, hv.symm⟩
      · simp only [if_neg hsame] at h
        obtain ⟨n, hn, hrest⟩ := ih h
        exact ⟨n + 1, Nat.succ_lt_succ hn, hrest.of_rest (Ne.symm hsame)⟩

theorem Coherent.between {n : Nat} (h : Coherent R t t' n v) :
    t.version ≤ v ∧ v ≤ t'.version := by
  have hentry := Tick.version_after_le R.gap (Nat.zero_le (3 * n + 2)) t
  have hreturn := Tick.version_after_le R.gap (show 3 * n + 2 ≤ 3 * n + 3 by omega) t
  rw [h.value, h.ends]
  exact ⟨hentry, hreturn⟩

end Coherent

/-! ## The references around a tick -/

section Bracket

variable {R : Reference} {t t' : Tick} {b : Bracket} {index : Nat}

/-- The steps of a bracket. -/
theorem bracket_eq_ok (h : bracket R index t = .ok (b, t')) :
    ∃ u u', readReference R t = .ok (b.ref0, u) ∧
      envRead32 R (0xC + index * 4) u = .ok (b.value, u') ∧
      readReference R u' = .ok (b.ref1, t') := by
  obtain ⟨before, u₀, hbefore, h⟩ := bind_eq_ok.mp h
  obtain ⟨ref0, u, href0, h⟩ := bind_eq_ok.mp h
  obtain ⟨value, u', hvalue, h⟩ := bind_eq_ok.mp h
  obtain ⟨ref1, u₁, href1, h⟩ := bind_eq_ok.mp h
  obtain ⟨after, u₂, hafter, h⟩ := bind_eq_ok.mp h
  obtain ⟨rfl, rfl⟩ := pure_eq_ok.mp h
  -- reading the clock of the host takes no access
  obtain ⟨-, rfl⟩ := Prod.mk.inj (Except.ok.inj hbefore)
  obtain ⟨-, rfl⟩ := Prod.mk.inj (Except.ok.inj hafter)
  exact ⟨u, u', href0, hvalue, href1⟩

theorem envRead32_le {offset value : Nat} (h : envRead32 R offset t = .ok (value, t')) :
    t.version ≤ t'.version := by
  obtain ⟨_, u, hcheck, hacc⟩ := bind_eq_ok.mp h
  obtain ⟨-, rfl⟩ := raiseIf_eq_ok.mp hcheck
  obtain ⟨-, rfl⟩ := access_eq_ok.mp hacc
  exact Nat.le_add_right _ _

theorem bracket_le (h : bracket R index t = .ok (b, t')) : t.version ≤ t'.version := by
  obtain ⟨u, u', href0, hvalue, href1⟩ := bracket_eq_ok h
  exact (readAttempts_le href0).trans ((envRead32_le hvalue).trans (readAttempts_le href1))

/-- The counter at the read of a tick lies between the references around it. -/
theorem bracket_spec (h : bracket R index t = .ok (b, t')) (hroom : t'.version < 2 ^ 64) :
    ∃ u u', envRead32 R (0xC + index * 4) u = .ok (b.value, u') ∧
      b.ref0 ≤ u'.version ∧ u'.version ≤ b.ref1 := by
  obtain ⟨u, u', href0, hvalue, href1⟩ := bracket_eq_ok h
  have hle := envRead32_le hvalue
  have hle' := readAttempts_le href1
  obtain ⟨n, -, h0⟩ := readAttempts_spec href0 (by omega)
  obtain ⟨m, -, h1⟩ := readAttempts_spec href1 hroom
  exact ⟨u, u', hvalue, h0.between.2.trans hle, h1.between.1⟩

end Bracket

/-- **A reference is a value that the counter had**: at the low-word read of the first attempt whose
high words agree. The references that `observe` takes around a tick are in order with its read. -/
theorem readReference_coherent (R : Reference) (t : Tick) :
    (∀ v t', readReference R t = .ok (v, t') → t'.version < 2 ^ 64 →
      (∃ n < 5, Coherent R t t' n v) ∧ t.version ≤ v ∧ v ≤ t'.version) ∧
    ∀ readings t', observe R t = .ok (readings, t') → t'.version < 2 ^ 64 →
      ∃ bs : List Bracket, readings = bs.mapIdx (fun index b => (toString index, b.reading)) ∧
        ∀ b ∈ bs, ∃ index < 4, ∃ u u', envRead32 R (0xC + index * 4) u = .ok (b.value, u') ∧
          b.ref0 ≤ u'.version ∧ u'.version ≤ b.ref1 := by
  constructor
  · intro v t' h hroom
    obtain ⟨n, hn, hcoherent⟩ := readAttempts_spec h hroom
    exact ⟨⟨n, hn, hcoherent⟩, hcoherent.between⟩
  · intro readings t' h hroom
    obtain ⟨bs, v, hbs, h⟩ := bind_eq_ok.mp h
    obtain ⟨rfl, rfl⟩ := pure_eq_ok.mp h
    refine ⟨bs, rfl, fun b hb => ?_⟩
    obtain ⟨-, hall⟩ := mem_mapM_eq_ok (fun _ _ _ _ => bracket_le) hbs
    obtain ⟨index, hindex, u, u', hrun, -, hle⟩ := hall b hb
    exact ⟨index, List.mem_range.mp hindex, bracket_spec hrun (by omega)⟩

/-- A counter whose high word changes during the first attempt. -/
def carrying : Reference where
  gap k := if k = 1 then 2 else 0
  env _ _ := 7
  other _ _ := 0
  monotonicNs k := k

theorem readReference_coherent_carrying :
    ∃ v t', readReference carrying ⟨2 ^ 32 - 1, 0⟩ = .ok (v, t') ∧
      (∃ n < 5, Coherent carrying ⟨2 ^ 32 - 1, 0⟩ t' n v) ∧ 2 ^ 32 - 1 ≤ v ∧ v ≤ t'.version := by
  have hrun : readReference carrying ⟨2 ^ 32 - 1, 0⟩ = .ok (2 ^ 32 + 1, ⟨2 ^ 32 + 1, 6⟩) := rfl
  exact ⟨_, _, hrun, (readReference_coherent carrying ⟨2 ^ 32 - 1, 0⟩).1 _ _ hrun (by decide)⟩

end QcapDemos.Probe
