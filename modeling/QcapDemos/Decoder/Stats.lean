import Mathlib.Tactic.Positivity
import QcapDemos.Decoder.Phases

set_option autoImplicit false

/-! # The statistics of the RX decoder

A unit is counted as input under the mutex, after both looks at `decoder_initializing`, and later
as pushed or as dropped. A unit that is dropped at one of these looks, or because it is flagged
DROP, is counted as dropped and not as input, the flagged one under no cause; and a pool buffer
that is too small is counted as an error of the decoder.
-/

namespace QcapDemos.Decoder

open QcapDemos.Lib

/-! ## The counters, and what they leave out -/

/-- The printed drop rate, in percent. -/
def Stats.dropRate (s : Stats) : ℚ := if 0 < s.input then 100 * s.dropped / s.input else 0

/-- The units dropped for a cause. -/
def dropsAfter (cause : Cause) (n : Nat) : Option Output → Nat
  | some (.dropped cause') => if cause' = cause then n + 1 else n
  | _ => n

def drops (cause : Cause) (outputs : List (Option Output)) : Nat :=
  outputs.foldl (dropsAfter cause) 0

/-- The statistics after a run. -/
def statsOf (cfg : Config) (displayEnabled : Bool) (es : List Event) : Stats :=
  (reached cfg displayEnabled es).stats

/-- The statistics after a run account for every access unit. -/
structure Accounts (cfg : Config) (displayEnabled : Bool) (es : List Event) : Prop where
  sum : (statsOf cfg displayEnabled es).pushed + (statsOf cfg displayEnabled es).dropped
    ≤ (statsOf cfg displayEnabled es).input
  rate : 0 ≤ (statsOf cfg displayEnabled es).dropRate ∧
    (statsOf cfg displayEnabled es).dropRate ≤ 100
  causes : (statsOf cfg displayEnabled es).dropped
    = (statsOf cfg displayEnabled es).transportDropped + (statsOf cfg displayEnabled es).poolDropped
      + (statsOf cfg displayEnabled es).pushFailed
      + drops .initializing (outputs cfg displayEnabled es)
      + drops .idr (outputs cfg displayEnabled es)

/-- The step drops no unit that is flagged DROP, and gets no buffer that is too small. -/
def attributed (s : DecoderState) : Event → Bool
  | .work w outcome =>
      match s.workers w with
      | .dropping => s.decoderLock ≠ none
      | .submitting _ _ => outcome ≠ .invalid
      | _ => true
  | _ => true

/-- The step drops no unit at a look at `decoder_initializing`. -/
def admitted (s : DecoderState) : Event → Bool
  | .push w au => s.workers w ≠ .idle || au.data.length < 4 || !s.decoderInitializing
  | .work w _ =>
      match s.workers w with
      | .locked _ => !s.decoderInitializing
      | _ => true
  | _ => true

theorem Stats.rate_of_sum {s : Stats} (h : s.pushed + s.dropped ≤ s.input) :
    0 ≤ s.dropRate ∧ s.dropRate ≤ 100 := by
  have hle : (s.dropped : ℚ) ≤ s.input := by exact_mod_cast (by omega : s.dropped ≤ s.input)
  unfold Stats.dropRate
  split
  · next hpos =>
    have hpos' : (0 : ℚ) < s.input := by exact_mod_cast hpos
    refine ⟨by positivity, ?_⟩
    rw [div_le_iff₀ hpos']
    exact mul_le_mul_of_nonneg_left hle (by norm_num)
  · exact ⟨le_refl _, by norm_num⟩

/-! ## The balance -/

/-- The unit is counted as input, and not yet as pushed or dropped. -/
def WorkerPc.inFlight : WorkerPc → Nat
  | .gated _ | .accepting _ | .submitting _ _ => 1
  | _ => 0

theorem WorkerPc.inFlight_of_not_passed {pc : WorkerPc} (h : pc.passed = false) :
    pc.inFlight = 0 := by
  cases pc <;> first | rfl | cases h

/-- The counters, where `initializing` and `idr` units were dropped at these gates. -/
structure Balanced (initializing idr : Nat) (s : DecoderState) : Prop where
  sum : s.stats.pushed + s.stats.dropped + s.owner.inFlight ≤ s.stats.input + initializing
  causes : s.stats.dropped = s.stats.transportDropped + s.stats.poolDropped + s.stats.pushFailed
    + initializing + idr

theorem balanced_initial (displayEnabled : Bool) : Balanced 0 0 (.initial displayEnabled) :=
  ⟨Nat.le_refl _, rfl⟩

namespace Balanced

variable {n m : Nat} {s s' : DecoderState}

/-- A step that counts nothing. -/
theorem keep (h : Balanced n m s) (hstats : s'.stats = s.stats) {pc : WorkerPc}
    (howner : s'.owner = pc) (hle : pc.inFlight ≤ s.owner.inFlight) : Balanced n m s' := by
  constructor
  · rw [hstats, howner]
    exact (Nat.add_le_add_left hle _).trans h.sum
  · rw [hstats]
    exact h.causes

/-- A unit is counted as input. -/
theorem input (h : Balanced n m s) (hstats : s'.stats = s.stats.countInput) {pc : WorkerPc}
    (howner : s'.owner = pc) (hle : pc.inFlight ≤ 1) : Balanced n m s' := by
  have hsum := h.sum
  have hcauses := h.causes
  constructor
  · rw [hstats, howner]
    simp only [Stats.countInput]
    omega
  · rw [hstats]
    exact hcauses

/-- A unit is dropped at a look at the flag. -/
theorem drop (h : Balanced n m s) (hstats : s'.stats = s.stats.countDropped)
    (howner : s'.owner.inFlight = 0) : Balanced (n + 1) m s' := by
  have hsum := h.sum
  have hcauses := h.causes
  constructor
  · rw [hstats, howner]
    simp only [Stats.countDropped]
    omega
  · rw [hstats]
    simp only [Stats.countDropped]
    omega

/-- The unit in flight is pushed or dropped. -/
theorem close (h : Balanced n m s) (hflight : s.owner.inFlight = 1) {m' : Nat}
    (howner : s'.owner = .idle) (hinput : s'.stats.input = s.stats.input)
    (hsum : s'.stats.pushed + s'.stats.dropped = s.stats.pushed + s.stats.dropped + 1)
    (hcauses : s'.stats.dropped + (s.stats.transportDropped + s.stats.poolDropped
        + s.stats.pushFailed + n + m)
      = s.stats.dropped + (s'.stats.transportDropped + s'.stats.poolDropped
        + s'.stats.pushFailed + n + m')) : Balanced n m' s' := by
  have hs := h.sum
  have hc := h.causes
  constructor
  · rw [howner, hinput, hsum]
    simp only [WorkerPc.inFlight]
    omega
  · omega

end Balanced

theorem balanced_work {cfg : Config} {s : DecoderState} (hl : Locked cfg s) {n m : Nat}
    (h : Balanced n m s) (w : Nat) (outcome : Submit)
    (hok : attributed s (.work w outcome) = true) :
    Balanced (dropsAfter .initializing n (work cfg s w outcome).2)
      (dropsAfter .idr m (work cfg s w outcome).2) (work cfg s w outcome).1 := by
  have hin : ∀ {pc}, s.workers w = pc → pc.critical = true →
      s.decoderLock = some (.worker w) ∧ s.owner = pc := fun hpc hc =>
    ⟨(hl.lock (.worker w)).mp (by rw [DecoderState.holds, hpc, hc]), owner_of_critical hl hpc hc⟩
  fun_cases work cfg s w outcome with
  | case1 | case3 | case5 | case17 => exact h
  | case2 hpc hfree => simp [attributed, hpc, hfree] at hok
  | case4 => exact h.keep rfl (owner_inside rfl rfl) (Nat.zero_le _)
  | case6 => exact h.drop rfl rfl
  | case7 au hpc => exact h.input rfl (owner_inside (hin hpc rfl).1 rfl) (Nat.le_refl 1)
  | case9 au hpc | case11 au hpc | case14 au hpc =>
    obtain ⟨hlock, howner⟩ := hin hpc rfl
    refine h.keep rfl (owner_inside hlock rfl) ?_
    rw [howner]
    exact Nat.le_refl 1
  | case10 au hpc =>
    refine h.close (by rw [(hin hpc rfl).2]; rfl) rfl rfl rfl ?_
    simp only [Stats.countDropped, dropsAfter, if_true]
    omega
  | case15 au first hpc =>
    have hflight : s.owner.inFlight = 1 := by rw [(hin hpc rfl).2]; rfl
    cases outcome with
    | invalid => simp [attributed, hpc] at hok
    | pool =>
      refine h.close hflight rfl rfl rfl ?_
      simp only [submitVdecPacket, Stats.countPool, dropsAfter, reduceCtorEq, if_false]
      omega
    | refused =>
      refine h.close hflight rfl rfl rfl ?_
      simp only [submitVdecPacket, Stats.countPushFailed, dropsAfter]
      omega
    | accepted =>
      refine h.close hflight rfl rfl ?_ rfl
      simp only [submitVdecPacket, Stats.countPushed]
      omega
  | case13 au hpc => exact h.keep rfl (owner_inside (hin hpc rfl).1 rfl) (Nat.zero_le _)
  | case16 hpc | case18 hpc | case19 hpc =>
    exact h.keep rfl (owner_inside (hin hpc rfl).1 rfl) (Nat.zero_le _)
  -- the mutex is unlocked, and nothing is counted
  | _ => exact h.keep rfl (rfl : _ = WorkerPc.idle) (Nat.zero_le _)

theorem balanced_step {cfg : Config} {s : DecoderState} (hl : Locked cfg s) (hp : Phased s)
    {n m : Nat} (h : Balanced n m s) (e : Event) (hok : attributed s e = true) :
    Balanced (dropsAfter .initializing n (step cfg s e).2) (dropsAfter .idr m (step cfg s e).2)
      (step cfg s e).1 := by
  cases e with
  | push w au =>
      have howner := owner_push hl w au
      show Balanced (dropsAfter .initializing n (push cfg s w au).2)
        (dropsAfter .idr m (push cfg s w au).2) (push cfg s w au).1
      revert howner
      fun_cases push cfg s w au with
      | case1 => exact fun _ => h
      | case2 _ hflag =>
        intro howner
        -- no unit is past the gates while the flag is up
        have hnot : s.owner.passed = false := by
          by_contra hcon
          rw [hp.passed (by simpa using hcon)] at hflag
          cases hflag
        refine h.drop rfl ?_
        rw [howner]
        exact WorkerPc.inFlight_of_not_passed hnot
      | case3 => exact fun howner => h.keep rfl howner (Nat.le_refl _)
      | case4 => exact fun _ => h
      | case5 => exact fun howner => h.keep rfl howner (Nat.le_refl _)
  | work w outcome => exact balanced_work hl h w outcome hok
  | caps caps =>
      show Balanced n m (applyCaps s caps)
      fun_cases applyCaps s caps <;> exact ⟨h.sum, h.causes⟩
  | connected width height fps =>
      show Balanced n m (startFromFormat s width height fps)
      fun_cases startFromFormat s width height fps <;> exact ⟨h.sum, h.causes⟩
  | init ok =>
      show Balanced (dropsAfter .initializing n (initThread cfg s ok).2)
        (dropsAfter .idr m (initThread cfg s ok).2) (initThread cfg s ok).1
      fun_cases initThread cfg s ok with
      | case10 | case26 => exact h.keep rfl (rfl : _ = WorkerPc.idle) (Nat.zero_le _)
      | _ => exact ⟨h.sum, h.causes⟩
  | stop =>
      show Balanced n m (if s.stopper = .idle then { s with stopper := .join } else s)
      split <;> exact ⟨h.sum, h.causes⟩
  | stopping =>
      show Balanced n m (stopping cfg s)
      fun_cases stopping cfg s with
      | case6 | case13 => exact h.keep rfl (rfl : _ = WorkerPc.idle) (Nat.zero_le _)
      | _ => exact ⟨h.sum, h.causes⟩
  | signal =>
      show Balanced n m (signal s)
      fun_cases signal s <;> exact ⟨h.sum, h.causes⟩
  | drain frame =>
      show Balanced n m (drain cfg s frame)
      fun_cases drain cfg s frame with
      | case2 | case4 =>
        cases hsdi : cfg.sdi with
        | true => exact ⟨h.sum, h.causes⟩
        | false => exact h.keep rfl (rfl : _ = WorkerPc.idle) (Nat.zero_le _)
      | _ => exact ⟨h.sum, h.causes⟩
  | display enabled => exact ⟨h.sum, h.causes⟩
  | stopDisplay => exact ⟨h.sum, h.causes⟩

/-! ## The steps that are left out -/

/-- An admitted step drops no unit at a look at the flag. -/
theorem admitted_step {cfg : Config} {s : DecoderState} {e : Event} (h : admitted s e = true) :
    (step cfg s e).2 ≠ some (.dropped .initializing) := by
  intro hout
  cases e with
  | push w au =>
      revert hout
      show (push cfg s w au).2 = _ → False
      fun_cases push cfg s w au with
      | case2 htaken hflag =>
        simp only [ne_eq, not_or, not_not, Nat.not_lt] at htaken
        simp [admitted, htaken, hflag, Nat.not_lt.mpr htaken.2] at h
      | _ => exact fun hout => by cases hout
  | work w outcome =>
      revert hout
      show (work cfg s w outcome).2 = _ → False
      fun_cases work cfg s w outcome with
      | case6 au hpc hflag => simp [admitted, hpc, hflag] at h
      | case15 => cases outcome <;> exact fun hout => by cases hout
      | _ => exact fun hout => by cases hout
  | init ok =>
      revert hout
      show (initThread cfg s ok).2 = _ → False
      fun_cases initThread cfg s ok <;> exact fun hout => by cases hout
  | _ => cases hout

/-- A step that attributes its unit to no cause drops a flagged one, or one for a buffer that is
too small. -/
theorem unattributed_step (cfg : Config) {s : DecoderState} {e : Event}
    (h : attributed s e = false) :
    ∃ cause, cause ≠ .initializing ∧ cause ≠ .idr ∧ (step cfg s e).2 = some (.dropped cause) ∧
      ((step cfg s e).1.stats = s.stats.countDropped ∨
        (step cfg s e).1.stats = s.stats.countInvalid) := by
  cases e with
  | work w outcome =>
      revert h
      simp only [attributed]
      split
      · next hpc =>
        intro hfree
        simp only [ne_eq, decide_eq_false_iff_not, not_not] at hfree
        exact ⟨.transport, nofun, nofun, by simp [step, work, hpc, hfree],
          .inl (by simp [step, work, hpc, hfree])⟩
      · next au first hpc =>
        intro h
        have hinvalid : outcome = .invalid := by simpa using h
        subst hinvalid
        exact ⟨.invalid, nofun, nofun, by simp [step, work, hpc, submitVdecPacket],
          .inr (by simp [step, work, hpc, submitVdecPacket])⟩
      · exact fun h => by cases h
  | _ => cases h

theorem drops_snoc (cause : Cause) (cfg : Config) (displayEnabled : Bool) (es : List Event)
    (e : Event) :
    drops cause (outputs cfg displayEnabled (es ++ [e]))
      = dropsAfter cause (drops cause (outputs cfg displayEnabled es))
          (step cfg (reached cfg displayEnabled es) e).2 := by
  unfold outputs drops
  rw [Machine.outputs_snoc, List.foldl_append]
  rfl

theorem statsOf_snoc (cfg : Config) (displayEnabled : Bool) (es : List Event) (e : Event) :
    statsOf cfg displayEnabled (es ++ [e])
      = (step cfg (reached cfg displayEnabled es) e).1.stats := by
  unfold statsOf reached
  rw [Machine.run_snoc]
  rfl

/-- After a step that attributes its unit to no cause, the causes do not add up. -/
theorem attributed_of_accounts {cfg : Config} {displayEnabled : Bool} {es : List Event} {e : Event}
    (h : Accounts cfg displayEnabled es) (h' : Accounts cfg displayEnabled (es ++ [e])) :
    attributed (reached cfg displayEnabled es) e = true := by
  by_contra hcon
  have hcauses := h'.causes
  have hbefore := h.causes
  rw [drops_snoc, drops_snoc, statsOf_snoc] at hcauses
  unfold statsOf at hbefore
  obtain ⟨cause, hinit, hidr, hout, hstats | hstats⟩ := unattributed_step cfg (by simpa using hcon)
  · rw [hstats, hout] at hcauses
    simp only [Stats.countDropped, dropsAfter, hinit, hidr, if_false] at hcauses
    omega
  · rw [hstats, hout] at hcauses
    simp only [Stats.countInvalid, dropsAfter, hinit, hidr, if_false] at hcauses
    omega

/-! ## The theorem -/

theorem balanced_reached (cfg : Config) (displayEnabled : Bool) :
    ∀ es, Machine.Admissible
        (fun before e => attributed (reached cfg displayEnabled before) e = true) es →
      Balanced (drops .initializing (outputs cfg displayEnabled es))
        (drops .idr (outputs cfg displayEnabled es)) (reached cfg displayEnabled es) := by
  refine (machine cfg).history_inv (.initial displayEnabled) _
    (fun es s => Balanced (drops .initializing (outputs cfg displayEnabled es))
      (drops .idr (outputs cfg displayEnabled es)) s) (balanced_initial displayEnabled) ?_
  intro es e h hok
  obtain ⟨hl, hp⟩ := phased_reached cfg displayEnabled es
  rw [drops_snoc, drops_snoc]
  exact balanced_step hl hp h e hok

theorem drops_initializing (cfg : Config) (displayEnabled : Bool) :
    ∀ es, Machine.Admissible
        (fun before e => admitted (reached cfg displayEnabled before) e = true) es →
      drops .initializing (outputs cfg displayEnabled es) = 0 := by
  refine (machine cfg).history_inv (.initial displayEnabled) _
    (fun es _ => drops .initializing (outputs cfg displayEnabled es) = 0) rfl ?_
  intro es e h hok
  rw [drops_snoc, h]
  have hne := @admitted_step cfg _ _ hok
  unfold dropsAfter
  split
  · next cause hout =>
    exact if_neg fun hcause => hne (by rw [hout, hcause])
  · rfl

theorem accounts_of_balanced {cfg : Config} {displayEnabled : Bool} {es : List Event}
    (hnone : drops .initializing (outputs cfg displayEnabled es) = 0)
    (h : Balanced (drops .initializing (outputs cfg displayEnabled es))
      (drops .idr (outputs cfg displayEnabled es)) (reached cfg displayEnabled es)) :
    Accounts cfg displayEnabled es := by
  have hsum : (statsOf cfg displayEnabled es).pushed + (statsOf cfg displayEnabled es).dropped
      ≤ (statsOf cfg displayEnabled es).input := by
    have h := h.sum
    rw [hnone] at h
    exact (Nat.le_add_right _ _).trans h
  exact ⟨hsum, Stats.rate_of_sum hsum, h.causes⟩

/-- **The statistics.** They account for every access unit throughout a run that drops no unit at
a look at `decoder_initializing`, none that is flagged DROP and none for a buffer that is too
small; and only in runs without the last two. -/
theorem accounts_of_admitted (cfg : Config) (displayEnabled : Bool) (es : List Event) :
    (Machine.Admissible
          (fun before e => admitted (reached cfg displayEnabled before) e = true ∧
            attributed (reached cfg displayEnabled before) e = true) es →
        ∀ before, before <+: es → Accounts cfg displayEnabled before) ∧
      ((∀ before, before <+: es → Accounts cfg displayEnabled before) →
        Machine.Admissible
          (fun before e => attributed (reached cfg displayEnabled before) e = true) es) := by
  constructor
  · rintro h before ⟨after, rfl⟩
    exact accounts_of_balanced
      (drops_initializing cfg displayEnabled before
        fun p e q hes => (h.left p e q hes).1)
      (balanced_reached cfg displayEnabled before fun p e q hes => (h.left p e q hes).2)
  · rintro h before e after rfl
    exact attributed_of_accounts (h before ⟨_, rfl⟩)
      (h (before ++ [e]) ⟨after, by rw [List.append_assoc]; rfl⟩)

/-- The decoder is started, and a keyframe is pushed. -/
def pushedRun : List Event := startRun ++ feed idrUnit 5 .accepted

theorem accounts_of_admitted_pushed :
    (statsOf hdmi false pushedRun).pushed = 1 ∧ Accounts hdmi false pushedRun :=
  ⟨by decide +kernel,
    (accounts_of_admitted hdmi false pushedRun).1
      (Machine.admissible_iff_getElem.mpr (by decide +kernel)) pushedRun (List.prefix_refl _)⟩

/-- Two units come while the decoder initializes. -/
def droppedRun : List Event := scheduleRun ++ [.push 0 sliceUnit, .push 0 sliceUnit]

/-- One input, and two units dropped. -/
theorem not_accounts : ¬ Accounts hdmi false droppedRun := fun h =>
  absurd h.sum (by decide +kernel)

end QcapDemos.Decoder
