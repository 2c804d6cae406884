import Mathlib.Data.List.Chain
import Mathlib.Data.Nat.Bitwise
import QcapDemos.Resync.Policy

set_option autoImplicit false

/-! # Every granted reset is backed by continuous evidence

The policy keeps five numbers; this file says what they stand for. Along a run with a monotonic
clock the sampled calls end in a stretch of `samples` suspect ones, the first of them at
`suspectMs`, none of them before `cooldownUntilMs`, and each at most 1500 ms after the one
before it. A grant is then backed by that stretch.

Nothing here bounds the number of grants: the counter of attempts may wrap. The counter of
samples does not, because a full ring of recent attempts lets at most a window of samples pass
before the next grant.
-/

namespace QcapDemos.Resync

open QcapDemos.Lib

/-! ## Suspect status words -/

/-- What the status word of the fault looks like. -/
def SuspectStatus (status : UInt32) : Prop :=
  status.toNat ≠ 2 ^ 32 - 1 ∧ status.toNat.testBit 11 = true ∧ status.toNat / 2 ^ 16 = 12

theorem bit_eleven (status : UInt32) :
    (status &&& ((1 : UInt32) <<< 11)) ≠ 0 ↔ status.toNat.testBit 11 = true := by
  have hand : (status &&& ((1 : UInt32) <<< 11)).toNat
      = (status.toNat.testBit 11).toNat * 2 ^ 11 := by
    rw [UInt32.toNat_and]
    exact Nat.and_two_pow status.toNat 11
  rw [Ne, ← UInt32.toNat_inj, hand]
  cases status.toNat.testBit 11 <;> simp

theorem hasSuspectAlignmentHistory_iff (status : UInt32) :
    hasSuspectAlignmentHistory status = true ↔ SuspectStatus status := by
  have hhigh : (status >>> 16) = 12 ↔ status.toNat / 2 ^ 16 = 12 := by
    rw [← UInt32.toNat_inj, UInt32.toNat_shiftRight]
    exact Iff.of_eq (congrArg (· = 12) (Nat.shiftRight_eq_div_pow _ _))
  have hinvalid : status ≠ invalidStatus ↔ status.toNat ≠ 2 ^ 32 - 1 := by
    rw [Ne, ← UInt32.toNat_inj]; exact Iff.rfl
  rw [hasSuspectAlignmentHistory, SuspectStatus, Bool.and_eq_true, Bool.and_eq_true, bne_iff_ne,
    bne_iff_ne, beq_iff_eq, hinvalid, bit_eleven, hhigh, and_assoc]

theorem suspect_iff (status : UInt32) (eligible : Bool) :
    suspect status eligible = true ↔ eligible = true ∧ SuspectStatus status := by
  rw [suspect, Bool.and_eq_true, hasSuspectAlignmentHistory_iff]

/-! ## The sampled calls of a run -/

/-- One sampled call. -/
structure Sample where
  now : Nat
  status : UInt32
  eligible : Bool
deriving DecidableEq

/-- The sample taken by an event, if the gate is open. -/
def sample? {H : Type} (p : Policy H) : Event → Option Sample
  | .observe now status eligible =>
      if now < p.nextSampleMs then none else some ⟨now, status, eligible⟩
  | .setFailed _ => none

/-- The sampled calls of a run, in order. -/
def sampled {H : Type} (L : Limiter H) (p : Policy H) : List Event → List Sample
  | [] => []
  | e :: es => (sample? p e).toList ++ sampled L ((policy L).step p e).1 es

theorem sampled_snoc {H : Type} (L : Limiter H) (p : Policy H) (es : List Event) (e : Event) :
    sampled L p (es ++ [e])
      = sampled L p es ++ (sample? ((policy L).run p es) e).toList := by
  induction es generalizing p with
  | nil => exact List.append_nil _
  | cons a es ih =>
      show (sample? p a).toList ++ sampled L _ (es ++ [e]) = _
      rw [ih, ← List.append_assoc]
      rfl

/-- `ev` is continuous evidence for a reset at `t` after the grants at `gs`. -/
structure ContinuousEvidence (ev : List Sample) (t : Nat) (gs : List Nat) : Prop where
  five : 5 ≤ ev.length
  ends : ev.getLast?.map Sample.now = some t
  suspects : ∀ s ∈ ev, s.eligible = true ∧ SuspectStatus s.status
  spaced : ev.IsChain fun a b => a.now + 500 ≤ b.now ∧ b.now ≤ a.now + 1500
  long : ∀ s ∈ ev.head?, s.now + 2000 ≤ t
  cooled : ∀ s ∈ ev, ∀ g ∈ gs, g < s.now ∧ g + 5000 ≤ s.now

/-! ## What the fields stand for -/

/-- Consecutive samples of the evidence. -/
def Spaced (a b : Sample) : Prop := a.now + 500 ≤ b.now ∧ b.now ≤ a.now + 1500

/-- The stretch `ev` of suspect samples, none of them before `cool`. -/
structure Stretch (cool : Nat) (ev : List Sample) : Prop where
  suspects : ∀ s ∈ ev, suspect s.status s.eligible = true
  spaced : ev.IsChain Spaced
  cooled : ∀ s ∈ ev, cool ≤ s.now

theorem stretch_nil (cool : Nat) : Stretch cool [] :=
  ⟨by simp, .nil, by simp⟩

theorem stretch_singleton {cool : Nat} {s : Sample}
    (hs : suspect s.status s.eligible = true) (hcool : cool ≤ s.now) : Stretch cool [s] := by
  refine ⟨?_, .singleton _, ?_⟩
  · intro a ha; rw [List.mem_singleton.mp ha]; exact hs
  · intro a ha; rw [List.mem_singleton.mp ha]; exact hcool

theorem Stretch.snoc {cool : Nat} {ev : List Sample} {s : Sample} (h : Stretch cool ev)
    (hs : suspect s.status s.eligible = true) (hcool : cool ≤ s.now)
    (hgap : ∀ a ∈ ev.getLast?, Spaced a s) : Stretch cool (ev ++ [s]) where
  suspects := by
    intro a ha
    rcases List.mem_append.mp ha with ha | ha
    · exact h.suspects a ha
    · rw [List.mem_singleton.mp ha]; exact hs
  spaced := by
    refine h.spaced.append (.singleton s) fun a ha b hb => ?_
    rw [List.head?_singleton, Option.mem_some_iff] at hb
    rw [← hb]
    exact hgap a ha
  cooled := by
    intro a ha
    rcases List.mem_append.mp ha with ha | ha
    · exact h.cooled a ha
    · rw [List.mem_singleton.mp ha]; exact hcool

/-- The samples of a stretch take at least half a second each. -/
theorem span_le {ev : List Sample} (h : ev.IsChain Spaced) :
    ∀ a ∈ ev.head?, ∀ b ∈ ev.getLast?, a.now + (ev.length - 1) * 500 ≤ b.now := by
  induction ev with
  | nil => simp
  | cons s ev ih =>
      intro a ha b hb
      rw [List.head?_cons, Option.mem_some_iff] at ha
      subst ha
      cases ev with
      | nil =>
          rw [List.getLast?_singleton, Option.mem_some_iff] at hb
          rw [List.length_singleton, hb]
          omega
      | cons t ev =>
          rw [List.isChain_cons_cons] at h
          rw [List.getLast?_cons_cons] at hb
          have hrest := ih h.2 t (by simp) b hb
          have hfirst := h.1.1
          simp only [List.length_cons, Nat.add_sub_cancel] at hrest ⊢
          omega

/-- **The invariant.** `old` and `ev` split the sampled calls of the run; `ev` is what the
policy still counts as evidence. -/
structure Backed (es : List Event) (p : Policy Attempts) (old ev : List Sample) : Prop where
  split : sampled ring (initial noAttempts) es = old ++ ev
  stretch : Stretch p.cooldownUntilMs ev
  length : ev.length = p.samples
  few : p.samples ≤ 120
  start : ∀ s ∈ ev.head?, s.now = p.suspectMs
  gate : ∀ s ∈ (old ++ ev).getLast?, p.nextSampleMs = s.now + 500
  past : ∀ s ∈ old ++ ev, s.now ∈ times es
  slots : ∀ i, p.attempts.attemptsMs i ≤ p.cooldownUntilMs
  grants : ∀ g ∈ grantTimes es ((policy ring).outputs (initial noAttempts) es),
    g + 5000 ≤ p.cooldownUntilMs

theorem backed_initial : Backed [] (initial noAttempts) [] [] where
  split := rfl
  stretch := stretch_nil _
  length := rfl
  few := by simp [initial]
  start := by simp
  gate := by simp
  past := by simp
  slots := fun _ => le_refl _
  grants := by simp [grantTimes]

/-! ## One more sample -/

section Sample

variable {es : List Event} {p : Policy Attempts} {old ev : List Sample} {now : Nat}

theorem Backed.le_now (h : Backed es p old ev) (hclock : ∀ t ∈ times es, t ≤ now) :
    ∀ s ∈ old ++ ev, s.now ≤ now := fun s hs => hclock _ (h.past s hs)

/-- After the last sample, `late` is a gap of more than 1500 ms. -/
theorem Backed.late_iff (h : Backed es p old ev) (hclock : ∀ t ∈ times es, t ≤ now)
    (hnow : now < 2 ^ 63) : ∀ s ∈ (old ++ ev).getLast?, late p now = true ↔ s.now + 1500 < now := by
  intro s hs
  have hle := h.le_now hclock s (List.mem_of_getLast? hs)
  have hgate := h.gate s hs
  have hadd : addU64 p.nextSampleMs (2 * kSampleMs) = s.now + 1500 := by
    rw [hgate, addU64_eq (by simp only [kSampleMs]; omega)]
    simp only [kSampleMs]
  rw [late, hadd, Bool.and_eq_true, bne_iff_ne, decide_eq_true_eq, hgate]
  omega

/-- **One more suspect sample** extends the evidence, or begins it anew after a late loop. -/
theorem Backed.extend (h : Backed es p old ev) (hclock : ∀ t ∈ times es, t ≤ now)
    (hnow : now < 2 ^ 63) {status : UInt32} {eligible : Bool} (hgate : p.nextSampleMs ≤ now)
    (hsuspect : suspect status eligible = true) (hcool : p.cooldownUntilMs ≤ now) :
    ∃ old' ev', (old ++ ev) ++ [⟨now, status, eligible⟩] = old' ++ ev' ∧
      Stretch p.cooldownUntilMs ev' ∧ ev'.length = carried p now + 1 ∧
      (∀ s ∈ ev'.head?, s.now = evidenceStart (carried p now) p.suspectMs now) ∧
      ev'.getLast? = some ⟨now, status, eligible⟩ := by
  by_cases hzero : carried p now = 0
  · refine ⟨old ++ ev, [⟨now, status, eligible⟩], rfl, stretch_singleton hsuspect hcool,
      by simp [hzero], ?_, rfl⟩
    intro s hs
    rw [List.head?_singleton, Option.mem_some_iff] at hs
    rw [hzero, ← hs]; rfl
  · -- Some evidence is carried over, so the loop was not late.
    have hlate : late p now = false := by
      by_contra hcon
      rw [Bool.not_eq_false] at hcon
      exact hzero (by rw [carried, if_pos hcon])
    have hcarried : carried p now = p.samples := by
      rw [carried, if_neg (by rw [hlate]; decide)]
    have hne : ev ≠ [] := by
      rintro rfl
      exact hzero (by rw [hcarried, ← h.length]; rfl)
    refine ⟨old, ev ++ [⟨now, status, eligible⟩], by rw [List.append_assoc], ?_, ?_, ?_, ?_⟩
    · refine h.stretch.snoc hsuspect hcool fun a ha => ?_
      have hlast : a ∈ (old ++ ev).getLast? := by
        rw [List.getLast?_append_of_ne_nil _ hne]; exact ha
      have hopen := h.gate a hlast
      have hgap := (h.late_iff hclock hnow a hlast).not.mp (by rw [hlate]; decide)
      show a.now + 500 ≤ now ∧ now ≤ a.now + 1500
      omega
    · rw [List.length_append, h.length, hcarried]; rfl
    · intro s hs
      rw [List.head?_append_of_ne_nil _ hne] at hs
      rw [h.start s hs, evidenceStart, if_neg hzero]
    · exact List.getLast?_concat

/-- The sample counter does not wrap. -/
theorem Backed.addU32_carried (h : Backed es p old ev) (now : Nat) :
    addU32 (carried p now) 1 = carried p now + 1 := by
  have hfew := h.few
  refine addU32_eq ?_
  rw [carried]
  split <;> omega

/-- With the limit reached, all three slots hold recent attempts, so the evidence since the last
of them is younger than the window. -/
theorem Backed.young_of_limit (h : Backed es p old ev) (hnow : now < 2 ^ 63)
    (hcool : p.cooldownUntilMs ≤ now) (hlimit : kMaxAttempts ≤ ring.recent p.attempts now)
    {start : Nat} (hstart : p.cooldownUntilMs ≤ start) : now - start < kAttemptWindowMs := by
  have hcount : kMaxAttempts ≤ (List.range (min p.attempts.attempts kMaxAttempts)).countP
      fun i => subU64 now (p.attempts.attemptsMs (Fin.ofNat kMaxAttempts i)) < kAttemptWindowMs :=
    hlimit
  have hlen := hcount.trans List.countP_le_length
  rw [List.length_range] at hlen
  have hfirst : 0 < min p.attempts.attempts kMaxAttempts := lt_of_lt_of_le (by decide) hlen
  have hall := List.countP_eq_length.mp (Nat.le_antisymm List.countP_le_length
    (by rw [List.length_range]; exact (Nat.min_le_right _ _).trans hcount)) 0
    (List.mem_range.mpr hfirst)
  have hslot := h.slots (Fin.ofNat kMaxAttempts 0)
  rw [decide_eq_true_eq, subU64_eq (by omega) (by omega)] at hall
  omega

/-- The start of extended evidence, and how many samples fit after it. -/
theorem Stretch.fits {cool start : Nat} {last : Sample} (h : Stretch cool ev) (hne : ev ≠ [])
    (hstart : ∀ s ∈ ev.head?, s.now = start) (hlast : ev.getLast? = some last) :
    cool ≤ start ∧ start + (ev.length - 1) * 500 ≤ last.now := by
  obtain ⟨s, hs⟩ := Option.isSome_iff_exists.mp (List.isSome_head?.mpr hne)
  have hspan := span_le h.spaced s hs last hlast
  rw [hstart s hs] at hspan
  exact ⟨hstart s hs ▸ h.cooled s (List.mem_of_head? hs), hspan⟩

/-- The state after an event that took no sample. -/
theorem Backed.skip (h : Backed es p old ev) {e : Event} {q : Policy Attempts}
    (hsample : sample? ((policy ring).run (initial noAttempts) es) e = none)
    (hout : ((policy ring).step ((policy ring).run (initial noAttempts) es) e).2 = false)
    (hq : q = { p with failed := q.failed }) : Backed (es ++ [e]) q old ev := by
  rw [hq]
  exact {
    split := by rw [sampled_snoc, hsample, h.split]; exact List.append_nil _
    stretch := h.stretch
    length := h.length
    few := h.few
    start := h.start
    gate := h.gate
    past := fun s hs => mem_times_snoc (h.past s hs)
    slots := h.slots
    grants := by rw [grantTimes_snoc, hout]; simpa using h.grants }

/-- The state after a sample, from the new split of the sampled calls. -/
theorem Backed.sample (h : Backed es p old ev) (hp : p = (policy ring).run (initial noAttempts) es)
    (hnow : now < 2 ^ 63) {status : UInt32} {eligible granted : Bool} {q : Policy Attempts}
    {old' ev' : List Sample} (hgate : p.nextSampleMs ≤ now)
    (hobs : observe ring p now status eligible = (q, granted))
    (hsplit : (old ++ ev) ++ [⟨now, status, eligible⟩] = old' ++ ev')
    (hstretch : Stretch q.cooldownUntilMs ev') (hlength : ev'.length = q.samples)
    (hfew : q.samples ≤ 120) (hstart : ∀ s ∈ ev'.head?, s.now = q.suspectMs)
    (hnext : q.nextSampleMs = addU64 now kSampleMs)
    (hslots : ∀ i, q.attempts.attemptsMs i ≤ q.cooldownUntilMs)
    (hcool : p.cooldownUntilMs ≤ q.cooldownUntilMs)
    (hgrant : granted = true → now + 5000 ≤ q.cooldownUntilMs) :
    Backed (es ++ [.observe now status eligible]) q old' ev' where
  split := by
    have hsample : sample? p (.observe now status eligible) = some ⟨now, status, eligible⟩ :=
      if_neg (by omega)
    rw [sampled_snoc, ← hp, hsample, h.split]
    exact hsplit
  stretch := hstretch
  length := hlength
  few := hfew
  start := hstart
  gate := by
    intro s hs
    rw [← hsplit, List.getLast?_concat, Option.mem_some_iff] at hs
    rw [hnext, ← hs, addU64_eq (by simp only [kSampleMs]; omega)]
    rfl
  past := by
    intro s hs
    rw [← hsplit] at hs
    rcases List.mem_append.mp hs with hs | hs
    · exact mem_times_snoc (h.past s hs)
    · rw [List.mem_singleton.mp hs]; exact now_mem_times es now status eligible
  slots := hslots
  grants := by
    have hout : ((policy ring).step p (.observe now status eligible)).2 = granted :=
      congrArg Prod.snd hobs
    intro g hg
    rw [grantTimes_snoc, ← hp, hout] at hg
    rcases List.mem_append.mp hg with hg | hg
    · exact (h.grants g hg).trans hcool
    · cases granted with
      | false => simp at hg
      | true =>
          have hgnow : g = now := by simpa [Event.time?] using hg
          rw [hgnow]
          exact hgrant rfl

end Sample

/-! ## Runs -/

theorem backed_step (es : List Event) (e : Event) {p : Policy Attempts}
    (hp : p = (policy ring).run (initial noAttempts) es)
    (hI : ∃ old ev, Backed es p old ev) (hok : Clocked es e) :
    ∃ old ev, Backed (es ++ [e]) ((policy ring).step p e).1 old ev := by
  obtain ⟨old, ev, h⟩ := hI
  cases e with
  | setFailed failed => exact ⟨old, ev, h.skip rfl rfl rfl⟩
  | observe now status eligible =>
      obtain ⟨hnow, hclock⟩ := hok now rfl
      show ∃ old ev, Backed _ (observe ring p now status eligible).1 old ev
      have hobs := observe_cases ring p now status eligible
      generalize hr : observe ring p now status eligible = r at hobs ⊢
      cases hobs with
      | skipped hgate =>
          refine ⟨old, ev, h.skip (if_pos (hp ▸ hgate)) ?_ rfl⟩
          rw [← hp]
          exact congrArg Prod.snd hr
      | restarted hgate =>
          exact ⟨_, [], h.sample hp hnow hgate hr (List.append_nil _).symm (stretch_nil _) rfl
            (Nat.zero_le _) (by simp) rfl h.slots (le_refl _) (by simp)⟩
      | counted hgate _ hsuspect hcool hwait =>
          -- the call counts: the evidence is longer by one sample
          obtain ⟨old', ev', hsplit, hstretch, hlen, hstart, hlast⟩ :=
            h.extend hclock hnow hgate hsuspect hcool
          have hne : ev' ≠ [] := by
            rintro rfl
            simp at hlast
          obtain ⟨hcs, hfits⟩ := hstretch.fits hne hstart hlast
          have hle : evidenceStart (carried p now) p.suspectMs now ≤ now := by
            have : (Sample.mk now status eligible).now = now := rfl
            omega
          have hadd := h.addU32_carried now
          rw [hadd, subU64_eq hle (by omega)] at hwait
          -- the evidence is younger than a minute, and its samples are half a second apart
          have hfew : carried p now + 1 ≤ 120 := by
            have hspan : evidenceStart (carried p now) p.suspectMs now + carried p now * 500
                ≤ now := by
              rw [hlen, Nat.add_sub_cancel] at hfits; exact hfits
            have hyoung : carried p now + 1 < 5 ∨
                now - evidenceStart (carried p now) p.suspectMs now < 60000 := by
              rcases hwait with hfour | hdeb | hlimit
              · exact Or.inl hfour
              · exact Or.inr (hdeb.trans (by decide))
              · exact Or.inr (h.young_of_limit hnow hcool hlimit hcs)
            omega
          exact ⟨old', ev', h.sample hp hnow hgate hr hsplit hstretch (hlen.trans hadd.symm)
            (by show addU32 _ _ ≤ 120; rw [hadd]; exact hfew) hstart rfl h.slots (le_refl _)
            (by simp)⟩
      | granted hgate _ _ hcool =>
          -- the evidence is used up, and the cooldown begins
          have hcu : addU64 now kCooldownMs = now + 5000 :=
            addU64_eq (by simp only [kCooldownMs]; omega)
          refine ⟨_, [], h.sample hp hnow hgate hr (List.append_nil _).symm (stretch_nil _) rfl
            (Nat.zero_le _) (by simp) rfl ?_ ?_ fun _ => le_of_eq hcu.symm⟩
          · intro i
            show (ring.record p.attempts now).attemptsMs i ≤ addU64 now kCooldownMs
            rw [hcu, ring_record_apply]
            split
            · omega
            · have := h.slots i; omega
          · show p.cooldownUntilMs ≤ addU64 now kCooldownMs
            omega

theorem backed_run (es : List Event) (h : Monotonic es) :
    ∃ old ev, Backed es ((policy ring).run (initial noAttempts) es) old ev :=
  Machine.history_inv _ _ Clocked (fun es p => ∃ old ev, Backed es p old ev)
    ⟨[], [], backed_initial⟩ (fun es e hI hok => backed_step es e rfl hI hok) es h.admissible

/-- **Granted resets are backed by continuous evidence.** For every run on a monotonic clock
that ends in a call of `observe`: when the call is granted, `failed` is off and the sampled
calls end in continuous evidence. When the call is sampled and not suspect, no evidence
remains; when it comes more than 1500 ms after the last sampled call, it is treated as if
there had been none. -/
theorem observe_backed (es : List Event) (now : Nat) (status : UInt32) (eligible : Bool)
    (hclock : Monotonic (es ++ [.observe now status eligible])) (p : Policy Attempts)
    (hp : p = (policy ring).run (initial noAttempts) es) :
    ((observe ring p now status eligible).2 = true →
      p.failed = false ∧ ∃ old ev,
        sampled ring (initial noAttempts) (es ++ [.observe now status eligible]) = old ++ ev ∧
        ContinuousEvidence ev now
          (grantTimes es ((policy ring).outputs (initial noAttempts) es))) ∧
    (p.nextSampleMs ≤ now → ¬ (eligible = true ∧ SuspectStatus status) →
      (observe ring p now status eligible).1.samples = 0) ∧
    (∀ s ∈ (sampled ring (initial noAttempts) es).getLast?, s.now + 1500 < now →
      observe ring p now status eligible
        = observe ring { p with samples := 0 } now status eligible) := by
  obtain ⟨hnow, hpast⟩ := hclock.admissible.last now rfl
  obtain ⟨old, ev, h⟩ := backed_run es hclock.prefix
  rw [← hp] at h
  refine ⟨?_, ?_, ?_⟩
  · -- only one outcome answers with a grant
    have hobs := observe_cases ring p now status eligible
    generalize observe ring p now status eligible = r at hobs
    intro hgranted
    cases hobs with
    | skipped => simp at hgranted
    | restarted => simp at hgranted
    | counted => simp at hgranted
    | granted hgate hfailed hsuspect hcool hfive hlong =>
        obtain ⟨old', ev', hsplit, hstretch, hlen, hstart, hlast⟩ :=
          h.extend hpast hnow hgate hsuspect hcool
        have hne : ev' ≠ [] := by
          rintro rfl
          simp at hlast
        have hfits := (hstretch.fits hne hstart hlast).2
        have hlen5 : 5 ≤ ev'.length := by rw [hlen, ← h.addU32_carried now]; exact hfive
        have hle : evidenceStart (carried p now) p.suspectMs now ≤ now :=
          (Nat.le_add_right _ _).trans hfits
        rw [subU64_eq hle (by omega)] at hlong
        refine ⟨hfailed, old', ev', ?_, hlen5, by rw [hlast]; rfl, ?_, hstretch.spaced, ?_, ?_⟩
        · have hsample : sample? p (.observe now status eligible) = some ⟨now, status, eligible⟩ :=
            if_neg (by omega)
          rw [sampled_snoc, ← hp, hsample, h.split]
          exact hsplit
        · exact fun s hs => (suspect_iff _ _).mp (hstretch.suspects s hs)
        · intro s hs
          rw [hstart s hs]
          have : kDebounceMs = 2000 := rfl
          omega
        · intro s hs g hg
          have := (h.grants g hg).trans (hstretch.cooled s hs)
          omega
  · intro hgate hbad
    rw [← suspect_iff, Bool.not_eq_true] at hbad
    have hobs := observe_cases ring p now status eligible
    generalize observe ring p now status eligible = r at hobs
    cases hobs with
    | skipped hlt => omega
    | restarted => rfl
    | counted _ _ hsuspect => simp [hbad] at hsuspect
    | granted _ _ hsuspect => simp [hbad] at hsuspect
  · intro s hs hgap
    rw [h.split] at hs
    -- a late call forgets the samples before it looks at them
    have hlate := (h.late_iff hpast hnow s hs).mpr hgap
    have hopen : ¬ now < p.nextSampleMs := by
      have := h.gate s hs
      omega
    have hbegin : beginSample { p with samples := 0 } now = beginSample p now := by
      have hlate' : late { p with samples := 0 } now = true := hlate
      rw [beginSample, beginSample, carried, carried, if_pos hlate, if_pos hlate']
    simp only [observe, hbegin, if_neg hopen]

/-- Four suspect samples half a second apart. -/
def fourSuspects : List Event :=
  [0, 500, 1000, 1500].map fun now => .observe now 0x000c09a7 true

/-- The fifth is granted, with the five as evidence. -/
theorem observe_backed_fourSuspects : ∃ old ev,
    sampled ring (initial noAttempts) (fourSuspects ++ [.observe 2000 0x000c09a7 true])
      = old ++ ev ∧
    ContinuousEvidence ev 2000
      (grantTimes fourSuspects ((policy ring).outputs (initial noAttempts) fourSuspects)) :=
  ((observe_backed fourSuspects 2000 0x000c09a7 true (by unfold Monotonic; decide +kernel) _
    rfl).1 (by decide +kernel)).2

end QcapDemos.Resync
