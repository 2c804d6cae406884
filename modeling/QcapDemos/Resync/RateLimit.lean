import QcapDemos.Resync.Policy

set_option autoImplicit false

/-! # The ring of three attempts limits the rate as the full history does

The policy sees its memory only through one comparison with `kMaxAttempts`
(`observe_withMemory`). Along a run with a monotonic clock the ring and the full history agree
on it: the slots are the latest three attempts, and an older attempt is younger than the window
only when these three are too.
-/

namespace QcapDemos.Resync

open QcapDemos.Lib

/-! ## The policy without its memory -/

section Memory

variable {H K : Type}

/-- The policy `p` with the memory `h`. -/
def Policy.withMemory (p : Policy Unit) (h : H) : Policy H := { p with attempts := h }

/-- **The memory is seen only through the limit.** Two policies that differ in their memory and
agree on whether the limit is reached answer alike, and either both record or neither does. -/
theorem observe_withMemory (L : Limiter H) (M : Limiter K) (p : Policy Unit) (h : H) (k : K)
    (now : Nat) (status : UInt32) (eligible : Bool)
    (hlimit : kMaxAttempts ≤ L.recent h now ↔ kMaxAttempts ≤ M.recent k now) :
    ∃ (q : Policy Unit) (granted : Bool),
      observe L (p.withMemory h) now status eligible
        = (q.withMemory (if granted then L.record h now else h), granted) ∧
      observe M (p.withMemory k) now status eligible
        = (q.withMemory (if granted then M.record k now else k), granted) := by
  by_cases hgate : now < p.nextSampleMs
  · exact ⟨p, false, if_pos hgate, if_pos hgate⟩
  by_cases hrestart : restarts (beginSample p now) now status eligible = true
  · exact ⟨{ beginSample p now with samples := 0 }, false,
      (if_neg hgate).trans (if_pos hrestart), (if_neg hgate).trans (if_pos hrestart)⟩
  by_cases hdeb : (!debounced (countSample (beginSample p now) now) now) = true
  · exact ⟨countSample (beginSample p now) now, false,
      ((if_neg hgate).trans (if_neg hrestart)).trans (if_pos hdeb),
      ((if_neg hgate).trans (if_neg hrestart)).trans (if_pos hdeb)⟩
  by_cases hrecent : kMaxAttempts ≤ L.recent h now
  · exact ⟨countSample (beginSample p now) now, false,
      (((if_neg hgate).trans (if_neg hrestart)).trans (if_neg hdeb)).trans (if_pos hrecent),
      (((if_neg hgate).trans (if_neg hrestart)).trans (if_neg hdeb)).trans
        (if_pos (hlimit.mp hrecent))⟩
  · exact ⟨{ countSample (beginSample p now) now with
        cooldownUntilMs := addU64 now kCooldownMs, samples := 0 }, true,
      (((if_neg hgate).trans (if_neg hrestart)).trans (if_neg hdeb)).trans (if_neg hrecent),
      (((if_neg hgate).trans (if_neg hrestart)).trans (if_neg hdeb)).trans
        (if_neg fun hcon => hrecent (hlimit.mpr hcon))⟩

end Memory

/-! ## The ring against the history -/

/-- The ring `a` holds the latest attempts of the history `l`, all of them past clock readings
of the run `es`. -/
structure Agrees (es : List Event) (a : Attempts) (l : List Nat) : Prop where
  attempts : a.attempts = l.length
  slots : Latest a.attemptsMs l
  sorted : l.Pairwise (· ≥ ·)
  past : ∀ t ∈ l, t ∈ times es

theorem agrees_nil : Agrees [] noAttempts [] where
  attempts := rfl
  slots := latest_nil _
  sorted := List.Pairwise.nil
  past := by simp

theorem Agrees.later {es : List Event} {a : Attempts} {l : List Nat} (h : Agrees es a l)
    (e : Event) : Agrees (es ++ [e]) a l :=
  { h with past := fun t ht => mem_times_snoc (h.past t ht) }

theorem history_recent_eq {now : Nat} {l : List Nat} (hnow : now < 2 ^ 63)
    (hle : ∀ t ∈ l, t ≤ now) : history.recent l now = younger kAttemptWindowMs now l := by
  refine List.countP_congr fun t ht => ?_
  rw [subU64_eq (hle t ht) (by omega)]

/-- Both memories agree on whether the limit is reached. -/
theorem Agrees.limit {es : List Event} {a : Attempts} {l : List Nat} {now : Nat}
    (h : Agrees es a l) (hnow : now < 2 ^ 63) (hpast : ∀ t ∈ times es, t ≤ now) :
    kMaxAttempts ≤ ring.recent a now ↔ kMaxAttempts ≤ history.recent l now := by
  have hle : ∀ t ∈ l, t ≤ now := fun t ht => hpast t (h.past t ht)
  have hring : ring.recent a now = min kMaxAttempts (history.recent l now) := calc
    ring.recent a now
        = history.recent (l.take kMaxAttempts) now := by
          have hcount := h.slots.countP fun t => decide (subU64 now t < kAttemptWindowMs)
          rw [← h.attempts] at hcount
          exact hcount
    _ = younger kAttemptWindowMs now (l.take kMaxAttempts) :=
          history_recent_eq hnow fun t ht => hle t (List.mem_of_mem_take ht)
    _ = min kMaxAttempts (younger kAttemptWindowMs now l) :=
          countP_take _ l (pairwise_younger _ _ h.sorted) _
    _ = min kMaxAttempts (history.recent l now) := by rw [history_recent_eq hnow hle]
  rw [hring]
  omega

/-- Recording one more attempt in both. -/
theorem Agrees.record {es : List Event} {a : Attempts} {l : List Nat} {now : Nat}
    {status : UInt32} {eligible : Bool} (h : Agrees es a l) (hpast : ∀ t ∈ times es, t ≤ now)
    (hgrants : l.length + 1 < 2 ^ 32) :
    Agrees (es ++ [.observe now status eligible]) (ring.record a now) (history.record l now) where
  attempts := by
    show addU32 a.attempts 1 = _
    rw [h.attempts, addU32_eq hgrants]; rfl
  slots := by
    show Latest (Function.update a.attemptsMs (Fin.ofNat kMaxAttempts a.attempts) now) (now :: l)
    rw [h.attempts]
    exact h.slots.push now
  sorted := List.pairwise_cons.mpr ⟨fun t ht => hpast t (h.past t ht), h.sorted⟩
  past := by
    intro t ht
    rcases List.mem_cons.mp ht with rfl | ht
    · exact now_mem_times es t status eligible
    · exact mem_times_snoc (h.past t ht)

/-- The policy of the source and the reference policy after the same events. -/
def Refines (es : List Event) (P : Policy Attempts) (Q : Policy (List Nat)) : Prop :=
  ∃ (p : Policy Unit) (a : Attempts) (l : List Nat),
    P = p.withMemory a ∧ Q = p.withMemory l ∧ Agrees es a l ∧
    l.length = ((policy ring).outputs (initial noAttempts) es).count true

/-- The side condition on one event: a monotonic clock, and fewer than `2 ^ 32` grants so far. -/
def Bounded (past : List Event) (e : Event) : Prop :=
  Clocked past e ∧ ((policy ring).outputs (initial noAttempts) (past ++ [e])).count true < 2 ^ 32

theorem Monotonic.bounded {es : List Event} (hclock : Monotonic es)
    (hgrants : ((policy ring).outputs (initial noAttempts) es).count true < 2 ^ 32) :
    Machine.Admissible Bounded es := by
  intro p e q hes
  refine ⟨hclock.admissible p e q hes, ?_⟩
  rw [hes, List.append_cons, Machine.outputs_append, List.count_append] at hgrants
  omega

theorem refines_step (es : List Event) (e : Event) {P : Policy Attempts} {Q : Policy (List Nat)}
    (hP : P = (policy ring).run (initial noAttempts) es) (hR : Refines es P Q)
    (hok : Bounded es e) :
    ((policy ring).step P e).2 = ((policy history).step Q e).2 ∧
    Refines (es ++ [e]) ((policy ring).step P e).1 ((policy history).step Q e).1 := by
  obtain ⟨p, a, l, rfl, rfl, hag, hlen⟩ := hR
  obtain ⟨hclock, hgrants⟩ := hok
  rw [Machine.outputs_snoc, ← hP, List.count_append, ← hlen] at hgrants
  have hout : ((policy ring).outputs (initial noAttempts) (es ++ [e])).count true
      = l.length + [((policy ring).step (p.withMemory a) e).2].count true := by
    rw [Machine.outputs_snoc, ← hP, List.count_append, ← hlen]
  cases e with
  | setFailed failed =>
      exact ⟨rfl, { p with failed := failed }, a, l, rfl, rfl, hag.later _, by rw [hout]; rfl⟩
  | observe now status eligible =>
      obtain ⟨hnow, hpast⟩ := hclock now rfl
      obtain ⟨q, granted, hr, hh⟩ := observe_withMemory ring history p a l now status eligible
        (hag.limit hnow hpast)
      have hrs : (policy ring).step (p.withMemory a) (.observe now status eligible) = _ := hr
      have hhs : (policy history).step (p.withMemory l) (.observe now status eligible) = _ := hh
      rw [hrs] at hout hgrants ⊢
      rw [hhs]
      refine ⟨rfl, q, _, _, rfl, rfl, ?_, ?_⟩
      · cases granted with
        | false => exact hag.later _
        | true => exact hag.record hpast hgrants
      · rw [hout]
        cases granted <;> rfl

/-! ## The rate -/

/-- What the reference policy guarantees of the attempts it remembers. -/
structure RateLimited (es : List Event) (q : Policy (List Nat)) : Prop where
  grants : grantTimes es ((policy history).outputs (initial []) es) = q.attempts.reverse
  past : ∀ t ∈ q.attempts, t ∈ times es
  cooled : ∀ t ∈ q.attempts, t + kCooldownMs ≤ q.cooldownUntilMs
  spaced : q.attempts.Pairwise fun later earlier => earlier + kCooldownMs ≤ later
  window : ∀ t, inWindow kAttemptWindowMs t q.attempts ≤ kMaxAttempts

theorem rateLimited_step (es : List Event) (e : Event) {q : Policy (List Nat)}
    (hq : q = (policy history).run (initial []) es) (hI : RateLimited es q)
    (hok : Clocked es e) : RateLimited (es ++ [e]) ((policy history).step q e).1 := by
  have hgrants := grantTimes_snoc history (initial []) es e
  rw [← hq, hI.grants] at hgrants
  have hpast : ∀ t ∈ q.attempts, t ∈ times (es ++ [e]) := fun t ht => mem_times_snoc (hI.past t ht)
  cases e with
  | setFailed failed =>
      exact { hI with grants := hgrants.trans (List.append_nil _), past := hpast }
  | observe now status eligible =>
      obtain ⟨hnow, hle⟩ := hok now rfl
      have hstep : (policy history).step q (.observe now status eligible)
        = observe history q now status eligible := rfl
      rw [hstep] at hgrants ⊢
      have hobs := observe_cases history q now status eligible
      generalize observe history q now status eligible = r at hobs hgrants ⊢
      cases hobs with
      | skipped => exact { hI with grants := hgrants.trans (List.append_nil _), past := hpast }
      | restarted => exact { hI with grants := hgrants.trans (List.append_nil _), past := hpast }
      | counted => exact { hI with grants := hgrants.trans (List.append_nil _), past := hpast }
      | granted _ _ _ hcool _ _ hrecent =>
          -- the cooldown of the last attempt is over
          have hlast : ∀ t ∈ q.attempts, t + kCooldownMs ≤ now := fun t ht =>
            (hI.cooled t ht).trans hcool
          have hbefore : ∀ t ∈ q.attempts, t ≤ now := fun t ht => hle t (hI.past t ht)
          rw [history_recent_eq hnow hbefore] at hrecent
          refine ⟨?_, ?_, ?_, List.pairwise_cons.mpr ⟨hlast, hI.spaced⟩,
            inWindow_cons_le hrecent hI.window hbefore⟩
          · rw [hgrants]; exact (List.reverse_cons).symm
          · intro t ht
            rcases List.mem_cons.mp ht with rfl | ht
            · exact now_mem_times es t status eligible
            · exact hpast t ht
          · have hcu : addU64 now kCooldownMs = now + kCooldownMs :=
              addU64_eq (by simp only [kCooldownMs]; omega)
            intro t ht
            show t + kCooldownMs ≤ addU64 now kCooldownMs
            rw [hcu]
            rcases List.mem_cons.mp ht with rfl | ht
            · exact le_refl _
            · have := hbefore t ht; omega

theorem rateLimited_run (es : List Event) (h : Monotonic es) :
    RateLimited es ((policy history).run (initial []) es) :=
  Machine.history_inv _ _ Clocked RateLimited
    ⟨rfl, by simp [initial], by simp [initial], List.Pairwise.nil, by simp [initial, inWindow]⟩
    (fun es e hI hok => rateLimited_step es e rfl hI hok) es h.admissible

/-- **The policy refines the full-history rate limiter.** On a monotonic clock and with fewer
than `2 ^ 32` grants it answers as the reference policy does; so no half-open window of 60 s
holds more than three grants, and grants are 5 s apart. -/
theorem observe_refines_history (es : List Event) (hclock : Monotonic es)
    (hgrants : ((policy ring).outputs (initial noAttempts) es).count true < 2 ^ 32) :
    (policy ring).outputs (initial noAttempts) es = (policy history).outputs (initial []) es ∧
    (∀ t, inWindow kAttemptWindowMs t
        (grantTimes es ((policy ring).outputs (initial noAttempts) es)) ≤ kMaxAttempts) ∧
    (grantTimes es ((policy ring).outputs (initial noAttempts) es)).Pairwise
      fun earlier later => earlier + kCooldownMs ≤ later := by
  have hsim := Machine.history_sim (policy ring) (policy history) (initial noAttempts)
    (initial []) Bounded Refines
    ⟨initial (), noAttempts, [], rfl, rfl, agrees_nil, rfl⟩
    (fun es e hR hok => refines_step es e rfl hR hok) es (hclock.bounded hgrants)
  have hrate := rateLimited_run es hclock
  rw [hsim.1, hrate.grants]
  refine ⟨rfl, fun t => ?_, List.pairwise_reverse.mpr hrate.spaced⟩
  rw [inWindow, List.countP_reverse]
  exact hrate.window t

/-- Five suspect samples half a second apart, the last of which is granted. -/
def fiveSuspects : List Event :=
  [0, 500, 1000, 1500, 2000].map fun now => .observe now 0x000c09a7 true

theorem observe_refines_history_fiveSuspects :
    (policy ring).outputs (initial noAttempts) fiveSuspects
      = (policy history).outputs (initial []) fiveSuspects ∧
    grantTimes fiveSuspects ((policy ring).outputs (initial noAttempts) fiveSuspects) = [2000] :=
  ⟨(observe_refines_history fiveSuspects (by unfold Monotonic; decide +kernel)
    (by decide +kernel)).1, by decide +kernel⟩

end QcapDemos.Resync
