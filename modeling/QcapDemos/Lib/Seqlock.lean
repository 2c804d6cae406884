import Mathlib.Data.Nat.ModEq
import Mathlib.Control.Lawful

set_option autoImplicit false

/-! # Reading a published version between two reads of its counter

A writer publishes versions of a record, each as a whole, and counts them. A reader accesses
one field at a time, and any number of publications may happen before each access. `Sees p Q`
is the rule for the reader's programs: a program that begins and ends at one version has seen
that version only. A counter read before and after a program tells whether it did, as long as
fewer versions are published in between than the counter can tell apart
(`single_version`).
-/

namespace QcapDemos.Lib

/-- How many versions were published and how many accesses were made so far. -/
structure Tick where
  version : Nat
  accesses : Nat
deriving DecidableEq

/-- A reader's program: it may fail with an error, and time passes with every access. -/
abbrev Reader (ε α : Type) : Type := StateT Tick (Except ε) α

namespace Reader

variable {ε α β : Type}

/-- One access. `gap k` versions are published before access number `k`, which then sees what
`f` says of the current version and of the number of the access. -/
def access (gap : Nat → Nat) (f : Nat → Nat → α) : Reader ε α := fun t =>
  .ok (f (t.version + gap t.accesses) t.accesses, ⟨t.version + gap t.accesses, t.accesses + 1⟩)

theorem bind_eq_ok {p : Reader ε α} {f : α → Reader ε β} {t t' : Tick} {b : β} :
    (p >>= f) t = .ok (b, t') ↔ ∃ a u, p t = .ok (a, u) ∧ f a u = .ok (b, t') := by
  show Except.bind (p t) (fun x => f x.1 x.2) = _ ↔ _
  constructor
  · intro h
    cases hp : p t with
    | error e => rw [hp] at h; cases h
    | ok x => rw [hp] at h; exact ⟨x.1, x.2, rfl, h⟩
  · rintro ⟨a, u, hp, hf⟩
    rw [hp]; exact hf

theorem pure_eq_ok {a b : α} {t t' : Tick} :
    (pure a : Reader ε α) t = .ok (b, t') ↔ a = b ∧ t = t' := by
  show Except.ok (a, t) = _ ↔ _
  simp

theorem throw_ne_ok {e : ε} {a : α} {t t' : Tick} :
    (throw e : Reader ε α) t ≠ .ok (a, t') := fun h => by cases h

theorem access_eq_ok {gap : Nat → Nat} {f : Nat → Nat → α} {a : α} {t t' : Tick} :
    (access gap f : Reader ε α) t = .ok (a, t') ↔
      a = f t'.version t.accesses ∧ t' = ⟨t.version + gap t.accesses, t.accesses + 1⟩ := by
  unfold access
  constructor
  · intro h
    cases h
    exact ⟨rfl, rfl⟩
  · rintro ⟨rfl, rfl⟩
    rfl

/-- Fail with `e` where `c` holds. -/
def raiseIf (c : Prop) [Decidable c] (e : ε) : Reader ε Unit := if c then throw e else pure ()

theorem raiseIf_eq_ok {c : Prop} [Decidable c] {e : ε} {t t' : Tick} {u : Unit} :
    (raiseIf c e : Reader ε Unit) t = .ok (u, t') ↔ ¬ c ∧ t = t' := by
  unfold raiseIf
  by_cases hc : c
  · rw [if_pos hc]
    exact ⟨fun h => absurd h throw_ne_ok, fun h => absurd hc h.1⟩
  · rw [if_neg hc, pure_eq_ok]
    exact ⟨fun h => ⟨hc, h.2⟩, fun h => ⟨rfl, h.2⟩⟩

/-! ## Programs that see one version -/

/-- Time only advances in `p`, and where `p` ends at the version `n` at which it began, its
result is one that `Q` allows for `n`. -/
def Sees (p : Reader ε α) (Q : Nat → α → Prop) : Prop :=
  ∀ t a t', p t = .ok (a, t') →
    t.version ≤ t'.version ∧ (t'.version = t.version → Q t.version a)

theorem Sees.mono {p : Reader ε α} {Q R : Nat → α → Prop} (h : Sees p Q)
    (hQR : ∀ n a, Q n a → R n a) : Sees p R := by
  intro t a t' hp
  obtain ⟨hle, hQ⟩ := h t a t' hp
  exact ⟨hle, fun heq => hQR _ _ (hQ heq)⟩

theorem sees_pure (a : α) : Sees (pure a : Reader ε α) fun _ b => b = a := by
  intro t b t' hp
  obtain ⟨rfl, rfl⟩ := pure_eq_ok.mp hp
  exact ⟨le_rfl, fun _ => rfl⟩

theorem sees_throw (e : ε) (Q : Nat → α → Prop) : Sees (throw e : Reader ε α) Q :=
  fun _ _ _ hp => absurd hp throw_ne_ok

theorem sees_access (gap : Nat → Nat) (f : Nat → Nat → α) :
    Sees (access gap f : Reader ε α) fun n a => ∃ k, a = f n k := by
  intro t a t' hp
  obtain ⟨rfl, ht⟩ := access_eq_ok.mp hp
  refine ⟨?_, fun heq => ⟨t.accesses, by rw [heq]⟩⟩
  rw [ht]
  exact Nat.le_add_right _ _

theorem Sees.bind {p : Reader ε α} {f : α → Reader ε β} {Q : Nat → α → Prop}
    {R : Nat → β → Prop} (hp : Sees p Q)
    (hf : ∀ a, Sees (f a) fun n b => Q n a → R n b) : Sees (p >>= f) R := by
  intro t b t' h
  obtain ⟨a, u, hpa, hfb⟩ := bind_eq_ok.mp h
  obtain ⟨hle, hQ⟩ := hp t a u hpa
  obtain ⟨hle', hR⟩ := hf a u b t' hfb
  refine ⟨hle.trans hle', fun heq => ?_⟩
  -- the version in the middle lies between two equal ones
  have hu : u.version = t.version := by omega
  have hb := hR (by omega)
  rw [hu] at hb
  exact hb (hQ hu)

theorem sees_raiseIf (c : Prop) [Decidable c] (e : ε) :
    Sees (raiseIf c e : Reader ε Unit) fun _ _ => ¬ c := by
  intro t u t' hp
  obtain ⟨hc, rfl⟩ := raiseIf_eq_ok.mp hp
  exact ⟨le_rfl, fun _ => hc⟩

theorem Sees.ite {c : Prop} [Decidable c] {p q : Reader ε α} {Q : Nat → α → Prop}
    (hp : c → Sees p Q) (hq : ¬ c → Sees q Q) : Sees (if c then p else q) Q := by
  by_cases hc : c
  · rw [if_pos hc]; exact hp hc
  · rw [if_neg hc]; exact hq hc

/-- Fields read one after the other are all fields of the one version. -/
theorem Sees.mapM {f : α → Reader ε β} {g : Nat → α → β} (as : List α)
    (h : ∀ a ∈ as, Sees (f a) fun n b => b = g n a) :
    Sees (as.mapM f) fun n bs => bs = as.map (g n) := by
  induction as with
  | nil =>
      rw [List.mapM_nil]
      exact sees_pure []
  | cons a as ih =>
      rw [List.mapM_cons]
      have hrest := ih fun x hx => h x (List.mem_cons_of_mem a hx)
      refine (h a List.mem_cons_self).bind fun b => hrest.bind fun bs =>
        (sees_pure (b :: bs)).mono ?_
      intro n cs hcs hbs hb
      rw [hcs, hbs, hb, List.map_cons]

/-- **Equal counters, one version.** A counter of `n` values that was read at two ticks less
than `n` versions apart, and gave the same value, was read at one version. -/
theorem single_version {n start u v : Nat} (hle : u ≤ v) (hfew : v - u < n)
    (hcount : (start + u) % n = (start + v) % n) : u = v := by
  have hdvd : n ∣ (start + v) - (start + u) :=
    (Nat.modEq_iff_dvd' (by omega)).mp hcount
  have hsub : (start + v) - (start + u) = v - u := by omega
  rw [hsub] at hdvd
  have hzero := Nat.eq_zero_of_dvd_of_lt hdvd hfew
  omega

/-! ## Programs whose accesses are numbered -/

end Reader

/-- The tick after `k` more accesses. -/
def Tick.after (gap : Nat → Nat) : Nat → Tick → Tick
  | 0, t => t
  | k + 1, t => Tick.after gap k ⟨t.version + gap t.accesses, t.accesses + 1⟩

@[simp] theorem Tick.after_zero (gap : Nat → Nat) (t : Tick) : t.after gap 0 = t := rfl

theorem Tick.after_add (gap : Nat → Nat) (j k : Nat) (t : Tick) :
    t.after gap (j + k) = (t.after gap j).after gap k := by
  induction j generalizing t with
  | zero => rw [Nat.zero_add, Tick.after_zero]
  | succ j ih =>
      rw [Nat.succ_add]
      exact ih _

@[simp] theorem Tick.accesses_after (gap : Nat → Nat) (k : Nat) (t : Tick) :
    (t.after gap k).accesses = t.accesses + k := by
  induction k generalizing t with
  | zero => rfl
  | succ k ih =>
      show (Tick.after gap k _).accesses = _
      rw [ih]
      show t.accesses + 1 + k = _
      omega

theorem Tick.version_after_succ (gap : Nat → Nat) (k : Nat) (t : Tick) :
    (t.after gap (k + 1)).version = (t.after gap k).version + gap (t.accesses + k) := by
  rw [Tick.after_add]
  show (t.after gap k).version + gap (t.after gap k).accesses = _
  rw [Tick.accesses_after]

theorem Tick.version_after_le (gap : Nat → Nat) {j k : Nat} (h : j ≤ k) (t : Tick) :
    (t.after gap j).version ≤ (t.after gap k).version := by
  induction h with
  | refl => exact le_rfl
  | step _ ih =>
      rw [Tick.version_after_succ]
      exact ih.trans (Nat.le_add_right _ _)

namespace Reader

variable {ε α β : Type} {gap : Nat → Nat}

theorem access_run (f : Nat → Nat → α) (t : Tick) :
    (access gap f : Reader ε α) t = .ok (f (t.after gap 1).version t.accesses, t.after gap 1) :=
  rfl

theorem bind_run {p : Reader ε α} {f : α → Reader ε β} {t u : Tick} {a : α}
    (h : p t = .ok (a, u)) : (p >>= f) t = f a u := by
  show Except.bind (p t) (fun x => f x.1 x.2) = _
  rw [h]
  rfl

theorem raiseIf_run {c : Prop} [Decidable c] (hc : ¬ c) (e : ε) (t : Tick) :
    (raiseIf c e : Reader ε Unit) t = .ok ((), t) := by
  unfold raiseIf
  rw [if_neg hc]
  rfl

/-- A program that never fails, and makes `k` accesses whatever it reads. -/
def Takes (gap : Nat → Nat) (p : Reader ε α) (k : Nat) : Prop :=
  ∀ t, ∃ a, p t = .ok (a, t.after gap k)

theorem takes_pure (a : α) : Takes gap (pure a : Reader ε α) 0 := fun _ => ⟨a, rfl⟩

theorem Takes.bind {p : Reader ε α} {f : α → Reader ε β} {j k : Nat} (hp : Takes gap p j)
    (hf : ∀ a, Takes gap (f a) k) : Takes gap (p >>= f) (j + k) := by
  intro t
  obtain ⟨a, ha⟩ := hp t
  obtain ⟨b, hb⟩ := hf a (t.after gap j)
  exact ⟨b, by rw [bind_run ha, hb, Tick.after_add]⟩

/-- Programs in a row make the accesses of all of them. -/
theorem Takes.mapM {f : α → Reader ε β} {k : α → Nat} (as : List α)
    (h : ∀ a ∈ as, Takes gap (f a) (k a)) : Takes gap (as.mapM f) (as.map k).sum := by
  induction as with
  | nil =>
      rw [List.mapM_nil]
      exact takes_pure []
  | cons a as ih =>
      rw [List.mapM_cons, List.map_cons, List.sum_cons]
      have hrest := ih fun x hx => h x (List.mem_cons_of_mem a hx)
      refine (h a List.mem_cons_self).bind fun b => ?_
      exact hrest.bind fun bs => takes_pure (b :: bs)

/-- Each result of programs in a row comes from a run of its own, between the beginning and the end
of the whole. -/
theorem mem_mapM_eq_ok {f : α → Reader ε β}
    (hle : ∀ a t b t', f a t = .ok (b, t') → t.version ≤ t'.version) {as : List α} {t t' : Tick}
    {bs : List β} (h : as.mapM f t = .ok (bs, t')) :
    t.version ≤ t'.version ∧ ∀ b ∈ bs, ∃ a ∈ as, ∃ u u', f a u = .ok (b, u') ∧
      t.version ≤ u.version ∧ u'.version ≤ t'.version := by
  induction as generalizing t bs with
  | nil =>
      rw [List.mapM_nil] at h
      obtain ⟨rfl, rfl⟩ := pure_eq_ok.mp h
      simp
  | cons a as ih =>
      rw [List.mapM_cons] at h
      obtain ⟨b, u, hb, h⟩ := bind_eq_ok.mp h
      obtain ⟨rest, u', hrest, h⟩ := bind_eq_ok.mp h
      obtain ⟨rfl, rfl⟩ := pure_eq_ok.mp h
      have hfirst := hle a t b u hb
      obtain ⟨hlater, hall⟩ := ih hrest
      refine ⟨hfirst.trans hlater, fun c hc => ?_⟩
      rcases List.mem_cons.mp hc with rfl | hc
      · exact ⟨a, List.mem_cons_self, t, u, hb, le_rfl, hlater⟩
      · obtain ⟨x, hx, v, v', hrun, hv, hv'⟩ := hall c hc
        exact ⟨x, List.mem_cons_of_mem a hx, v, v', hrun, hfirst.trans hv, hv'⟩

end Reader

/-! ## A counter in two words -/

section Words

variable {w a b c : Nat}

/-- A quotient that two numbers share is that of every number between them. -/
theorem div_eq_of_between (hab : a ≤ b) (hbc : b ≤ c) (h : a / 2 ^ w = c / 2 ^ w) :
    b / 2 ^ w = a / 2 ^ w :=
  Nat.le_antisymm (h ▸ Nat.div_le_div_right hbc) (Nat.div_le_div_right hab)

/-- **The high word twice.** Where the high word of a counter that only advances is the same before
and after, it goes with the low word in between. -/
theorem words_eq (hab : a ≤ b) (hbc : b ≤ c) (h : a / 2 ^ w = c / 2 ^ w) :
    (a / 2 ^ w) <<< w ||| b % 2 ^ w = b := by
  rw [← div_eq_of_between hab hbc h, ← Nat.shiftLeft_add_eq_or_of_lt
    (Nat.mod_lt _ (Nat.two_pow_pos w)), Nat.shiftLeft_eq, Nat.mul_comm, Nat.div_add_mod]

end Words

end QcapDemos.Lib
