import Mathlib.Algebra.BigOperators.Group.Finset.Basic
import Mathlib.Algebra.BigOperators.Ring.Finset
import Mathlib.Data.Fintype.Basic
import QcapDemos.Lib.Run
import QcapDemos.Pcm.WriteQueue

set_option autoImplicit false

/-! # The observer of the PCM writes

`sc6f0-pcm-write-trace.c` is loaded in front of the sound library. It passes on the write and
prepare calls of all threads of a process, counts them, and reports the counters on standard error
at most every five seconds. The threads run at the same time, and what they share are counters with
single atomic accesses. So the model interleaves the threads access by access.

`tallied` says that no interleaving loses a count, `transparent` that every thread gets back what
the library answered, `errno` included, and `reports_spaced` how far apart the reports are.
-/

namespace QcapDemos.Pcm.Trace

open QcapDemos.Lib

/-! ## The threads -/

/-- The counters that a report prints. -/
inductive Counter where
  | calls
  | requested
  | accepted
  | again
  | pipeErrors
  | suspended
  | shortWrites
  | zero
  | otherErrors
  | prepares
  | prepareErrors
deriving DecidableEq

abbrev Word : Type := BitVec 64

/-- What a call ends with. -/
structure Answer where
  result : Int
  errno : Int
deriving DecidableEq

/-- What `snd_pcm_writei` adds to the counters, in order. -/
def writeAdds (frames : Nat) (result : Int) : List (Counter × Nat) :=
  (.calls, 1) :: (.requested, frames) ::
    if 0 < result then
      (.accepted, result.toNat) :: if result.toNat < frames then [(.shortWrites, 1)] else []
    else if result = 0 then [(.zero, 1)]
    else if result = -EAGAIN then [(.again, 1)]
    else if result = -EPIPE then [(.pipeErrors, 1)]
    else if result = -ESTRPIPE then [(.suspended, 1)]
    else [(.otherErrors, 1)]

/-- What `snd_pcm_prepare` adds. -/
def prepareAdds (result : Int) : List (Counter × Nat) :=
  (.prepares, 1) :: if result < 0 then [(.prepareErrors, 1)] else []

/-- Where a thread is. `saved` is what it will return. -/
inductive Pc where
  | idle
  | adding (adds : List (Counter × Nat)) (reports : Bool) (saved : Answer)
  /-- It calls `clock_gettime`. -/
  | timing (saved : Answer)
  | loading (now : Word) (saved : Answer)
  | swapping (now old : Word) (saved : Answer)
  /-- It loads the counters of the line. -/
  | reading (todo : List Counter) (line : List (Counter × Word)) (now : Word) (saved : Answer)
  | leaving (saved : Answer)
deriving DecidableEq

structure State (τ : Type) where
  counters : Counter → Word
  lastReportNs : Word
  pc : τ → Pc
  /-- Every thread has its own. -/
  errno : τ → Int

def State.initial {τ : Type} : State τ where
  counters _ := 0
  lastReportNs := 0
  pc _ := .idle
  errno _ := 0

/-- What the system calls of a step do: the time, if there is one, and `errno` after the call. -/
structure Env where
  clock : Option Word
  errno : Int

inductive Action where
  /-- A call of `snd_pcm_writei`, with the answer of the library. -/
  | write (frames : Nat) (answer : Answer)
  | prepare (answer : Answer)
  /-- The next access of a call. -/
  | access (env : Env)

/-- What a thread shows to the outside. -/
inductive Shown where
  | silent
  | wrote (frames : Nat) (answer : Answer)
  | prepared (answer : Answer)
  | timed (now : Word)
  /-- It took the turn to report from the thread that reported at `old`. -/
  | reported (old now : Word)
  | printed (now : Word) (line : List (Counter × Word))
  | returned (answer : Answer)
deriving DecidableEq

variable {τ : Type}

/-- `atomic_fetch_add` -/
def State.add (s : State τ) (c : Counter) (n : Nat) : State τ :=
  { s with counters := Function.update s.counters c (s.counters c + BitVec.ofNat 64 n) }

/-- Nanoseconds between two reports. -/
def interval : Word := 5000000000#64

section Steps

variable [DecidableEq τ]

def State.goto (s : State τ) (t : τ) (pc : Pc) : State τ :=
  { s with pc := Function.update s.pc t pc }

def State.setErrno (s : State τ) (t : τ) (errno : Int) : State τ :=
  { s with errno := Function.update s.errno t errno }

/-- The next access of the thread. `order` is the order in which the arguments of the line are
loaded, which the language leaves open. -/
def access (order : List Counter) (s : State τ) (t : τ) (env : Env) : State τ × Shown :=
  match s.pc t with
  | .idle => (s, .silent)
  | .adding ((c, n) :: adds) reports saved =>
      ((s.add c n).goto t (.adding adds reports saved), .silent)
  | .adding [] true saved => (s.goto t (.timing saved), .silent)
  | .adding [] false saved => (s.goto t (.leaving saved), .silent)
  | .timing saved =>
      match env.clock with
      | none => ((s.setErrno t env.errno).goto t (.leaving saved), .silent)
      | some now => ((s.setErrno t env.errno).goto t (.loading now saved), .timed now)
  | .loading now saved =>
      if now - s.lastReportNs < interval then (s.goto t (.leaving saved), .silent)
      else (s.goto t (.swapping now s.lastReportNs saved), .silent)
  | .swapping now old saved =>
      if s.lastReportNs = old then
        ({ s with lastReportNs := now }.goto t (.reading order [] now saved), .reported old now)
      else (s.goto t (.leaving saved), .silent)
  | .reading (c :: todo) line now saved =>
      (s.goto t (.reading todo (line ++ [(c, s.counters c)]) now saved), .silent)
  | .reading [] line now saved =>
      ((s.setErrno t env.errno).goto t (.leaving saved), .printed now line)
  | .leaving saved =>
      let s' := (s.setErrno t saved.errno).goto t .idle
      (s', .returned ⟨saved.result, s'.errno t⟩)

/-- A thread in a call cannot make another one. -/
def step (order : List Counter) (s : State τ) : τ × Action → State τ × τ × Shown
  | (t, .write frames answer) =>
      if s.pc t = .idle then
        ((s.setErrno t answer.errno).goto t (.adding (writeAdds frames answer.result) true answer),
          t, .wrote frames answer)
      else (s, t, .silent)
  | (t, .prepare answer) =>
      if s.pc t = .idle then
        ((s.setErrno t answer.errno).goto t (.adding (prepareAdds answer.result) false answer),
          t, .prepared answer)
      else (s, t, .silent)
  | (t, .access env) => ((access order s t env).1, t, (access order s t env).2)

def observer (order : List Counter) : Machine (State τ) (τ × Action) (τ × Shown) where
  step := step order

end Steps

/-! ## No count is lost -/

/-- What the additions add to a counter. -/
def added (c : Counter) : List (Counter × Nat) → Nat
  | [] => 0
  | (c', n) :: adds => (if c' = c then n else 0) + added c adds

/-- What a call has to add, by what it shows at its start. -/
def Shown.adds : Shown → List (Counter × Nat)
  | .wrote frames answer => writeAdds frames answer.result
  | .prepared answer => prepareAdds answer.result
  | _ => []

/-- What all calls that were made have to add to a counter. -/
def tally (c : Counter) (shown : List (τ × Shown)) : Nat :=
  (shown.map fun o => added c o.2.adds).sum

/-- What a thread has still to add. -/
def Pc.pending (c : Counter) : Pc → Nat
  | .adding adds _ _ => added c adds
  | _ => 0

theorem tally_snoc (c : Counter) (shown : List (τ × Shown)) (o : τ × Shown) :
    tally c (shown ++ [o]) = tally c shown + added c o.2.adds := by
  rw [tally, tally, List.map_append, List.sum_append]
  rfl

@[simp] theorem add_pc {s : State τ} {c : Counter} {n : Nat} : (s.add c n).pc = s.pc := rfl

@[simp] theorem add_lastReportNs {s : State τ} {c : Counter} {n : Nat} :
    (s.add c n).lastReportNs = s.lastReportNs := rfl

theorem add_counters (s : State τ) (c c' : Counter) (n : Nat) :
    (s.add c n).counters c' = s.counters c' + BitVec.ofNat 64 (if c = c' then n else 0) := by
  by_cases h : c = c'
  · subst h
    rw [if_pos rfl]
    exact Function.update_self ..
  · rw [if_neg h]
    exact (Function.update_of_ne (fun e => h e.symm) ..).trans (BitVec.add_zero _).symm

section Runs

variable [DecidableEq τ] {s : State τ} {t t' : τ} {pc : Pc} {order : List Counter} {a : Action}

@[simp] theorem goto_pc_self : (s.goto t pc).pc t = pc := Function.update_self ..

theorem goto_pc_of_ne (h : t' ≠ t) : (s.goto t pc).pc t' = s.pc t' := Function.update_of_ne h ..

@[simp] theorem goto_counters : (s.goto t pc).counters = s.counters := rfl

@[simp] theorem goto_lastReportNs : (s.goto t pc).lastReportNs = s.lastReportNs := rfl

@[simp] theorem goto_errno : (s.goto t pc).errno = s.errno := rfl

@[simp] theorem setErrno_errno_self {errno : Int} : (s.setErrno t errno).errno t = errno :=
  Function.update_self ..

@[simp] theorem setErrno_pc {errno : Int} : (s.setErrno t errno).pc = s.pc := rfl

@[simp] theorem setErrno_counters {errno : Int} : (s.setErrno t errno).counters = s.counters := rfl

@[simp] theorem setErrno_lastReportNs {errno : Int} :
    (s.setErrno t errno).lastReportNs = s.lastReportNs := rfl

theorem step_thread : (step order s (t, a)).2.1 = t := by
  cases a with
  | access env => rfl
  | _ => simp only [step]; split <;> rfl

/-- The other threads stay where they are. -/
theorem step_pc_of_ne (h : t' ≠ t) : (step order s (t, a)).1.pc t' = s.pc t' := by
  cases a with
  | access env =>
      simp only [step, access]
      split <;> (try split) <;> simp [goto_pc_of_ne h]
  | _ =>
      simp only [step]
      split <;> simp [goto_pc_of_ne h]

/-- What the thread of a step has still to add, and what is added. -/
theorem step_balance (c : Counter) :
    (step order s (t, a)).1.counters c +
        BitVec.ofNat 64 (((step order s (t, a)).1.pc t).pending c) =
      s.counters c + BitVec.ofNat 64 ((s.pc t).pending c) +
        BitVec.ofNat 64 (added c (step order s (t, a)).2.2.adds) := by
  cases a with
  | access env =>
      simp only [step, access]
      split <;> (try split) <;> simp_all [Pc.pending, Shown.adds, added, add_counters,
        BitVec.ofNat_add, BitVec.add_assoc]
  | _ =>
      simp only [step]
      split <;> simp_all [Pc.pending, Shown.adds, added]

/-- What all threads have still to add. -/
def State.pending [Fintype τ] (s : State τ) (c : Counter) : Nat := ∑ t, (s.pc t).pending c

theorem pending_step [Fintype τ] (c : Counter) :
    (step order s (t, a)).1.pending c + (s.pc t).pending c =
      s.pending c + ((step order s (t, a)).1.pc t).pending c := by
  have hbefore := Finset.add_sum_erase Finset.univ (fun t' => (s.pc t').pending c)
    (Finset.mem_univ t)
  have hafter := Finset.add_sum_erase Finset.univ
    (fun t' => ((step order s (t, a)).1.pc t').pending c) (Finset.mem_univ t)
  have hothers : ∑ t' ∈ Finset.univ.erase t, ((step order s (t, a)).1.pc t').pending c =
      ∑ t' ∈ Finset.univ.erase t, (s.pc t').pending c :=
    Finset.sum_congr rfl fun t' ht' => by rw [step_pc_of_ne (Finset.ne_of_mem_erase ht')]
  rw [hothers] at hafter
  unfold State.pending
  omega

end Runs

/-- The library took some of the frames. -/
def Shown.took : Shown → Bool
  | .wrote _ answer => decide (0 < answer.result)
  | _ => false

theorem added_calls (o : Shown) :
    added .calls o.adds = (if o.took then 1 else 0) + (added .zero o.adds + added .again o.adds +
      added .pipeErrors o.adds + added .suspended o.adds + added .otherErrors o.adds) := by
  cases o with
  | wrote frames answer =>
      simp only [Shown.adds, Shown.took, writeAdds, decide_eq_true_eq]
      split_ifs <;> simp [added]
  | prepared answer =>
      simp only [Shown.adds, Shown.took, prepareAdds]
      split_ifs <;> simp_all [added]
  | _ => simp [Shown.adds, Shown.took, added]

/-- Every write counts in exactly one of the classes. -/
theorem tally_calls (shown : List (τ × Shown)) :
    tally .calls shown = shown.countP (fun o => o.2.took) + (tally .zero shown +
      tally .again shown + tally .pipeErrors shown + tally .suspended shown +
      tally .otherErrors shown) := by
  induction shown using List.reverseRecOn with
  | nil => rfl
  | append_singleton shown o ih =>
      have hlast := added_calls o.2
      simp only [tally_snoc, List.countP_append, List.countP_singleton]
      omega

section Tally

variable [DecidableEq τ] [Fintype τ] {order : List Counter}

/-- A counter and what is still to be added to it, against what was to be added at all. -/
def Balanced (shown : List (τ × Shown)) (s : State τ) : Prop :=
  ∀ c, s.counters c + BitVec.ofNat 64 (s.pending c) = BitVec.ofNat 64 (tally c shown)

theorem balanced_run (events : List (τ × Action)) :
    Balanced ((observer order).outputs .initial events) ((observer order).run .initial events) := by
  induction events using List.reverseRecOn with
  | nil =>
      intro c
      simp [State.initial, State.pending, Pc.pending, tally]
  | append_singleton events e ih =>
      obtain ⟨t, a⟩ := e
      intro c
      rw [Machine.run_snoc, Machine.outputs_snoc, tally_snoc, BitVec.ofNat_add, ← ih c]
      generalize (observer order).run .initial events = s
      have hbalance := @step_balance τ _ s t order a c
      have hpending := congrArg (BitVec.ofNat 64) (@pending_step τ _ s t order a _ c)
      rw [BitVec.ofNat_add, BitVec.ofNat_add] at hpending
      show (step order s (t, a)).1.counters c +
        BitVec.ofNat 64 ((step order s (t, a)).1.pending c) = s.counters c +
        BitVec.ofNat 64 (s.pending c) + BitVec.ofNat 64 (added c (step order s (t, a)).2.2.adds)
      grind

/-- **No count is lost,** whatever the threads do between each other's accesses: a counter has what
the calls so far have to add to it, up to what the threads have still to add, and every write
counts in exactly one of the classes. -/
theorem tallied (order : List Counter) (events : List (τ × Action)) :
    Balanced ((observer order).outputs .initial events)
        ((observer order).run .initial events) ∧
      tally .calls ((observer order).outputs .initial events) =
        ((observer order).outputs .initial events).countP (fun o => o.2.took) +
          (tally .zero ((observer order).outputs .initial events) +
          tally .again ((observer order).outputs .initial events) +
          tally .pipeErrors ((observer order).outputs .initial events) +
          tally .suspended ((observer order).outputs .initial events) +
          tally .otherErrors ((observer order).outputs .initial events)) :=
  ⟨balanced_run events, tally_calls _⟩

end Tally

/-! ## The threads get their answers back -/

/-- What the library answered to the calls. -/
def Shown.given : Shown → Option Answer
  | .wrote _ answer => some answer
  | .prepared answer => some answer
  | _ => none

/-- What the observer returned to its callers. -/
def Shown.gotBack : Shown → Option Answer
  | .returned answer => some answer
  | _ => none

/-- The answer that a thread in a call will return. -/
def Pc.saved : Pc → Option Answer
  | .idle => none
  | .adding _ _ saved | .timing saved | .loading _ saved | .swapping _ _ saved => some saved
  | .reading _ _ _ saved | .leaving saved => some saved

section Answers

variable [DecidableEq τ] {s : State τ} {t t' : τ} {a : Action} {order : List Counter}

/-- The answers of one thread, in order. -/
def answers (f : Shown → Option Answer) (t : τ) (shown : List (τ × Shown)) : List Answer :=
  shown.filterMap fun o => if o.1 = t then f o.2 else none

theorem answers_snoc (f : Shown → Option Answer) (t : τ) (shown : List (τ × Shown))
    (o : τ × Shown) : answers f t (shown ++ [o]) =
      answers f t shown ++ (if o.1 = t then f o.2 else none).toList := by
  rw [answers, List.filterMap_append]
  refine congrArg (_ ++ ·) ?_
  rw [List.filterMap_cons, List.filterMap_nil]
  cases (if o.1 = t then f o.2 else none) <;> rfl

/-- The thread of a step. -/
theorem step_saved : (s.pc t).saved.toList ++ (step order s (t, a)).2.2.given.toList =
    (step order s (t, a)).2.2.gotBack.toList ++ ((step order s (t, a)).1.pc t).saved.toList := by
  cases a with
  | access env =>
      simp only [step, access]
      split <;> (try split) <;>
        simp_all [Pc.saved, Shown.given, Shown.gotBack]
  | _ =>
      simp only [step]
      split <;> simp_all [Pc.saved, Shown.given, Shown.gotBack]

/-- **The observer is transparent:** to every thread it returns what the library answered, result
and `errno`, in order and once each; only the answer to a call that still runs is not returned
yet. -/
theorem transparent (order : List Counter) (events : List (τ × Action)) (t : τ) :
    answers Shown.given t ((observer order).outputs .initial events) =
      answers Shown.gotBack t ((observer order).outputs .initial events) ++
        (((observer order).run .initial events).pc t).saved.toList := by
  induction events using List.reverseRecOn with
  | nil => rfl
  | append_singleton events e ih =>
      obtain ⟨t', a⟩ := e
      rw [Machine.run_snoc, Machine.outputs_snoc, answers_snoc, answers_snoc, ih]
      generalize (observer order).run .initial events = s
      have hthread : (step order s (t', a)).2.1 = t' := step_thread
      show _ ++ (if (step order s (t', a)).2.1 = t then (step order s (t', a)).2.2.given
        else none).toList = _ ++ (if (step order s (t', a)).2.1 = t then
        (step order s (t', a)).2.2.gotBack else none).toList ++
        ((step order s (t', a)).1.pc t).saved.toList
      rw [hthread]
      by_cases h : t' = t
      · subst h
        rw [if_pos rfl, if_pos rfl, List.append_assoc, List.append_assoc, step_saved]
      · rw [if_neg h, if_neg h, step_pc_of_ne (Ne.symm h)]
        simp

end Answers

/-! ## The reports -/

def Shown.report : Shown → Option Word
  | .reported _ now => some now
  | _ => none

def Shown.time : Shown → Option Word
  | .timed now => some now
  | _ => none

/-- The times of the reports. -/
def reports (shown : List (τ × Shown)) : List Word := shown.filterMap fun o => o.2.report

/-- The times that the threads took. -/
def times (shown : List (τ × Shown)) : List Word := shown.filterMap fun o => o.2.time

/-- The later report is five seconds after the earlier one, or its time is from before it: its
thread had taken the time and was overtaken by the other report. -/
def Spaced (earlier later : Word) : Prop :=
  earlier.toNat + interval.toNat ≤ later.toNat ∨ later.toNat < earlier.toNat

/-- The last report of a chain from the start of the clock. -/
def lastOf (reported : List Word) : Word := (0 :: reported).getLast (List.cons_ne_nil _ _)

/-- The time that a thread has taken for its report. -/
def Pc.now : Pc → Option Word
  | .loading now _ | .swapping now _ _ => some now
  | _ => none

structure Reporting (shown : List (τ × Shown)) (s : State τ) : Prop where
  last : s.lastReportNs = lastOf (reports shown)
  chain : (0 :: reports shown).IsChain Spaced
  due : ∀ t now old saved, s.pc t = .swapping now old saved → Spaced old now

theorem spaced_of_not_lt {now old : Word} (h : ¬ now - old < interval) : Spaced old now := by
  unfold Spaced
  have hinterval : interval.toNat = 5000000000 := rfl
  bv_omega

theorem filterMap_snoc {α β : Type} (f : α → Option β) (as : List α) (a : α) :
    (as ++ [a]).filterMap f = as.filterMap f ++ (f a).toList := by
  rw [List.filterMap_append, List.filterMap_cons, List.filterMap_nil]
  cases f a <;> rfl

theorem reports_snoc (shown : List (τ × Shown)) (o : τ × Shown) :
    reports (shown ++ [o]) = reports shown ++ o.2.report.toList := filterMap_snoc _ shown o

theorem times_snoc (shown : List (τ × Shown)) (o : τ × Shown) :
    times (shown ++ [o]) = times shown ++ o.2.time.toList := filterMap_snoc _ shown o

/-- Where a thread took the time that it holds, and where the last report was made. -/
structure Ordered (shown : List (τ × Shown)) (s : State τ) : Prop where
  held : ∀ t now, (s.pc t).now = some now → (t, .timed now) ∈ shown
  last : s.lastReportNs = 0 ∨ ∃ before after t old,
    shown = before ++ (t, .reported old s.lastReportNs) :: after ∧
      (t, .timed s.lastReportNs) ∈ before

/-- A report with an earlier time than the last one's comes from a thread that took its time before
the last report was made. -/
theorem Ordered.overtaken {shown : List (τ × Shown)} {s : State τ} (h : Ordered shown s) {t : τ}
    (hclock : (times shown).Pairwise (· ≤ ·)) {now : Word} (hnow : (s.pc t).now = some now)
    (hlt : now < s.lastReportNs) :
    ∃ before after t' old, shown = before ++ (t, .timed now) :: after ∧
      (t', .reported old s.lastReportNs) ∈ after := by
  obtain hzero | ⟨before, after, t', old, rfl, htimed⟩ := h.last
  · rw [hzero, BitVec.lt_def] at hlt
    exact absurd hlt (Nat.not_lt_zero _)
  · have hmem := h.held t now hnow
    rcases List.mem_append.mp hmem with hmem | hmem
    · obtain ⟨before', mid, rfl⟩ := List.append_of_mem hmem
      exact ⟨before', mid ++ (t', .reported old s.lastReportNs) :: after, t', old, by simp, by simp⟩
    · -- the time of the last report was taken before, and is not later
      refine absurd hlt (BitVec.not_lt.mpr ?_)
      have hlate : now ∈ times ((t', Shown.reported old s.lastReportNs) :: after) :=
        List.mem_filterMap.mpr ⟨_, hmem, rfl⟩
      rw [times, List.filterMap_append] at hclock
      exact (List.pairwise_append.mp hclock).2.2 _ (List.mem_filterMap.mpr ⟨_, htimed, rfl⟩) _ hlate

section Reports

variable [DecidableEq τ] {order : List Counter} {s : State τ} {t : τ} {a : Action}

/-- The thread of a step reports, or the last report stays. -/
theorem step_report :
    (∃ now old saved, s.pc t = .swapping now old saved ∧ s.lastReportNs = old ∧
      (step order s (t, a)).2.2.report = some now ∧
      (step order s (t, a)).1.lastReportNs = now ∧
      (step order s (t, a)).1.pc t = .reading order [] now saved) ∨
    ((step order s (t, a)).2.2.report = none ∧
      (step order s (t, a)).1.lastReportNs = s.lastReportNs ∧
      ∀ now old saved, (step order s (t, a)).1.pc t = .swapping now old saved →
        s.pc t = .swapping now old saved ∨
        (s.pc t = .loading now saved ∧ s.lastReportNs = old ∧ ¬ now - old < interval)) := by
  cases a with
  | access env =>
      simp only [step, access]
      split <;> (try split) <;> simp_all [Shown.report]
  | _ =>
      simp only [step]
      split <;> simp_all [Shown.report]

theorem lastOf_snoc (reported : List Word) (now : Word) : lastOf (reported ++ [now]) = now := by
  rw [lastOf]
  simp only [← List.cons_append, List.getLast_concat]

theorem chain_snoc {reported : List Word} {now : Word} {R : Word → Word → Prop}
    (h : (0 :: reported).IsChain R) (hlast : R (lastOf reported) now) :
    (0 :: (reported ++ [now])).IsChain R := by
  rw [← List.cons_append]
  refine h.append (List.isChain_singleton now) fun x hx y hy => ?_
  rw [List.getLast?_eq_some_getLast (List.cons_ne_nil _ _), Option.mem_some_iff] at hx
  rw [List.head?_cons, Option.mem_some_iff] at hy
  rw [← hx, ← hy]
  exact hlast

theorem reporting_run (events : List (τ × Action)) :
    Reporting ((observer order).outputs .initial events)
      ((observer order).run .initial events) := by
  induction events using List.reverseRecOn with
  | nil => exact ⟨rfl, List.isChain_singleton _, fun t now old saved h => nomatch h⟩
  | append_singleton events e ih =>
      obtain ⟨t, a⟩ := e
      rw [Machine.run_snoc, Machine.outputs_snoc]
      generalize (observer order).run .initial events = s at ih ⊢
      generalize (observer order).outputs .initial events = shown at ih ⊢
      show Reporting (shown ++ [(step order s (t, a)).2]) (step order s (t, a)).1
      have hreports : reports (shown ++ [(step order s (t, a)).2]) =
          reports shown ++ (step order s (t, a)).2.2.report.toList := reports_snoc shown _
      rcases @step_report τ _ order s t a with
        ⟨now, old, saved, hpc, hold, hreport, hlast, hpc'⟩ | ⟨hreport, hlast, hpc'⟩
      · rw [hreport, Option.toList_some] at hreports
        refine ⟨?_, ?_, fun t' now' old' saved' h => ?_⟩
        · rw [hlast, hreports, lastOf_snoc]
        · rw [hreports]
          apply chain_snoc ih.chain
          rw [← ih.last, hold]
          exact ih.due t now old saved hpc
        · by_cases ht : t' = t
          · rw [ht, hpc'] at h
            cases h
          · rw [step_pc_of_ne ht] at h
            exact ih.due t' now' old' saved' h
      · rw [hreport, Option.toList_none, List.append_nil] at hreports
        refine ⟨?_, ?_, fun t' now' old' saved' h => ?_⟩
        · rw [hlast, hreports, ih.last]
        · rw [hreports]
          exact ih.chain
        · by_cases ht : t' = t
          · subst ht
            rcases hpc' now' old' saved' h with h | ⟨-, hold, hdue⟩
            · exact ih.due t' now' old' saved' h
            · exact spaced_of_not_lt hdue
          · rw [step_pc_of_ne ht] at h
            exact ih.due t' now' old' saved' h

theorem step_now (now : Word) (h : ((step order s (t, a)).1.pc t).now = some now) :
    (step order s (t, a)).2.2.time = some now ∨
      ((step order s (t, a)).2.2.time = none ∧ (s.pc t).now = some now) := by
  cases a with
  | access env =>
      revert h
      simp only [step, access]
      split <;> (try split) <;> simp_all [Shown.time, Pc.now]
  | _ =>
      revert h
      simp only [step]
      split <;> simp_all [Shown.time, Pc.now]

theorem step_timed {now : Word} (h : (step order s (t, a)).2.2.time = some now) :
    (step order s (t, a)).2 = (t, .timed now) := by
  refine Prod.ext step_thread ?_
  cases hshown : (step order s (t, a)).2.2 <;> rw [hshown] at h <;> cases h
  rfl

theorem step_swapping {now old : Word} {saved : Answer} (hpc : s.pc t = .swapping now old saved)
    {reported : Word} (h : (step order s (t, a)).2.2.report = some reported) :
    (step order s (t, a)).2 = (t, .reported old now) := by
  refine Prod.ext step_thread ?_
  revert h
  cases a with
  | access env =>
      simp only [step, access, hpc]
      split <;> simp_all [Shown.report]
  | _ => simp_all [step, Shown.report]

theorem step_reported {t' : τ} {old now : Word}
    (h : (step order s (t, a)).2 = (t', .reported old now)) :
    t' = t ∧ s.lastReportNs = old ∧ ∃ saved, s.pc t = .swapping now old saved := by
  have hshown := congrArg Prod.snd h
  refine ⟨(congrArg Prod.fst h).symm.trans step_thread, ?_⟩
  cases a with
  | access env =>
      revert hshown
      simp only [step, access]
      split <;> (try split) <;> simp_all
  | _ =>
      revert hshown
      simp only [step]
      split <;> simp_all

theorem ordered_run (events : List (τ × Action)) :
    Ordered ((observer order).outputs .initial events)
      ((observer order).run .initial events) := by
  induction events using List.reverseRecOn with
  | nil => exact ⟨fun t now h => (nomatch h), .inl rfl⟩
  | append_singleton events e ih =>
      obtain ⟨t, a⟩ := e
      rw [Machine.run_snoc, Machine.outputs_snoc]
      generalize (observer order).run .initial events = s at ih ⊢
      generalize (observer order).outputs .initial events = shown at ih ⊢
      show Ordered (shown ++ [(step order s (t, a)).2]) (step order s (t, a)).1
      refine ⟨fun t' now hnow => ?_, ?_⟩
      · by_cases ht : t' = t
        · subst ht
          rcases step_now now hnow with htime | ⟨-, hheld⟩
          · rw [step_timed htime]
            exact List.mem_append_right _ (List.mem_singleton.mpr rfl)
          · exact List.mem_append_left _ (ih.held t' now hheld)
        · rw [step_pc_of_ne ht] at hnow
          exact List.mem_append_left _ (ih.held t' now hnow)
      · rcases @step_report τ _ order s t a with
          ⟨now, old, saved, hpc, -, hreport, hlast, -⟩ | ⟨-, hlast, -⟩
        · refine .inr ⟨shown, [], t, old, ?_, ?_⟩
          · rw [hlast, step_swapping hpc hreport]
          · rw [hlast]
            exact ih.held t now (by rw [hpc]; rfl)
        · rw [hlast]
          refine ih.last.imp_right ?_
          rintro ⟨before, after, t', old, rfl, htimed⟩
          exact ⟨before, after ++ [(step order s (t, a)).2], t', old, by simp, htimed⟩

/-- **The reports are five seconds apart,** unless the later one has the earlier time; and where the
clock does not go back, a thread that reports with an earlier time than the last report's had
taken it before that report was made. -/
theorem reports_spaced (order : List Counter) (events : List (τ × Action)) :
    (0 :: reports ((observer order).outputs .initial events)).IsChain Spaced ∧
      ((times ((observer order).outputs .initial events)).Pairwise (· ≤ ·) →
        ∀ before after t old now,
          (observer order).outputs .initial events = before ++ (t, .reported old now) :: after →
          lastOf (reports before) = old ∧
            (old.toNat + interval.toNat ≤ now.toNat ∨
              ∃ before' after' t' old', before = before' ++ (t, .timed now) :: after' ∧
                (t', .reported old' old) ∈ after')) := by
  refine ⟨(reporting_run events).chain, ?_⟩
  induction events using List.reverseRecOn with
  | nil =>
      intro _ before after t old now h
      exact absurd h.symm (List.append_ne_nil_of_right_ne_nil _ (List.cons_ne_nil _ _))
  | append_singleton events e ih =>
      intro hclock before after t old now h
      have hclock' : (times ((observer order).outputs .initial events)).Pairwise (· ≤ ·) := by
        rw [Machine.outputs_snoc, times_snoc] at hclock
        exact (List.pairwise_append.mp hclock).1
      rw [Machine.outputs_snoc] at h
      rcases snoc_eq_append_cons h with ⟨rfl, hlast, -⟩ | ⟨after', -, hbefore⟩
      · obtain ⟨t', a⟩ := e
        obtain ⟨rfl, hold, saved, hpc⟩ := step_reported hlast.symm
        have hreporting := @reporting_run τ _ order events
        refine ⟨hreporting.last.symm.trans hold, ?_⟩
        refine (hreporting.due t now old saved hpc).imp_right fun hlt => ?_
        rw [← hold] at hlt ⊢
        exact (ordered_run events).overtaken hclock' (by rw [hpc]; rfl)
          (BitVec.lt_def.mpr hlt)
      · exact ih hclock' before after' t old now hbefore

/-- A thread takes the time at six seconds, and reports after another one that reports at twelve. -/
def overtaken : List (Bool × Action) :=
  (true, .write 960 ⟨960, 0⟩) :: List.replicate 5 (true, .access ⟨some 6000000000#64, 0⟩) ++
    (false, .write 960 ⟨960, 0⟩) :: List.replicate 10 (false, .access ⟨some 12000000000#64, 0⟩) ++
    List.replicate 5 (true, .access ⟨none, 0⟩)

example : reports ((observer []).outputs .initial overtaken) = [12000000000#64, 6000000000#64] := by
  decide

end Reports

/-! ## One thread -/

/-- The later report is five seconds after the earlier one. -/
def Apart (earlier later : Word) : Prop := earlier.toNat + interval.toNat ≤ later.toNat

/-- The state between two accesses where only the thread `t` makes calls. -/
structure Alone (order : List Counter) (t : τ) (shown : List (τ × Shown)) (s : State τ) : Prop where
  others : ∀ t', t' ≠ t → s.pc t' = .idle
  last : s.lastReportNs = 0 ∨ s.lastReportNs ∈ times shown
  held : ∀ now, (s.pc t).now = some now → now ∈ times shown ∧ ∀ time ∈ times shown, time ≤ now
  due : ∀ now old saved, s.pc t = .swapping now old saved → Apart old now
  chain : (0 :: reports shown).IsChain Apart
  snapshot : ∀ todo line now saved, s.pc t = .reading todo line now saved →
    ∃ loaded, order = loaded ++ todo ∧ line = loaded.map fun c => (c, s.counters c)

theorem Alone.last_le {order : List Counter} {t : τ} {shown : List (τ × Shown)} {s : State τ}
    (h : Alone order t shown s) {now : Word} (hnow : (s.pc t).now = some now) :
    s.lastReportNs ≤ now := by
  rcases h.last with hzero | hmem
  · rw [hzero, BitVec.le_def]
    exact Nat.zero_le _
  · exact (h.held now hnow).2 _ hmem

section Alone

variable [DecidableEq τ] {order : List Counter} {s : State τ} {t : τ} {a : Action}

/-- The line grows by the counter that is loaded. -/
theorem step_line (todo : List Counter) (line : List (Counter × Word)) (now : Word)
    (saved : Answer) (h : (step order s (t, a)).1.pc t = .reading todo line now saved) :
    (step order s (t, a)).1.counters = s.counters ∧
      (s.pc t = .reading todo line now saved ∨ (todo = order ∧ line = []) ∨
        ∃ c rest, s.pc t = .reading (c :: todo) rest now saved ∧
          line = rest ++ [(c, s.counters c)]) := by
  cases a with
  | access env =>
      revert h
      simp only [step, access]
      split <;> (try split) <;> simp_all
  | _ =>
      revert h
      simp only [step]
      split <;> simp_all

theorem step_printed (now : Word) (line : List (Counter × Word))
    (h : (step order s (t, a)).2.2 = .printed now line) :
    ∃ saved, s.pc t = .reading [] line now saved := by
  cases a with
  | access env =>
      revert h
      simp only [step, access]
      split <;> (try split) <;> simp_all
  | _ =>
      revert h
      simp only [step]
      split <;> simp_all

theorem apart_of_le {now old : Word} (hle : old ≤ now) (h : ¬ now - old < interval) :
    Apart old now := by
  have hinterval : interval.toNat = 5000000000 := rfl
  unfold Apart
  bv_omega

theorem alone_step {shown : List (τ × Shown)} (h : Alone order t shown s)
    (hlast : s.lastReportNs = lastOf (reports shown))
    (htimes : (times (shown ++ [(step order s (t, a)).2])).Pairwise (· ≤ ·)) :
    Alone order t (shown ++ [(step order s (t, a)).2]) (step order s (t, a)).1 := by
  have hsnoc := times_snoc shown (step order s (t, a)).2
  have hreports := reports_snoc shown (step order s (t, a)).2
  have hsub : ∀ time ∈ times shown, time ∈ times (shown ++ [(step order s (t, a)).2]) := by
    intro time hmem
    rw [hsnoc]
    exact List.mem_append_left _ hmem
  have hheld : ∀ now, ((step order s (t, a)).1.pc t).now = some now →
      now ∈ times (shown ++ [(step order s (t, a)).2]) ∧
        ∀ time ∈ times (shown ++ [(step order s (t, a)).2]), time ≤ now := by
    intro now hnow
    rcases step_now now hnow with htime | ⟨htime, hnow⟩
    · rw [htime, Option.toList_some] at hsnoc
      rw [hsnoc] at htimes ⊢
      refine ⟨List.mem_append_right _ (List.mem_singleton.mpr rfl), fun time hmem => ?_⟩
      rcases List.mem_append.mp hmem with hmem | hmem
      · exact (List.pairwise_append.mp htimes).2.2 time hmem now (List.mem_singleton.mpr rfl)
      · rw [List.mem_singleton.mp hmem]
        exact BitVec.le_refl now
    · rw [htime, Option.toList_none, List.append_nil] at hsnoc
      rw [hsnoc]
      exact h.held now hnow
  rcases @step_report τ _ order s t a with
    ⟨now, old, saved, hpc, hold, hreport, hlast', hpc'⟩ | ⟨hreport, hlast', hpc'⟩
  · rw [hreport, Option.toList_some] at hreports
    refine ⟨fun t' ht' => ?_, ?_, hheld, fun now' old' saved' hdue => ?_, ?_,
      fun todo line now' saved' hline => ?_⟩
    · rw [step_pc_of_ne ht']
      exact h.others t' ht'
    · rw [hlast']
      exact .inr (hsub now (h.held now (by rw [hpc]; rfl)).1)
    · rw [hpc'] at hdue
      cases hdue
    · rw [hreports]
      apply chain_snoc h.chain
      rw [← hlast, hold]
      exact h.due now old saved hpc
    · rw [hpc'] at hline
      cases hline
      exact ⟨[], rfl, rfl⟩
  · rw [hreport, Option.toList_none, List.append_nil] at hreports
    refine ⟨fun t' ht' => ?_, ?_, hheld, fun now old saved hdue => ?_, ?_,
      fun todo line now saved hline => ?_⟩
    · rw [step_pc_of_ne ht']
      exact h.others t' ht'
    · rw [hlast']
      exact h.last.imp_right (hsub _)
    · rcases hpc' now old saved hdue with hpc | ⟨hpc, hold, hlt⟩
      · exact h.due now old saved hpc
      · have hle : s.lastReportNs ≤ now := h.last_le (by rw [hpc]; rfl)
        exact apart_of_le (hold ▸ hle) hlt
    · rw [hreports]
      exact h.chain
    · obtain ⟨hcounters, hpc | ⟨rfl, rfl⟩ | ⟨c, rest, hpc, rfl⟩⟩ :=
        step_line todo line now saved hline
      · rw [hcounters]
        exact h.snapshot todo line now saved hpc
      · exact ⟨[], rfl, rfl⟩
      · obtain ⟨loaded, horder, rfl⟩ := h.snapshot (c :: todo) rest now saved hpc
        refine ⟨loaded ++ [c], ?_, ?_⟩
        · rw [horder, List.append_assoc, List.singleton_append]
        · rw [hcounters, List.map_append, List.map_singleton]

theorem alone_run (events : List (τ × Action)) (hthread : ∀ e ∈ events, e.1 = t)
    (hclock : (times ((observer order).outputs .initial events)).Pairwise (· ≤ ·)) :
    Alone order t ((observer order).outputs .initial events)
      ((observer order).run .initial events) := by
  induction events using List.reverseRecOn with
  | nil =>
      exact ⟨fun _ _ => rfl, .inl rfl, fun _ h => (nomatch h), fun _ _ _ h => (nomatch h),
        List.isChain_singleton _, fun _ _ _ _ h => (nomatch h)⟩
  | append_singleton events e ih =>
      obtain ⟨t', a⟩ := e
      obtain rfl : t' = t := hthread (t', a) (List.mem_append_right _ (List.mem_singleton.mpr rfl))
      have hlast := (@reporting_run τ _ order events).last
      rw [Machine.run_snoc, Machine.outputs_snoc]
      rw [Machine.outputs_snoc] at hclock
      have hbefore := hclock
      rw [times_snoc] at hbefore
      apply alone_step (ih (fun e he => hthread e (List.mem_append_left _ he)) ?_) hlast hclock
      exact (List.pairwise_append.mp hbefore).1

/-- What it prints is what the counters are. -/
theorem printed_eq [Fintype τ] {shown : List (τ × Shown)} (h : Alone order t shown s)
    (hbalanced : Balanced shown s) {now : Word} {line : List (Counter × Word)}
    (hprinted : (step order s (t, a)).2.2 = .printed now line) :
    line = order.map fun c => (c, BitVec.ofNat 64 (tally c shown)) := by
  obtain ⟨saved, hpc⟩ := step_printed now line hprinted
  obtain ⟨loaded, rfl, rfl⟩ := h.snapshot [] line now saved hpc
  rw [List.append_nil]
  refine List.map_congr_left fun c _ => ?_
  have hpending : s.pending c = 0 := by
    apply Finset.sum_eq_zero
    intro t' _
    by_cases ht : t' = t
    · rw [ht, hpc]
      rfl
    · rw [h.others t' ht]
      rfl
  rw [← hbalanced c, hpending]
  exact congrArg (Prod.mk c) (BitVec.add_zero _).symm

/-- **Where one thread makes all calls,** as the observer is meant to be used, and the clock does
not go back, the reports are five seconds apart, and each prints the counts of all calls before
it. -/
theorem reports_alone [Fintype τ] (order : List Counter) (events : List (τ × Action)) (t : τ)
    (hthread : ∀ e ∈ events, e.1 = t)
    (hclock : (times ((observer order).outputs .initial events)).Pairwise (· ≤ ·)) :
    (0 :: reports ((observer order).outputs .initial events)).IsChain Apart ∧
      ∀ before after now line,
        (observer order).outputs .initial events = before ++ (t, .printed now line) :: after →
        line = order.map fun c => (c, BitVec.ofNat 64 (tally c before)) := by
  refine ⟨(alone_run events hthread hclock).chain, ?_⟩
  induction events using List.reverseRecOn with
  | nil =>
      intro before after now line h
      exact absurd h.symm (List.append_ne_nil_of_right_ne_nil _ (List.cons_ne_nil _ _))
  | append_singleton events e ih =>
      have hthread' : ∀ e ∈ events, e.1 = t := fun e he => hthread e (List.mem_append_left _ he)
      have hclock' : (times ((observer order).outputs .initial events)).Pairwise (· ≤ ·) := by
        rw [Machine.outputs_snoc, times_snoc] at hclock
        exact (List.pairwise_append.mp hclock).1
      intro before after now line h
      rw [Machine.outputs_snoc] at h
      rcases snoc_eq_append_cons h with ⟨rfl, hlast, -⟩ | ⟨after', -, hbefore⟩
      · obtain ⟨t', a⟩ := e
        obtain rfl : t' = t :=
          hthread (t', a) (List.mem_append_right _ (List.mem_singleton.mpr rfl))
        exact printed_eq (alone_run events hthread' hclock') (balanced_run events)
          (congrArg Prod.snd hlast.symm)
      · exact ih hthread' hclock' before after' now line hbefore

/-- One write at six seconds, with its report. -/
def oneWrite : List (Unit × Action) :=
  ((), .write 960 ⟨960, 0⟩) :: List.replicate 10 ((), .access ⟨some 6000000000#64, 0⟩)

theorem reports_alone_write :
    (0 :: reports ((observer [.calls, .accepted]).outputs .initial oneWrite)).IsChain Apart ∧
      ∀ before after now line, (observer [.calls, .accepted]).outputs .initial oneWrite =
        before ++ ((), .printed now line) :: after →
        line = [.calls, .accepted].map fun c => (c, BitVec.ofNat 64 (tally c before)) :=
  reports_alone [.calls, .accepted] oneWrite () (fun _ _ => rfl) (by decide)

end Alone

end QcapDemos.Pcm.Trace
