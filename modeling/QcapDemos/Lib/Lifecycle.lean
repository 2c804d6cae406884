import Mathlib.Data.List.Perm.Basic
import Mathlib.Data.List.Lattice

set_option autoImplicit false

/-! # Created objects, running activities and their cleanup

A program creates objects, starts activities that use objects, and undoes this in the end.
`World.step` watches one such action: it is refused where an object is created twice or
destroyed while dead, where an activity is started twice or stopped while idle, and where an
object is destroyed that a running activity still uses. A list of actions is `Safe` when it is
accepted from the empty world and leaves the empty world, which says that everything created
was destroyed and everything started was stopped, once each and in a safe order.

The rules of this file are

* the frame rule `exec_above`: actions do not see a world that they do not name;
* `Bracketed`, for a program over a stack of cleanups that is safe at whatever point it fails,
  with rules for its steps (`bracketed_acquire`, `bracketed_begin`) and its sequencing
  (`Bracketed.bind`);
* `safe_bind_iff` and `safe_bind_inner`, by which a program is as safe as its one part that is
  not bracketed;
* `exec_release`, for cleanups of which the order does not matter.
-/

namespace QcapDemos.Lib

variable {ι : Type}

inductive Action (ι : Type) where
  | create (i : ι)
  | destroy (i : ι)
  /-- Another live object takes `i` over and destroys it in its own destruction. -/
  | handOver (i : ι)
  | start (k : ι) (uses : List ι)
  | stop (k : ι)
deriving DecidableEq

inductive Name (ι : Type) where
  | object (i : ι)
  | activity (k : ι)
deriving DecidableEq

/-- What an action acts on. -/
def Action.name : Action ι → Name ι
  | .create i | .destroy i | .handOver i => .object i
  | .start k _ | .stop k => .activity k

/-- What an action names or uses. -/
def Action.mentions : Action ι → List (Name ι)
  | .start k uses => .activity k :: uses.map .object
  | a => [a.name]

theorem Action.name_mem_mentions (a : Action ι) : a.name ∈ a.mentions := by
  cases a <;> exact List.mem_cons_self

/-- The live objects, and the running activities with the objects they use. -/
structure World (ι : Type) where
  live : List ι
  running : List (ι × List ι)
deriving DecidableEq

namespace World

def empty : World ι := { live := [], running := [] }

def keys (w : World ι) : List ι := w.running.map Prod.fst

def used (w : World ι) : List ι := w.running.flatMap Prod.snd

/-- The world has a live or a used object, or a running activity, of this name. -/
def Named (w : World ι) : Name ι → Prop
  | .object i => i ∈ w.live ∨ i ∈ w.used
  | .activity k => k ∈ w.keys

/-- Two worlds side by side. -/
def above (w b : World ι) : World ι :=
  { live := w.live ++ b.live, running := w.running ++ b.running }

@[simp] theorem empty_above (b : World ι) : empty.above b = b := rfl

@[simp] theorem above_empty (w : World ι) : w.above empty = w := by
  simp [above, empty]

@[simp] theorem keys_above (w b : World ι) : (w.above b).keys = w.keys ++ b.keys := by
  simp [keys, above]

@[simp] theorem used_above (w b : World ι) : (w.above b).used = w.used ++ b.used := by
  simp [used, above]

@[simp] theorem live_above (w b : World ι) : (w.above b).live = w.live ++ b.live := rfl

theorem named_above (w b : World ι) (x : Name ι) : (w.above b).Named x ↔ w.Named x ∨ b.Named x := by
  cases x with
  | object i =>
      simp only [Named, live_above, used_above, List.mem_append]
      exact or_or_or_comm
  | activity k => simp only [Named, keys_above, List.mem_append]

theorem not_named_empty (n : Name ι) : ¬ (empty : World ι).Named n := by
  cases n with
  | object i => simp [Named, empty, used]
  | activity k => simp [Named, empty, keys]

variable [DecidableEq ι]

def step (w : World ι) : Action ι → Option (World ι)
  | .create i => if i ∈ w.live then none else some { w with live := i :: w.live }
  | .destroy i =>
      if i ∈ w.live ∧ i ∉ w.used then some { w with live := w.live.erase i } else none
  | .handOver i => if i ∈ w.live then some { w with live := w.live.erase i } else none
  | .start k uses =>
      if k ∈ w.keys then none else some { w with running := (k, uses) :: w.running }
  | .stop k =>
      if k ∈ w.keys then some { w with running := w.running.filter fun r => r.1 ≠ k } else none

/-! What each action asks for, and what it does. -/

section Accepted

variable {w v : World ι} {i k : ι} {uses : List ι}

theorem step_create_iff :
    w.step (.create i) = some v ↔ i ∉ w.live ∧ { w with live := i :: w.live } = v := by
  simp [step]

theorem step_destroy_iff :
    w.step (.destroy i) = some v ↔
      (i ∈ w.live ∧ i ∉ w.used) ∧ { w with live := w.live.erase i } = v := by
  simp [step]

theorem step_handOver_iff :
    w.step (.handOver i) = some v ↔ i ∈ w.live ∧ { w with live := w.live.erase i } = v := by
  simp [step]

theorem step_start_iff :
    w.step (.start k uses) = some v ↔
      k ∉ w.keys ∧ { w with running := (k, uses) :: w.running } = v := by
  simp [step]

theorem step_stop_iff :
    w.step (.stop k) = some v ↔
      k ∈ w.keys ∧ { w with running := w.running.filter fun r => r.1 ≠ k } = v := by
  simp [step]

end Accepted

/-- The world after the actions, where all of them are accepted. -/
def exec (w : World ι) (actions : List (Action ι)) : Option (World ι) := actions.foldlM step w

@[simp] theorem exec_nil (w : World ι) : w.exec [] = some w := rfl

@[simp] theorem exec_cons (w : World ι) (a : Action ι) (actions : List (Action ι)) :
    w.exec (a :: actions) = (w.step a).bind fun v => v.exec actions := rfl

theorem exec_append (w : World ι) (as bs : List (Action ι)) :
    w.exec (as ++ bs) = (w.exec as).bind fun v => v.exec bs := by
  rw [exec, List.foldlM_append]
  rfl

/-! ## The frame rule -/

/-- An action that names nothing of `b` does to `w` over `b` what it does to `w`. -/
theorem step_above {w b : World ι} {a : Action ι} (h : ¬ b.Named a.name) :
    (w.above b).step a = (w.step a).map (·.above b) := by
  -- what the action names is in `w` if it is anywhere
  cases a with
  | create i =>
      have hi : i ∉ b.live := fun hi => h (.inl hi)
      by_cases hw : i ∈ w.live
      · simp [step, hw]
      · simp [step, hw, hi, above]
  | destroy i =>
      have hi : i ∉ b.live := fun hi => h (.inl hi)
      have hu : i ∉ b.used := fun hu => h (.inr hu)
      have habove : (i ∈ (w.above b).live ∧ i ∉ (w.above b).used) ↔ (i ∈ w.live ∧ i ∉ w.used) := by
        simp [hi, hu]
      by_cases hw : i ∈ w.live ∧ i ∉ w.used
      · rw [step, step, if_pos hw, if_pos (habove.mpr hw), Option.map_some, live_above,
          List.erase_append_left _ hw.1]
        rfl
      · rw [step, step, if_neg hw, if_neg fun hcon => hw (habove.mp hcon)]
        rfl
  | handOver i =>
      have hi : i ∉ b.live := fun hi => h (.inl hi)
      by_cases hw : i ∈ w.live
      · simp [step, hw, above, List.erase_append_left]
      · simp [step, hw, hi]
  | start k uses =>
      have habove : k ∈ (w.above b).keys ↔ k ∈ w.keys := by
        rw [keys_above, List.mem_append]
        exact or_iff_left h
      by_cases hw : k ∈ w.keys
      · rw [step, step, if_pos hw, if_pos (habove.mpr hw)]
        rfl
      · rw [step, step, if_neg hw, if_neg fun hcon => hw (habove.mp hcon)]
        rfl
  | stop k =>
      have habove : k ∈ (w.above b).keys ↔ k ∈ w.keys := by
        rw [keys_above, List.mem_append]
        exact or_iff_left h
      have hsame : (b.running.filter fun r => r.1 ≠ k) = b.running := by
        refine List.filter_eq_self.mpr fun r hr => ?_
        have hne : r.1 ≠ k := fun e => h (e ▸ List.mem_map_of_mem hr)
        simpa using hne
      by_cases hw : k ∈ w.keys
      · rw [step, step, if_pos hw, if_pos (habove.mpr hw), Option.map_some]
        simp only [above, List.filter_append, hsame]
      · rw [step, step, if_neg hw, if_neg fun hcon => hw (habove.mp hcon)]
        rfl

/-- **The frame rule.** -/
theorem exec_above {b : World ι} {actions : List (Action ι)} :
    ∀ {w : World ι}, (∀ a ∈ actions, ¬ b.Named a.name) →
      (w.above b).exec actions = (w.exec actions).map (·.above b) := by
  induction actions with
  | nil => intro w _; rfl
  | cons a actions ih =>
      intro w h
      rw [exec_cons, exec_cons, step_above (h a List.mem_cons_self)]
      cases hstep : w.step a with
      | none => rfl
      | some v => exact ih fun x hx => h x (List.mem_cons_of_mem a hx)

/-- Actions from the empty world, done on top of a world that they do not name. -/
theorem exec_on {b : World ι} {actions : List (Action ι)} (h : ∀ a ∈ actions, ¬ b.Named a.name) :
    b.exec actions = (empty.exec actions).map (·.above b) := by
  have habove := exec_above (w := empty) h
  rwa [empty_above] at habove

/-! ## What actions leave alone -/

/-- The object is live, or the activity is running. -/
def Present (w : World ι) : Name ι → Prop
  | .object i => i ∈ w.live
  | .activity k => k ∈ w.keys

omit [DecidableEq ι] in
theorem exists_present {w : World ι} (h : w ≠ empty) : ∃ n, w.Present n := by
  obtain ⟨live, running⟩ := w
  cases live with
  | cons i live => exact ⟨.object i, List.mem_cons_self⟩
  | nil =>
      cases running with
      | nil => exact absurd rfl h
      | cons r running => exact ⟨.activity r.1, List.mem_cons_self⟩

/-- A step changes only what it names. -/
theorem present_step {w v : World ι} {a : Action ι} (h : w.step a = some v) {n : Name ι}
    (hn : a.name ≠ n) : v.Present n ↔ w.Present n := by
  cases a with
  | create i =>
      obtain ⟨-, rfl⟩ := step_create_iff.mp h
      cases n with
      | object j =>
          have hne : j ≠ i := fun e => hn (by rw [e]; rfl)
          simp [Present, hne]
      | activity k => exact Iff.rfl
  | destroy i =>
      obtain ⟨-, rfl⟩ := step_destroy_iff.mp h
      cases n with
      | object j =>
          have hne : j ≠ i := fun e => hn (by rw [e]; rfl)
          exact List.mem_erase_of_ne hne
      | activity k => exact Iff.rfl
  | handOver i =>
      obtain ⟨-, rfl⟩ := step_handOver_iff.mp h
      cases n with
      | object j =>
          have hne : j ≠ i := fun e => hn (by rw [e]; rfl)
          exact List.mem_erase_of_ne hne
      | activity k => exact Iff.rfl
  | start k uses =>
      obtain ⟨-, rfl⟩ := step_start_iff.mp h
      cases n with
      | object j => exact Iff.rfl
      | activity j =>
          have hne : j ≠ k := fun e => hn (by rw [e]; rfl)
          simp [Present, keys, hne]
  | stop k =>
      obtain ⟨-, rfl⟩ := step_stop_iff.mp h
      cases n with
      | object j => exact Iff.rfl
      | activity j =>
          have hne : j ≠ k := fun e => hn (by rw [e]; rfl)
          simp only [Present, keys, List.mem_map, List.mem_filter]
          constructor
          · rintro ⟨r, ⟨hr, -⟩, rfl⟩
            exact ⟨r, hr, rfl⟩
          · rintro ⟨r, hr, rfl⟩
            exact ⟨r, ⟨hr, by simpa using hne⟩, rfl⟩

theorem present_exec {actions : List (Action ι)} :
    ∀ {w v : World ι}, w.exec actions = some v → ∀ {n : Name ι},
      (∀ a ∈ actions, a.name ≠ n) → (v.Present n ↔ w.Present n) := by
  induction actions with
  | nil =>
      intro w v h n _
      rw [exec_nil, Option.some.injEq] at h
      rw [h]
  | cons a actions ih =>
      intro w v h n hn
      rw [exec_cons, Option.bind_eq_some_iff] at h
      obtain ⟨u, hstep, hrest⟩ := h
      rw [ih hrest fun x hx => hn x (List.mem_cons_of_mem a hx),
        present_step hstep (hn a List.mem_cons_self)]

/-- A step adds no names but those that the action mentions. -/
theorem named_step {w v : World ι} {a : Action ι} (h : w.step a = some v) {n : Name ι}
    (hn : v.Named n) : w.Named n ∨ n ∈ a.mentions := by
  cases a with
  | create i =>
      obtain ⟨-, rfl⟩ := step_create_iff.mp h
      cases n with
      | object j =>
          rcases hn with hj | hj
          · rcases List.mem_cons.mp hj with rfl | hj
            · exact .inr List.mem_cons_self
            · exact .inl (.inl hj)
          · exact .inl (.inr hj)
      | activity k => exact .inl hn
  | destroy i =>
      obtain ⟨-, rfl⟩ := step_destroy_iff.mp h
      cases n with
      | object j => exact .inl (hn.imp List.mem_of_mem_erase id)
      | activity k => exact .inl hn
  | handOver i =>
      obtain ⟨-, rfl⟩ := step_handOver_iff.mp h
      cases n with
      | object j => exact .inl (hn.imp List.mem_of_mem_erase id)
      | activity k => exact .inl hn
  | start k uses =>
      obtain ⟨-, rfl⟩ := step_start_iff.mp h
      cases n with
      | object j =>
          rcases hn with hj | hj
          · exact .inl (.inl hj)
          · rcases List.mem_append.mp (show j ∈ uses ++ w.used from hj) with hj | hj
            · exact .inr (List.mem_cons_of_mem _ (List.mem_map_of_mem hj))
            · exact .inl (.inr hj)
      | activity j =>
          rcases List.mem_cons.mp (show j ∈ k :: w.keys from hn) with rfl | hj
          · exact .inr List.mem_cons_self
          · exact .inl hj
  | stop k =>
      obtain ⟨-, rfl⟩ := step_stop_iff.mp h
      have hsub : (w.running.filter fun r => r.1 ≠ k) ⊆ w.running := List.filter_subset_self _
      cases n with
      | object j =>
          rcases hn with hj | hj
          · exact .inl (.inl hj)
          · obtain ⟨r, hr, hj⟩ := List.mem_flatMap.mp hj
            exact .inl (.inr (List.mem_flatMap.mpr ⟨r, hsub hr, hj⟩))
      | activity j =>
          obtain ⟨r, hr, rfl⟩ := List.mem_map.mp hn
          exact .inl (List.mem_map_of_mem (hsub hr))

theorem named_exec {actions : List (Action ι)} :
    ∀ {w v : World ι}, w.exec actions = some v → ∀ {n : Name ι}, v.Named n →
      w.Named n ∨ ∃ a ∈ actions, n ∈ a.mentions := by
  induction actions with
  | nil =>
      intro w v h n hn
      rw [exec_nil, Option.some.injEq] at h
      exact .inl (h ▸ hn)
  | cons a actions ih =>
      intro w v h n hn
      rw [exec_cons, Option.bind_eq_some_iff] at h
      obtain ⟨u, hstep, hrest⟩ := h
      rcases ih hrest hn with hu | ⟨b, hb, hmem⟩
      · rcases named_step hstep hu with hw | hmem
        · exact .inl hw
        · exact .inr ⟨a, List.mem_cons_self, hmem⟩
      · exact .inr ⟨b, List.mem_cons_of_mem a hb, hmem⟩

/-! ## What still runs -/

/-- The last thing that the actions do to `k` is to start it. -/
def Runs (actions : List (Action ι)) (k : ι) : Bool :=
  match actions.reverse.find? fun a => a.name = .activity k with
  | some (.start _ _) => true
  | _ => false

theorem runs_append_of_right {as bs : List (Action ι)} {k : ι}
    (h : ∀ b ∈ bs, b.name ≠ .activity k) : Runs (as ++ bs) k = Runs as k := by
  have hnone : bs.reverse.find? (fun b => b.name = .activity k) = none := by
    rw [List.find?_eq_none]
    intro b hb
    simpa using h b (List.mem_reverse.mp hb)
  unfold Runs
  rw [List.reverse_append, List.find?_append, hnone, Option.none_or]

theorem runs_append_of_left {as bs : List (Action ι)} {k : ι}
    (h : ∀ a ∈ as, a.name ≠ .activity k) : Runs (as ++ bs) k = Runs bs k := by
  have hnone : as.reverse.find? (fun a => a.name = .activity k) = none := by
    rw [List.find?_eq_none]
    intro a ha
    simpa using h a (List.mem_reverse.mp ha)
  unfold Runs
  rw [List.reverse_append, List.find?_append, hnone, Option.or_none]

/-! ## Cleanups of which the order does not matter -/

/-- The objects that the actions destroy. -/
def destroyed (actions : List (Action ι)) : List ι :=
  actions.filterMap fun a => match a with
    | .destroy i => some i
    | _ => none

/-- The activities that the actions stop. -/
def stopped (actions : List (Action ι)) : List ι :=
  actions.filterMap fun a => match a with
    | .stop k => some k
    | _ => none

/-- The action destroys or stops. -/
def releases : Action ι → Bool
  | .destroy _ | .stop _ => true
  | _ => false

theorem keys_stop {w : World ι} (hnodup : w.keys.Nodup) (k : ι) :
    ({ w with running := w.running.filter fun r => r.1 ≠ k } : World ι).keys = w.keys.erase k := by
  have hpred : (fun r : ι × List ι => decide (r.1 ≠ k)) = (fun j => j != k) ∘ Prod.fst := by
    funext r
    by_cases h : r.1 = k
    · simp [h]
    · simp [h]
  rw [hnodup.erase_eq_filter]
  simp only [keys, List.filter_map, hpred]

/-- Where no running activity uses an object, a list of destructions and stops undoes the world
exactly where it names each live object and each running activity once. -/
theorem exec_release {actions : List (Action ι)} :
    ∀ {w : World ι}, w.keys.Nodup → w.used = [] → (∀ a ∈ actions, releases a = true) →
      (w.exec actions = some empty ↔
        (destroyed actions).Perm w.live ∧ (stopped actions).Perm w.keys) := by
  -- an accepted action takes its name off one of the two lists, any other one ends the run
  induction actions with
  | nil =>
      intro w _ _ _
      rw [exec_nil, Option.some.injEq]
      constructor
      · rintro rfl
        exact ⟨List.Perm.nil, List.Perm.nil⟩
      · rintro ⟨hlive, hkeys⟩
        have hlive' : w.live = [] := hlive.symm.eq_nil
        have hkeys' : w.running = [] := List.map_eq_nil_iff.mp hkeys.symm.eq_nil
        obtain ⟨live, running⟩ := w
        rw [show live = [] from hlive', show running = [] from hkeys']
        rfl
  | cons a actions ih =>
      intro w hnodup hused hrel
      have hrest : ∀ b ∈ actions, releases b = true :=
        fun b hb => hrel b (List.mem_cons_of_mem a hb)
      cases a with
      | destroy i =>
          have hdes : destroyed (.destroy i :: actions) = i :: destroyed actions := rfl
          have hstop : stopped (.destroy i :: actions) = stopped actions := rfl
          rw [exec_cons, hdes, hstop, List.cons_perm_iff_perm_erase]
          by_cases hi : i ∈ w.live
          · have hstep : w.step (.destroy i) = some { w with live := w.live.erase i } :=
              if_pos ⟨hi, by rw [hused]; exact List.not_mem_nil⟩
            have hih := @ih { w with live := w.live.erase i } hnodup hused hrest
            rw [hstep, Option.bind_some, hih]
            exact ⟨fun h => ⟨⟨hi, h.1⟩, h.2⟩, fun h => ⟨h.1.2, h.2⟩⟩
          · have hstep : w.step (.destroy i) = none := if_neg fun h => hi h.1
            rw [hstep]
            exact ⟨fun h => (by cases h), fun h => absurd h.1.1 hi⟩
      | stop k =>
          have hdes : destroyed (.stop k :: actions) = destroyed actions := rfl
          have hstop : stopped (.stop k :: actions) = k :: stopped actions := rfl
          rw [exec_cons, hdes, hstop, List.cons_perm_iff_perm_erase]
          by_cases hk : k ∈ w.keys
          · have hstep : w.step (.stop k)
                = some { w with running := w.running.filter fun r => r.1 ≠ k } := if_pos hk
            have hkeys := keys_stop hnodup k
            have hused' : ({ w with running := w.running.filter fun r => r.1 ≠ k } :
                World ι).used = [] := by
              rw [used, List.flatMap_eq_nil_iff] at hused ⊢
              exact fun r hr => hused r (List.mem_of_mem_filter hr)
            have hnodup' : ({ w with running := w.running.filter fun r => r.1 ≠ k } :
                World ι).keys.Nodup := by
              rw [hkeys]
              exact hnodup.erase k
            rw [hstep, Option.bind_some, ih hnodup' hused' hrest, hkeys]
            exact ⟨fun h => ⟨h.1, hk, h.2⟩, fun h => ⟨h.1, h.2.2⟩⟩
          · have hstep : w.step (.stop k) = none := if_neg hk
            rw [hstep]
            exact ⟨fun h => (by cases h), fun h => absurd h.2.1 hk⟩
      | create i => exact absurd (hrel _ List.mem_cons_self) Bool.false_ne_true
      | handOver i => exact absurd (hrel _ List.mem_cons_self) Bool.false_ne_true
      | start k uses => exact absurd (hrel _ List.mem_cons_self) Bool.false_ne_true

/-! ## Actions of one kind -/

theorem exec_creates {is : List ι} :
    ∀ {w : World ι}, is.Nodup → (∀ i ∈ is, i ∉ w.live) →
      w.exec (is.map .create) = some { w with live := is.reverse ++ w.live } := by
  induction is with
  | nil => intro w _ _; rfl
  | cons i is ih =>
      intro w hnodup hfresh
      obtain ⟨hi, hrest⟩ := List.nodup_cons.mp hnodup
      have hstep : w.step (.create i) = some { w with live := i :: w.live } :=
        if_neg (hfresh i List.mem_cons_self)
      have hfresh' : ∀ j ∈ is, j ∉ i :: w.live := by
        intro j hj hmem
        rcases List.mem_cons.mp hmem with rfl | hmem
        · exact hi hj
        · exact hfresh j (List.mem_cons_of_mem i hj) hmem
      rw [List.map_cons, exec_cons, hstep, Option.bind_some, ih hrest hfresh', List.reverse_cons,
        List.append_assoc]
      rfl

theorem exec_handOvers {is : List ι} :
    ∀ {w : World ι}, is.Nodup → (∀ i ∈ is, i ∈ w.live) →
      w.exec (is.map .handOver) = some { w with live := w.live.diff is } := by
  induction is with
  | nil => intro w _ _; rfl
  | cons i is ih =>
      intro w hnodup hlive
      obtain ⟨hi, hrest⟩ := List.nodup_cons.mp hnodup
      have hstep : w.step (.handOver i) = some { w with live := w.live.erase i } :=
        if_pos (hlive i List.mem_cons_self)
      have hlive' : ∀ j ∈ is, j ∈ w.live.erase i := by
        intro j hj
        have hne : j ≠ i := fun e => hi (e ▸ hj)
        exact (List.mem_erase_of_ne hne).mpr (hlive j (List.mem_cons_of_mem i hj))
      rw [List.map_cons, exec_cons, hstep, Option.bind_some, ih hrest hlive', List.diff_cons]

/-- Activities that use no objects. -/
theorem exec_starts {ks : List ι} :
    ∀ {w : World ι}, ks.Nodup → (∀ k ∈ ks, k ∉ w.keys) →
      w.exec (ks.map fun k => .start k [])
        = some { w with running := ks.reverse.map (fun k => (k, [])) ++ w.running } := by
  induction ks with
  | nil => intro w _ _; rfl
  | cons k ks ih =>
      intro w hnodup hidle
      obtain ⟨hk, hrest⟩ := List.nodup_cons.mp hnodup
      have hstep : w.step (.start k []) = some { w with running := (k, []) :: w.running } :=
        if_neg (hidle k List.mem_cons_self)
      have hidle' : ∀ j ∈ ks, j ∉ ({ w with running := (k, []) :: w.running } : World ι).keys := by
        intro j hj hmem
        rcases List.mem_cons.mp hmem with rfl | hmem
        · exact hk hj
        · exact hidle j (List.mem_cons_of_mem k hj) hmem
      rw [List.map_cons, exec_cons, hstep, Option.bind_some, ih hrest hidle', List.reverse_cons,
        List.map_append, List.append_assoc]
      rfl

end World

/-- The entries that are chosen. -/
def chosen (l : List (Bool × ι)) : List ι := (l.filter Prod.fst).map Prod.snd

theorem mem_chosen {l : List (Bool × ι)} {i : ι} : i ∈ chosen l ↔ (true, i) ∈ l := by
  simp [chosen]

theorem nodup_chosen {l : List (Bool × ι)} (h : (l.map Prod.snd).Nodup) : (chosen l).Nodup :=
  h.sublist (List.filter_sublist.map Prod.snd)

/-! ## Programs over a stack of cleanups -/

/-- A program: its result, which is missing where it gives up, what it did, and what the
cleanups that it registered will do, the latest first. -/
structure Script (ι α : Type) where
  result : Option α
  actions : List (Action ι)
  undo : List (Action ι)
deriving DecidableEq

namespace Script

open World

variable {α β : Type}

instance : Monad (Script ι) where
  pure a := { result := some a, actions := [], undo := [] }
  bind p f :=
    match p.result with
    | none => { result := none, actions := p.actions, undo := p.undo }
    | some a =>
        { result := (f a).result
          actions := p.actions ++ (f a).actions
          undo := (f a).undo ++ p.undo }

/-- Do `a`, and register its cleanup. -/
def perform (a : Action ι) (undo : List (Action ι)) : Script ι Unit :=
  { result := some (), actions := [a], undo := undo }

/-- Give up unless `ok`. -/
def check (ok : Bool) : Script ι Unit :=
  { result := if ok then some () else none, actions := [], undo := [] }

theorem bind_of_result {p : Script ι α} {f : α → Script ι β} {a : α} (h : p.result = some a) :
    p >>= f = {
      result := (f a).result
      actions := p.actions ++ (f a).actions
      undo := (f a).undo ++ p.undo } := by
  show (match p.result with | none => _ | some a => _) = _
  rw [h]

theorem bind_of_failed {p : Script ι α} {f : α → Script ι β} (h : p.result = none) :
    p >>= f = { result := none, actions := p.actions, undo := p.undo } := by
  show (match p.result with | none => _ | some a => _) = _
  rw [h]

theorem result_bind (p : Script ι α) (f : α → Script ι β) :
    (p >>= f).result = p.result.bind fun a => (f a).result := by
  cases hp : p.result with
  | none => rw [bind_of_failed hp]; rfl
  | some a => rw [bind_of_result hp]; rfl

theorem actions_bind (p : Script ι α) (f : α → Script ι β) :
    (p >>= f).actions = p.actions ++ (p.result.map fun a => (f a).actions).getD [] := by
  cases hp : p.result with
  | none => rw [bind_of_failed hp]; simp
  | some a => rw [bind_of_result hp]; rfl

theorem bind_bind {γ : Type} (p : Script ι α) (f : α → Script ι β) (g : β → Script ι γ) :
    p >>= f >>= g = p >>= fun a => f a >>= g := by
  cases hp : p.result with
  | none =>
      have hpf : (p >>= f).result = none := by rw [bind_of_failed hp]
      rw [bind_of_failed hpf, bind_of_failed hp, bind_of_failed hp]
  | some a =>
      cases hf : (f a).result with
      | none =>
          have hpf : (p >>= f).result = none := by rw [bind_of_result hp, hf]
          rw [bind_of_failed hpf, bind_of_result hp, bind_of_result hp, bind_of_failed hf]
      | some b =>
          have hpf : (p >>= f).result = some b := by rw [bind_of_result hp, hf]
          rw [bind_of_result hpf, bind_of_result hp, bind_of_result hp, bind_of_result hf,
            List.append_assoc, List.append_assoc]

/-- What the program and its cleanups name or use has the property. -/
def Within (p : Script ι α) (P : Name ι → Prop) : Prop :=
  ∀ a ∈ p.actions ++ p.undo, ∀ n ∈ a.mentions, P n

theorem within_check (ok : Bool) (P : Name ι → Prop) : (check ok : Script ι Unit).Within P :=
  fun _ ha => absurd ha List.not_mem_nil

theorem Within.bind {p : Script ι α} {f : α → Script ι β} {P : Name ι → Prop} (hp : p.Within P)
    (hf : ∀ a, (f a).Within P) : (p >>= f).Within P := by
  cases hres : p.result with
  | none =>
      rw [bind_of_failed hres]
      exact hp
  | some a =>
      rw [bind_of_result hres]
      intro b hb
      simp only [List.mem_append] at hb
      rcases hb with (hb | hb) | hb | hb
      · exact hp b (List.mem_append_left _ hb)
      · exact hf a b (List.mem_append_left _ hb)
      · exact hf a b (List.mem_append_right _ hb)
      · exact hp b (List.mem_append_right _ hb)

variable [DecidableEq ι]

/-- What the program did is undone by its cleanups, all of it, once, and in a safe order. -/
def Safe (p : Script ι α) : Prop := empty.exec (p.actions ++ p.undo) = some empty

instance (p : Script ι α) : Decidable p.Safe := inferInstanceAs (Decidable (_ = _))

/-- A program that is safe and acts on names of `O` only. While its cleanups wait, the world
has no names but those of `M`. -/
structure Bracketed (p : Script ι α) (O M : List (Name ι)) : Prop where
  acted : ∀ a ∈ p.actions ++ p.undo, a.name ∈ O
  world : ∃ x, empty.exec p.actions = some x ∧ x.exec p.undo = some empty ∧
    ∀ n, x.Named n → n ∈ M

theorem Bracketed.safe {p : Script ι α} {O M : List (Name ι)} (h : Bracketed p O M) : p.Safe := by
  obtain ⟨x, hx, hundo, -⟩ := h.world
  rw [Safe, exec_append, hx]
  exact hundo

theorem Bracketed.mono {p : Script ι α} {O O' M M' : List (Name ι)} (h : Bracketed p O M)
    (hO : O ⊆ O') (hM : M ⊆ M') : Bracketed p O' M' := by
  obtain ⟨x, hx, hundo, hnamed⟩ := h.world
  exact ⟨fun a ha => hO (h.acted a ha), x, hx, hundo, fun n hn => hM (hnamed n hn)⟩

theorem bracketed_pure (a : α) : Bracketed (pure a : Script ι α) [] [] := by
  refine ⟨fun a ha => absurd ha List.not_mem_nil, empty, rfl, rfl, ?_⟩
  intro n hn
  exact absurd hn (not_named_empty n)

theorem bracketed_check (ok : Bool) : Bracketed (check ok : Script ι Unit) [] [] := by
  obtain ⟨hacted, hworld⟩ := bracketed_pure (ι := ι) ()
  exact ⟨hacted, hworld⟩

/-- An object with its destruction as the cleanup. -/
theorem bracketed_acquire (i : ι) :
    Bracketed (perform (.create i) [.destroy i]) [.object i] [.object i] := by
  refine ⟨?_, ⟨[i], []⟩, ?_, ?_, ?_⟩
  · simp [perform, Action.name]
  · simp [perform, step, empty]
  · simp [perform, step, empty, used]
  · intro n hn
    cases n with
    | object j => simpa [Named, used] using hn
    | activity k => simp [Named, keys] at hn

/-- An activity with its stop as the cleanup. -/
theorem bracketed_begin (k : ι) (uses : List ι) :
    Bracketed (perform (.start k uses) [.stop k]) [.activity k] (.activity k :: uses.map .object) := by
  refine ⟨?_, ⟨[], [(k, uses)]⟩, ?_, ?_, ?_⟩
  · simp [perform, Action.name]
  · simp [perform, step, empty, keys]
  · simp [perform, step, empty, keys]
  · intro n hn
    cases n with
    | object j => simpa [Named, used] using hn
    | activity j => simpa [Named, keys] using hn

/-- **Sequencing.** The second program may not act on names that the first one left. -/
theorem Bracketed.bind {p : Script ι α} {f : α → Script ι β} {O₁ M₁ O₂ M₂ : List (Name ι)}
    (hp : Bracketed p O₁ M₁) (hf : ∀ a, Bracketed (f a) O₂ M₂) (hdis : ∀ n ∈ O₂, n ∉ M₁) :
    Bracketed (p >>= f) (O₁ ++ O₂) (M₁ ++ M₂) := by
  show Bracketed (match p.result with | none => _ | some a => _) _ _
  cases hres : p.result with
  | none =>
      refine Bracketed.mono ?_ (List.subset_append_left O₁ O₂) (List.subset_append_left M₁ M₂)
      exact ⟨hp.acted, hp.world⟩
  | some a =>
      obtain ⟨x, hx, hundo, hnamed⟩ := hp.world
      obtain ⟨y, hy, hundo', hnamed'⟩ := (hf a).world
      have hframe : ∀ b ∈ (f a).actions ++ (f a).undo, ¬ x.Named b.name :=
        fun b hb hcon => hdis _ ((hf a).acted b hb) (hnamed _ hcon)
      refine ⟨?_, y.above x, ?_, ?_, ?_⟩
      · intro b hb
        simp only [List.mem_append] at hb
        rcases hb with (hb | hb) | hb | hb
        · exact List.mem_append_left _ (hp.acted b (List.mem_append_left _ hb))
        · exact List.mem_append_right _ ((hf a).acted b (List.mem_append_left _ hb))
        · exact List.mem_append_right _ ((hf a).acted b (List.mem_append_right _ hb))
        · exact List.mem_append_left _ (hp.acted b (List.mem_append_right _ hb))
      · show empty.exec (p.actions ++ (f a).actions) = _
        rw [exec_append, hx, Option.bind_some,
          exec_on fun b hb => hframe b (List.mem_append_left _ hb), hy]
        rfl
      · show (y.above x).exec ((f a).undo ++ p.undo) = _
        rw [exec_append, exec_above fun b hb => hframe b (List.mem_append_right _ hb), hundo']
        exact hundo
      · intro n hn
        rcases (named_above y x n).mp hn with hn | hn
        · exact List.mem_append_right _ (hnamed' n hn)
        · exact List.mem_append_left _ (hnamed n hn)

/-! ## The one part that is not bracketed -/

/-- Around a bracketed program: it is safe with what follows exactly where that is safe. -/
theorem safe_bind_iff {p : Script ι α} {f : α → Script ι β} {O M : List (Name ι)} {a : α}
    (hp : Bracketed p O M) (hres : p.result = some a)
    (hdis : ∀ b ∈ (f a).actions ++ (f a).undo, b.name ∉ M ∧ b.name ∉ O) :
    (p >>= f).Safe ↔ (f a).Safe := by
  obtain ⟨x, hx, hundo, hnamed⟩ := hp.world
  have hframe : ∀ b ∈ (f a).actions ++ (f a).undo, ¬ x.Named b.name :=
    fun b hb hcon => (hdis b hb).1 (hnamed _ hcon)
  have htotal : empty.exec ((p >>= f).actions ++ (p >>= f).undo)
      = ((empty.exec ((f a).actions ++ (f a).undo)).map (·.above x)).bind
          fun v => v.exec p.undo := by
    rw [bind_of_result hres, ← exec_on hframe, List.append_assoc, ← List.append_assoc _ _ p.undo,
      exec_append, hx, Option.bind_some, exec_append]
  unfold Safe
  rw [htotal]
  cases hin : empty.exec ((f a).actions ++ (f a).undo) with
  | none => simp
  | some y =>
      rw [Option.map_some, Option.bind_some, Option.some.injEq]
      constructor
      · intro hend
        by_contra hy
        -- something of `y` is left, and the cleanups of `p` do not touch it
        obtain ⟨n, hn⟩ := exists_present hy
        have hact : ∃ b ∈ (f a).actions ++ (f a).undo, b.name = n := by
          by_contra hcon
          have hnone := (present_exec hin fun b hb e => hcon ⟨b, hb, e⟩).mp hn
          cases n with
          | object i => exact absurd hnone List.not_mem_nil
          | activity k => exact absurd hnone List.not_mem_nil
        obtain ⟨b, hb, rfl⟩ := hact
        have hkeep : ∀ c ∈ p.undo, c.name ≠ b.name := fun c hc e =>
          (hdis b hb).2 (e ▸ hp.acted c (List.mem_append_right _ hc))
        have habove : (y.above x).Present b.name := by
          cases hname : b.name with
          | object i => rw [hname] at hn; exact List.mem_append_left _ hn
          | activity k =>
              rw [hname] at hn
              show k ∈ (y.above x).keys
              rw [keys_above]
              exact List.mem_append_left _ hn
        have hleft := (present_exec hend hkeep).mpr habove
        cases hname : b.name with
        | object i => rw [hname] at hleft; exact absurd hleft List.not_mem_nil
        | activity k => rw [hname] at hleft; exact absurd hleft List.not_mem_nil
      · rintro rfl
        rw [empty_above]
        exact hundo

/-- Under a bracketed program: what comes before it is as safe without it. -/
theorem safe_bind_inner {p : Script ι α} {f : α → Script ι β} {O M : List (Name ι)} {a : α}
    (hres : p.result = some a) (hf : Bracketed (f a) O M)
    (hdis : ∀ b ∈ p.actions, ∀ n ∈ b.mentions, n ∉ O) : (p >>= f).Safe ↔ p.Safe := by
  obtain ⟨y, hy, hundo, -⟩ := hf.world
  unfold Safe
  rw [bind_of_result hres]
  show empty.exec (p.actions ++ (f a).actions ++ ((f a).undo ++ p.undo)) = _ ↔ _
  rw [List.append_assoc, exec_append, exec_append]
  cases hx : empty.exec p.actions with
  | none => simp
  | some x =>
      have hframe : ∀ b ∈ (f a).actions ++ (f a).undo, ¬ x.Named b.name := by
        intro b hb hcon
        rcases named_exec hx hcon with hcon | ⟨c, hc, hmem⟩
        · exact not_named_empty _ hcon
        · exact hdis c hc _ hmem (hf.acted b hb)
      rw [Option.bind_some, Option.bind_some, ← List.append_assoc, exec_append, exec_on hframe,
        exec_append, hy, Option.bind_some, hundo, Option.map_some, Option.bind_some, empty_above]

/-! ## Programs that clean up where they give up -/

/-- A call that creates `i` where it succeeds. -/
def acquire (ok : Bool) (i : ι) : Script ι Bool :=
  { result := some ok, actions := if ok then [.create i] else [], undo := [] }

/-- Destroy the objects, in order. -/
def release (is : List ι) : Script ι Unit :=
  { result := some (), actions := is.map .destroy, undo := [] }

/-- An owner takes the object over. -/
def handOver (i : ι) : Script ι Unit :=
  { result := some (), actions := [.handOver i], undo := [] }

/-- Where `failed`, destroy the objects and give up. -/
def giveUpIf (failed : Bool) (is : List ι) : Script ι Unit :=
  { result := if failed then none else some ()
    actions := if failed then is.map .destroy else []
    undo := [] }

/-- Begun in the world `w`, the program leaves the empty world where it gives up. -/
def Clean (w : World ι) (p : Script ι α) : Prop :=
  p.result = none → w.exec p.actions = some empty

/-- A part that goes through leads to the world in which the rest begins. -/
theorem clean_bind {w v : World ι} {p : Script ι α} {f : α → Script ι β} {a : α}
    (hres : p.result = some a) (hexec : w.exec p.actions = some v) :
    Clean w (p >>= f) ↔ Clean v (f a) := by
  unfold Clean
  rw [bind_of_result hres]
  show (_ → w.exec (p.actions ++ (f a).actions) = _) ↔ _
  rw [exec_append, hexec]
  exact Iff.rfl

/-- A part that begins and ends without running activities, beside the objects of `live`. -/
theorem clean_beside {live x : List ι} {p : Script ι α} {f : α → Script ι β} {a : α}
    (hres : p.result = some a) (hexec : empty.exec p.actions = some ⟨x, []⟩)
    {O : List (Name ι)} (hacted : ∀ b ∈ p.actions, b.name ∈ O)
    (hapart : ∀ i ∈ live, .object i ∉ O) :
    Clean ⟨live, []⟩ (p >>= f) ↔ Clean ⟨x ++ live, []⟩ (f a) := by
  refine clean_bind hres ?_
  rw [exec_on, hexec]
  · rfl
  · intro b hb hcon
    have hO := hacted b hb
    cases hname : b.name with
    | object i =>
        rw [hname] at hcon hO
        rcases hcon with hi | hi
        · exact hapart i hi hO
        · exact absurd hi List.not_mem_nil
    | activity k =>
        rw [hname] at hcon
        exact absurd hcon List.not_mem_nil

theorem clean_acquire {w : World ι} {ok : Bool} {i : ι} {f : Bool → Script ι β}
    (hi : i ∉ w.live) :
    Clean w (acquire ok i >>= f) ↔
      Clean (if ok then { w with live := i :: w.live } else w) (f ok) := by
  refine clean_bind rfl ?_
  cases ok with
  | false => rfl
  | true => simp [acquire, step, hi]

/-- **The cleanup of an exit.** It has to name the live objects, each once. -/
theorem clean_giveUpIf {live : List ι} {failed : Bool} {is : List ι} {f : Unit → Script ι β} :
    Clean ⟨live, []⟩ (giveUpIf failed is >>= f) ↔
      if failed then is.Perm live else Clean ⟨live, []⟩ (f ()) := by
  cases failed with
  | false => exact clean_bind rfl rfl
  | true =>
      have hrel : ∀ a ∈ is.map Action.destroy, releases a = true := by
        intro a ha
        obtain ⟨i, -, rfl⟩ := List.mem_map.mp ha
        rfl
      have hdes : destroyed (is.map Action.destroy) = is := by
        simp [destroyed, List.filterMap_map]
      have hstop : stopped (is.map Action.destroy) = [] := by
        simp [stopped, List.filterMap_map]
      have hexec := exec_release (w := ⟨live, []⟩) List.nodup_nil rfl hrel
      rw [hdes, hstop] at hexec
      unfold Clean
      rw [bind_of_failed (p := giveUpIf true is) rfl, if_pos rfl]
      show (none = none → World.exec _ (is.map Action.destroy) = _) ↔ _
      rw [hexec]
      exact ⟨fun h => (h rfl).1, fun h _ => ⟨h, List.Perm.nil⟩⟩

end Script

end QcapDemos.Lib
