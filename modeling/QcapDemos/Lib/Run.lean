import Mathlib.Data.List.Induction

set_option autoImplicit false

/-! # Runs of a machine

A *machine* consumes one event at a time and answers each with an output. This file fixes
the run of a machine on a list of events and gives the two rules by which facts about
whole runs are proved: an invariant that may mention the history of events consumed so far
(`Machine.history_inv`), and a simulation between two machines fed with the same events
(`Machine.history_sim`). Both rules allow a side condition on each event that itself
depends on the events before it, such as the monotonicity of a clock.
-/

namespace QcapDemos.Lib

/-- Where a history with one more event is split at an event, it is split at the last one or
before it. -/
theorem snoc_eq_append_cons {α : Type} {log before after : List α} {e w : α}
    (h : log ++ [e] = before ++ w :: after) :
    (before = log ∧ w = e ∧ after = []) ∨ ∃ after', after = after' ++ [e] ∧
      log = before ++ w :: after' := by
  rcases List.eq_nil_or_concat after with rfl | ⟨after', a, rfl⟩
  · obtain ⟨rfl, heq⟩ := List.append_inj' h rfl
    cases heq
    exact .inl ⟨rfl, rfl, rfl⟩
  · have h' : log ++ [e] = (before ++ w :: after') ++ [a] := by
      rw [h, List.concat_eq_append]
      simp
    obtain ⟨rfl, heq⟩ := List.append_inj' h' rfl
    cases heq
    exact .inr ⟨after', List.concat_eq_append, rfl⟩

/-- A machine with states `σ`, events `ε` and outputs `ο`. -/
structure Machine (σ ε ο : Type) where
  step : σ → ε → σ × ο

namespace Machine

variable {σ τ ε ο : Type}

/-- The state after the events of a list, in order. -/
def run (m : Machine σ ε ο) (s : σ) (es : List ε) : σ := es.foldl (fun s e => (m.step s e).1) s

/-- The outputs of a run, one for each event, in order. -/
def outputs (m : Machine σ ε ο) (s : σ) : List ε → List ο
  | [] => []
  | e :: es => (m.step s e).2 :: m.outputs (m.step s e).1 es

@[simp] theorem run_nil (m : Machine σ ε ο) (s : σ) : m.run s [] = s := rfl

@[simp] theorem run_cons (m : Machine σ ε ο) (s : σ) (e : ε) (es : List ε) :
    m.run s (e :: es) = m.run (m.step s e).1 es := rfl

theorem run_append (m : Machine σ ε ο) (s : σ) (es es' : List ε) :
    m.run s (es ++ es') = m.run (m.run s es) es' := by
  simp [run, List.foldl_append]

theorem run_snoc (m : Machine σ ε ο) (s : σ) (es : List ε) (e : ε) :
    m.run s (es ++ [e]) = (m.step (m.run s es) e).1 := by
  rw [run_append]; rfl

@[simp] theorem outputs_nil (m : Machine σ ε ο) (s : σ) : m.outputs s [] = [] := rfl

theorem outputs_append (m : Machine σ ε ο) (s : σ) (es es' : List ε) :
    m.outputs s (es ++ es') = m.outputs s es ++ m.outputs (m.run s es) es' := by
  induction es generalizing s with
  | nil => rfl
  | cons a es ih =>
      show (m.step s a).2 :: m.outputs (m.step s a).1 (es ++ es') = _
      rw [ih]
      rfl

theorem outputs_snoc (m : Machine σ ε ο) (s : σ) (es : List ε) (e : ε) :
    m.outputs s (es ++ [e]) = m.outputs s es ++ [(m.step (m.run s es) e).2] := by
  rw [outputs_append]; rfl

@[simp] theorem length_outputs (m : Machine σ ε ο) (s : σ) (es : List ε) :
    (m.outputs s es).length = es.length := by
  induction es generalizing s with
  | nil => rfl
  | cons a es ih => simp [outputs, ih]

/-! ## Side conditions on events -/

/-- Every event of the list meets the condition `ok`, which may mention the events
consumed before it. -/
def Admissible (ok : List ε → ε → Prop) (es : List ε) : Prop :=
  ∀ p e q, es = p ++ e :: q → ok p e

theorem Admissible.left {ok : List ε → ε → Prop} {es es' : List ε}
    (h : Admissible ok (es ++ es')) : Admissible ok es := by
  intro p a q hes
  exact h p a (q ++ es') (by rw [hes, List.append_assoc]; rfl)

theorem Admissible.prefix {ok : List ε → ε → Prop} {es : List ε} {e : ε}
    (h : Admissible ok (es ++ [e])) : Admissible ok es :=
  h.left

theorem Admissible.last {ok : List ε → ε → Prop} {es : List ε} {e : ε}
    (h : Admissible ok (es ++ [e])) : ok es e :=
  h es e [] rfl

/-- The condition, event by event. -/
theorem admissible_iff_getElem {ok : List ε → ε → Prop} {es : List ε} :
    Admissible ok es ↔ ∀ i (h : i < es.length), ok (es.take i) es[i] := by
  constructor
  · intro h i hi
    refine h (es.take i) es[i] (es.drop (i + 1)) ?_
    rw [← List.drop_eq_getElem_cons hi, List.take_append_drop]
  · intro h p e q hes
    have hlen : p.length < es.length := by
      rw [hes, List.length_append, List.length_cons]
      omega
    have hp := h p.length hlen
    simp only [hes, List.take_left, List.getElem_append_right (Nat.le_refl _), Nat.sub_self,
      List.getElem_cons_zero] at hp
    exact hp

/-! ## The two rules -/

/-- **The invariant rule.** `I` may relate the state to the events consumed so far. -/
theorem history_inv (m : Machine σ ε ο) (s : σ) (ok : List ε → ε → Prop)
    (I : List ε → σ → Prop) (hnil : I [] s)
    (hstep : ∀ es e, I es (m.run s es) → ok es e → I (es ++ [e]) (m.step (m.run s es) e).1) :
    ∀ es, Admissible ok es → I es (m.run s es) := by
  intro es
  induction es using List.reverseRecOn with
  | nil => intro _; exact hnil
  | append_singleton es e ih =>
      intro h
      rw [run_snoc]
      exact hstep es e (ih h.prefix) h.last

/-- The invariant rule when neither the invariant nor the condition looks at the past. -/
theorem inv_run (m : Machine σ ε ο) (ok : ε → Prop) (I : σ → Prop)
    (hstep : ∀ s e, I s → ok e → I (m.step s e).1) :
    ∀ (es : List ε) (s : σ), (∀ e ∈ es, ok e) → I s → I (m.run s es) := by
  intro es
  induction es with
  | nil => intro s _ hs; exact hs
  | cons e es ih =>
      intro s hok hs
      exact ih _ (fun a ha => hok a (by simp [ha])) (hstep s e hs (hok e (by simp)))

/-- **The simulation rule.** Two machines started in related states and fed with the same
events give the same outputs, when a step keeps the relation and answers alike. -/
theorem history_sim (m : Machine σ ε ο) (n : Machine τ ε ο) (s : σ) (t : τ)
    (ok : List ε → ε → Prop) (R : List ε → σ → τ → Prop) (hnil : R [] s t)
    (hstep : ∀ es e, R es (m.run s es) (n.run t es) → ok es e →
      (m.step (m.run s es) e).2 = (n.step (n.run t es) e).2 ∧
      R (es ++ [e]) (m.step (m.run s es) e).1 (n.step (n.run t es) e).1) :
    ∀ es, Admissible ok es →
      m.outputs s es = n.outputs t es ∧ R es (m.run s es) (n.run t es) := by
  intro es
  induction es using List.reverseRecOn with
  | nil => intro _; exact ⟨rfl, hnil⟩
  | append_singleton es e ih =>
      intro h
      obtain ⟨hout, hR⟩ := ih h.prefix
      obtain ⟨hlast, hR'⟩ := hstep es e hR h.last
      rw [outputs_snoc, outputs_snoc, run_snoc, run_snoc, hout, hlast]
      exact ⟨rfl, hR'⟩

end Machine

end QcapDemos.Lib
