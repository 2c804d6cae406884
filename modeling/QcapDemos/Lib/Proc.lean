import Mathlib.Logic.Basic

set_option autoImplicit false

/-! # Programs that raise and clean up

A `Proc` acts on a state and returns a value or raises an error. What it did before it raised stays
done, so that a caller has to undo it: `ensuring` is `try … finally`, whose cleanup runs on both
ways out and may itself raise, and `rescuing` is `try … except`, whose handler raises again.

`Meets P p Q R` says that from a state of `P` the program returns in `Q` or raises in `R`. There is
one rule for each way to put programs together, so that a proof follows the text of a program and
names at each point what is done so far.
-/

namespace QcapDemos.Lib

/-- A program over the states `σ` that may raise an `ε`. -/
def Proc (σ ε α : Type) : Type := σ → Except ε α × σ

namespace Proc

variable {σ ε α β : Type}

instance : Monad (Proc σ ε) where
  pure a s := (.ok a, s)
  bind p f s :=
    match p s with
    | (.ok a, s') => f a s'
    | (.error e, s') => (.error e, s')

def raise (e : ε) : Proc σ ε α := fun s => (.error e, s)

/-- Go on if `ok`, and raise `e` if not. -/
def require (ok : Bool) (e : ε) : Proc σ ε Unit := if ok then pure () else raise e

/-- The value of an option; without one raise `e`. -/
def demand (o : Option α) (e : ε) : Proc σ ε α :=
  match o with
  | some a => pure a
  | none => raise e

/-- A call that does not raise. -/
def call (f : σ → α × σ) : Proc σ ε α := fun s => (.ok (f s).1, (f s).2)

def update (f : σ → σ) : Proc σ ε Unit := call fun s => ((), f s)

/-- `try p finally cleanup`. An error of the cleanup takes the place of what `p` ended with. -/
def ensuring (p : Proc σ ε α) (cleanup : Proc σ ε Unit) : Proc σ ε α := fun s =>
  match p s with
  | (r, s') =>
      match cleanup s' with
      | (.ok _, s'') => (r, s'')
      | (.error e, s'') => (.error e, s'')

/-- `try p except: handler; raise`. -/
def rescuing (p : Proc σ ε α) (handler : Proc σ ε Unit) : Proc σ ε α := fun s =>
  match p s with
  | (.ok a, s') => (.ok a, s')
  | (.error e, s') =>
      match handler s' with
      | (.ok _, s'') => (.error e, s'')
      | (.error e', s'') => (.error e', s'')

/-- Whether the program returned. What it did stays done. -/
def attempt (p : Proc σ ε Unit) : Proc σ ε Bool := fun s =>
  match p s with
  | (.ok _, s') => (.ok true, s')
  | (.error _, s') => (.ok false, s')

/-! ## Specifications -/

/-- A run that returned is in `Q`, and one that raised is in `R`. -/
def Ends (Q : α → σ → Prop) (R : ε → σ → Prop) : Except ε α × σ → Prop
  | (.ok a, s) => Q a s
  | (.error e, s) => R e s

/-- From a state of `P` the program returns in `Q` or raises in `R`. -/
def Meets (P : σ → Prop) (p : Proc σ ε α) (Q : α → σ → Prop) (R : ε → σ → Prop) : Prop :=
  ∀ s, P s → Ends Q R (p s)

section Rules

variable {P P' : σ → Prop} {Q Q' : α → σ → Prop} {R R' : ε → σ → Prop} {p : Proc σ ε α}

theorem Ends.imp {r : Except ε α × σ} (h : Ends Q R r) (hQ : ∀ a s, Q a s → Q' a s)
    (hR : ∀ e s, R e s → R' e s) : Ends Q' R' r := by
  obtain ⟨e | a, s⟩ := r
  · exact hR e s h
  · exact hQ a s h

theorem Meets.weaken (h : Meets P p Q R) (hP : ∀ s, P' s → P s) (hQ : ∀ a s, Q a s → Q' a s)
    (hR : ∀ e s, R e s → R' e s) : Meets P' p Q' R' :=
  fun s hs => (h s (hP s hs)).imp hQ hR

theorem Meets.before (h : Meets P p Q R) (hP : ∀ s, P' s → P s) : Meets P' p Q R :=
  fun s hs => h s (hP s hs)

theorem Meets.returning (h : Meets P p Q R) (hQ : ∀ a s, Q a s → Q' a s) : Meets P p Q' R :=
  h.weaken (fun _ => id) hQ fun _ _ => id

theorem Meets.raising (h : Meets P p Q R) (hR : ∀ e s, R e s → R' e s) : Meets P p Q R' :=
  h.weaken (fun _ => id) (fun _ _ => id) hR

/-- A specification for each state separately. -/
theorem Meets.of_forall (h : ∀ s, P s → Meets (fun t => t = s) p Q R) : Meets P p Q R :=
  fun s hs => h s hs s rfl

/-- A fact before the program that is not about the state. -/
theorem meets_assume {A : Prop} (h : A → Meets P p Q R) : Meets (fun s => A ∧ P s) p Q R :=
  fun s hs => h hs.1 s hs.2

theorem meets_exists {ι : Sort _} {P : ι → σ → Prop} (h : ∀ i, Meets (P i) p Q R) :
    Meets (fun s => ∃ i, P i s) p Q R :=
  fun s ⟨i, hi⟩ => h i s hi

theorem meets_pure {a : α} (h : ∀ s, P s → Q a s) : Meets P (pure a) Q R := h

theorem meets_raise {e : ε} (h : ∀ s, P s → R e s) : Meets P (raise e : Proc σ ε α) Q R := h

theorem meets_require {ok : Bool} {e : ε} {Q : Unit → σ → Prop}
    (hok : ∀ s, P s → ok = true → Q () s) (hno : ∀ s, P s → ok = false → R e s) :
    Meets P (require ok e) Q R := by
  cases ok with
  | true => exact meets_pure fun s hs => hok s hs rfl
  | false => exact meets_raise fun s hs => hno s hs rfl

theorem meets_demand {o : Option α} {e : ε} (hsome : ∀ s a, P s → o = some a → Q a s)
    (hnone : ∀ s, P s → o = none → R e s) : Meets P (demand o e) Q R := by
  cases o with
  | some a => exact meets_pure fun s hs => hsome s a hs rfl
  | none => exact meets_raise fun s hs => hnone s hs rfl

theorem meets_call {f : σ → α × σ} (h : ∀ s, P s → Q (f s).1 (f s).2) : Meets P (call f) Q R := h

theorem meets_update {f : σ → σ} {Q : Unit → σ → Prop} (h : ∀ s, P s → Q () (f s)) :
    Meets P (update f) Q R := h

/-- **Sequencing.** -/
theorem Meets.bind {f : α → Proc σ ε β} {Q' : β → σ → Prop} (hp : Meets P p Q R)
    (hf : ∀ a, Meets (Q a) (f a) Q' R) : Meets P (p >>= f) Q' R := by
  intro s hs
  have hmid := hp s hs
  simp only [Bind.bind]
  generalize p s = r at hmid ⊢
  obtain ⟨e | a, s'⟩ := r
  · exact hmid
  · exact hf a s' hmid

theorem bind_assoc {γ : Type} (p : Proc σ ε α) (f : α → Proc σ ε β) (g : β → Proc σ ε γ) :
    p >>= f >>= g = p >>= fun a => f a >>= g := by
  funext s
  simp only [Bind.bind]
  rcases p s with ⟨e | a, s'⟩
  · rfl
  · rfl

/-- A call whose result is checked at once. -/
theorem meets_call_require {f : σ → Bool × σ} {e : ε} {Q : Unit → σ → Prop}
    (hok : ∀ s, P s → (f s).1 = true → Q () (f s).2)
    (hno : ∀ s, P s → (f s).1 = false → R e (f s).2) :
    Meets P (call f >>= fun ok => require ok e) Q R := by
  intro s hs
  have hok := hok s hs
  have hno := hno s hs
  simp only [Bind.bind, call]
  cases h : (f s).1 with
  | true => exact hok h
  | false => exact hno h

/-- The same with what follows. -/
theorem meets_call_require_bind {f : σ → Bool × σ} {e : ε} {rest : Unit → Proc σ ε β}
    {Q : σ → Prop} {Q' : β → σ → Prop} (hok : ∀ s, P s → (f s).1 = true → Q (f s).2)
    (hno : ∀ s, P s → (f s).1 = false → R e (f s).2) (hrest : Meets Q (rest ()) Q' R) :
    Meets P (call f >>= fun ok => require ok e >>= rest) Q' R := by
  rw [← bind_assoc]
  exact Meets.bind (meets_call_require (Q := fun _ => Q) hok hno) fun _ => hrest

/-- **Cleanup.** It runs on both ways out. -/
theorem Meets.ensuring {cleanup : Proc σ ε Unit} {Q₁ : α → σ → Prop} {R₁ : ε → σ → Prop}
    (hp : Meets P p Q₁ R₁) (hok : ∀ a, Meets (Q₁ a) cleanup (fun _ => Q a) R)
    (herr : ∀ e, Meets (R₁ e) cleanup (fun _ => R e) R) : Meets P (p.ensuring cleanup) Q R := by
  intro s hs
  have hmid := hp s hs
  unfold Proc.ensuring
  generalize p s = r at hmid ⊢
  obtain ⟨e | a, s'⟩ := r
  · have hend := herr e s' hmid
    dsimp only
    generalize cleanup s' = r at hend ⊢
    obtain ⟨e' | u, s''⟩ := r
    · exact hend
    · exact hend
  · have hend := hok a s' hmid
    dsimp only
    generalize cleanup s' = r at hend ⊢
    obtain ⟨e' | u, s''⟩ := r
    · exact hend
    · exact hend

/-- **A failure that the caller looks at.** -/
theorem Meets.attempt {p : Proc σ ε Unit} {Q : Bool → σ → Prop}
    (hp : Meets P p (fun _ => Q true) fun _ => Q false) : Meets P (Proc.attempt p) Q R := by
  intro s hs
  have hmid := hp s hs
  unfold Proc.attempt
  generalize p s = r at hmid ⊢
  obtain ⟨e | a, s'⟩ := r
  · exact hmid
  · exact hmid

/-- **The handler.** It runs where the program raised, and the program still raises. -/
theorem Meets.rescuing {handler : Proc σ ε Unit} {R₁ : ε → σ → Prop} (hp : Meets P p Q R₁)
    (hhandler : ∀ e, Meets (R₁ e) handler (fun _ => R e) R) : Meets P (p.rescuing handler) Q R := by
  intro s hs
  have hmid := hp s hs
  unfold Proc.rescuing
  generalize p s = r at hmid ⊢
  obtain ⟨e | a, s'⟩ := r
  · have hend := hhandler e s' hmid
    dsimp only
    generalize handler s' = r at hend ⊢
    obtain ⟨e' | u, s''⟩ := r
    · exact hend
    · exact hend
  · exact hmid

end Rules

end Proc

end QcapDemos.Lib
