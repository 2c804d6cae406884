import QcapDemos.Rx.MediaRuns

set_option autoImplicit false

/-! # The two clients of the media receiver

The QCAP API mode and the RTSP bridge, each from its start to its end, over all outcomes of their
calls and all events in between. The API mode leaves nothing behind. The RTSP bridge leaves the pads
that could not be added to its two sinks, and nothing else.
-/

namespace QcapDemos.Rx.Media

open QcapDemos.Lib Holdings Proc

/-- In the end the objects of `L` are left, and everything else that was made was destroyed: once,
while it was there, and after all that worked with it. -/
structure Released (L : Set Object) (s : State) : Prop where
  accounted : s.holdings.ledger.Accounted fun _ => True
  left : ∀ o, o ∈ s.holdings.ledger.live ↔ o ∈ L

theorem released_of_at {L : Set Object} {f : Fields} {s : State} (h : At ∅ L f s) :
    Released L s where
  accounted := h.owns.accounted
  left o := by
    rw [h.owns.live o]
    exact or_iff_right (Set.notMem_empty o)

theorem at_initial : At ∅ ∅ {} State.initial := ⟨owns_empty, rfl⟩

/-- Both ways out of a program end in `Q`. -/
theorem final_of_meets {P Q : State → Prop} {p : Program Unit} {s : State}
    (h : Meets P p (fun _ => Q) fun _ => Q) (hs : P s) : Q (p s).2 := by
  have hrun := h s hs
  generalize p s = r at hrun ⊢
  obtain ⟨e | a, s'⟩ := r
  · exact hrun
  · exact hrun

section Owners

variable {own own' L : Set Object} {f : Fields} {o x : Object}

theorem owned_receiver :
    o ∈ owned (receiver own) f ↔ o ∈ receiverParts ∨ o ∈ parserParts ∨ o ∈ own ∨ f.has o := by
  rw [mem_owned, mem_receiver, or_assoc, or_assoc]

theorem owned_insert (h : ∀ o, o ∈ own' ↔ o = x ∨ o ∈ own) (o : Object) :
    o ∈ insert x (owned (receiver own) f) ↔ o ∈ owned (receiver own') f := by
  rw [Set.mem_insert_iff, owned_receiver, owned_receiver, h o]
  grind

/-- An object that is neither of the receiver nor comes and goes. -/
def Object.foreign (o : Object) : Bool :=
  !o.transient && !(receiverParts ++ parserParts).contains o

theorem owned_foreign (h : o.foreign = true) : o ∈ owned (receiver own) f ↔ o ∈ own := by
  rw [Object.foreign, Bool.and_eq_true, Bool.not_eq_true', Bool.not_eq_true',
    List.contains_eq_mem, decide_eq_false_iff_not, List.mem_append, not_or] at h
  have hhas : ¬ f.has o := by
    have htransient := h.1
    cases o <;> first | exact not_false | cases htransient
  rw [owned_receiver]
  grind

theorem apart_of_foreign (h : ∀ o ∈ own, o.foreign = true) : Apart own := by
  intro o ho
  have hforeign := h o ho
  rw [Object.foreign, Bool.and_eq_true, Bool.not_eq_true', Bool.not_eq_true',
    List.contains_eq_mem, decide_eq_false_iff_not] at hforeign
  refine ⟨hforeign.1, fun hmem => hforeign.2 ?_⟩
  simp only [receiverParts, parserParts, List.mem_append, List.mem_cons, List.not_mem_nil] at hmem ⊢
  grind

end Owners

/-! ## The QCAP API mode -/

section Qcap

variable {own L : Set Object} {f : Fields} {R : State → Prop}

/-- What the API mode may own. -/
structure QcapOwned (own : Set Object) : Prop where
  rx : .qcapRx ∈ own
  only : ∀ o ∈ own, o = .qcapRx ∨ o = .server ∨ o = .client

theorem QcapOwned.apart (h : QcapOwned own) : Apart own := by
  apply apart_of_foreign
  intro o ho
  rcases h.only o ho with rfl | rfl | rfl <;> decide

def Gone (s : State) : Prop := ∃ f, At ∅ ∅ f s

/-- It stops whatever part of the mode was started. -/
theorem stopQcapDanteRx_spec (h : QcapOwned own) (cfg : Config) (c : InitCalls) :
    Meets (Steady (receiver own) ∅ fun _ => True) (stopQcapDanteRx cfg c) (fun _ => Gone)
      fun _ => R := by
  refine meets_steady fun f hsound _ => ?_
  have hL := lost_empty
  refine (at_destroyIfHeld hL (Set.notMem_empty _) fun u hu => absurd hu List.not_mem_nil).bind
    fun _ => ?_
  refine (at_destroyIfHeld hL (Set.notMem_empty _) fun u hu hmem => ?_).bind fun _ => ?_
  · exact hmem.2 (List.mem_singleton.mp hu)
  have hleft : ∀ o, o ∈ (owned (receiver own) f \ {.client}) \ {.server} ↔
      o ∈ owned (receiver {.qcapRx}) f := by
    intro o
    rw [Set.mem_sdiff, Set.mem_sdiff, Set.mem_singleton_iff, Set.mem_singleton_iff]
    have hqcap : o ≠ .client → o ≠ .server → (o ∈ own ↔ o = .qcapRx) := by
      intro hclient hserver
      refine ⟨fun ho => ?_, fun e => e ▸ h.rx⟩
      exact (h.only o ho).resolve_right fun ho => ho.elim hserver hclient
    by_cases hclient : o = .client
    · subst hclient
      rw [owned_foreign (by decide), owned_foreign (by decide)]
      simp
    by_cases hserver : o = .server
    · subst hserver
      rw [owned_foreign (by decide), owned_foreign (by decide)]
      simp
    rw [owned_receiver, owned_receiver, hqcap hclient hserver, Set.mem_singleton_iff]
    simp [hclient, hserver]
  have hown : QcapOwned {.qcapRx} := ⟨rfl, fun o ho => .inl ho⟩
  have hclients : ∀ o ∈ clients, o ∉ ({.qcapRx} : Set Object) := by
    intro o ho e
    rw [Set.mem_singleton_iff.mp e] at ho
    exact absurd ho (by decide)
  refine Meets.bind ((stopQcapMediaRx_spec hL hown.apart hclients cfg c).before
    fun s hs => ⟨f, ⟨hsound, trivial⟩, hs.congr hleft⟩) fun _ => meets_exists fun f' => ?_
  have hrx : .qcapRx ∈ ({.qcapRx} : Set Object) := Set.mem_singleton _
  refine (at_destroy hL hrx (Set.notMem_empty _) fun u hu e => ?_).returning fun _ s hs => ?_
  · rw [Set.mem_singleton_iff.mp e] at hu
    simp [users] at hu
  · exact ⟨f', hs.congr fun o => by simp⟩

/-- A further object of the mode. -/
theorem steady_insert {x : Object} (hx : x = .server ∨ x = .client) (h : QcapOwned own)
    (hnew : x ∉ own) (ok : Bool) (cfg : Config) (c : InitCalls) :
    Meets (Steady (receiver own) ∅ fun _ => True) (acquire x ok (stopQcapDanteRx cfg c))
      (fun _ => Steady (receiver (insert x own)) ∅ fun _ => True) fun _ => Gone := by
  refine meets_steady fun f hsound _ => ?_
  have hforeign : x.foreign = true := by
    rcases hx with rfl | rfl <;> decide
  have hout : x ∉ owned (receiver own) f := fun hmem => hnew ((owned_foreign hforeign).mp hmem)
  refine (at_acquire hout (Set.notMem_empty _) fun _ => ?_).returning fun _ s hs => ?_
  · apply (stopQcapDanteRx_spec h cfg c).before
    exact fun s hs => ⟨f, ⟨hsound, trivial⟩, hs⟩
  · exact ⟨f, ⟨hsound, trivial⟩, hs.2.congr (owned_insert fun o => Set.mem_insert_iff)⟩

theorem QcapOwned.insert {x : Object} (hx : x = .server ∨ x = .client) (h : QcapOwned own) :
    QcapOwned (insert x own) where
  rx := Set.mem_insert_of_mem _ h.rx
  only o ho := by
    rcases Set.mem_insert_iff.mp ho with rfl | ho
    · exact .inr hx
    · exact h.only o ho

theorem startQcapDanteRx_spec (cfg : Config) (c : QcapCalls) (stop : InitCalls) :
    Meets (At ∅ ∅ {}) (startQcapDanteRx cfg c stop)
      (fun _ s => ∃ own, QcapOwned own ∧ Steady (receiver own) ∅ (fun _ => True) s)
      fun _ => Gone := by
  have hL := lost_empty
  have hrx : QcapOwned (insert .qcapRx ∅) :=
    ⟨Set.mem_insert _ _, fun o ho => .inl (by simpa using ho)⟩
  have hclients : ∀ o ∈ clients, o ∉ (insert .qcapRx ∅ : Set Object) := by
    intro o ho e
    rw [show o = .qcapRx by simpa using e] at ho
    exact absurd ho (by decide)
  refine (at_create true (Set.notMem_empty _) (Set.notMem_empty _)).bind fun _ => ?_
  rw [if_pos rfl]
  refine Meets.bind (Q := fun started s => if started then
    Steady (receiver (insert .qcapRx ∅)) ∅ (fun _ => True) s
    else At (insert .qcapRx ∅) ∅ {} s) (Meets.attempt ?_) fun started => ?_
  · exact (startQcapMediaRx_spec hL hrx.apart hclients cfg c.media).weaken (fun _ => id)
      (fun _ _ => And.right) fun _ _ => And.right
  have hready : ∀ {own : Set Object} (b : Bool), QcapOwned own →
      Meets (Steady (receiver own) ∅ fun _ => True) (failIf b (stopQcapDanteRx cfg stop))
        (fun _ => Steady (receiver own) ∅ fun _ => True) fun _ => Gone := by
    intro own b h
    exact (meets_failIf fun _ => stopQcapDanteRx_spec h cfg stop).returning fun _ _ hs => hs.2
  cases started with
  | false =>
      refine (meets_failIf fun _ => ?_).bind fun _ => meets_assume fun h => absurd h (by decide)
      refine (at_destroy hL (Set.mem_insert _ _) (Set.notMem_empty _) fun u hu e => ?_).returning
        fun _ s hs => ⟨_, hs.congr fun o => by simp⟩
      rw [show u = .qcapRx by simpa using e] at hu
      simp [users] at hu
  | true =>
      refine (meets_failIf fun (h : (!true) = true) => absurd h (by decide)).bind fun _ =>
        meets_assume fun _ => ?_
      have hserver := hrx.insert (.inl rfl)
      refine (steady_insert (.inl rfl) hrx (by simp) c.server cfg stop).bind fun _ => ?_
      refine (hready _ hserver).bind fun _ => ?_
      refine (steady_insert (.inr rfl) hserver (by simp) c.client cfg stop).bind fun _ => ?_
      have hclient := hserver.insert (.inr rfl)
      exact (hready _ hclient).returning fun _ s hs => ⟨_, hclient, hs⟩

/-- **The QCAP API mode leaves nothing behind,** whichever of its calls fail and whatever happens
while it runs. -/
theorem qcapClient_released (cfg : Config) (c : QcapCalls) (events : List MediaEvent)
    (stop : InitCalls) : Released ∅ (runQcapClient cfg c events stop State.initial).2 := by
  have hrun : Meets (At ∅ ∅ {}) (runQcapClient cfg c events stop) (fun _ => Gone)
      fun _ => Gone := by
    refine (startQcapDanteRx_spec cfg c stop).bind fun _ => ?_
    refine meets_exists fun own => meets_assume fun hown => ?_
    refine (handleAll_spec lost_empty (core_receiver hown.apart) cfg events).bind fun _ => ?_
    exact stopQcapDanteRx_spec hown cfg stop
  obtain ⟨f, hs⟩ := final_of_meets hrun at_initial
  exact released_of_at hs

end Qcap

/-! ## The RTSP bridge -/

/-- The element that an object is or belongs to. -/
def Object.elementOf : Object → Option Element
  | .element e | .priv e | .sinkPad e | .srcPad e => some e
  | _ => none

/-- The elements that were built, with what they own. -/
def Built (built : Element → Bool) : Set Object :=
  {o | ∃ e, built e = true ∧ o ∈ .element e :: e.parts}

section Elements

variable {built : Element → Bool} {L : Set Object} {f : Fields} {R : State → Prop} {e : Element}
  {o : Object}

theorem elementOf_mem (h : o ∈ .element e :: e.parts) : o.elementOf = some e := by
  rcases List.mem_cons.mp h with rfl | h
  · rfl
  · cases e <;> simp [Element.parts] at h <;> rcases h with rfl | rfl | rfl <;> rfl

theorem mem_built (h : o ∈ .element e :: e.parts) : o ∈ Built built ↔ built e = true := by
  constructor
  · rintro ⟨e', hbuilt, hmem⟩
    have heq := (elementOf_mem hmem).symm.trans (elementOf_mem h)
    exact Option.some.inj heq ▸ hbuilt
  · exact fun hbuilt => ⟨e, hbuilt, h⟩

theorem foreign_of_elementOf (h : o.elementOf = some e) : o.foreign = true := by
  cases o <;> first | rfl | cases h

theorem apart_built : Apart (Built built) := by
  apply apart_of_foreign
  rintro o ⟨e, -, ho⟩
  exact foreign_of_elementOf (elementOf_mem ho)

theorem mem_owned_built (h : o ∈ .element e :: e.parts) :
    o ∈ owned (receiver (Built built)) f ↔ built e = true := by
  rw [owned_foreign (foreign_of_elementOf (elementOf_mem h)), mem_built h]

/-- One more element is built. -/
theorem owned_built (h : built e = false) (o : Object) :
    o ∈ owned (receiver (Built (Function.update built e true))) f ↔
      o ∈ .element e :: e.parts ∨ o ∈ owned (receiver (Built built)) f := by
  have hgrow : o ∈ Built (Function.update built e true) ↔
      o ∈ .element e :: e.parts ∨ o ∈ Built built := by
    constructor
    · rintro ⟨e', hbuilt, hmem⟩
      by_cases he : e' = e
      · exact .inl (he ▸ hmem)
      · rw [Function.update_of_ne he] at hbuilt
        exact .inr ⟨e', hbuilt, hmem⟩
    · rintro (hmem | ⟨e', hbuilt, hmem⟩)
      · exact ⟨e, Function.update_self .., hmem⟩
      · have he : e' ≠ e := fun he => absurd (he ▸ hbuilt) (ne_true_of_eq_false h)
        exact ⟨e', (Function.update_of_ne he ..).trans hbuilt, hmem⟩
  rw [owned_receiver, owned_receiver, hgrow]
  grind

theorem users_element (h : o ∈ .element e :: e.parts) : users f o = [] := by
  have hof := elementOf_mem h
  cases o <;> first | rfl | cases hof

/-- The elements of `es` are still to come, and no pad of an element that was built is lost. -/
def Stage (es : List Element) (L : Set Object) (f : Fields) (s : State) : Prop :=
  ∃ built : Element → Bool, ((∀ e ∈ es, built e = false) ∧ ∀ e, .sinkPad e ∈ L → built e = false) ∧
    At (owned (receiver (Built built)) f) L f s

theorem meets_stage {es : List Element} {p : Program Unit} {Q : State → Prop}
    (h : ∀ built : Element → Bool, (∀ e ∈ es, built e = false) →
      (∀ e, .sinkPad e ∈ L → built e = false) →
      Meets (At (owned (receiver (Built built)) f) L f) p (fun _ => Q) fun _ => R) :
    Meets (Stage es L f) p (fun _ => Q) fun _ => R :=
  meets_exists fun built => meets_assume fun hbuilt => h built hbuilt.1 hbuilt.2

theorem stage_skip {es : List Element} {s : State} (hes : ∀ e' ∈ e :: es, built e' = false)
    (hsep : ∀ e, .sinkPad e ∈ L → built e = false)
    (hs : At (owned (receiver (Built built)) f) L f s) : Stage es L f s :=
  ⟨built, ⟨fun e' he' => hes e' (List.mem_cons_of_mem _ he'), hsep⟩, hs⟩

theorem stage_built {es : List Element} {A : Set Object} {s : State} (he : e ∉ es)
    (hes : ∀ e' ∈ e :: es, built e' = false) (hsep : ∀ e, .sinkPad e ∈ L → built e = false)
    (hpad : .sinkPad e ∉ L) (hs : At A L f s)
    (hA : ∀ o, o ∈ A ↔ o ∈ .element e :: e.parts ∨ o ∈ owned (receiver (Built built)) f) :
    Stage es L f s := by
  have hnew : built e = false := hes e List.mem_cons_self
  refine ⟨Function.update built e true, ⟨fun e' he' => ?_, fun e' he' => ?_⟩,
    hs.congr fun o => (hA o).trans (owned_built hnew o).symm⟩
  · have hne : e' ≠ e := fun h => he (h ▸ he')
    rw [Function.update_of_ne hne]
    exact hes e' (List.mem_cons_of_mem _ he')
  · have hne : e' ≠ e := fun h => hpad (h ▸ he')
    rw [Function.update_of_ne hne]
    exact hsep e' he'

/-- An element that owns nothing. -/
theorem create_spec {es : List Element} (hL : Lost L) (he : e ∉ es) (hparts : e.parts = [])
    (ok : Bool) : Meets (Stage (e :: es) L f) (create (.element e) ok) (fun _ => Stage es L f)
      fun _ => R := by
  refine meets_stage fun built hes hsep => ?_
  have hmem : .element e ∈ owned (receiver (Built built)) f ↔ built e = true :=
    mem_owned_built List.mem_cons_self
  have hpad : .sinkPad e ∉ L := by
    intro h
    rcases hL _ h with heq | heq <;> cases heq <;> cases hparts
  have hout : .element e ∉ owned (receiver (Built built)) f := by
    rw [hmem, hes e List.mem_cons_self]
    exact Bool.false_ne_true
  apply (at_create ok hout (hL.notMem fun _ => nofun)).returning
  intro _ s hs
  cases ok with
  | false => exact stage_skip hes hsep hs
  | true =>
      refine stage_built he hes hsep hpad hs fun o => ?_
      rw [hparts, List.mem_singleton]
      exact Set.mem_insert_iff

end Elements

/-! ### An element on the way -/

section Half

variable {base L : Set Object} {f : Fields} {R : State → Prop} {x : Object} {xs : List Object}

/-- The program points at some parts of an element beside `base`. -/
def Half (base L : Set Object) (f : Fields) (xs : List Object) : State → Prop :=
  At {o | o ∈ xs ∨ o ∈ base} L f

/-- A part that nothing works with and that is not there. -/
structure Fresh (base L : Set Object) (f : Fields) (x : Object) : Prop where
  base : x ∉ base
  lost : x ∉ L
  users : users f x = []

theorem half_acquire {ok : Bool} {p : Program Unit} (h : Fresh base L f x) (hx : x ∉ xs)
    (hfail : ok = false → Meets (Half base L f xs) p (fun _ => R) fun _ => R) :
    Meets (Half base L f xs) (acquire x ok p) (fun _ s => ok = true ∧ Half base L f (x :: xs) s)
      fun _ => R := by
  have hout : x ∉ ({o | o ∈ xs ∨ o ∈ base} : Set Object) := fun hmem => hmem.elim hx h.base
  apply (at_acquire hout h.lost hfail).returning
  refine fun _ s hs => ⟨hs.1, hs.2.congr fun o => ?_⟩
  show o = x ∨ (o ∈ xs ∨ o ∈ base) ↔ o ∈ x :: xs ∨ o ∈ base
  rw [List.mem_cons, or_assoc]

theorem half_cons (h : Fresh base L f x) (hx : x ∉ xs) (o : Object) :
    o ∈ ({o | o ∈ x :: xs ∨ o ∈ base} : Set Object) \ {x} ↔ o ∈ xs ∨ o ∈ base := by
  show (o ∈ x :: xs ∨ o ∈ base) ∧ o ≠ x ↔ o ∈ xs ∨ o ∈ base
  rw [List.mem_cons, or_assoc]
  constructor
  · exact fun hmem => hmem.1.resolve_left hmem.2
  · refine fun hmem => ⟨.inr hmem, ?_⟩
    rintro rfl
    exact hmem.elim hx h.base

theorem half_destroy (hL : Lost L) (h : Fresh base L f x) (hx : x ∉ xs) :
    Meets (Half base L f (x :: xs)) (destroy x) (fun _ => Half base L f xs) fun _ => R := by
  have hmem : x ∈ ({o | o ∈ x :: xs ∨ o ∈ base} : Set Object) := .inl List.mem_cons_self
  have hunused : ∀ u ∈ users f x, u ∉ ({o | o ∈ x :: xs ∨ o ∈ base} : Set Object) := by
    rw [h.users]
    exact fun u hu => absurd hu List.not_mem_nil
  apply (at_destroy hL hmem h.lost hunused).returning
  exact fun _ s hs => hs.congr (half_cons h hx)

theorem half_lose (h : Fresh base L f x) (hx : x ∉ xs) :
    Meets (Half base L f (x :: xs)) (lose x) (fun _ => Half base (insert x L) f xs) fun _ => R := by
  refine meets_update fun s hs => ?_
  have hmem : x ∈ ({o | o ∈ x :: xs ∨ o ∈ base} : Set Object) := .inl List.mem_cons_self
  have hlost : At _ (insert x L) f { s with holdings := s.holdings.lose x } :=
    ⟨hs.owns.lose hmem, hs.fields⟩
  exact hlost.congr (half_cons h hx)

/-- The element takes along all that it owns; `rest` is not its own yet. -/
theorem half_element (hL : Lost L) {e : Element} {own : List Object} (rest : List Object)
    (hnodup : (own ++ [Object.element e]).Nodup)
    (hapart : ∀ o ∈ rest, o ∉ own ++ [Object.element e])
    (hxs : ∀ o, o ∈ xs ↔ o ∈ own ++ [Object.element e] ∨ o ∈ rest)
    (h : ∀ o ∈ own ++ [Object.element e], Fresh base L f o) :
    Meets (Half base L f xs) (destroyElement (.element e) own) (fun _ => Half base L f rest)
      fun _ => R := by
  have hin : ∀ o ∈ own ++ [.element e], o ∈ ({o | o ∈ xs ∨ o ∈ base} : Set Object) :=
    fun o ho => .inl ((hxs o).mpr (.inl ho))
  have helement : Object.element e ∈ own ++ [Object.element e] :=
    List.mem_append_right _ (List.mem_singleton.mpr rfl)
  refine (destroyElement_spec hL hnodup (fun o ho => ?_) fun _ o ho => ?_).returning
    fun _ s hs => hs.congr fun o => ?_
  · exact iff_of_true (hin o (List.mem_append_left _ ho)) (hin _ helement)
  · refine ⟨(h o ho).lost, ?_⟩
    rw [(h o ho).users]
    exact fun u hu => absurd hu List.not_mem_nil
  · show (o ∈ xs ∨ o ∈ base) ∧ o ∉ own ++ [.element e] ↔ o ∈ rest ∨ o ∈ base
    rw [hxs o]
    constructor
    · rintro ⟨(hown | hrest) | hbase, hnot⟩
      · exact absurd hown hnot
      · exact .inl hrest
      · exact .inr hbase
    · rintro (hrest | hbase)
      · exact ⟨.inl (.inr hrest), hapart o hrest⟩
      · exact ⟨.inr hbase, fun ho => (h o ho).base hbase⟩

end Half

/-! ### The adapter and the sinks -/

section Create

variable {es : List Element} {L : Set Object} {f : Fields} {R : State → Prop} {e : Element}

/-- `base` is what was there when the element `e` is made, and `es` come after it. -/
structure Before (base : Set Object) (e : Element) (es : List Element) (L : Set Object)
    (f : Fields) : Prop where
  apart : ∀ o ∈ .element e :: e.parts, o ∉ base ∧ users f o = []
  none : ∀ s, Half base L f [] s → Stage es L f s
  all : .sinkPad e ∉ L → ∀ xs : List Object, (∀ o, o ∈ xs ↔ o ∈ .element e :: e.parts) →
    ∀ s, Half base L f xs s → Stage es L f s
  lost : ∀ s, Half base (insert (.sinkPad e) L) f [] s → Stage es (insert (.sinkPad e) L) f s

theorem meets_element {p : Program Unit} {Q : State → Prop} (he : e ∉ es)
    (h : ∀ base, Before base e es L f → Meets (Half base L f []) p (fun _ => Q) fun _ => R) :
    Meets (Stage (e :: es) L f) p (fun _ => Q) fun _ => R := by
  refine meets_stage fun built hes hsep => ?_
  have hnew : built e = false := hes e List.mem_cons_self
  have hskip : ∀ o, o ∈ ({o | o ∈ [] ∨ o ∈ owned (receiver (Built built)) f} : Set Object) ↔
      o ∈ owned (receiver (Built built)) f := fun o => or_iff_right List.not_mem_nil
  refine (h (owned (receiver (Built built)) f) ⟨fun o ho => ?_, fun s hs => ?_,
    fun hpad xs hxs s hs => ?_, fun s hs => ?_⟩).before fun s hs => hs.congr fun o => (hskip o).symm
  · refine ⟨fun hmem => ?_, users_element ho⟩
    exact absurd ((mem_owned_built ho).mp hmem) (ne_true_of_eq_false hnew)
  · exact stage_skip hes hsep (hs.congr hskip)
  · exact stage_built he hes hsep hpad hs fun o => or_congr_left (hxs o)
  · refine stage_skip hes (fun e' he' => ?_) (hs.congr hskip)
    rcases Set.mem_insert_iff.mp he' with heq | hmem
    · cases heq
      exact hnew
    · exact hsep e' hmem

/-- **The adapter** is there as a whole or not at all. -/
theorem rtspAudioAdapterCreate_spec (hL : Lost L) (he : .audioAdapter ∉ es) (c : AdapterCalls) :
    Meets (Stage (.audioAdapter :: es) L f) (tolerate (rtspAudioAdapterCreate c))
      (fun _ => Stage es L f) fun _ => R := by
  apply meets_tolerate
  apply meets_element he
  intro base hbase
  have hfresh : ∀ o ∈ Object.element .audioAdapter :: Element.parts .audioAdapter,
      Fresh base L f o := by
    intro o ho
    refine ⟨(hbase.apart o ho).1, fun hmem => ?_, (hbase.apart o ho).2⟩
    rcases hL o hmem with rfl | rfl
    · cases elementOf_mem ho
    · cases elementOf_mem ho
  have hpad : .sinkPad .audioAdapter ∉ L := (hfresh _ (by decide)).lost
  -- the ways out, with what the element owns by then
  have hout : ∀ (xs own : List Object), (own ++ [Object.element .audioAdapter]).Nodup →
      (∀ o ∈ own, o ∈ Element.parts .audioAdapter) →
      (∀ o, o ∈ xs ↔ o ∈ own ++ [.element .audioAdapter]) →
      Meets (Half base L f xs) (destroyElement (.element .audioAdapter) own)
        (fun _ => Stage es L f) fun _ => Stage es L f := by
    intro xs own hnodup hown hxs
    refine (half_element hL [] hnodup (fun o ho => absurd ho List.not_mem_nil)
      (fun o => ?_) fun o ho => hfresh o ?_).returning fun _ => hbase.none
    · rw [hxs o, or_iff_left List.not_mem_nil]
    · rcases List.mem_append.mp ho with ho | ho
      · exact List.mem_cons_of_mem _ (hown o ho)
      · exact List.mem_singleton.mp ho ▸ List.mem_cons_self
  have hpriv := hfresh (.priv .audioAdapter) (by decide)
  have helement := hfresh (.element .audioAdapter) (by decide)
  have hsink := hfresh (.sinkPad .audioAdapter) (by decide)
  have hsrc := hfresh (.srcPad .audioAdapter) (by decide)
  refine (half_acquire hpriv List.not_mem_nil fun _ => meets_pure hbase.none).bind fun _ =>
    meets_assume fun _ => ?_
  refine (half_acquire helement (by decide) fun _ => ?_).bind fun _ => meets_assume fun _ => ?_
  · exact (half_destroy hL hpriv List.not_mem_nil).returning fun _ => hbase.none
  refine (half_acquire hsink (by decide) fun _ => ?_).bind fun _ => meets_assume fun _ => ?_
  · exact hout _ _ (by decide) (by decide) fun o => by simp; grind
  refine (meets_failIf fun _ => ?_).bind fun _ => meets_assume fun _ => ?_
  · refine (half_destroy hL hsink (by decide)).bind fun _ => ?_
    exact hout _ _ (by decide) (by decide) fun o => by simp; grind
  refine (half_acquire hsrc (by decide) fun _ => ?_).bind fun _ => meets_assume fun _ => ?_
  · exact hout _ _ (by decide) (by decide) fun o => by simp; grind
  refine (meets_failIf fun _ => ?_).returning fun _ s hs => hbase.all hpad _ (fun o => ?_) s hs.2
  · refine (half_destroy hL hsrc (by decide)).bind fun _ => ?_
    exact hout _ _ (by decide) (by decide) fun o => by simp; grind
  · simp [Element.parts]
    grind

/-- The calls of a sink that leave its pad behind. -/
def RtspSinkCalls.losesPad (c : RtspSinkCalls) : Bool := c.priv && c.element && c.pad && !c.addPad

/-- The pad that is left behind. -/
def lostPad (e : Element) (c : RtspSinkCalls) : Set Object :=
  {o | o = .sinkPad e ∧ c.losesPad = true}

/-- **A sink** is there as a whole or not at all, apart from the pad. -/
theorem rtspSinkCreate_spec (hL : Lost L) (he : e ∉ es) (hsink : e = .vsink ∨ e = .asink)
    (hpad : .sinkPad e ∉ L) (c : RtspSinkCalls) :
    Meets (Stage (e :: es) L f) (tolerate (rtspSinkCreate e c))
      (fun _ => Stage es (lostPad e c ∪ L) f) fun _ => R := by
  have hparts : e.parts = [.priv e, .sinkPad e] := by rcases hsink with rfl | rfl <;> rfl
  have hkept : c.losesPad = false → lostPad e c ∪ L = L := by
    intro h
    ext o
    simp [lostPad, h]
  have hlost : c.losesPad = true → lostPad e c ∪ L = insert (.sinkPad e) L := by
    intro h
    ext o
    simp [lostPad, h]
  apply meets_tolerate
  apply meets_element he
  intro base hbase
  have hfresh : ∀ o ∈ [Object.priv e, .element e, .sinkPad e], Fresh base L f o := by
    intro o ho
    have hmem : o ∈ .element e :: e.parts := by
      rw [hparts]
      simp at ho ⊢
      grind
    refine ⟨(hbase.apart o hmem).1, fun hlost => ?_, (hbase.apart o hmem).2⟩
    simp at ho
    rcases ho with rfl | rfl | rfl
    · exact hL.notMem (by simp) hlost
    · exact hL.notMem (by simp) hlost
    · exact hpad hlost
  have hpriv := hfresh (.priv e) (by simp)
  have helement := hfresh (.element e) (by simp)
  have hsinkPad := hfresh (.sinkPad e) (by simp)
  have hown : ∀ o ∈ [Object.priv e] ++ [.element e], Fresh base L f o := by
    intro o ho
    apply hfresh o
    simp at ho ⊢
    grind
  refine (half_acquire hpriv List.not_mem_nil fun hno => ?_).bind fun _ =>
    meets_assume fun hok => ?_
  · rw [hkept (by simp [RtspSinkCalls.losesPad, hno])]
    exact meets_pure hbase.none
  refine (half_acquire helement (by simp) fun hno => ?_).bind fun _ => meets_assume fun hok' => ?_
  · rw [hkept (by simp [RtspSinkCalls.losesPad, hno])]
    exact (half_destroy hL hpriv List.not_mem_nil).returning fun _ => hbase.none
  refine (half_acquire hsinkPad (by simp) fun hno => ?_).bind fun _ =>
    meets_assume fun hok'' => ?_
  · rw [hkept (by simp [RtspSinkCalls.losesPad, hno])]
    refine (half_element hL [] (by simp) (fun o ho => absurd ho List.not_mem_nil) (fun o => ?_)
      hown).returning fun _ => hbase.none
    simp
    grind
  refine (meets_failIf fun hno => ?_).returning fun _ s hs => ?_
  · rw [hlost (by simpa [RtspSinkCalls.losesPad, hok, hok', hok''] using hno)]
    refine (half_element hL [.sinkPad e] (by simp) (by simp) (fun o => ?_) hown).bind
      fun _ => (half_lose hsinkPad List.not_mem_nil).returning fun _ => hbase.lost
    simp
    grind
  · have hadded : c.addPad = true := by simpa using hs.1
    rw [hkept (by simp [RtspSinkCalls.losesPad, hadded])]
    refine hbase.all hpad _ (fun o => ?_) s hs.2
    rw [hparts]
    simp
    grind

end Create

/-! ### The bridge -/

section Rtsp

variable {L : Set Object} {f : Fields} {R : State → Prop} {built : Element → Bool} {e : Element}

/-- The pads of the two sinks that are left behind. -/
def lostPads (c : RtspCalls) : Set Object := lostPad .asink c.asink ∪ (lostPad .vsink c.vsink ∪ ∅)

theorem lost_lostPads (c : RtspCalls) : Lost (lostPads c) := by
  rintro o (ho | ho | ho)
  · exact .inr ho.1
  · exact .inl ho.1
  · exact absurd ho (Set.notMem_empty o)

theorem mem_lostPads {c : RtspCalls} {o : Object} :
    o ∈ lostPads c ↔ (o = .sinkPad .vsink ∧ c.vsink.losesPad = true) ∨
      (o = .sinkPad .asink ∧ c.asink.losesPad = true) := by
  rw [lostPads, Set.union_empty, Set.mem_union, or_comm]
  exact Iff.rfl

theorem createElements_spec (c : RtspCalls) :
    Meets (Stage Element.all ∅ f) (createElements c) (fun _ => Stage [] (lostPads c) f)
      fun _ => R := by
  have hL := lost_empty
  refine (create_spec hL (by decide) rfl c.source).bind fun _ => ?_
  refine (create_spec hL (by decide) rfl c.vparser).bind fun _ => ?_
  refine (create_spec hL (by decide) rfl c.aparser).bind fun _ => ?_
  refine (create_spec hL (by decide) rfl c.adec).bind fun _ => ?_
  refine (rtspAudioAdapterCreate_spec hL (by decide) c.audioAdapter).bind fun _ => ?_
  refine (create_spec hL (by decide) rfl c.aresampler).bind fun _ => ?_
  have hvideo : Lost (lostPad .vsink c.vsink ∪ ∅) := by
    rintro o (ho | ho)
    · exact .inl ho.1
    · exact absurd ho (Set.notMem_empty o)
  have hpad : .sinkPad .asink ∉ lostPad .vsink c.vsink ∪ ∅ := by
    rintro (ho | ho)
    · exact absurd ho.1 (by decide)
    · exact absurd ho (Set.notMem_empty _)
  refine (rtspSinkCreate_spec hL (by decide) (.inl rfl) (Set.notMem_empty _) c.vsink).bind
    fun _ => ?_
  exact rtspSinkCreate_spec hvideo List.not_mem_nil (.inr rfl) hpad c.asink

/-- An element goes with all that it owns. -/
theorem owned_unbuilt (o : Object) :
    o ∈ owned (receiver (Built built)) f ∧ o ∉ e.parts ++ [Object.element e] ↔
      o ∈ owned (receiver (Built (Function.update built e false))) f := by
  have hparts : ∀ e', o ∈ e'.parts ++ [Object.element e'] ↔ o ∈ .element e' :: e'.parts := by
    intro e'
    rw [List.mem_append, List.mem_singleton, List.mem_cons, or_comm]
  rw [hparts]
  by_cases hmem : o ∈ .element e :: e.parts
  · refine iff_of_false (fun h => h.2 hmem) fun h => ?_
    have hbuilt := (mem_owned_built hmem).mp h
    rw [Function.update_self] at hbuilt
    cases hbuilt
  rw [and_iff_left hmem, owned_receiver, owned_receiver]
  refine or_congr_right (or_congr_right (or_congr_left ?_))
  constructor
  · rintro ⟨e', hbuilt, ho⟩
    have hne : e' ≠ e := fun h => hmem (h ▸ ho)
    exact ⟨e', (Function.update_of_ne hne ..).trans hbuilt, ho⟩
  · rintro ⟨e', hbuilt, ho⟩
    have hne : e' ≠ e := fun h => hmem (h ▸ ho)
    exact ⟨e', (Function.update_of_ne hne ..).symm.trans hbuilt, ho⟩

theorem destroyBuilt_spec (hL : Lost L) (hpad : .sinkPad e ∈ L → built e = false) :
    Meets (At (owned (receiver (Built built)) f) L f) (destroyElement (.element e) e.parts)
      (fun _ => At (owned (receiver (Built (Function.update built e false))) f) L f)
      fun _ => R := by
  have hparts : ∀ o ∈ e.parts ++ [Object.element e], o ∈ .element e :: e.parts := by
    intro o ho
    rw [List.mem_cons, or_comm]
    exact (List.mem_append.mp ho).imp_right List.mem_singleton.mp
  have hnodup : (e.parts ++ [Object.element e]).Nodup := by
    cases e <;> decide
  refine (destroyElement_spec hL hnodup (fun o ho => ?_) fun helement o ho => ?_).returning
    fun _ s hs => hs.congr owned_unbuilt
  · rw [mem_owned_built (List.mem_cons_of_mem _ ho), mem_owned_built List.mem_cons_self]
  · have hbuilt := (mem_owned_built List.mem_cons_self).mp helement
    refine ⟨fun hlost => ?_, fun u hu => ?_⟩
    · obtain ⟨e', rfl⟩ : ∃ e', o = .sinkPad e' := (hL o hlost).elim (⟨_, ·⟩) (⟨_, ·⟩)
      obtain rfl : e' = e := Option.some.inj (elementOf_mem (hparts _ ho))
      exact absurd hbuilt (ne_true_of_eq_false (hpad hlost))
    · rw [users_element (hparts o ho)] at hu
      exact absurd hu List.not_mem_nil

theorem built_eq_empty (h : ∀ e, built e = false) : Built built = ∅ := by
  rw [Set.eq_empty_iff_forall_notMem]
  rintro o ⟨e, hbuilt, -⟩
  exact absurd hbuilt (ne_true_of_eq_false (h e))

/-- The elements that are built may be any of `es`. -/
theorem destroyElements_spec (hL : Lost L) (es : List Element) :
    ∀ built : Element → Bool, (∀ e, built e = true → e ∈ es) →
      (∀ e, .sinkPad e ∈ L → built e = false) →
      Meets (At (owned (receiver (Built built)) f) L f)
        (es.forM fun e => destroyElement (.element e) e.parts)
        (fun _ => At (owned (receiver ∅) f) L f) fun _ => R := by
  induction es with
  | nil =>
      intro built hes _
      have hnone : Built built = ∅ := by
        apply built_eq_empty
        intro e
        rw [← Bool.not_eq_true]
        exact fun hbuilt => List.not_mem_nil (hes e hbuilt)
      exact meets_pure fun s hs => hnone ▸ hs
  | cons e es ih =>
      intro built hes hpad
      refine (destroyBuilt_spec hL (hpad e)).bind fun _ => ih _ (fun e' he' => ?_) fun e' he' => ?_
      · by_cases hne : e' = e
        · subst hne
          rw [Function.update_self] at he'
          cases he'
        · rw [Function.update_of_ne hne] at he'
          exact (List.mem_cons.mp (hes e' he')).resolve_left hne
      · by_cases hne : e' = e
        · subst hne
          exact Function.update_self ..
        · rw [Function.update_of_ne hne]
          exact hpad e' he'

/-- The bridge between two calls: the receiver with the elements that were built. -/
def Bridge (L : Set Object) (s : State) : Prop :=
  ∃ built : Element → Bool, (∀ e, .sinkPad e ∈ L → built e = false) ∧
    Steady (receiver (Built built)) L (fun _ => True) s

theorem meets_bridge {p : Program Unit} {Q : State → Prop}
    (h : ∀ built : Element → Bool, (∀ e, .sinkPad e ∈ L → built e = false) →
      Meets (Steady (receiver (Built built)) L fun _ => True) p (fun _ => Q) fun _ => R) :
    Meets (Bridge L) p (fun _ => Q) fun _ => R :=
  meets_exists fun built => meets_assume (h built)

theorem cleanup_spec (hL : Lost L) (cfg : Config) (c : InitCalls) :
    Meets (Bridge L) (cleanup cfg c) (fun _ s => ∃ f, At ∅ L f s) fun _ => R := by
  refine meets_bridge fun built hpad => meets_steady fun f hsound _ => ?_
  have hall : ∀ e, built e = true → e ∈ Element.all := by
    intro e _
    cases e <;> decide
  refine (destroyElements_spec hL Element.all built hall hpad).bind fun _ => ?_
  have hapart : Apart ∅ := fun o ho => absurd ho (Set.notMem_empty o)
  have hnone : ∀ o ∈ clients, o ∉ (∅ : Set Object) := fun o _ => Set.notMem_empty o
  exact (stopQcapMediaRx_spec hL hapart hnone cfg c).before fun s hs => ⟨f, ⟨hsound, trivial⟩, hs⟩

/-- The pads that the bridge leaves, if its receiver starts at all. -/
def leftPads (c : RtspCalls) : Set Object :=
  {o | c.media.ok = true ∧ ((o = .sinkPad .vsink ∧ c.vsink.losesPad = true) ∨
    (o = .sinkPad .asink ∧ c.asink.losesPad = true))}

theorem leftPads_of_ok {c : RtspCalls} (h : c.media.ok = true) : lostPads c = leftPads c := by
  ext o
  exact mem_lostPads.trans (and_iff_right h).symm

theorem leftPads_of_not {c : RtspCalls} (h : c.media.ok = false) : ∅ = leftPads c := by
  ext o
  refine iff_of_false (Set.notMem_empty o) fun hleft => ?_
  exact absurd hleft.1 (ne_true_of_eq_false h)

theorem runRtspClient_spec (cfg : Config) (c : RtspCalls) (events : List MediaEvent)
    (stop : InitCalls) :
    Meets (At ∅ ∅ {}) (runRtspClient cfg c events stop) (fun _ s => ∃ f, At ∅ (leftPads c) f s)
      fun _ s => ∃ f, At ∅ (leftPads c) f s := by
  have hnone : ∀ o ∈ clients, o ∉ (∅ : Set Object) := fun o _ => Set.notMem_empty o
  have hapart : Apart ∅ := fun o ho => absurd ho (Set.notMem_empty o)
  refine Meets.bind ((startQcapMediaRx_spec lost_empty hapart hnone cfg c.media).raising
    fun _ s hs => ?_) fun _ => ?_
  · rw [← leftPads_of_not hs.1]
    exact ⟨_, hs.2⟩
  refine meets_assume fun hok => meets_steady fun f hsound _ => ?_
  rw [← leftPads_of_ok hok]
  have hL := lost_lostPads c
  have hcleanup : Meets (Bridge (lostPads c)) (cleanup cfg stop)
      (fun _ s => ∃ f, At ∅ (lostPads c) f s) fun _ s => ∃ f, At ∅ (lostPads c) f s :=
    cleanup_spec hL cfg stop
  have hexit : ∀ failed, Meets (Bridge (lostPads c)) (failIf failed (cleanup cfg stop))
      (fun _ => Bridge (lostPads c)) fun _ s => ∃ f, At ∅ (lostPads c) f s :=
    fun failed => (meets_failIf fun _ => hcleanup).returning fun _ s hs => hs.2
  have hstart : ∀ s, At (owned (receiver ∅) f) ∅ f s → Stage Element.all ∅ f s := by
    intro s hs
    refine ⟨fun _ => false, ⟨fun _ _ => rfl, fun _ _ => rfl⟩, ?_⟩
    rw [built_eq_empty fun _ => rfl]
    exact hs
  refine ((createElements_spec c).before hstart).bind fun _ => ?_
  refine Meets.bind (Q := fun _ => Bridge (lostPads c)) (meets_call fun s hs => ?_)
    fun missing => ?_
  · obtain ⟨built, ⟨-, hpad⟩, hs⟩ := hs
    exact ⟨built, hpad, f, ⟨hsound, trivial⟩, hs⟩
  refine (hexit missing).bind fun _ => (hexit _).bind fun _ => (hexit _).bind fun _ => ?_
  refine Meets.bind (Q := fun _ => Bridge (lostPads c)) ?_ fun _ => Meets.bind ?_ fun _ => hcleanup
  · refine meets_bridge fun built hpad => ?_
    apply (handleAll_spec hL (core_receiver apart_built) cfg events).returning
    exact fun _ s hs => ⟨built, hpad, hs⟩
  · refine meets_bridge fun built hpad => ?_
    apply (stopVdecDecoder_spec hL (core_receiver apart_built) cfg stop).returning
    exact fun _ s hs => ⟨built, hpad, hs.mono fun _ _ => trivial⟩

/-- **The RTSP bridge leaves the pads that could not be added to its sinks, and nothing else,**
whichever of its calls fail and whatever happens while it runs. -/
theorem rtspClient_released (cfg : Config) (c : RtspCalls) (events : List MediaEvent)
    (stop : InitCalls) :
    Released (leftPads c) (runRtspClient cfg c events stop State.initial).2 := by
  obtain ⟨f, hs⟩ := final_of_meets (runRtspClient_spec cfg c events stop) at_initial
  exact released_of_at hs

end Rtsp

end QcapDemos.Rx.Media
