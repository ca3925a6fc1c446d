import Storyworld.Proofs.Blocks
import Storyworld.Proofs.Declaring

/-!
# What an early end blames

Reading that ends early blames a lexeme it has come to: the refusal is a fault, at the
place of the lexeme, and what it says fits what stands there and what is declared so far
(`Refusal.Blames`).  So it is never a declaration that the universe refused.  A
transition is declared only after its condition and its effects were read, and these
speak of declared factors alone.

`Steps` says this of a step, with what is known of its result, and `Declares` of a step
that declares a block.  Both are closed under sequence, so a production has them if its
parts do.  Nothing that was compiled before is lost either (`Compilation.Grows`).
-/

namespace Storyworld

/-! ## Blaming a lexeme -/

/-- What a fault says of a lexeme. -/
def Fault.Fits : Fault → Lexeme → Prop
  | .unexpected expected found, ⟨.fault f, _⟩ => expected = f.expected ∧ found = f.found
  | .unexpected _ found, ⟨.token t, _⟩ => found = t.display
  | .undefinedFactor name _, l | .duplicateFactor name, l => l.node = .token (.word name)
  | .emptyFactor _, _ => False

/-- What a fault says of the factors of a universe. -/
def Fault.Accords (u : Universe) : Fault → Prop
  | .undefinedFactor name suggestion => name ∉ u.names ∧ suggestion = u.closest? name
  | .duplicateFactor name => name ∈ u.names
  | _ => True

/-- A refusal is a fault at one of some lexemes, and says what stands there and what is declared in
a universe. -/
def Refusal.Blames (e : Refusal) (u : Universe) (ls : List Lexeme) : Prop :=
  ∃ f, e = .fault f ∧ f.node.Accords u ∧ ∃ l ∈ ls, f.span = l.span ∧ f.node.Fits l

/-- A compilation that has what another has, in the same places, and perhaps more behind. -/
structure Compilation.Grows (c c' : Compilation) : Prop where
  /-- The factors and transitions. -/
  world : c.world.Grows c'.world
  /-- The findings. -/
  findings : c.findings <+: c'.findings
  /-- The descriptions. -/
  descriptions : c.descriptions <+: c'.descriptions

theorem Compilation.Grows.refl (c : Compilation) : c.Grows c :=
  ⟨.refl _, List.prefix_refl _, List.prefix_refl _⟩

theorem Compilation.Grows.trans {c c' c'' : Compilation} (h : c.Grows c') (h' : c'.Grows c'') :
    c.Grows c'' :=
  ⟨h.world.trans h'.world, h.findings.trans h'.findings, h.descriptions.trans h'.descriptions⟩

theorem Universe.addFactor_eq_error {u : Universe} {label : String} {values : List Value}
    {e : ModelError} (h : u.addFactor label values = .error e) (hvalues : values ≠ []) :
    e = .duplicateFactor label ∧ label ∈ u.names := by
  rw [addFactor] at h
  split at h
  · next hsome =>
      cases h
      exact ⟨rfl, findFactor?_isSome_iff.mp hsome⟩
  · split at h
    · next hnone => exact absurd (distinct_eq_nil_iff.mp hnone) hvalues
    · cases h

namespace Reading

variable {α β : Type} {ls : List Lexeme} {u : Universe}

/-! ## Steps that blame -/

/-- Where a step starts: the lexemes it can come to, and the universe it reads for. -/
structure Starts (ls : List Lexeme) (u : Universe) (r : Reader) : Prop where
  /-- What is looked at and what is ahead. -/
  lexemes : r.lexemes ⊆ ls
  /-- What is declared. -/
  world : r.world = u

/-- A step leaves the universe alone, its result is as said, and it blames a lexeme if it
is refused. -/
structure Steps (ls : List Lexeme) (u : Universe) (p : Step α) (Q : α → Prop) : Prop where
  /-- If it succeeds. -/
  ok : ∀ r a r', Starts ls u r → p.run r = .ok (a, r') →
    Starts ls u r' ∧ r.done.Grows r'.done ∧ Q a
  /-- If it is refused. -/
  error : ∀ r e, Starts ls u r → p.run r = .error e → e.Blames u ls

/-- A step that declares something leaves a universe that was built, and it blames a lexeme
if it is refused. -/
structure Declares (ls : List Lexeme) (u : Universe) (p : Step Unit) : Prop where
  /-- If it succeeds. -/
  ok : ∀ r r', Starts ls u r → p.run r = .ok ((), r') →
    r'.lexemes ⊆ ls ∧ r'.world.Built ∧ r.done.Grows r'.done
  /-- If it is refused. -/
  error : ∀ r e, Starts ls u r → p.run r = .error e → e.Blames u ls

theorem Steps.bind {p : Step α} {f : α → Step β} {Q : α → Prop} {Q' : β → Prop}
    (hp : Steps ls u p Q) (hf : ∀ a, Q a → Steps ls u (f a) Q') : Steps ls u (p >>= f) Q' := by
  constructor
  · intro r b r'' hr hrun
    obtain ⟨a, r', ha, hb⟩ := run_bind_eq_ok.mp hrun
    obtain ⟨hr', hgrows, hQ⟩ := hp.ok r a r' hr ha
    obtain ⟨hr'', hgrows', hQ'⟩ := (hf a hQ).ok r' b r'' hr' hb
    exact ⟨hr'', hgrows.trans hgrows', hQ'⟩
  · intro r e hr hrun
    rcases run_bind_eq_error.mp hrun with he | ⟨a, r', ha, he⟩
    · exact hp.error r e hr he
    · obtain ⟨hr', -, hQ⟩ := hp.ok r a r' hr ha
      exact (hf a hQ).error r' e hr' he

theorem Steps.bind_declares {p : Step α} {f : α → Step Unit} {Q : α → Prop}
    (hp : Steps ls u p Q) (hf : ∀ a, Q a → Declares ls u (f a)) : Declares ls u (p >>= f) := by
  constructor
  · intro r r'' hr hrun
    obtain ⟨a, r', ha, hb⟩ := run_bind_eq_ok.mp hrun
    obtain ⟨hr', hgrows, hQ⟩ := hp.ok r a r' hr ha
    obtain ⟨hlexemes, hbuilt, hgrows'⟩ := (hf a hQ).ok r' r'' hr' hb
    exact ⟨hlexemes, hbuilt, hgrows.trans hgrows'⟩
  · intro r e hr hrun
    rcases run_bind_eq_error.mp hrun with he | ⟨a, r', ha, he⟩
    · exact hp.error r e hr he
    · obtain ⟨hr', -, hQ⟩ := hp.ok r a r' hr ha
      exact (hf a hQ).error r' e hr' he

/-- A step that runs as another does from every reader. -/
theorem Steps.of_run_eq {p q : Step α} {Q : α → Prop} (hq : Steps ls u q Q)
    (h : ∀ r, p.run r = q.run r) : Steps ls u p Q := by
  constructor
  · intro r a r' hr hrun
    exact hq.ok r a r' hr (h r ▸ hrun)
  · intro r e hr hrun
    exact hq.error r e hr (h r ▸ hrun)

theorem steps_pure {a : α} {Q : α → Prop} (h : Q a) : Steps ls u (pure a) Q := by
  constructor
  · intro r b r' hr hrun
    cases hrun
    exact ⟨hr, .refl _, h⟩
  · intro r e hr hrun
    cases hrun

/-! ## Single steps -/

theorem steps_unexpected (expected : String) {Q : α → Prop} :
    Steps ls u (unexpected expected : Step α) Q := by
  constructor
  · intro r a r' hr hrun
    cases hrun
  · intro r e hr hrun
    cases hrun
    exact ⟨_, rfl, trivial, .ofToken r.current, hr.lexemes List.mem_cons_self, rfl, rfl⟩

theorem steps_look {f : Token → Step α} {Q : α → Prop} (hf : ∀ t, Steps ls u (f t) Q) :
    Steps ls u (look >>= f) Q := by
  constructor
  · intro r a r' hr hrun
    exact (hf r.current.node).ok r a r' hr hrun
  · intro r e hr hrun
    exact (hf r.current.node).error r e hr hrun

theorem steps_ahead {f : Nat → Step α} {Q : α → Prop} (hf : ∀ n, Steps ls u (f n) Q) :
    Steps ls u (do f (← get).ahead.length) Q := by
  constructor
  · intro r a r' hr hrun
    exact (hf r.ahead.length).ok r a r' hr hrun
  · intro r e hr hrun
    exact (hf r.ahead.length).error r e hr hrun

theorem next_ok {r r' : Reader} (h : r.next = .ok r') :
    r'.lexemes ⊆ r.lexemes ∧ r'.done = r.done := by
  obtain ⟨cur, ahead, w, fs, ds⟩ := r
  cases ahead with
  | nil =>
      cases h
      exact ⟨List.Subset.refl _, rfl⟩
  | cons l rest =>
      obtain ⟨node, span⟩ := l
      cases node with
      | token t =>
          cases h
          exact ⟨List.subset_cons_self .., rfl⟩
      | fault f => cases h

theorem next_error {r : Reader} {e : Refusal} (h : r.next = .error e) : e.Blames u r.lexemes := by
  obtain ⟨cur, ahead, w, fs, ds⟩ := r
  cases ahead with
  | nil => cases h
  | cons l rest =>
      obtain ⟨node, span⟩ := l
      cases node with
      | token t => cases h
      | fault f =>
          cases h
          exact ⟨_, rfl, trivial, ⟨.fault f, span⟩, List.mem_cons_of_mem _ List.mem_cons_self, rfl,
            rfl, rfl⟩

theorem Refusal.Blames.mono {e : Refusal} {ms : List Lexeme} (h : e.Blames u ms) (hms : ms ⊆ ls) :
    e.Blames u ls := by
  obtain ⟨f, rfl, haccords, l, hl, hfits⟩ := h
  exact ⟨f, rfl, haccords, l, hms hl, hfits⟩

theorem steps_pass : Steps ls u pass fun _ => True := by
  constructor
  · intro r span r' hr hrun
    rw [run_pass] at hrun
    cases hnext : r.next with
    | error e =>
        rw [hnext] at hrun
        cases hrun
    | ok r₁ =>
        rw [hnext] at hrun
        cases hrun
        obtain ⟨hlexemes, hdone⟩ := next_ok hnext
        exact ⟨⟨List.Subset.trans hlexemes hr.lexemes,
          (congrArg Compilation.world hdone).trans hr.world⟩, hdone ▸ .refl _, trivial⟩
  · intro r e hr hrun
    rw [run_pass] at hrun
    cases hnext : r.next with
    | error e' =>
        rw [hnext] at hrun
        cases hrun
        exact Refusal.Blames.mono (next_error hnext) hr.lexemes
    | ok r₁ =>
        rw [hnext] at hrun
        cases hrun

theorem Picks.steps {p : Step α} {pick : Spanned Token → Option α} {expected : String}
    {Q : α → Prop} (h : Picks p pick expected)
    (hQ : ∀ t a, pick t = some a → Lexeme.ofToken t ∈ ls → Q a) : Steps ls u p Q := by
  constructor
  · intro r a r' hr hrun
    rw [h] at hrun
    cases hpick : pick r.current with
    | none =>
        rw [hpick] at hrun
        cases hrun
    | some b =>
        rw [hpick] at hrun
        obtain ⟨span, r₁, hpass, hrun⟩ := run_bind_eq_ok.mp hrun
        cases hrun
        obtain ⟨hr', hgrows, -⟩ := steps_pass.ok r span r' hr hpass
        exact ⟨hr', hgrows, hQ _ _ hpick (hr.lexemes List.mem_cons_self)⟩
  · intro r e hr hrun
    rw [h] at hrun
    cases hpick : pick r.current with
    | none =>
        rw [hpick] at hrun
        exact (steps_unexpected expected (Q := Q)).error r e hr hrun
    | some b =>
        rw [hpick] at hrun
        rcases run_bind_eq_error.mp hrun with he | ⟨span, r', -, he⟩
        · exact steps_pass.error r e hr he
        · cases he

theorem steps_expect (t : Token) : Steps ls u (expect t) fun _ => True :=
  (picks_expect t).steps fun _ _ _ _ => trivial

theorem steps_word (expected : String) : Steps ls u (word expected) fun name =>
    (⟨.token (.word name.node), name.span⟩ : Lexeme) ∈ ls := by
  refine (picks_word expected).steps fun t name hpick ht => ?_
  obtain ⟨node, span⟩ := t
  cases node <;> cases hpick
  exact ht

theorem steps_text (expected : String) : Steps ls u (text expected) fun _ => True :=
  (picks_text expected).steps fun _ _ _ _ => trivial

theorem steps_value : Steps ls u value fun _ => True :=
  picks_value.steps fun _ _ _ _ => trivial

theorem steps_note (finding : Finding) (span : Span) :
    Steps ls u (note finding span) fun _ => True := by
  constructor
  · intro r a r' hr hrun
    cases hrun
    exact ⟨⟨hr.lexemes, hr.world⟩, ⟨.refl _, List.prefix_append _ _, List.prefix_refl _⟩, trivial⟩
  · intro r e hr hrun
    cases hrun

theorem steps_resolve {name : Spanned String}
    (hname : (⟨.token (.word name.node), name.span⟩ : Lexeme) ∈ ls) :
    Steps ls u (resolve name) fun f => f ∈ u.factors := by
  constructor
  · intro r f r' hr hrun
    cases hf : r.world.findFactor? name.node with
    | none =>
        rw [run_resolve_of_none hf] at hrun
        cases hrun
    | some g =>
        rw [run_resolve_of_some hf] at hrun
        cases hrun
        exact ⟨hr, .refl _, hr.world ▸ (Universe.mem_of_findFactor? hf).1⟩
  · intro r e hr hrun
    cases hf : r.world.findFactor? name.node with
    | none =>
        rw [run_resolve_of_none hf] at hrun
        cases hrun
        have hnew : name.node ∉ r.world.names :=
          mt Universe.findFactor?_isSome_iff.mpr (by rw [hf]; exact Bool.false_ne_true)
        exact ⟨_, rfl, hr.world ▸ ⟨hnew, rfl⟩, _, hname, rfl, rfl⟩
    | some g =>
        rw [run_resolve_of_some hf] at hrun
        cases hrun

theorem steps_further (separator : Mark) {item : Step α} {Q : α → Prop}
    (hitem : Steps ls u item Q) (n : Nat) :
    Steps ls u (further separator item n) fun as => ∀ a ∈ as, Q a := by
  induction n with
  | zero => exact steps_pure (List.forall_mem_nil _)
  | succ n ih =>
      refine steps_look fun t => ?_
      split
      · exact steps_pass.bind fun _ _ => hitem.bind fun a ha => ih.bind fun as has =>
          steps_pure (List.forall_mem_cons.mpr ⟨ha, has⟩)
      · exact steps_pure (List.forall_mem_nil _)

theorem steps_separated (separator : Mark) {item : Step α} {Q : α → Prop}
    (hitem : Steps ls u item Q) :
    Steps ls u (separated separator item) fun as => as ≠ [] ∧ ∀ a ∈ as, Q a :=
  hitem.bind fun a ha => steps_ahead (f := fun n => do
      let as ← further separator item n
      return a :: as) fun n =>
    (steps_further separator hitem n).bind fun as has =>
      steps_pure ⟨List.cons_ne_nil a as, List.forall_mem_cons.mpr ⟨ha, has⟩⟩

/-! ## Conditions -/

variable (hu : u.Built)

/-- The tests of a condition are of declared factors. -/
def Tested (u : Universe) (c : Condition) : Prop := ∀ p ∈ c.tests, u.Declares p.1

include hu

theorem steps_test : Steps ls u test (Tested u) := by
  refine (steps_word _).bind fun name hname => (steps_resolve hname).bind fun f hf =>
    (steps_expect _).bind fun _ _ => steps_value.bind fun v _ => ?_
  have htested : Tested u (.holds f.id v.node) := by
    refine List.forall_mem_singleton.mpr ?_
    rw [Universe.Declares, hu.factor?_id hf]
    rfl
  split
  · exact (steps_note _ _).bind fun _ _ => steps_pure htested
  · exact steps_pure htested

omit hu in
theorem tested_all {cs : List Condition} (h : ∀ c ∈ cs, Tested u c) :
    Tested u (.all cs) ∧ Tested u (.any cs) := by
  have htests : ∀ p ∈ Condition.testsOfList cs, u.Declares p.1 := by
    intro p hp
    rw [Condition.testsOfList_eq] at hp
    obtain ⟨c, hc, hp⟩ := List.mem_flatMap.mp hp
    exact h c hc p hp
  exact ⟨htests, htests⟩

theorem steps_term {nested : Step Condition} (hnested : Steps ls u nested (Tested u)) :
    Steps ls u (term nested) (Tested u) := by
  refine steps_look fun t => ?_
  split
  · exact steps_pass.bind fun _ _ => hnested.bind fun c hc =>
      (steps_expect _).bind fun _ _ => steps_pure hc
  · exact steps_test hu

theorem steps_conditionWithin (depth : Nat) :
    Steps ls u (conditionWithin depth) (Tested u) := by
  induction depth with
  | zero => exact steps_unexpected _
  | succ depth ih =>
      have hclause := (steps_separated .pipe (steps_term hu ih)).bind
        fun terms hterms => steps_pure (tested_all hterms.2).2
      exact (steps_separated .ampersand hclause).bind fun clauses hclauses =>
        steps_pure (tested_all hclauses.2).1

theorem steps_condition : Steps ls u condition (Tested u) :=
  steps_ahead (f := fun n => conditionWithin (n + 1)) fun n => steps_conditionWithin hu (n + 1)

/-! ## Schedules and effects -/

omit hu in
theorem steps_chance : Steps ls u chance fun _ => True :=
  picks_chance.steps fun _ _ _ _ => trivial

omit hu in
theorem steps_probability : Steps ls u probability fun _ => True := by
  refine Steps.of_run_eq (steps_chance.bind fun x _ => ?_) run_probability
  split
  · exact (steps_note _ _).bind fun _ _ => steps_pure trivial
  · exact steps_pure trivial

omit hu in
theorem steps_schedule : Steps ls u schedule fun _ => True := by
  refine steps_look fun t => ?_
  split
  · exact steps_pass.bind fun _ _ => steps_probability.bind fun _ _ => steps_pure trivial
  · exact steps_pass.bind fun _ _ => (steps_expect _).bind fun _ _ =>
      (steps_text _).bind fun _ _ => steps_pure trivial
  · exact steps_unexpected _

theorem steps_effect : Steps ls u effect fun p => u.Declares p.1 := by
  refine (steps_word _).bind fun name hname => (steps_resolve hname).bind fun f hf =>
    (steps_expect _).bind fun _ _ => (steps_expect _).bind fun _ _ => steps_value.bind fun v _ => ?_
  have hdeclares : u.Declares f.id := by
    rw [Universe.Declares, hu.factor?_id hf]
    rfl
  split
  · exact (steps_note _ _).bind fun _ _ => steps_pure hdeclares
  · exact steps_pure hdeclares

theorem steps_effects : Steps ls u effects fun ps => ∀ p ∈ ps, u.Declares p.1 := by
  refine steps_look fun t => ?_
  split
  · exact steps_pass.bind fun _ _ => (steps_separated .comma (steps_effect hu)).bind fun ps hps =>
      (steps_expect _).bind fun _ _ => steps_pure hps.2
  · exact (steps_effect hu).bind fun p hp => steps_pure (List.forall_mem_singleton.mpr hp)

/-! ## Blocks -/

omit hu in
theorem steps_transitionName : Steps ls u transitionName fun _ => True := by
  refine steps_look fun t => ?_
  split
  · exact (steps_word _).bind fun _ _ => steps_pure trivial
  · exact steps_pure trivial

omit hu in
theorem steps_transitionText : Steps ls u transitionText fun _ => True := by
  refine steps_look fun t => ?_
  split
  · exact steps_pass.bind fun _ _ => (steps_text _).bind fun _ _ => steps_pure trivial
  · exact steps_pure trivial

/-- A factor that was read has values, so only its name can be refused. -/
theorem declares_declareFactor {name : Spanned String} {values : List (Spanned Value)}
    (hname : (⟨.token (.word name.node), name.span⟩ : Lexeme) ∈ ls) (hvalues : values ≠ []) :
    Declares ls u (declareFactor name values) := by
  constructor
  · intro r r' hr hrun
    obtain ⟨hlexemes, rfl⟩ := hr
    cases hadd : r.world.addFactor name.node (values.map Spanned.node) with
    | error e =>
        simp only [declareFactor, StateT.run_bind, StateT.run_modify, StateT.run_get, pure_bind,
          hadd] at hrun
        cases e <;> cases hrun
    | ok added =>
        simp only [declareFactor, StateT.run_bind, StateT.run_modify, StateT.run_get, pure_bind,
          hadd] at hrun
        cases hrun
        exact ⟨hlexemes, .factor hu hadd, Universe.addFactor_grows hadd,
          List.prefix_append _ _, List.prefix_refl _⟩
  · intro r e hr hrun
    obtain ⟨hlexemes, rfl⟩ := hr
    cases hadd : r.world.addFactor name.node (values.map Spanned.node) with
    | error e' =>
        simp only [declareFactor, StateT.run_bind, StateT.run_modify, StateT.run_get, pure_bind,
          hadd] at hrun
        have hne : values.map Spanned.node ≠ [] := fun h => hvalues (List.map_eq_nil_iff.mp h)
        obtain ⟨rfl, hmem⟩ := Universe.addFactor_eq_error hadd hne
        cases hrun
        exact ⟨_, rfl, hmem, _, hname, rfl, rfl⟩
    | ok added =>
        simp only [declareFactor, StateT.run_bind, StateT.run_modify, StateT.run_get, pure_bind,
          hadd] at hrun
        cases hrun

theorem declares_declareTransition {label : String} {c : Condition} {s : Schedule} {told : String}
    {es : List (FactorId × Value)} (hc : Tested u c) (hes : ∀ p ∈ es, u.Declares p.1) :
    Declares ls u (declareTransition label c s told es) := by
  have hadd : ∃ added, u.addTransition label c s told es = .ok added := by
    refine ⟨_, Universe.addTransition_eq_ok_iff.mpr
      ⟨Universe.firstUnknown?_eq_none hc hes, rfl, rfl⟩⟩
  obtain ⟨added, hadd⟩ := hadd
  constructor
  · rintro r r' ⟨hlexemes, rfl⟩ hrun
    simp only [declareTransition, StateT.run_bind, StateT.run_get, pure_bind, hadd] at hrun
    cases hrun
    exact ⟨hlexemes, .transition hu hadd, Universe.addTransition_grows hadd,
      List.prefix_refl _, List.prefix_refl _⟩
  · rintro r e ⟨hlexemes, rfl⟩ hrun
    simp only [declareTransition, StateT.run_bind, StateT.run_get, pure_bind, hadd] at hrun
    cases hrun

theorem declares_factorBlock : Declares ls u factorBlock :=
  (steps_expect _).bind_declares fun _ _ => (steps_word _).bind_declares fun _ hname =>
    (steps_expect _).bind_declares fun _ _ => (steps_expect _).bind_declares fun _ _ =>
    (steps_separated .comma steps_value).bind_declares fun _ hvalues =>
    (steps_expect _).bind_declares fun _ _ => declares_declareFactor hu hname hvalues.1

theorem declares_transitionRest (label : String) : Declares ls u (transitionRest label) :=
  (steps_expect _).bind_declares fun _ _ => (steps_expect _).bind_declares fun _ _ =>
    (steps_condition hu).bind_declares fun _ hc => (steps_expect _).bind_declares fun _ _ =>
    steps_schedule.bind_declares fun _ _ => (steps_expect _).bind_declares fun _ _ =>
    (steps_effects hu).bind_declares fun _ hes => steps_transitionText.bind_declares fun _ _ =>
    (steps_expect _).bind_declares fun _ _ => declares_declareTransition hu hc hes

theorem declares_transitionBlock : Declares ls u transitionBlock := by
  rw [transitionBlock_eq]
  exact (steps_expect _).bind_declares fun _ _ => steps_transitionName.bind_declares
    fun label _ => declares_transitionRest hu label

theorem declares_descriptionBlock : Declares ls u descriptionBlock := by
  refine (steps_expect _).bind_declares fun first _ => (steps_expect _).bind_declares fun _ _ =>
    (steps_expect _).bind_declares fun _ _ => (steps_condition hu).bind_declares fun c _ =>
    (steps_expect _).bind_declares fun _ _ => (steps_text _).bind_declares fun told _ =>
    (steps_expect _).bind_declares fun last _ => ?_
  constructor
  · rintro r r' ⟨hlexemes, rfl⟩ hrun
    cases hrun
    exact ⟨hlexemes, hu, .refl _, List.prefix_refl _, List.prefix_append _ _⟩
  · intro r e hr hrun
    cases hrun

theorem declares_block (k : Keyword) : Declares ls u (block k) := by
  cases k with
  | factor => exact declares_factorBlock hu
  | transition => exact declares_transitionBlock hu
  | description => exact declares_descriptionBlock hu
  | spontaneous | choice =>
      refine ⟨fun r r' hr hrun => ?_, (steps_unexpected _ (Q := fun _ => True)).error⟩
      cases hrun

omit hu

/-- Reading blocks loses nothing that was compiled, and blames a lexeme if it ends early. -/
theorem blocks_grow (n : Nat) : ∀ r : Reader, r.lexemes ⊆ ls → r.world.Built →
    (∀ r', (blocks n).run r = .ok ((), r') → r.done.Grows r'.done) ∧
      ∀ e, (blocks n).run r = .error e → ∃ u, r.world.Grows u ∧ e.Blames u ls := by
  induction n with
  | zero =>
      intro r _ _
      constructor
      · intro r' hrun
        cases hrun
        exact .refl _
      · intro e hrun
        cases hrun
  | succ n ih =>
      intro r hls hbuilt
      have hstarts : Starts ls r.world r := ⟨hls, rfl⟩
      simp only [run_blocks_succ]
      cases hcur : r.current.node with
      | keyword k =>
          have hblock : Declares ls r.world (block k) := declares_block hbuilt k
          constructor
          · intro r'' hrun
            obtain ⟨⟨⟩, r', hk, hrest⟩ := run_bind_eq_ok.mp hrun
            obtain ⟨hls', hbuilt', hgrows⟩ := hblock.ok r r' hstarts hk
            exact hgrows.trans ((ih r' hls' hbuilt').1 r'' hrest)
          · intro e hrun
            rcases run_bind_eq_error.mp hrun with he | ⟨⟨⟩, r', hk, he⟩
            · exact ⟨r.world, .refl _, hblock.error r e hstarts he⟩
            · obtain ⟨hls', hbuilt', hgrows⟩ := hblock.ok r r' hstarts hk
              obtain ⟨u, hu, hblames⟩ := (ih r' hls' hbuilt').2 e he
              exact ⟨u, hgrows.world.trans hu, hblames⟩
      | finish =>
          constructor
          · intro r' hrun
            cases hrun
            exact .refl _
          · intro e hrun
            cases hrun
      | _ =>
          constructor
          · intro r' hrun
            cases hrun
          · intro e hrun
            exact ⟨r.world, .refl _,
              (steps_unexpected _ (Q := fun _ => True)).error r e hstarts hrun⟩

end Reading

end Storyworld
