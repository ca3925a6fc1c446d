import Storyworld.Proofs.Blame

/-!
# Two readings side by side

Stories whose tokens say the same are read with the same steps, wherever the tokens stand.
`Alongside` says so of two steps on readers that correspond: the tokens are the same and
the places are related.  The steps end alike then, and what they compile is the same at
related places.  The second story may have a lexeme that is no token where the first has
any other.  The second reading parts from the first there, with the fault of that lexeme.

What is related are the ends of places, by any relation.  So the places that are put
together from the ends of two others are related as well.
-/

namespace Storyworld

/-! ## What corresponds -/

section Pairs

variable (P : Nat → Nat → Prop) (A : Spanned Fault → Prop)

/-- Places whose ends are related. -/
structure Span.Pairs (s t : Span) : Prop where
  /-- Where they begin. -/
  start : P s.start t.start
  /-- Where they end. -/
  stop : P s.stop t.stop

theorem Span.Pairs.eq {s t : Span} (h : s.Pairs Eq t) : s = t := by
  obtain ⟨start, stop⟩ := s
  obtain ⟨rfl, rfl⟩ := h
  rfl

/-- The same at related places. -/
structure Spanned.Pairs {α : Type} (x y : Spanned α) : Prop where
  /-- What it is. -/
  node : x.node = y.node
  /-- Where it stands. -/
  span : x.span.Pairs P y.span

/-- The same description at related places. -/
structure Description.Pairs (d e : Description) : Prop where
  /-- When it applies. -/
  condition : d.condition = e.condition
  /-- What it says. -/
  text : d.text = e.text
  /-- Where it stands. -/
  span : d.span.Pairs P e.span

/-- The same refusal, for faults at related places. -/
inductive Refusal.Pairs : Refusal → Refusal → Prop
  | fault {f g : Spanned Fault} : f.Pairs P g → Pairs (.fault f) (.fault g)
  | model (cause : ModelError) : Pairs (.model cause) (.model cause)

/-- As many lexemes, with the same tokens at related places, up to a lexeme of the second
list that has a fault. -/
inductive Lexeme.Pairs : List Lexeme → List Lexeme → Prop
  | nil : Pairs [] []
  | token {t u : Spanned Token} {ls ms : List Lexeme} : t.Pairs P u → Pairs ls ms →
      Pairs (.ofToken t :: ls) (.ofToken u :: ms)
  | apart {l : Lexeme} {f : LexicalFault} {span : Span} {ls ms : List Lexeme} : A ⟨f.fault, span⟩ →
      ls.length = ms.length → Pairs (l :: ls) (⟨.fault f, span⟩ :: ms)

theorem Lexeme.Pairs.length_eq {ls ms : List Lexeme} (h : Lexeme.Pairs P A ls ms) :
    ls.length = ms.length := by
  induction h with
  | nil => rfl
  | token _ _ ih => exact congrArg (· + 1) ih
  | apart _ hlength => exact congrArg (· + 1) hlength

/-- Readers that look at the same token, at related places, have lexemes ahead that
correspond, and have compiled the same at related places. -/
structure Reader.Pairs (r r' : Reader) : Prop where
  /-- The token they look at. -/
  current : r.current.Pairs P r'.current
  /-- The lexemes ahead. -/
  ahead : Lexeme.Pairs P A r.ahead r'.ahead
  /-- What is declared. -/
  world : r.world = r'.world
  /-- What was found. -/
  findings : List.Forall₂ (Spanned.Pairs P) r.findings r'.findings
  /-- The descriptions. -/
  descriptions : List.Forall₂ (Description.Pairs P) r.descriptions r'.descriptions

end Pairs

namespace Reading

variable {α β : Type} {P : Nat → Nat → Prop} {A : Spanned Fault → Prop}

/-- Two steps end alike, or the second parts from the first. -/
inductive Outcome (P : Nat → Nat → Prop) (A : Spanned Fault → Prop) (R : α → α → Prop) :
    Except Refusal (α × Reader) → Except Refusal (α × Reader) → Prop
  | ok {a b : α} {r r' : Reader} : R a b → r.Pairs P A r' → Outcome P A R (.ok (a, r)) (.ok (b, r'))
  | error {e e' : Refusal} : e.Pairs P e' → Outcome P A R (.error e) (.error e')
  | apart {x : Except Refusal (α × Reader)} {f : Spanned Fault} : A f →
      Outcome P A R x (.error (.fault f))

theorem Outcome.bind {R : α → α → Prop} {R' : β → β → Prop}
    {x y : Except Refusal (α × Reader)} {f g : α × Reader → Except Refusal (β × Reader)}
    (h : Outcome P A R x y)
    (hfg : ∀ a b r r', R a b → r.Pairs P A r' → Outcome P A R' (f (a, r)) (g (b, r'))) :
    Outcome P A R' (x >>= f) (y >>= g) := by
  cases h with
  | ok hR hr => exact hfg _ _ _ _ hR hr
  | error he => exact .error he
  | apart hA => exact .apart hA

/-- From readers that correspond two steps end alike, with results that are related, or the
second parts from the first. -/
def Alongside (P : Nat → Nat → Prop) (A : Spanned Fault → Prop) (p q : Step α)
    (R : α → α → Prop) : Prop :=
  ∀ r r' : Reader, r.Pairs P A r' → Outcome P A R (p.run r) (q.run r')

theorem Alongside.bind {p q : Step α} {f g : α → Step β} {R : α → α → Prop} {R' : β → β → Prop}
    (hpq : Alongside P A p q R) (hfg : ∀ a b, R a b → Alongside P A (f a) (g b) R') :
    Alongside P A (p >>= f) (q >>= g) R' := by
  intro r r' hr
  rw [StateT.run_bind, StateT.run_bind]
  exact (hpq r r' hr).bind fun a b r r' hR hr => hfg a b hR r r' hr

theorem alongside_pure {R : α → α → Prop} {a b : α} (h : R a b) :
    Alongside P A (pure a) (pure b) R :=
  fun _ _ hr => .ok h hr

/-- Steps that run as others do from every reader. -/
theorem Alongside.of_run_eq {p p' q q' : Step α} {R : α → α → Prop}
    (h : Alongside P A p' q' R) (hp : ∀ r, p.run r = p'.run r) (hq : ∀ r, q.run r = q'.run r) :
    Alongside P A p q R := by
  intro r r' hr
  rw [hp, hq]
  exact h r r' hr

/-! ## Single steps -/

theorem alongside_look {f g : Token → Step α} {R : α → α → Prop}
    (h : ∀ t, Alongside P A (f t) (g t) R) : Alongside P A (look >>= f) (look >>= g) R := by
  intro r r' hr
  have hcurrent : (look >>= g).run r' = (g r.current.node).run r' := by
    rw [hr.current.node]
    rfl
  rw [hcurrent]
  exact h r.current.node r r' hr

theorem alongside_ahead {f g : Nat → Step α} {R : α → α → Prop}
    (h : ∀ n, Alongside P A (f n) (g n) R) :
    Alongside P A (do f (← get).ahead.length) (do g (← get).ahead.length) R := by
  intro r r' hr
  have hlength : (do g (← get).ahead.length : Step α).run r' = (g r.ahead.length).run r' := by
    rw [hr.ahead.length_eq]
    rfl
  rw [hlength]
  exact h r.ahead.length r r' hr

theorem alongside_pass : Alongside P A pass pass (Span.Pairs P) := by
  intro r r' hr
  obtain ⟨cur, ahead, w, fs, ds⟩ := r
  obtain ⟨cur', ahead', w', fs', ds'⟩ := r'
  obtain ⟨hcurrent, hahead, hworld, hfindings, hdescriptions⟩ := hr
  cases hahead with
  | nil => exact .ok hcurrent.span ⟨hcurrent, .nil, hworld, hfindings, hdescriptions⟩
  | token ht hls => exact .ok hcurrent.span ⟨ht, hls, hworld, hfindings, hdescriptions⟩
  | apart hA => exact .apart hA

theorem alongside_unexpected (expected : String) {R : α → α → Prop} :
    Alongside P A (unexpected expected) (unexpected expected) R := by
  intro r r' hr
  refine .error (.fault ⟨?_, hr.current.span⟩)
  exact congrArg (fun t => Fault.unexpected expected t.display) hr.current.node

theorem Picks.alongside {p : Step α} {pick : Spanned Token → Option α} {expected : String}
    {R : α → α → Prop} (h : Picks p pick expected)
    (hpick : ∀ t s s', Span.Pairs P s s' → Option.Rel R (pick ⟨t, s⟩) (pick ⟨t, s'⟩)) :
    Alongside P A p p R := by
  intro r r' hr
  have hsame : (⟨r.current.node, r'.current.span⟩ : Spanned Token) = r'.current := by
    rw [hr.current.node]
  have hboth := hpick r.current.node r.current.span r'.current.span hr.current.span
  rw [hsame] at hboth
  rw [h, h]
  generalize pick r.current = a, pick r'.current = b at hboth
  cases hboth with
  | none => exact alongside_unexpected expected r r' hr
  | some hR => exact (alongside_pass.bind fun _ _ _ => alongside_pure hR) r r' hr

theorem alongside_expect (t : Token) : Alongside P A (expect t) (expect t) (Span.Pairs P) := by
  refine (picks_expect t).alongside fun u s s' hs => ?_
  simp only [pickToken]
  split
  · exact .some hs
  · exact .none

theorem alongside_word (expected : String) :
    Alongside P A (word expected) (word expected) (Spanned.Pairs P) := by
  refine (picks_word expected).alongside fun t s s' hs => ?_
  cases t with
  | word name => exact .some ⟨rfl, hs⟩
  | _ => exact .none

theorem alongside_text (expected : String) :
    Alongside P A (text expected) (text expected) (Spanned.Pairs P) := by
  refine (picks_text expected).alongside fun t s s' hs => ?_
  cases t with
  | text content => exact .some ⟨rfl, hs⟩
  | _ => exact .none

theorem alongside_value : Alongside P A value value (Spanned.Pairs P) := by
  refine picks_value.alongside fun t s s' hs => ?_
  cases t with
  | word name => exact .some ⟨rfl, hs⟩
  | whole n => exact .some ⟨rfl, hs⟩
  | _ => exact .none

theorem alongside_chance : Alongside P A chance chance (Spanned.Pairs P) := by
  refine picks_chance.alongside fun t s s' hs => ?_
  cases t with
  | whole n => exact .some ⟨rfl, hs⟩
  | decimal x => exact .some ⟨rfl, hs⟩
  | _ => exact .none

theorem alongside_note (finding : Finding) {s t : Span} (h : s.Pairs P t) :
    Alongside P A (note finding s) (note finding t) Eq := by
  intro r r' hr
  exact .ok rfl ⟨hr.current, hr.ahead, hr.world,
    List.rel_append hr.findings (.cons ⟨rfl, h⟩ .nil), hr.descriptions⟩

theorem alongside_resolve {x y : Spanned String} (h : x.Pairs P y) :
    Alongside P A (resolve x) (resolve y) Eq := by
  intro r r' hr
  cases hf : r.world.findFactor? x.node with
  | none =>
      have hf' : r'.world.findFactor? y.node = none := by rw [← hr.world, ← h.node, hf]
      rw [run_resolve_of_none hf, run_resolve_of_none hf', hr.world, h.node]
      exact .error (.fault ⟨rfl, h.span⟩)
  | some f =>
      have hf' : r'.world.findFactor? y.node = some f := by rw [← hr.world, ← h.node, hf]
      rw [run_resolve_of_some hf, run_resolve_of_some hf']
      exact .ok rfl hr

theorem alongside_further (separator : Mark) {item : Step α} {R : α → α → Prop}
    (hitem : Alongside P A item item R) (n : Nat) :
    Alongside P A (further separator item n) (further separator item n) (List.Forall₂ R) := by
  induction n with
  | zero => exact alongside_pure .nil
  | succ n ih =>
      refine alongside_look fun t => ?_
      split
      · exact alongside_pass.bind fun _ _ _ => hitem.bind fun _ _ hab => ih.bind fun _ _ hrest =>
          alongside_pure (.cons hab hrest)
      · exact alongside_pure .nil

theorem alongside_separated (separator : Mark) {item : Step α} {R : α → α → Prop}
    (hitem : Alongside P A item item R) :
    Alongside P A (separated separator item) (separated separator item) (List.Forall₂ R) := by
  refine hitem.bind fun a b hab => ?_
  refine alongside_ahead (f := fun n => do
    let as ← further separator item n
    return a :: as) (g := fun n => do
    let bs ← further separator item n
    return b :: bs) fun n => ?_
  exact (alongside_further separator hitem n).bind fun _ _ hrest => alongside_pure (.cons hab hrest)

/-! ## Conditions -/

theorem alongside_test : Alongside P A test test Eq := by
  refine (alongside_word _).bind fun name name' hname => (alongside_resolve hname).bind ?_
  rintro f _ rfl
  refine (alongside_expect _).bind fun _ _ _ => alongside_value.bind fun v v' hv => ?_
  have hspan : Span.Pairs P ⟨name.span.start, v.span.stop⟩ ⟨name'.span.start, v'.span.stop⟩ :=
    ⟨hname.span.start, hv.span.stop⟩
  rw [hname.node, hv.node]
  split
  · exact (alongside_note _ hspan).bind fun _ _ _ => alongside_pure rfl
  · exact alongside_pure rfl

theorem alongside_term {nested : Step Condition} (h : Alongside P A nested nested Eq) :
    Alongside P A (term nested) (term nested) Eq := by
  refine alongside_look fun t => ?_
  split
  · exact alongside_pass.bind fun _ _ _ => h.bind fun _ _ hc =>
      (alongside_expect _).bind fun _ _ _ => alongside_pure hc
  · exact alongside_test

theorem alongside_conditionWithin (depth : Nat) :
    Alongside P A (conditionWithin depth) (conditionWithin depth) Eq := by
  induction depth with
  | zero => exact alongside_unexpected _
  | succ depth ih =>
      have hclause := (alongside_separated .pipe (alongside_term ih)).bind
        fun terms terms' hterms => alongside_pure (P := P) (A := A) (R := Eq)
          (congrArg Condition.any (List.forall₂_eq_eq_eq ▸ hterms))
      exact (alongside_separated .ampersand hclause).bind fun clauses clauses' hclauses =>
        alongside_pure (congrArg Condition.all (List.forall₂_eq_eq_eq ▸ hclauses))

theorem alongside_condition : Alongside P A condition condition Eq :=
  alongside_ahead (f := fun n => conditionWithin (n + 1)) (g := fun n => conditionWithin (n + 1))
    fun n => alongside_conditionWithin (n + 1)

/-! ## Schedules and effects -/

theorem alongside_probability : Alongside P A probability probability Eq := by
  refine Alongside.of_run_eq (alongside_chance.bind fun x y hxy => ?_) run_probability
    run_probability
  rw [hxy.node]
  split
  · exact (alongside_note _ hxy.span).bind fun _ _ _ => alongside_pure rfl
  · exact alongside_pure rfl

theorem alongside_schedule : Alongside P A schedule schedule Eq := by
  refine alongside_look fun t => ?_
  split
  · exact alongside_pass.bind fun _ _ _ => alongside_probability.bind fun _ _ hp =>
      alongside_pure (congrArg Schedule.spontaneous hp)
  · exact alongside_pass.bind fun _ _ _ => (alongside_expect _).bind fun _ _ _ =>
      (alongside_text _).bind fun _ _ htext => alongside_pure (congrArg Schedule.chosen htext.node)
  · exact alongside_unexpected _

theorem alongside_effect : Alongside P A effect effect Eq := by
  refine (alongside_word _).bind fun name name' hname => (alongside_resolve hname).bind ?_
  rintro f _ rfl
  refine (alongside_expect _).bind fun _ _ _ => (alongside_expect _).bind fun _ _ _ =>
    alongside_value.bind fun v v' hv => ?_
  rw [hname.node, hv.node]
  split
  · exact (alongside_note _ hv.span).bind fun _ _ _ => alongside_pure rfl
  · exact alongside_pure rfl

theorem alongside_effects : Alongside P A effects effects Eq := by
  refine alongside_look fun t => ?_
  split
  · exact alongside_pass.bind fun _ _ _ => (alongside_separated .comma alongside_effect).bind
      fun _ _ hes => (alongside_expect _).bind fun _ _ _ =>
        alongside_pure (List.forall₂_eq_eq_eq ▸ hes)
  · exact alongside_effect.bind fun _ _ he => alongside_pure (congrArg (fun e => [e]) he)

/-! ## Blocks -/

theorem repetitions_pairs (factor : String) {vs ws : List (Spanned Value)}
    (h : List.Forall₂ (Spanned.Pairs P) vs ws) (seen : List Value) :
    List.Forall₂ (Spanned.Pairs P) (repetitions factor seen vs) (repetitions factor seen ws) := by
  induction h generalizing seen with
  | nil => exact .nil
  | cons hvw _ ih =>
      rw [repetitions, repetitions, hvw.node]
      split
      · exact .cons ⟨rfl, hvw.span⟩ (ih _)
      · exact ih _

theorem alongside_declareFactor {name name' : Spanned String} {vs ws : List (Spanned Value)}
    (hname : name.Pairs P name') (h : List.Forall₂ (Spanned.Pairs P) vs ws) :
    Alongside P A (declareFactor name vs) (declareFactor name' ws) Eq := by
  rintro r r' ⟨hcurrent, hahead, hworld, hfindings, hdescriptions⟩
  have hvalues : vs.map Spanned.node = ws.map Spanned.node := by
    induction h with
    | nil => rfl
    | cons hvw _ ih => rw [List.map_cons, List.map_cons, hvw.node, ih]
  have hnoted := List.rel_append hfindings (repetitions_pairs name.node h [])
  simp only [declareFactor, StateT.run_bind, StateT.run_modify, StateT.run_get, pure_bind,
    ← hname.node, ← hworld, ← hvalues]
  cases r.world.addFactor name.node (vs.map Spanned.node) with
  | ok added => exact .ok rfl ⟨hcurrent, hahead, rfl, hnoted, hdescriptions⟩
  | error e =>
      cases e with
      | duplicateFactor | emptyFactor => exact .error (.fault ⟨rfl, hname.span⟩)
      | _ => exact .error (.model _)

theorem alongside_declareTransition (label : String) (c : Condition) (s : Schedule) (told : String)
    (es : List (FactorId × Value)) : Alongside P A (declareTransition label c s told es)
      (declareTransition label c s told es) Eq := by
  rintro r r' ⟨hcurrent, hahead, hworld, hfindings, hdescriptions⟩
  simp only [declareTransition, StateT.run_bind, StateT.run_get, pure_bind, ← hworld]
  cases r.world.addTransition label c s told es with
  | ok added => exact .ok rfl ⟨hcurrent, hahead, rfl, hfindings, hdescriptions⟩
  | error e => exact .error (.model e)

theorem alongside_factorBlock : Alongside P A factorBlock factorBlock Eq :=
  (alongside_expect _).bind fun _ _ _ => (alongside_word _).bind fun _ _ hname =>
    (alongside_expect _).bind fun _ _ _ => (alongside_expect _).bind fun _ _ _ =>
    (alongside_separated .comma alongside_value).bind fun _ _ hvalues =>
    (alongside_expect _).bind fun _ _ _ => alongside_declareFactor hname hvalues

theorem alongside_transitionName : Alongside P A transitionName transitionName Eq := by
  refine alongside_look fun t => ?_
  split
  · exact (alongside_word _).bind fun _ _ hname => alongside_pure hname.node
  · exact alongside_pure rfl

theorem alongside_transitionText : Alongside P A transitionText transitionText Eq := by
  refine alongside_look fun t => ?_
  split
  · exact alongside_pass.bind fun _ _ _ => (alongside_text _).bind fun _ _ htext =>
      alongside_pure htext.node
  · exact alongside_pure rfl

theorem alongside_transitionRest (label : String) :
    Alongside P A (transitionRest label) (transitionRest label) Eq := by
  refine (alongside_expect _).bind fun _ _ _ => (alongside_expect _).bind fun _ _ _ =>
    alongside_condition.bind fun c _ hc => (alongside_expect _).bind fun _ _ _ =>
    alongside_schedule.bind fun s _ hs => (alongside_expect _).bind fun _ _ _ =>
    alongside_effects.bind fun es _ hes => alongside_transitionText.bind fun told _ htold =>
    (alongside_expect _).bind fun _ _ _ => ?_
  subst hc hs hes htold
  exact alongside_declareTransition label c s told es

theorem alongside_transitionBlock : Alongside P A transitionBlock transitionBlock Eq := by
  rw [transitionBlock_eq]
  refine (alongside_expect _).bind fun _ _ _ => alongside_transitionName.bind ?_
  rintro label _ rfl
  exact alongside_transitionRest label

theorem alongside_descriptionBlock : Alongside P A descriptionBlock descriptionBlock Eq := by
  refine (alongside_expect _).bind fun _ _ hfirst => (alongside_expect _).bind fun _ _ _ =>
    (alongside_expect _).bind fun _ _ _ => alongside_condition.bind fun _ _ hc =>
    (alongside_expect _).bind fun _ _ _ => (alongside_text _).bind fun _ _ htext =>
    (alongside_expect _).bind fun _ _ hlast => ?_
  rintro r r' ⟨hcurrent, hahead, hworld, hfindings, hdescriptions⟩
  exact .ok rfl ⟨hcurrent, hahead, hworld, hfindings,
    List.rel_append hdescriptions (.cons ⟨hc, htext.node, hfirst.start, hlast.stop⟩ .nil)⟩

theorem alongside_block (k : Keyword) : Alongside P A (block k) (block k) Eq := by
  cases k with
  | factor => exact alongside_factorBlock
  | transition => exact alongside_transitionBlock
  | description => exact alongside_descriptionBlock
  | spontaneous | choice => exact alongside_unexpected _

theorem alongside_blocks (n : Nat) : Alongside P A (blocks n) (blocks n) Eq := by
  induction n with
  | zero => exact alongside_pure rfl
  | succ n ih =>
      intro r r' hr
      rw [run_blocks_succ, run_blocks_succ, ← hr.current.node]
      split
      · exact ((alongside_block _).bind fun _ _ _ => ih) r r' hr
      · exact .ok rfl hr
      · exact alongside_unexpected _ r r' hr

end Reading

end Storyworld
