import Storyworld.Proofs.Form

/-!
# The productions read their trees

Every production of the grammar has the language of its trees: it succeeds on
the tokens of a tree and on no others, gives what the tree means and notes what
is found in it.
-/

namespace Storyworld.Reading

open Storyworld.Tree

variable {α β : Type}

/-! ## Tokens that are picked -/

theorem pickToken_eq_some {t : Token} {s : Spanned Token} {span : Span} :
    pickToken t s = some span ↔ s = ⟨t, span⟩ := by
  obtain ⟨node, place⟩ := s
  by_cases h : node = t <;> simp [pickToken, h]

theorem pickWord_eq_some {s : Spanned Token} {w : Spanned String} :
    pickWord s = some w ↔ s = ⟨.word w.node, w.span⟩ := by
  obtain ⟨node, place⟩ := s
  obtain ⟨name, span⟩ := w
  cases node <;> simp [pickWord]

theorem pickText_eq_some {s : Spanned Token} {w : Spanned String} :
    pickText s = some w ↔ s = ⟨.text w.node, w.span⟩ := by
  obtain ⟨node, place⟩ := s
  obtain ⟨content, span⟩ := w
  cases node <;> simp [pickText]

theorem pickValue_eq_some {s : Spanned Token} {v : Spanned Value} :
    pickValue s = some v ↔ ∃ a : Atom, s = ⟨a.token, v.span⟩ ∧ v.node = a.value := by
  obtain ⟨node, place⟩ := s
  obtain ⟨value, span⟩ := v
  constructor
  · intro h
    cases node with
    | word name =>
        cases h
        exact ⟨.word name, rfl, rfl⟩
    | whole n =>
        cases h
        exact ⟨.whole n, rfl, rfl⟩
    | _ => cases h
  · intro given
    obtain ⟨a, h, hv⟩ := given
    cases hv
    cases h
    cases a <;> rfl

variable {c c' : Compilation} {ts : List (Spanned Token)} {next : Token} {b : β}

theorem bind_token_iff {t : Token} {M : Span → Lang β} :
    (Lang.picked (pickToken t)).bind M c ts next c' b ↔
      ∃ span us, ts = ⟨t, span⟩ :: us ∧ M span c us next c' b := by
  rw [bind_picked_iff]
  constructor
  · intro given
    obtain ⟨s, us, span, rfl, hs, h⟩ := given
    exact ⟨span, us, by rw [pickToken_eq_some.mp hs], h⟩
  · intro given
    obtain ⟨span, us, rfl, h⟩ := given
    exact ⟨_, us, span, rfl, pickToken_eq_some.mpr rfl, h⟩

theorem bind_word_iff {M : Spanned String → Lang β} :
    (Lang.picked pickWord).bind M c ts next c' b ↔
      ∃ name span us, ts = ⟨.word name, span⟩ :: us ∧ M ⟨name, span⟩ c us next c' b := by
  rw [bind_picked_iff]
  constructor
  · intro given
    obtain ⟨s, us, w, rfl, hs, h⟩ := given
    exact ⟨w.node, w.span, us, by rw [pickWord_eq_some.mp hs], h⟩
  · intro given
    obtain ⟨name, span, us, rfl, h⟩ := given
    exact ⟨_, us, ⟨name, span⟩, rfl, rfl, h⟩

theorem bind_text_iff {M : Spanned String → Lang β} :
    (Lang.picked pickText).bind M c ts next c' b ↔
      ∃ content span us, ts = ⟨.text content, span⟩ :: us ∧ M ⟨content, span⟩ c us next c' b := by
  rw [bind_picked_iff]
  constructor
  · intro given
    obtain ⟨s, us, w, rfl, hs, h⟩ := given
    exact ⟨w.node, w.span, us, by rw [pickText_eq_some.mp hs], h⟩
  · intro given
    obtain ⟨content, span, us, rfl, h⟩ := given
    exact ⟨_, us, ⟨content, span⟩, rfl, rfl, h⟩

theorem bind_value_iff {M : Spanned Value → Lang β} :
    (Lang.picked pickValue).bind M c ts next c' b ↔
      ∃ (a : Atom) (span : Span) (us : List (Spanned Token)),
        ts = ⟨a.token, span⟩ :: us ∧ M ⟨a.value, span⟩ c us next c' b := by
  rw [bind_picked_iff]
  constructor
  · intro given
    obtain ⟨s, us, ⟨value, span⟩, rfl, hs, h⟩ := given
    obtain ⟨a, rfl, hv⟩ := pickValue_eq_some.mp hs
    cases hv
    exact ⟨a, span, us, rfl, h⟩
  · intro given
    obtain ⟨a, span, us, rfl, h⟩ := given
    exact ⟨_, us, _, rfl, pickValue_eq_some.mpr ⟨a, rfl, rfl⟩, h⟩

theorem picked_value_iff {v : Spanned Value} :
    Lang.picked pickValue c ts next c' v ↔ Form.atom.lang c ts next c' v := by
  constructor
  · intro given
    obtain ⟨rfl, t, rfl, ht⟩ := given
    obtain ⟨a, rfl, hv⟩ := pickValue_eq_some.mp ht
    exact ⟨a, rfl, congrArg some (by rw [← hv]; rfl), (Compilation.noting_nil _).symm⟩
  · intro given
    obtain ⟨a, htokens, hmeans, rfl⟩ := given
    obtain ⟨t, rfl, ht⟩ := List.map_eq_singleton_iff.mp htokens
    cases hmeans
    exact ⟨Compilation.noting_nil _, t, rfl, pickValue_eq_some.mpr ⟨a, by rw [← ht]; rfl, rfl⟩⟩

/-- Values between commas. -/
theorem reads_values (m : Nat) :
    Reads m (separated .comma value) (Lang.before Form.atoms.lang fun t => t ≠ .mark .comma) :=
  (reads_separated .comma (reads_value m)).congr fun _ _ _ _ _ =>
    (Form.atomList.separated_iff (fun _ => True) trivial
      (picked_value_iff.trans (and_iff_left trivial).symm)).trans
      (and_congr_right fun _ => and_iff_right trivial)

/-! ## Conditions -/

/-- A finding that is noted or not, and a result. -/
theorem reads_noteIf (m : Nat) (b : Prop) [Decidable b] (finding : Finding) (span : Span) (a : α) :
    Reads m (do
      if b then note finding span
      return a)
      (Lang.still fun c => some (a, c.noting (if b then [⟨finding, span⟩] else []))) := by
  by_cases h : b
  · simp only [if_pos h]
    refine reads_still (fun r a' c hc => ?_) fun r hc => ?_
    · cases hc
      rfl
    · cases hc
  · simp only [if_neg h, Compilation.noting_nil]
    refine reads_still (fun r a' c hc => ?_) fun r hc => ?_
    · cases hc
      rfl
    · cases hc

/-- The language of the test of a factor. -/
def testLang : Lang Condition := fun c ts _ c' a =>
  ∃ factor value, Form.term.Is (.test factor value) c ts c' a

theorem reads_test (m : Nat) : Reads m test testLang := by
  refine ((reads_word m _).bind fun name => (reads_resolve m name).bind fun factor =>
    (reads_expect m (by simp)).bind fun _ => (reads_value m).bind fun v =>
      reads_noteIf m _ _ _ _).congr fun c ts next c' x => ?_
  simp only [bind_word_iff, bind_still_iff, bind_token_iff, bind_value_iff]
  constructor
  · intro given
    obtain ⟨name, s₁, _, rfl, f, c₁, hf, s₂, _, rfl, a, s₃, _, rfl, rfl, hnote⟩ := given
    obtain ⟨f, hfind, hpair⟩ := Option.map_eq_some_iff.mp hf
    cases hpair
    cases hnote
    refine ⟨name, a, rfl, ?_, ?_⟩
    · simp [Form.term, Term.condition?, hfind]
    · cases hadmits : f.admits a.value <;>
        simp [Form.term, Term.found, testFound, hfind, hadmits, around]
  · intro given
    obtain ⟨factor, a, htokens, hmeans, rfl⟩ := given
    simp only [Form.term, Term.tokens, map_node_cons_iff, List.map_eq_nil_iff] at htokens
    obtain ⟨s₁, _, rfl, s₂, _, rfl, s₃, _, rfl, rfl⟩ := htokens
    simp only [Form.term, Term.condition?] at hmeans
    obtain ⟨f, hfind, rfl⟩ := Option.map_eq_some_iff.mp hmeans
    refine ⟨factor, s₁, _, rfl, f, c, by rw [hfind]; rfl, s₂, _, rfl, a, s₃, _, rfl, rfl, ?_⟩
    cases hadmits : f.admits a.value <;>
      simp [Form.term, Term.found, testFound, hfind, hadmits, around]

/-- A term is followed by anything, a clause not by `|`. -/
def endsClause (next : Token) : Prop := next ≠ .mark .pipe

/-- A condition is followed neither by `|` nor by `&`. -/
def endsCondition (next : Token) : Prop := endsClause next ∧ next ≠ .mark .ampersand

theorem is_group_iff {d : Conjunction} {x : Condition} :
    Form.term.Is (.group d) c ts c' x ↔ ∃ s₁ us s₂,
      ts = ⟨.mark .openParen, s₁⟩ :: (us ++ [⟨.mark .closeParen, s₂⟩]) ∧
        Form.condition.Is d c us c' x :=
  Form.is_parens (Term.tokens.eq_2 d) (fun u _ _ => Term.condition?.eq_2 u d)
    fun u ps => Term.found.eq_2 u ps d

theorem reads_term {m : Nat} {nested : Step Condition}
    (h : Reads (m - 1) nested (Lang.before Form.condition.lang endsCondition)) :
    Reads m (term nested) Form.term.lang := by
  have hgroup : Reads (m - 1) (do
      let inner ← nested
      let _ ← expect (.mark .closeParen)
      return inner) _ :=
    h.bind fun inner => (reads_expect _ (by simp)).bind fun _ => reads_pure _ inner
  refine (Reads.choose (by simp) (fun _ => hgroup) (reads_test m)).congr fun c ts next c' x => ?_
  constructor
  · intro given
    rcases given with ⟨s₁, _, rfl, us, _, c₁, y, rfl, ⟨⟨d, hd⟩, -⟩, hclose⟩ | ⟨-, factor, a, h⟩
    · obtain ⟨s₂, _, rfl, rfl, rfl, rfl⟩ := bind_token_iff.mp hclose
      exact ⟨.group d, is_group_iff.mpr ⟨s₁, us, s₂, rfl, hd⟩⟩
    · exact ⟨_, h⟩
  · intro given
    obtain ⟨t, ht⟩ := given
    cases t with
    | test factor a =>
        refine .inr ⟨?_, factor, a, ht⟩
        have htokens := ht.tokens
        simp only [Form.term, Term.tokens, map_node_cons_iff] at htokens
        obtain ⟨s₁, _, rfl, -⟩ := htokens
        simp [front]
    | group d =>
        obtain ⟨s₁, us, s₂, rfl, hd⟩ := is_group_iff.mp ht
        exact .inl ⟨s₁, _, rfl, us, [_], c', x, rfl,
          ⟨⟨d, hd⟩, by simp [front, endsCondition, endsClause]⟩,
          bind_token_iff.mpr ⟨s₂, [], rfl, rfl, rfl, rfl⟩⟩

theorem Conjunction.tokens_ne_nil (c : Conjunction) : c.tokens ≠ [] := by
  have hterm : ∀ t : Term, t.tokens ≠ [] := by
    intro t
    cases t <;> simp [Term.tokens]
  have hclause : ∀ d : Disjunction, d.tokens ≠ [] := by
    intro d
    cases d <;> simp [Disjunction.tokens, hterm]
  cases c <;> simp [Conjunction.tokens, hclause]

/-- A bound of the depth is enough where no more lexemes are ahead. -/
theorem reads_conditionWithin : ∀ n,
    Reads n (conditionWithin n) (Lang.before Form.condition.lang endsCondition)
  | 0 => by
      intro r _ hm
      refine readsAt_of_error rfl ?_
      intro ts r' a hts given
      obtain ⟨⟨d, htokens, -, -⟩, -⟩ := given
      have hlen := length_ahead hts
      have hnil : ts = [] := List.eq_nil_of_length_eq_zero (by omega)
      rw [hnil] at htokens
      exact Conjunction.tokens_ne_nil d htokens.symm
  | n + 1 => by
      have hterm := reads_term (m := n + 1) (reads_conditionWithin n)
      have hterms := (reads_separated .pipe hterm).congr fun c ts next c' as =>
        Form.termList.separated_iff (fun _ => True) trivial
          (and_iff_left trivial).symm
      have hclause : Reads (n + 1) (do
          let terms ← separated .pipe (term (conditionWithin n))
          return Condition.any terms) (Lang.before Form.clause.lang endsClause) := by
        refine (hterms.bind fun as => reads_pure _ (Condition.any as)).congr
          fun c ts next c' x => ?_
        rw [bind_result_iff]
        constructor
        · intro given
          obtain ⟨as, rfl, ⟨d, htokens, hmeans, hdone⟩, -, hnext⟩ := given
          refine ⟨⟨d, htokens, ?_, hdone⟩, hnext⟩
          exact congrArg (Option.map Condition.any) hmeans
        · intro given
          obtain ⟨⟨d, htokens, hmeans, hdone⟩, hnext⟩ := given
          obtain ⟨as, has, rfl⟩ := Option.map_eq_some_iff.mp hmeans
          exact ⟨as, rfl, ⟨d, htokens, has, hdone⟩, trivial, hnext⟩
      have hclauses := (reads_separated .ampersand hclause).congr
        fun c ts next c' as =>
          Form.clauseList.separated_iff endsClause (by simp [endsClause]) Iff.rfl
      refine (hclauses.bind fun as => reads_pure _ (Condition.all as)).congr
        fun c ts next c' x => ?_
      rw [bind_result_iff]
      constructor
      · intro given
        obtain ⟨as, rfl, ⟨d, htokens, hmeans, hdone⟩, hnext⟩ := given
        exact ⟨⟨d, htokens, congrArg (Option.map Condition.all) hmeans, hdone⟩, hnext⟩
      · intro given
        obtain ⟨⟨d, htokens, hmeans, hdone⟩, hnext⟩ := given
        obtain ⟨as, has, rfl⟩ := Option.map_eq_some_iff.mp hmeans
        exact ⟨as, rfl, ⟨d, htokens, has, hdone⟩, hnext⟩

theorem reads_condition (m : Nat) :
    Reads m condition (Lang.before Form.condition.lang endsCondition) :=
  reads_ahead (f := fun n => conditionWithin (n + 1)) fun k _ =>
    (reads_conditionWithin (k + 1)).mono (Nat.le_succ k)

/-! ## Schedules and effects -/

def pickChance : Spanned Token → Option (Spanned Binary64)
  | ⟨.whole n, span⟩ => some ⟨.ofNat n, span⟩
  | ⟨.decimal x, span⟩ => some ⟨x, span⟩
  | _ => none

theorem pickChance_eq_some {s : Spanned Token} {x : Spanned Binary64} :
    pickChance s = some x ↔ ∃ p : Chance, s = ⟨p.token, x.span⟩ ∧ x.node = p.probability := by
  obtain ⟨node, place⟩ := s
  obtain ⟨y, span⟩ := x
  constructor
  · intro h
    cases node with
    | whole n =>
        cases h
        exact ⟨.whole n, rfl, rfl⟩
    | decimal y =>
        cases h
        exact ⟨.decimal y, rfl, rfl⟩
    | _ => cases h
  · intro given
    obtain ⟨p, h, hx⟩ := given
    cases hx
    cases h
    cases p <;> rfl

theorem bind_chance_iff {M : Spanned Binary64 → Lang β} :
    (Lang.picked pickChance).bind M c ts next c' b ↔
      ∃ (p : Chance) (span : Span) (us : List (Spanned Token)),
        ts = ⟨p.token, span⟩ :: us ∧ M ⟨p.probability, span⟩ c us next c' b := by
  rw [bind_picked_iff]
  constructor
  · intro given
    obtain ⟨s, us, ⟨x, span⟩, rfl, hs, h⟩ := given
    obtain ⟨p, rfl, hx⟩ := pickChance_eq_some.mp hs
    cases hx
    exact ⟨p, span, us, rfl, h⟩
  · intro given
    obtain ⟨p, span, us, rfl, h⟩ := given
    exact ⟨_, us, _, rfl, pickChance_eq_some.mpr ⟨p, rfl, rfl⟩, h⟩

/-- Pass a number, or refuse. -/
def chance : Step (Spanned Binary64) := do
  match ← look with
  | .whole n => return ⟨.ofNat n, ← pass⟩
  | .decimal x => return ⟨x, ← pass⟩
  | _ => unexpected "a probability"

theorem picks_chance : Picks chance pickChance "a probability" := by
  rintro ⟨⟨node, span⟩, ahead, w, fs, ds⟩
  cases node with
  | whole n => exact run_pass_map (Spanned.mk (Binary64.ofNat n))
  | decimal x => exact run_pass_map (Spanned.mk x)
  | _ => rfl

theorem reads_chance (m : Nat) : Reads m chance (Lang.picked pickChance) :=
  picks_chance.reads fun _ => rfl

theorem run_probability (r : Reader) :
    probability.run r = (do
      let p ← chance
      if p.node.exceeds 1 0 then note (.aboveOne p.node) p.span
      return p.node : Step Binary64).run r := by
  have hnumber (x : Binary64)
      (hchance : chance.run r = (do return ⟨x, ← pass⟩ : Step (Spanned Binary64)).run r)
      (hprob : probability.run r = (do
        let span ← pass
        if x.exceeds 1 0 then note (.aboveOne x) span
        return x : Step Binary64).run r) :
      probability.run r = (do
        let p ← chance
        if p.node.exceeds 1 0 then note (.aboveOne p.node) p.span
        return p.node : Step Binary64).run r := by
    rw [hprob, StateT.run_bind, StateT.run_bind, hchance, StateT.run_bind]
    cases pass.run r <;> rfl
  obtain ⟨⟨node, span⟩, ahead, w, fs, ds⟩ := r
  cases node with
  | whole n => exact hnumber (.ofNat n) rfl rfl
  | decimal x => exact hnumber x rfl rfl
  | _ => rfl

/-- A probability is a number, noted if above one. -/
theorem reads_probability (m : Nat) :
    Reads m probability ((Lang.picked pickChance).bind fun p =>
      Lang.still fun c => some (p.node, c.noting
        (if p.node.exceeds 1 0 then [⟨.aboveOne p.node, p.span⟩] else []))) :=
  fun r hr hm => ReadsAt.of_run_eq
    ((reads_chance m).bind (fun _ => reads_noteIf m _ _ _ _) r hr hm) (run_probability r)

theorem reads_schedule (m : Nat) : Reads m schedule Form.timing.lang := by
  have hspontaneous (m : Nat) : Reads m (do return Schedule.spontaneous (← probability)) _ :=
    (reads_probability m).bind fun p => reads_pure m (Schedule.spontaneous p)
  have hchoice (m : Nat) : Reads m (do
      let _ ← expect (.mark .colon)
      return Schedule.chosen (← text "the choice text").node) _ :=
    (reads_expect m (by simp)).bind fun _ => (reads_text m _).bind fun offer =>
      reads_pure m (Schedule.chosen offer.node)
  have hboth := Reads.choose (t := .keyword .spontaneous) (by simp)
    (fun _ => hspontaneous (m - 1)) (Reads.choose (t := .keyword .choice) (by simp)
      (fun _ => hchoice (m - 1)) (reads_unexpected m "`spontaneous` or `choice`"))
  intro r hr hm
  refine ReadsAt.of_run_eq ((hboth r hr hm).congr fun c ts next c' x _ => ?_) ?_
  · simp only [Lang.choose, bind_token_iff, bind_text_iff]
    simp only [bind_result_iff, bind_chance_iff]
    constructor
    · intro given
      rcases given with ⟨s₁, _, rfl, x, rfl, p, s₂, _, rfl, rfl, hx⟩ |
        ⟨-, ⟨s₁, _, rfl, s₂, _, rfl, offer, s₃, _, rfl, rfl, rfl, rfl⟩ | ⟨-, ⟨⟩⟩⟩
      · cases hx
        exact ⟨.spontaneous p, rfl, rfl, rfl⟩
      · exact ⟨.choice offer, rfl, rfl, (Compilation.noting_nil _).symm⟩
    · intro given
      obtain ⟨t, htokens, hmeans, hdone⟩ := given
      cases t with
      | spontaneous p =>
          simp only [Form.timing, Timing.tokens, map_node_cons_iff, List.map_eq_nil_iff] at htokens
          obtain ⟨s₁, _, rfl, s₂, _, rfl, rfl⟩ := htokens
          cases hmeans
          exact .inl ⟨s₁, _, rfl, _, rfl, p, s₂, _, rfl, rfl, by rw [hdone]; rfl⟩
      | choice offer =>
          simp only [Form.timing, Timing.tokens, map_node_cons_iff, List.map_eq_nil_iff] at htokens
          obtain ⟨s₁, _, rfl, s₂, _, rfl, s₃, _, rfl, rfl⟩ := htokens
          cases hmeans
          refine .inr ⟨by simp [front],
            .inl ⟨s₁, _, rfl, s₂, _, rfl, offer, s₃, _, rfl, rfl, ?_, rfl⟩⟩
          rw [hdone]
          exact Compilation.noting_nil c
  · obtain ⟨⟨node, span⟩, ahead, w, fs, ds⟩ := r
    cases node with
    | keyword k => cases k <;> rfl
    | _ => rfl

theorem reads_effect (m : Nat) : Reads m effect Form.change.lang := by
  refine ((reads_word m _).bind fun name => (reads_resolve m name).bind fun factor =>
    (reads_expect m (by simp)).bind fun _ => (reads_expect m (by simp)).bind fun _ =>
      (reads_value m).bind fun v => reads_noteIf m _ _ _ _).congr fun c ts next c' x => ?_
  simp only [bind_word_iff, bind_still_iff, bind_token_iff, bind_value_iff]
  constructor
  · intro given
    obtain ⟨name, s₁, _, rfl, f, c₁, hf, s₂, _, rfl, s₃, _, rfl, a, s₄, _, rfl, rfl, hnote⟩ := given
    obtain ⟨f, hfind, hpair⟩ := Option.map_eq_some_iff.mp hf
    cases hpair
    cases hnote
    refine ⟨⟨name, a⟩, rfl, ?_, ?_⟩
    · simp [Form.change, Change.pair?, hfind]
    · cases hadmits : f.admits a.value <;>
        simp [Form.change, Change.found, hfind, hadmits, around]
  · intro given
    obtain ⟨⟨factor, a⟩, htokens, hmeans, rfl⟩ := given
    simp only [Form.change, Change.tokens, map_node_cons_iff, List.map_eq_nil_iff] at htokens
    obtain ⟨s₁, _, rfl, s₂, _, rfl, s₃, _, rfl, s₄, _, rfl, rfl⟩ := htokens
    simp only [Form.change, Change.pair?] at hmeans
    obtain ⟨f, hfind, rfl⟩ := Option.map_eq_some_iff.mp hmeans
    refine ⟨factor, s₁, _, rfl, f, c, by rw [hfind]; rfl, s₂, _, rfl, s₃, _, rfl, a, s₄, _, rfl,
      rfl, ?_⟩
    cases hadmits : f.admits a.value <;>
      simp [Form.change, Change.found, hfind, hadmits, around]

theorem is_bare_iff {e : Change} {x : List (FactorId × Value)} :
    Form.changes.Is (.bare e) c ts c' x ↔ ∃ p, x = [p] ∧ Form.change.Is e c ts c' p := by
  constructor
  · intro given
    obtain ⟨htokens, hmeans, hdone⟩ := given
    obtain ⟨p, hp, rfl⟩ := Option.map_eq_some_iff.mp hmeans
    exact ⟨p, rfl, htokens, hp, hdone⟩
  · intro given
    obtain ⟨p, rfl, htokens, hmeans, hdone⟩ := given
    exact ⟨htokens, congrArg (Option.map fun p => [p]) hmeans, hdone⟩

theorem is_listed_iff {es : Several Change} {x : List (FactorId × Value)} :
    Form.changes.Is (.listed es) c ts c' x ↔ ∃ s₁ us s₂,
      ts = ⟨.mark .openParen, s₁⟩ :: (us ++ [⟨.mark .closeParen, s₂⟩]) ∧
        Form.listed.Is es c us c' x :=
  Form.is_parens rfl (fun _ _ _ => rfl) fun _ _ => rfl

theorem reads_effects (m : Nat) : Reads m effects Form.changes.lang := by
  have hlist (m : Nat) := (reads_separated .comma (reads_effect m)).congr fun c ts next c' as =>
    Form.changeList.separated_iff (fun _ => True) trivial (and_iff_left trivial).symm
  have hgroup : Reads (m - 1) (do
      let es ← separated .comma effect
      let _ ← expect (.mark .closeParen)
      return es) _ :=
    (hlist (m - 1)).bind fun es => (reads_expect _ (by simp)).bind fun _ => reads_pure _ es
  refine (Reads.choose (by simp) (fun _ => hgroup)
    ((reads_effect m).bind fun e => reads_pure m [e])).congr fun c ts next c' x => ?_
  rw [Lang.choose, bind_result_iff]
  constructor
  · intro given
    rcases given with ⟨s₁, _, rfl, us, _, c₁, es, rfl, ⟨⟨d, hd⟩, -⟩, hclose⟩ | ⟨-, e, rfl, t, ht⟩
    · obtain ⟨s₂, _, rfl, rfl, rfl, rfl⟩ := bind_token_iff.mp hclose
      exact ⟨.listed d, is_listed_iff.mpr ⟨s₁, us, s₂, rfl, hd⟩⟩
    · exact ⟨.bare t, is_bare_iff.mpr ⟨e, rfl, ht⟩⟩
  · intro given
    obtain ⟨t, ht⟩ := given
    cases t with
    | bare e =>
        obtain ⟨p, rfl, he⟩ := is_bare_iff.mp ht
        refine .inr ⟨?_, p, rfl, e, he⟩
        have htokens := he.tokens
        simp only [Form.change, Change.tokens, map_node_cons_iff] at htokens
        obtain ⟨s₁, _, rfl, -⟩ := htokens
        simp [front]
    | listed es =>
        obtain ⟨s₁, us, s₂, rfl, hd⟩ := is_listed_iff.mp ht
        exact .inl ⟨s₁, _, rfl, us, [_], c', x, rfl, ⟨⟨es, hd⟩, trivial, by simp [front]⟩,
          bind_token_iff.mpr ⟨s₂, [], rfl, rfl, rfl, rfl⟩⟩

end Storyworld.Reading
