import Storyworld.Proofs.Language
import Storyworld.Proofs.Tree

/-!
# Forms of trees

A *form* bundles what reading has to do with the trees of one kind: how they are
written, what they are read as where their tokens stand, and what is found in
them.  The trees of a form have a language, and the productions of the grammar
turn out to have the languages of their trees.

Values, terms, clauses and effects are all read as one item or more with
separators between them.  `Form.Lists` says once what that means for trees.
-/

namespace Storyworld.Tree

/-! ## Forms -/

/-- The places of tokens. -/
abbrev places (ts : List (Spanned Token)) : List Span := ts.map Spanned.span

/-- How trees of a kind are written, what they are read as, and what is found in them. -/
structure Form (T α : Type) where
  tokens : T → List Token
  means : Universe → T → List Span → Option α
  found : Universe → T → List Span → List (Spanned Finding)

variable {T S α : Type}

/-- Tokens that are those of a tree, and what comes of them. -/
structure Form.Is (form : Form T α) (t : T) (c : Compilation) (ts : List (Spanned Token))
    (c' : Compilation) (a : α) : Prop where
  tokens : ts.map Spanned.node = form.tokens t
  means : form.means c.world t (places ts) = some a
  done : c' = c.noting (form.found c.world t (places ts))

/-- The language of the trees of a form. -/
def Form.lang (form : Form T α) : Lang α := fun c ts _ c' a => ∃ t, form.Is t c ts c' a

/-- The trees of one form are lists of those of another with separators between them. -/
structure Form.Lists (item : Form T α) (list : Form S (List α)) (separator : Mark) where
  one : T → S
  more : T → S → S
  elim : ∀ {P : S → Prop}, (∀ t, P (one t)) → (∀ t s, P s → P (more t s)) → ∀ s, P s
  tokens_one : ∀ t, list.tokens (one t) = item.tokens t
  tokens_more : ∀ t s,
    list.tokens (more t s) = item.tokens t ++ .mark separator :: list.tokens s
  means_one : ∀ u t ps, list.means u (one t) ps = (item.means u t ps).map fun a => [a]
  means_more : ∀ u t s ps, list.means u (more t s) ps =
    (item.means u t (ps.take (item.tokens t).length)).bind fun a =>
      (list.means u s (ps.drop ((item.tokens t).length + 1))).map fun as => a :: as
  found_one : ∀ u t ps, list.found u (one t) ps = item.found u t ps
  found_more : ∀ u t s ps, list.found u (more t s) ps =
    item.found u t (ps.take (item.tokens t).length) ++
      list.found u s (ps.drop ((item.tokens t).length + 1))

theorem map_node_cons_iff {ts : List (Spanned Token)} {t : Token} {toks : List Token} :
    ts.map Spanned.node = t :: toks ↔
      ∃ span us, ts = ⟨t, span⟩ :: us ∧ us.map Spanned.node = toks := by
  rw [List.map_eq_cons_iff]
  constructor
  · intro given
    obtain ⟨⟨_, span⟩, us, rfl, rfl, h⟩ := given
    exact ⟨span, us, rfl, h⟩
  · intro given
    obtain ⟨span, us, rfl, h⟩ := given
    exact ⟨_, us, rfl, rfl, h⟩

theorem length_places {ts : List (Spanned Token)} {toks : List Token}
    (h : ts.map Spanned.node = toks) : (places ts).length = toks.length := by
  rw [← h, List.length_map, List.length_map]

theorem take_places {ts us : List (Spanned Token)} {toks : List Token}
    (h : ts.map Spanned.node = toks) : (places (ts ++ us)).take toks.length = places ts := by
  rw [places, List.map_append]
  exact List.take_left' (length_places h)

theorem drop_places {ts us : List (Spanned Token)} {toks : List Token}
    (h : ts.map Spanned.node = toks) : (places (ts ++ us)).drop toks.length = places us := by
  rw [places, List.map_append]
  exact List.drop_left' (length_places h)

theorem drop_places_cons {ts us : List (Spanned Token)} {t : Spanned Token} {toks : List Token}
    (h : ts.map Spanned.node = toks) :
    (places (ts ++ t :: us)).drop (toks.length + 1) = places us := by
  rw [← List.drop_drop, drop_places h]
  rfl

theorem part_places (before after : List (Spanned Token)) {ts : List (Spanned Token)}
    {toks : List Token} {n : Nat} (hn : before.length = n) (h : ts.map Spanned.node = toks) :
    part n toks.length (places (before ++ (ts ++ after))) = places ts := by
  have hdrop : (places (before ++ (ts ++ after))).drop n = places (ts ++ after) := by
    rw [places, List.map_append]
    exact List.drop_left' (by rw [List.length_map, hn])
  rw [part, hdrop, take_places h]

/-- What stands in parentheses is read as it is without them. -/
theorem Form.is_parens {outer : Form S α} {inner : Form T α} {s : S} {t : T}
    (htokens : outer.tokens s = .mark .openParen :: (inner.tokens t ++ [.mark .closeParen]))
    (hmeans : ∀ u ps ps', outer.means u s ps = inner.means u t ps')
    (hfound : ∀ u ps,
      outer.found u s ps = inner.found u t (part 1 (inner.tokens t).length ps))
    {c c' : Compilation} {ts : List (Spanned Token)} {a : α} :
    outer.Is s c ts c' a ↔ ∃ s₁ us s₂,
      ts = ⟨.mark .openParen, s₁⟩ :: (us ++ [⟨.mark .closeParen, s₂⟩]) ∧
        inner.Is t c us c' a := by
  have hpart (s₁ s₂ : Span) {us : List (Spanned Token)}
      (h : us.map Spanned.node = inner.tokens t) :
      part 1 (inner.tokens t).length (places
        (⟨.mark .openParen, s₁⟩ :: (us ++ [⟨.mark .closeParen, s₂⟩]))) = places us :=
    part_places [⟨.mark .openParen, s₁⟩] [⟨.mark .closeParen, s₂⟩] rfl h
  constructor
  · intro given
    obtain ⟨hts, ha, hdone⟩ := given
    rw [htokens] at hts
    simp only [map_node_cons_iff, List.map_eq_append_iff, List.map_eq_nil_iff] at hts
    obtain ⟨s₁, _, rfl, us, _, rfl, hus, s₂, _, rfl, rfl⟩ := hts
    rw [hfound, hpart s₁ s₂ hus] at hdone
    exact ⟨s₁, us, s₂, rfl, hus, (hmeans _ _ _).symm.trans ha, hdone⟩
  · intro given
    obtain ⟨s₁, us, s₂, rfl, hus, ha, hdone⟩ := given
    refine ⟨?_, (hmeans _ _ _).trans ha, ?_⟩
    · rw [htokens, List.map_cons, List.map_append, hus]
      rfl
    · rw [hfound, hpart s₁ s₂ hus]
      exact hdone

/-- A list is read as its first item and the list of the others. -/
theorem Form.Lists.is_more {item : Form T α} {list : Form S (List α)} {separator : Mark}
    (h : item.Lists list separator) {t : T} {s : S} {c c' : Compilation}
    {ts : List (Spanned Token)} {as : List α} :
    list.Is (h.more t s) c ts c' as ↔ ∃ ts₁ span us c₁ a as',
      ts = ts₁ ++ ⟨.mark separator, span⟩ :: us ∧ as = a :: as' ∧
        item.Is t c ts₁ c₁ a ∧ list.Is s c₁ us c' as' := by
  constructor
  · intro given
    obtain ⟨htokens, hmeans, rfl⟩ := given
    rw [h.tokens_more] at htokens
    obtain ⟨ts₁, us, rfl, hts₁, hus⟩ := List.map_eq_append_iff.mp htokens
    obtain ⟨span, us, rfl, hrest⟩ := map_node_cons_iff.mp hus
    rw [h.means_more, take_places hts₁, drop_places_cons hts₁] at hmeans
    obtain ⟨a, ha, hmeans⟩ := Option.bind_eq_some_iff.mp hmeans
    obtain ⟨as', has, rfl⟩ := Option.map_eq_some_iff.mp hmeans
    refine ⟨ts₁, span, us, _, a, as', rfl, rfl, ⟨hts₁, ha, rfl⟩, ⟨hrest, has, ?_⟩⟩
    rw [h.found_more, take_places hts₁, drop_places_cons hts₁]
    simp
  · intro given
    obtain ⟨ts₁, span, us, c₁, a, as', rfl, rfl, ⟨hts₁, ha, rfl⟩, ⟨hus, has, rfl⟩⟩ := given
    rw [Compilation.noting_world] at has
    refine ⟨?_, ?_, ?_⟩
    · rw [h.tokens_more, List.map_append, List.map_cons, hts₁, hus]
    · rw [h.means_more, take_places hts₁, drop_places_cons hts₁, ha, Option.bind_some, has]
      rfl
    · rw [h.found_more, take_places hts₁, drop_places_cons hts₁]
      simp

theorem Form.Lists.is_one {item : Form T α} {list : Form S (List α)} {separator : Mark}
    (h : item.Lists list separator) {t : T} {c c' : Compilation} {ts : List (Spanned Token)}
    {as : List α} : list.Is (h.one t) c ts c' as ↔ ∃ a, as = [a] ∧ item.Is t c ts c' a := by
  constructor
  · intro given
    obtain ⟨htokens, hmeans, rfl⟩ := given
    rw [h.means_one] at hmeans
    obtain ⟨a, ha, rfl⟩ := Option.map_eq_some_iff.mp hmeans
    exact ⟨a, rfl, htokens.trans (h.tokens_one t), ha, by rw [h.found_one]⟩
  · intro given
    obtain ⟨a, rfl, htokens, ha, rfl⟩ := given
    exact ⟨htokens.trans (h.tokens_one t).symm, by rw [h.means_one, ha]; rfl, by rw [h.found_one]⟩

/-- Reading items with separators is reading a list, if an item can stand before a
separator. -/
theorem Form.Lists.separated_iff {item : Form T α} {list : Form S (List α)} {separator : Mark}
    (h : item.Lists list separator) {L : Lang α} (ok : Token → Prop) (hok : ok (.mark separator))
    (hL : ∀ {c ts next c' a}, L c ts next c' a ↔ item.lang c ts next c' a ∧ ok next)
    {c c' : Compilation} {ts : List (Spanned Token)} {next : Token} {as : List α} :
    Lang.Separated separator L c ts next c' as ↔
      list.lang c ts next c' as ∧ ok next ∧ next ≠ .mark separator := by
  constructor
  · intro hsep
    induction hsep with
    | one hitem hne =>
        obtain ⟨⟨t, ht⟩, hnext⟩ := hL.mp hitem
        exact ⟨⟨h.one t, h.is_one.mpr ⟨_, rfl, ht⟩⟩, hnext, hne⟩
    | more hitem _ ih =>
        obtain ⟨⟨t, ht⟩, -⟩ := hL.mp hitem
        obtain ⟨⟨s, hs⟩, hnext⟩ := ih
        exact ⟨⟨h.more t s, h.is_more.mpr ⟨_, _, _, _, _, _, rfl, rfl, ht, hs⟩⟩, hnext⟩
  · intro given
    obtain ⟨⟨s, hs⟩, hnext, hne⟩ := given
    have hall : ∀ s c ts as, list.Is s c ts c' as → Lang.Separated separator L c ts next c' as := by
      refine h.elim (fun t => ?_) fun t s ih => ?_
      · intro c ts as hs
        obtain ⟨a, rfl, ht⟩ := h.is_one.mp hs
        exact .one (hL.mpr ⟨⟨t, ht⟩, hnext⟩) hne
      · intro c ts as hs
        obtain ⟨ts₁, span, us, c₁, a, as', rfl, rfl, ht, hs⟩ := h.is_more.mp hs
        exact .more (hL.mpr ⟨⟨t, ht⟩, hok⟩) (ih _ _ _ hs)
    exact hall s c ts as hs

/-! ## The forms of a story -/

/-- A value, with its place. -/
def Form.atom : Form Atom (Spanned Value) where
  tokens a := [a.token]
  means _ a ps := some ⟨a.value, around ps⟩
  found _ _ _ := []

/-- Values between commas, with their places. -/
def Form.atoms : Form (Several Atom) (List (Spanned Value)) where
  tokens as := as.tokens .comma fun a => [a.token]
  means _ as ps := some (spannedValues as ps)
  found _ _ _ := []

def Form.term : Form Term Condition where
  tokens := Term.tokens
  means u t _ := t.condition? u
  found := Term.found

def Form.clause : Form Disjunction Condition where
  tokens := Disjunction.tokens
  means u d _ := d.clause? u
  found := Disjunction.found

def Form.terms : Form Disjunction (List Condition) where
  tokens := Disjunction.tokens
  means u d _ := d.terms? u
  found := Disjunction.found

def Form.condition : Form Conjunction Condition where
  tokens := Conjunction.tokens
  means u c _ := c.condition? u
  found := Conjunction.found

def Form.clauses : Form Conjunction (List Condition) where
  tokens := Conjunction.tokens
  means u c _ := c.clauses? u
  found := Conjunction.found

def Form.timing : Form Timing Schedule where
  tokens := Timing.tokens
  means _ t _ := some t.schedule
  found _ := Timing.found

def Form.change : Form Change (FactorId × Value) where
  tokens := Change.tokens
  means u e _ := e.pair? u
  found := Change.found

def Form.listed : Form (Several Change) (List (FactorId × Value)) where
  tokens es := es.tokens .comma Change.tokens
  means u es _ := Change.pairs? u es
  found := Change.foundIn

def Form.changes : Form Changes (List (FactorId × Value)) where
  tokens := Changes.tokens
  means u es _ := es.pairs? u
  found := Changes.found

theorem Several.elim {P : Several T → Prop} (one : ∀ t, P (.one t))
    (more : ∀ t ts, P ts → P (.more t ts)) : ∀ ts, P ts
  | .one t => one t
  | .more t ts => more t ts (Several.elim one more ts)

theorem Disjunction.elim {P : Disjunction → Prop} (one : ∀ t, P (.one t))
    (or : ∀ t d, P d → P (.or t d)) : ∀ d, P d
  | .one t => one t
  | .or t d => or t d (Disjunction.elim one or d)

theorem Conjunction.elim {P : Conjunction → Prop} (one : ∀ d, P (.one d))
    (and : ∀ d c, P c → P (.and d c)) : ∀ c, P c
  | .one d => one d
  | .and d c => and d c (Conjunction.elim one and c)

def Form.atomList : Form.atom.Lists Form.atoms .comma where
  one := .one
  more := .more
  elim := Several.elim
  tokens_one _ := rfl
  tokens_more _ _ := rfl
  means_one _ _ _ := rfl
  means_more _ _ _ _ := rfl
  found_one _ _ _ := rfl
  found_more _ _ _ _ := rfl

def Form.changeList : Form.change.Lists Form.listed .comma where
  one := .one
  more := .more
  elim := Several.elim
  tokens_one _ := rfl
  tokens_more _ _ := rfl
  means_one _ _ _ := rfl
  means_more u e es _ := by
    show (do let p ← e.pair? u; let ps ← Change.pairs? u es; return p :: ps) = _
    cases h : e.pair? u <;> cases h' : Change.pairs? u es <;> simp [Form.change, Form.listed, h, h']
  found_one _ _ _ := rfl
  found_more _ _ _ _ := rfl

def Form.termList : Form.term.Lists Form.terms .pipe where
  one := .one
  more := .or
  elim := Disjunction.elim
  tokens_one _ := by simp [Form.term, Form.terms, Disjunction.tokens]
  tokens_more _ _ := by simp [Form.term, Form.terms, Disjunction.tokens]
  means_one _ _ _ := by simp [Form.term, Form.terms, Disjunction.terms?]
  means_more u t d _ := by
    cases h : t.condition? u <;> cases h' : d.terms? u <;>
      simp [Form.term, Form.terms, Disjunction.terms?, h, h']
  found_one _ _ _ := by simp [Form.term, Form.terms, Disjunction.found]
  found_more _ _ _ _ := by simp [Form.term, Form.terms, Disjunction.found]

def Form.clauseList : Form.clause.Lists Form.clauses .ampersand where
  one := .one
  more := .and
  elim := Conjunction.elim
  tokens_one _ := by simp [Form.clause, Form.clauses, Conjunction.tokens]
  tokens_more _ _ := by simp [Form.clause, Form.clauses, Conjunction.tokens]
  means_one u d _ := by
    cases h : d.terms? u <;>
      simp [Form.clause, Form.clauses, Conjunction.clauses?, Disjunction.clause?, h]
  means_more u d c _ := by
    cases h : d.terms? u <;> cases h' : c.clauses? u <;>
      simp [Form.clause, Form.clauses, Conjunction.clauses?, Disjunction.clause?, h, h']
  found_one _ _ _ := by simp [Form.clause, Form.clauses, Conjunction.found]
  found_more _ _ _ _ := by simp [Form.clause, Form.clauses, Conjunction.found]

end Storyworld.Tree
