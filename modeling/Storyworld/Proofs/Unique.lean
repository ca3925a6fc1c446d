import Storyworld.Proofs.Tree

/-!
# Trees are determined by their tokens

No two trees are written with the same tokens.  For the induction more is shown:
if the tokens of two trees, each with further tokens behind it, are the same, then
so are the trees and what stands behind them.  A tree that can go on needs that
what stands behind does not make it go on: a disjunction is not followed by `|`,
a conjunction neither by that nor by `&`.
-/

namespace Storyworld.Tree

/-- Tokens that do not begin with a mark. -/
def Stops (m : Mark) (rest : List Token) : Prop := rest.head? ≠ some (.mark m)

theorem not_stops {m : Mark} {rest : List Token} {P : Prop} (h : Stops m (.mark m :: rest)) : P :=
  absurd rfl h

theorem stops_of_ne {m m' : Mark} (h : m' ≠ m) (rest : List Token) :
    Stops m (.mark m' :: rest) := by
  intro heq
  cases heq
  exact h rfl

/-! ## Values -/

theorem Atom.token_injective {a b : Atom} (h : a.token = b.token) : a = b := by
  cases a <;> cases b <;> cases h <;> rfl

/-- One thing or more, each of which is determined by its tokens. -/
theorem Several.tokens_unique {T : Type} {m : Mark} {f : T → List Token}
    (hf : ∀ {t u : T} {r s : List Token}, f t ++ r = f u ++ s → t = u ∧ r = s) :
    ∀ (ts us : Several T) {r s : List Token}, Stops m r → Stops m s →
      ts.tokens m f ++ r = us.tokens m f ++ s → ts = us ∧ r = s
  | .one t, .one u, r, s, _, _, h => by
      obtain ⟨rfl, rfl⟩ := hf h
      exact ⟨rfl, rfl⟩
  | .one t, .more u us, r, s, hr, _, h => by
      simp only [Several.tokens, List.append_assoc] at h
      obtain ⟨rfl, rfl⟩ := hf h
      exact not_stops hr
  | .more t ts, .one u, r, s, _, hs, h => by
      simp only [Several.tokens, List.append_assoc] at h
      obtain ⟨rfl, rfl⟩ := hf h
      exact not_stops hs
  | .more t ts, .more u us, r, s, hr, hs, h => by
      simp only [Several.tokens, List.append_assoc, List.cons_append] at h
      obtain ⟨rfl, hrest⟩ := hf h
      obtain ⟨rfl, rfl⟩ := Several.tokens_unique hf ts us hr hs (List.cons.inj hrest).2
      exact ⟨rfl, rfl⟩

/-! ## Conditions -/

mutual

theorem Conjunction.tokens_unique : ∀ (c d : Conjunction) {r s : List Token},
    Stops .ampersand r → Stops .pipe r → Stops .ampersand s → Stops .pipe s →
    c.tokens ++ r = d.tokens ++ s → c = d ∧ r = s
  | .one c, .one d, r, s, _, hr, _, hs, h => by
      simp only [Conjunction.tokens] at h
      obtain ⟨rfl, rfl⟩ := Disjunction.tokens_unique c d hr hs h
      exact ⟨rfl, rfl⟩
  | .one c, .and d ds, r, s, hr, hr', _, _, h => by
      simp only [Conjunction.tokens, List.append_assoc] at h
      obtain ⟨rfl, rfl⟩ := Disjunction.tokens_unique c d hr' (stops_of_ne (by decide) _) h
      exact not_stops hr
  | .and c cs, .one d, r, s, _, _, hs, hs', h => by
      simp only [Conjunction.tokens, List.append_assoc] at h
      obtain ⟨rfl, rfl⟩ := Disjunction.tokens_unique c d (stops_of_ne (by decide) _) hs' h
      exact not_stops hs
  | .and c cs, .and d ds, r, s, hr, hr', hs, hs', h => by
      simp only [Conjunction.tokens, List.append_assoc, List.cons_append] at h
      obtain ⟨rfl, hrest⟩ := Disjunction.tokens_unique c d (stops_of_ne (by decide) _)
        (stops_of_ne (by decide) _) h
      obtain ⟨rfl, rfl⟩ := Conjunction.tokens_unique cs ds hr hr' hs hs' (List.cons.inj hrest).2
      exact ⟨rfl, rfl⟩

theorem Disjunction.tokens_unique : ∀ (c d : Disjunction) {r s : List Token},
    Stops .pipe r → Stops .pipe s → c.tokens ++ r = d.tokens ++ s → c = d ∧ r = s
  | .one t, .one u, r, s, _, _, h => by
      simp only [Disjunction.tokens] at h
      obtain ⟨rfl, rfl⟩ := Term.tokens_unique t u h
      exact ⟨rfl, rfl⟩
  | .one t, .or u us, r, s, hr, _, h => by
      simp only [Disjunction.tokens, List.append_assoc] at h
      obtain ⟨rfl, rfl⟩ := Term.tokens_unique t u h
      exact not_stops hr
  | .or t ts, .one u, r, s, _, hs, h => by
      simp only [Disjunction.tokens, List.append_assoc] at h
      obtain ⟨rfl, rfl⟩ := Term.tokens_unique t u h
      exact not_stops hs
  | .or t ts, .or u us, r, s, hr, hs, h => by
      simp only [Disjunction.tokens, List.append_assoc, List.cons_append] at h
      obtain ⟨rfl, hrest⟩ := Term.tokens_unique t u h
      obtain ⟨rfl, rfl⟩ := Disjunction.tokens_unique ts us hr hs (List.cons.inj hrest).2
      exact ⟨rfl, rfl⟩

theorem Term.tokens_unique : ∀ (t u : Term) {r s : List Token},
    t.tokens ++ r = u.tokens ++ s → t = u ∧ r = s
  | .test f a, .test g b, r, s, h => by
      simp only [Term.tokens, List.cons_append, List.nil_append, List.cons.injEq,
        Token.word.injEq, true_and] at h
      obtain ⟨rfl, hab, rfl⟩ := h
      rw [Atom.token_injective hab]
      exact ⟨rfl, rfl⟩
  | .test f a, .group d, r, s, h => by
      simp [Term.tokens] at h
  | .group c, .test g b, r, s, h => by
      simp [Term.tokens] at h
  | .group c, .group d, r, s, h => by
      simp only [Term.tokens, List.cons_append, List.append_assoc, List.nil_append,
        List.cons.injEq, true_and] at h
      obtain ⟨rfl, hrest⟩ := Conjunction.tokens_unique c d (stops_of_ne (by decide) _)
        (stops_of_ne (by decide) _) (stops_of_ne (by decide) _) (stops_of_ne (by decide) _) h
      exact ⟨rfl, (List.cons.inj hrest).2⟩

end

/-! ## Schedules and effects -/

theorem Chance.token_injective {p q : Chance} (h : p.token = q.token) : p = q := by
  cases p <;> cases q <;> cases h <;> rfl

theorem Timing.tokens_unique {t u : Timing} {r s : List Token}
    (h : t.tokens ++ r = u.tokens ++ s) : t = u ∧ r = s := by
  cases t with
  | spontaneous p =>
      cases u with
      | spontaneous q =>
          simp only [Timing.tokens, List.cons_append, List.nil_append, List.cons.injEq,
            true_and] at h
          rw [Chance.token_injective h.1]
          exact ⟨rfl, h.2⟩
      | choice offer => simp [Timing.tokens] at h
  | choice offer =>
      cases u with
      | spontaneous q => simp [Timing.tokens] at h
      | choice offer' => simpa [Timing.tokens] using h

theorem Change.tokens_unique {e f : Change} {r s : List Token}
    (h : e.tokens ++ r = f.tokens ++ s) : e = f ∧ r = s := by
  obtain ⟨name, a⟩ := e
  obtain ⟨name', b⟩ := f
  simp only [Change.tokens, List.cons_append, List.nil_append, List.cons.injEq,
    Token.word.injEq, true_and] at h
  obtain ⟨rfl, hab, rfl⟩ := h
  rw [Atom.token_injective hab]
  exact ⟨rfl, rfl⟩

theorem Changes.tokens_unique {es fs : Changes} {r s : List Token}
    (h : es.tokens ++ r = fs.tokens ++ s) : es = fs ∧ r = s := by
  cases es with
  | bare e =>
      cases fs with
      | bare f =>
          obtain ⟨rfl, rfl⟩ := Change.tokens_unique h
          exact ⟨rfl, rfl⟩
      | listed fs => simp [Changes.tokens, Change.tokens] at h
  | listed es =>
      cases fs with
      | bare f => simp [Changes.tokens, Change.tokens] at h
      | listed fs =>
          simp only [Changes.tokens, List.cons_append, List.append_assoc, List.nil_append,
            List.cons.injEq, true_and] at h
          obtain ⟨rfl, hrest⟩ := Several.tokens_unique Change.tokens_unique es fs
            (stops_of_ne (by decide) _) (stops_of_ne (by decide) _) h
          exact ⟨rfl, (List.cons.inj hrest).2⟩

/-! ## Blocks -/

theorem nameTokens_unique {name name' : Option String} {r s : List Token}
    (h : nameTokens name ++ .mark .colon :: r = nameTokens name' ++ .mark .colon :: s) :
    name = name' ∧ r = s := by
  cases name with
  | none => cases name' with
    | none => exact ⟨rfl, (List.cons.inj h).2⟩
    | some n' => cases h
  | some n => cases name' with
    | none => cases h
    | some n' =>
        cases h
        exact ⟨rfl, rfl⟩

theorem toldTokens_unique {told told' : Option String} {r s : List Token}
    (h : toldTokens told ++ .mark .closeParen :: r = toldTokens told' ++ .mark .closeParen :: s) :
    told = told' ∧ r = s := by
  cases told with
  | none => cases told' with
    | none => exact ⟨rfl, (List.cons.inj h).2⟩
    | some t' => cases h
  | some t => cases told' with
    | none => cases h
    | some t' =>
        cases h
        exact ⟨rfl, rfl⟩

theorem Block.tokens_unique {b b' : Block} {r s : List Token}
    (h : b.tokens ++ r = b'.tokens ++ s) : b = b' ∧ r = s := by
  cases b with
  | factor name as =>
      cases b' with
      | factor name' bs =>
          simp only [Block.tokens, List.cons_append, List.append_assoc, List.nil_append,
            List.cons.injEq, Token.word.injEq, true_and] at h
          obtain ⟨rfl, h⟩ := h
          obtain ⟨rfl, hrest⟩ := Several.tokens_unique (fun h => by
            simp only [List.cons_append, List.nil_append, List.cons.injEq] at h
            exact ⟨Atom.token_injective h.1, h.2⟩) as bs
            (stops_of_ne (by decide) _) (stops_of_ne (by decide) _) h
          exact ⟨rfl, (List.cons.inj hrest).2⟩
      | transition => simp [Block.tokens] at h
      | description => simp [Block.tokens] at h
  | transition name c t es told =>
      cases b' with
      | factor => simp [Block.tokens] at h
      | transition name' d u fs told' =>
          simp only [Block.tokens, List.cons_append, List.append_assoc, List.nil_append,
            List.cons.injEq, true_and] at h
          obtain ⟨rfl, h₁⟩ := nameTokens_unique h
          obtain ⟨rfl, h₂⟩ := Conjunction.tokens_unique c d (stops_of_ne (by decide) _)
            (stops_of_ne (by decide) _) (stops_of_ne (by decide) _) (stops_of_ne (by decide) _)
            (List.cons.inj h₁).2
          obtain ⟨rfl, h₃⟩ := Timing.tokens_unique (List.cons.inj h₂).2
          obtain ⟨rfl, h₄⟩ := Changes.tokens_unique (List.cons.inj h₃).2
          obtain ⟨rfl, rfl⟩ := toldTokens_unique h₄
          exact ⟨rfl, rfl⟩
      | description => simp [Block.tokens] at h
  | description c told =>
      cases b' with
      | factor => simp [Block.tokens] at h
      | transition => simp [Block.tokens] at h
      | description d told' =>
          simp only [Block.tokens, List.cons_append, List.append_assoc, List.nil_append,
            List.cons.injEq, true_and] at h
          obtain ⟨rfl, hrest⟩ := Conjunction.tokens_unique c d (stops_of_ne (by decide) _)
            (stops_of_ne (by decide) _) (stops_of_ne (by decide) _) (stops_of_ne (by decide) _) h
          simp only [List.cons.injEq, Token.text.injEq, true_and] at hrest
          obtain ⟨rfl, rfl⟩ := hrest
          exact ⟨rfl, rfl⟩

/-- No two stories are written with the same tokens. -/
theorem tokens_injective : ∀ {bs cs : List Block}, tokens bs = tokens cs → bs = cs
  | [], [], _ => rfl
  | [], c :: cs, h => by
      cases c <;> simp [tokens, Block.tokens] at h
  | b :: bs, [], h => by
      cases b <;> simp [tokens, Block.tokens] at h
  | b :: bs, c :: cs, h => by
      obtain ⟨rfl, hrest⟩ := Block.tokens_unique h
      rw [tokens_injective hrest]

end Storyworld.Tree
