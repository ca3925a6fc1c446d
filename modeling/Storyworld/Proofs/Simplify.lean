import Storyworld.Proofs.Scope
import Storyworld.Story.Written

/-!
# Trees without needless parentheses

Parentheses around a single clause can go, since a clause is a disjunction and
stands inside a disjunction.  `simplify` takes them away everywhere.

The text of a condition is that of its simplified tree
(`Conjunction.write_condition?`), so it is not the text the story had.  But
simplified trees hold where the trees do (`Conjunction.condition?_simplify`), and
are left alone by simplifying (`Conjunction.simplify_simplify`).
-/

namespace Storyworld

open Condition

/-! ## Texts of trees -/

namespace Tree

mutual

def Conjunction.text : Conjunction → String
  | .one d => d.text
  | .and d c => d.text ++ " & " ++ c.text

def Disjunction.text : Disjunction → String
  | .one t => t.text
  | .or t d => t.text ++ " | " ++ d.text

def Term.text : Term → String
  | .test name a => name ++ " = " ++ a.value.text
  | .group c => "(" ++ c.text ++ ")"

end

/-! ## Simplifying -/

/-- The terms of one disjunction and then those of another. -/
def Disjunction.append : Disjunction → Disjunction → Disjunction
  | .one t, d => .or t d
  | .or t d', d => .or t (d'.append d)

/-- A conjunction in a disjunction: only several clauses need parentheses. -/
def Conjunction.inlined : Conjunction → Disjunction
  | .one d => d
  | .and d c => .one (.group (.and d c))

mutual

def Conjunction.simplify : Conjunction → Conjunction
  | .one d => .one d.simplify
  | .and d c => .and d.simplify c.simplify

def Disjunction.simplify : Disjunction → Disjunction
  | .one t => t.simplify
  | .or t d => t.simplify.append d.simplify

def Term.simplify : Term → Disjunction
  | .test name a => .one (.test name a)
  | .group c => c.simplify.inlined

end

theorem Disjunction.append_assoc (d d' d'' : Disjunction) :
    (d.append d').append d'' = d.append (d'.append d'') := by
  cases d with
  | one t => rfl
  | or t e =>
      rw [append, append, append, append_assoc e d' d'']

theorem Disjunction.text_append (d d' : Disjunction) :
    (d.append d').text = d.text ++ " | " ++ d'.text := by
  cases d with
  | one t => rfl
  | or t e =>
      rw [append, text, text, text_append e d']
      simp only [String.append_assoc]

theorem Disjunction.tokens_append (d d' : Disjunction) :
    (d.append d').tokens = d.tokens ++ .mark .pipe :: d'.tokens := by
  cases d with
  | one t => rfl
  | or t e =>
      rw [append, tokens, tokens, tokens_append e d']
      simp

theorem Disjunction.simplify_append (d d' : Disjunction) :
    (d.append d').simplify = d.simplify.append d'.simplify := by
  cases d with
  | one t => rfl
  | or t e =>
      rw [append, simplify, simplify, simplify_append e d', append_assoc]

theorem Conjunction.simplify_inlined (c : Conjunction) :
    c.inlined.simplify = c.simplify.inlined := by
  cases c with
  | one d => rfl
  | and d c => rfl

mutual

/-- Nothing is left to simplify. -/
theorem Conjunction.simplify_simplify : ∀ c : Conjunction, c.simplify.simplify = c.simplify
  | .one d => by
      simp only [Conjunction.simplify]
      rw [Disjunction.simplify_simplify d]
  | .and d c => by
      simp only [Conjunction.simplify]
      rw [Disjunction.simplify_simplify d, Conjunction.simplify_simplify c]

theorem Disjunction.simplify_simplify : ∀ d : Disjunction, d.simplify.simplify = d.simplify
  | .one t => Term.simplify_simplify t
  | .or t d => by
      rw [Disjunction.simplify, Disjunction.simplify_append, Term.simplify_simplify t,
        Disjunction.simplify_simplify d]

theorem Term.simplify_simplify : ∀ t : Term, t.simplify.simplify = t.simplify
  | .test name a => rfl
  | .group c => by
      rw [Term.simplify, Conjunction.simplify_inlined, Conjunction.simplify_simplify c]

end

mutual

/-- The tokens that simplifying leaves were there before. -/
theorem Conjunction.mem_tokens_of_simplify : ∀ (c : Conjunction) {t : Token},
    t ∈ c.simplify.tokens → t ∈ c.tokens
  | .one d, t, h => Disjunction.mem_tokens_of_simplify d h
  | .and d c, t, h => by
      rw [Conjunction.simplify, Conjunction.tokens] at h
      rw [Conjunction.tokens]
      rcases List.mem_append.mp h with h | h
      · exact List.mem_append_left _ (Disjunction.mem_tokens_of_simplify d h)
      · rcases List.mem_cons.mp h with rfl | h
        · simp
        · exact List.mem_append_right _
            (List.mem_cons_of_mem _ (Conjunction.mem_tokens_of_simplify c h))

theorem Disjunction.mem_tokens_of_simplify : ∀ (d : Disjunction) {t : Token},
    t ∈ d.simplify.tokens → t ∈ d.tokens
  | .one t', t, h => Term.mem_tokens_of_simplify t' h
  | .or t' d, t, h => by
      rw [Disjunction.simplify, Disjunction.tokens_append] at h
      rw [Disjunction.tokens]
      rcases List.mem_append.mp h with h | h
      · exact List.mem_append_left _ (Term.mem_tokens_of_simplify t' h)
      · rcases List.mem_cons.mp h with rfl | h
        · simp
        · exact List.mem_append_right _
            (List.mem_cons_of_mem _ (Disjunction.mem_tokens_of_simplify d h))

theorem Term.mem_tokens_of_simplify : ∀ (t' : Term) {t : Token},
    t ∈ t'.simplify.tokens → t ∈ t'.tokens
  | .test name a, t, h => h
  | .group (.one d), t, h => by
      have hd : t ∈ d.tokens := Disjunction.mem_tokens_of_simplify d h
      rw [Term.tokens, Conjunction.tokens]
      simp [hd]
  | .group (.and d c), t, h => by
      have hinner := Conjunction.mem_tokens_of_simplify (.and d c) (t := t)
      rw [Term.simplify, Conjunction.simplify, Conjunction.inlined, Disjunction.tokens,
        Term.tokens] at h
      rw [Conjunction.simplify] at hinner
      rw [Term.tokens]
      simp only [List.mem_cons, List.mem_append] at h ⊢
      exact h.imp_right (Or.imp_left hinner)

end

/-! ## What simplified trees mean -/

section Means

variable {u : Universe}

theorem Disjunction.terms?_append {d d' : Disjunction} {xs ys : List Condition}
    (hd : d.terms? u = some xs) (hd' : d'.terms? u = some ys) :
    (d.append d').terms? u = some (xs ++ ys) := by
  match d with
  | .one t =>
      obtain ⟨x, hx, rfl⟩ := Disjunction.terms?_one.mp hd
      exact Disjunction.terms?_or.mpr ⟨x, ys, hx, hd', rfl⟩
  | .or t e =>
      obtain ⟨x, zs, hx, hzs, rfl⟩ := Disjunction.terms?_or.mp hd
      exact Disjunction.terms?_or.mpr ⟨x, zs ++ ys, hx, terms?_append hzs hd', rfl⟩

/-- A conjunction means in a disjunction what it means. -/
theorem Conjunction.terms?_inlined {c : Conjunction} {xs : List Condition}
    (h : c.clauses? u = some xs) :
    ∃ ys, c.inlined.terms? u = some ys ∧ ∀ s, evaluateAny s ys = evaluateAll s xs := by
  cases c with
  | one d =>
      obtain ⟨ys, hys, rfl⟩ := Conjunction.clauses?_one.mp h
      exact ⟨ys, hys, fun s => by simp [evaluateAll, evaluate]⟩
  | and d c =>
      refine ⟨[.all xs], ?_, fun s => by simp [evaluateAny, evaluate]⟩
      rw [inlined, Disjunction.terms?, Term.condition?, h]
      rfl

mutual

theorem Conjunction.clauses?_simplify : ∀ (c : Conjunction) {xs : List Condition},
    c.clauses? u = some xs →
      ∃ ys, c.simplify.clauses? u = some ys ∧ ∀ s, evaluateAll s ys = evaluateAll s xs
  | .one d, xs, h => by
      obtain ⟨ts, hts, rfl⟩ := Conjunction.clauses?_one.mp h
      obtain ⟨us, hus, heval⟩ := Disjunction.terms?_simplify d hts
      refine ⟨[.any us], Conjunction.clauses?_one.mpr ⟨us, hus, rfl⟩, fun s => ?_⟩
      simp only [evaluateAll, evaluate, heval]
  | .and d c, xs, h => by
      obtain ⟨ts, cs, hts, hcs, rfl⟩ := Conjunction.clauses?_and.mp h
      obtain ⟨us, hus, heval⟩ := Disjunction.terms?_simplify d hts
      obtain ⟨ys, hys, hrest⟩ := Conjunction.clauses?_simplify c hcs
      refine ⟨.any us :: ys, Conjunction.clauses?_and.mpr ⟨us, ys, hus, hys, rfl⟩, fun s => ?_⟩
      simp only [evaluateAll, evaluate, heval, hrest]

theorem Disjunction.terms?_simplify : ∀ (d : Disjunction) {xs : List Condition},
    d.terms? u = some xs →
      ∃ ys, d.simplify.terms? u = some ys ∧ ∀ s, evaluateAny s ys = evaluateAny s xs
  | .one t, xs, h => by
      obtain ⟨x, hx, rfl⟩ := Disjunction.terms?_one.mp h
      obtain ⟨ys, hys, heval⟩ := Term.terms?_simplify t hx
      exact ⟨ys, hys, fun s => by simp [evaluateAny, heval]⟩
  | .or t d, xs, h => by
      obtain ⟨x, zs, hx, hzs, rfl⟩ := Disjunction.terms?_or.mp h
      obtain ⟨ys, hys, heval⟩ := Term.terms?_simplify t hx
      obtain ⟨us, hus, hrest⟩ := Disjunction.terms?_simplify d hzs
      refine ⟨ys ++ us, Disjunction.terms?_append hys hus, fun s => ?_⟩
      rw [evaluateAny_eq, List.any_append, ← evaluateAny_eq, ← evaluateAny_eq, heval, hrest,
        evaluateAny]

theorem Term.terms?_simplify : ∀ (t : Term) {x : Condition}, t.condition? u = some x →
    ∃ ys, t.simplify.terms? u = some ys ∧ ∀ s, evaluateAny s ys = evaluate s x
  | .test name a, x, h => by
      refine ⟨[x], ?_, fun s => by simp [evaluateAny]⟩
      rw [Term.simplify, Disjunction.terms?, h]
      rfl
  | .group c, x, h => by
      obtain ⟨xs, hxs, rfl⟩ := Term.condition?_group.mp h
      obtain ⟨ys, hys, heval⟩ := Conjunction.clauses?_simplify c hxs
      obtain ⟨zs, hzs, hinner⟩ := Conjunction.terms?_inlined hys
      exact ⟨zs, hzs, fun s => by rw [hinner, heval, evaluate]⟩

end

/-- A simplified condition holds where the condition does. -/
theorem Conjunction.condition?_simplify {c : Conjunction} {x : Condition}
    (h : c.condition? u = some x) :
    ∃ y, c.simplify.condition? u = some y ∧ ∀ s, y.evaluate s = x.evaluate s := by
  obtain ⟨xs, hxs, rfl⟩ := Conjunction.condition?_eq_some.mp h
  obtain ⟨ys, hys, heval⟩ := c.clauses?_simplify hxs
  exact ⟨.all ys, Conjunction.condition?_eq_some.mpr ⟨ys, hys, rfl⟩, heval⟩

end Means

/-! ## Texts of conditions -/

section Texts

variable {u : Universe}

theorem Conjunction.clauses?_ne_nil {c : Conjunction} {xs : List Condition}
    (h : c.clauses? u = some xs) : xs ≠ [] := by
  cases c with
  | one d =>
      obtain ⟨ts, -, rfl⟩ := Conjunction.clauses?_one.mp h
      exact List.cons_ne_nil _ _
  | and d c =>
      obtain ⟨ts, cs, -, -, rfl⟩ := Conjunction.clauses?_and.mp h
      exact List.cons_ne_nil _ _

theorem Disjunction.terms?_ne_nil {d : Disjunction} {xs : List Condition}
    (h : d.terms? u = some xs) : xs ≠ [] := by
  cases d with
  | one t =>
      obtain ⟨x, -, rfl⟩ := Disjunction.terms?_one.mp h
      exact List.cons_ne_nil _ _
  | or t d =>
      obtain ⟨x, ys, -, -, rfl⟩ := Disjunction.terms?_or.mp h
      exact List.cons_ne_nil _ _

theorem write_all {xs : List Condition} (h : xs ≠ []) :
    (Condition.all xs).write u = " & ".intercalate (writeClauses u xs) := by
  cases xs with
  | nil => exact absurd rfl h
  | cons x xs => rw [write]; simp

theorem write_any {xs : List Condition} (h : xs ≠ []) :
    (Condition.any xs).write u = " | ".intercalate (writeTerms u xs) := by
  cases xs with
  | nil => exact absurd rfl h
  | cons x xs => rw [write]; simp

theorem writeClauses_ne_nil {xs : List Condition} (h : xs ≠ []) : writeClauses u xs ≠ [] := by
  cases xs with
  | nil => exact absurd rfl h
  | cons x xs => simp [writeClauses]

theorem writeTerms_ne_nil {xs : List Condition} (h : xs ≠ []) : writeTerms u xs ≠ [] := by
  cases xs with
  | nil => exact absurd rfl h
  | cons x xs => simp [writeTerms]

theorem labelOf_of_findFactor? (hu : u.Built) {name : String} {f : Factor}
    (h : u.findFactor? name = some f) : u.labelOf f.id = name := by
  rw [Universe.labelOf, hu.factor?_of_findFactor? h]
  exact (Universe.mem_of_findFactor? h).2

mutual

theorem Conjunction.writeClauses_eq (hu : u.Built) : ∀ (c : Conjunction) {xs : List Condition},
    c.clauses? u = some xs → " & ".intercalate (writeClauses u xs) = c.simplify.text
  | .one d, xs, h => by
      obtain ⟨ts, hts, rfl⟩ := Conjunction.clauses?_one.mp h
      rw [writeClauses, writeClauses, String.intercalate_singleton,
        write_any (Disjunction.terms?_ne_nil hts), Disjunction.writeTerms_eq hu d hts]
      rfl
  | .and d c, xs, h => by
      obtain ⟨ts, cs, hts, hcs, rfl⟩ := Conjunction.clauses?_and.mp h
      rw [writeClauses, String.intercalate_cons_of_ne_nil
          (writeClauses_ne_nil (Conjunction.clauses?_ne_nil hcs)),
        Conjunction.writeClauses_eq hu c hcs, write_any (Disjunction.terms?_ne_nil hts),
        Disjunction.writeTerms_eq hu d hts]
      rfl

theorem Disjunction.writeTerms_eq (hu : u.Built) : ∀ (d : Disjunction) {xs : List Condition},
    d.terms? u = some xs → " | ".intercalate (writeTerms u xs) = d.simplify.text
  | .one t, xs, h => by
      obtain ⟨x, hx, rfl⟩ := Disjunction.terms?_one.mp h
      rw [writeTerms, writeTerms, String.intercalate_singleton, Term.write_eq hu t hx]
      rfl
  | .or t d, xs, h => by
      obtain ⟨x, ys, hx, hys, rfl⟩ := Disjunction.terms?_or.mp h
      rw [writeTerms, String.intercalate_cons_of_ne_nil
          (writeTerms_ne_nil (Disjunction.terms?_ne_nil hys)),
        Disjunction.writeTerms_eq hu d hys, Term.write_eq hu t hx, Disjunction.simplify,
        Disjunction.text_append]

/-- A term of a disjunction, with the parentheses it needs there. -/
theorem Term.write_eq (hu : u.Built) : ∀ (t : Term) {x : Condition}, t.condition? u = some x →
    (if x.needsParens then "(" ++ x.write u ++ ")" else x.write u) = t.simplify.text
  | .test name a, x, h => by
      obtain ⟨f, hf, rfl⟩ := Term.condition?_test.mp h
      have hlabel : u.labelOf f.id = name := labelOf_of_findFactor? hu hf
      rw [needsParens, write, hlabel]
      · rfl
      · simp
  | .group (.one d), x, h => by
      obtain ⟨xs, hxs, rfl⟩ := Term.condition?_group.mp h
      have htext := Conjunction.writeClauses_eq hu (.one d) hxs
      obtain ⟨ts, -, rfl⟩ := Option.map_eq_some_iff.mp hxs
      rw [write_all (List.cons_ne_nil _ _), htext]
      rfl
  | .group (.and d c), x, h => by
      obtain ⟨xs, hxs, rfl⟩ := Term.condition?_group.mp h
      have htext := Conjunction.writeClauses_eq hu (.and d c) hxs
      have hparens : (Condition.all xs).needsParens = true := by
        obtain ⟨ts, -, hxs⟩ := Option.bind_eq_some_iff.mp hxs
        obtain ⟨cs, hcs, hxs⟩ := Option.bind_eq_some_iff.mp hxs
        cases hxs
        cases cs with
        | nil => exact absurd rfl (Conjunction.clauses?_ne_nil hcs)
        | cons x xs => rfl
      rw [hparens, write_all (Conjunction.clauses?_ne_nil hxs), htext]
      rfl

end

/-- The text of a condition is that of its simplified tree. -/
theorem Conjunction.write_condition? (hu : u.Built) {c : Conjunction} {x : Condition}
    (h : c.condition? u = some x) : x.write u = c.simplify.text := by
  obtain ⟨xs, hxs, rfl⟩ := Conjunction.condition?_eq_some.mp h
  rw [write_all (clauses?_ne_nil hxs), c.writeClauses_eq hu hxs]

end Texts

end Tree

end Storyworld
