import Storyworld.Proofs.Scope

/-!
# The conditions of a story

The conditions of a compilation are those of its transitions and those of its
descriptions.  Each is what the condition of a block means
(`compile?_conditions`).  It was read when only the factors before the block were
declared, but factors are only added, so it still means the same at the end.
-/

namespace Storyworld

/-- The conditions of the transitions and the descriptions. -/
def Compilation.conditions (c : Compilation) : List Condition :=
  c.world.transitions.map Transition.condition ++ c.descriptions.map Description.condition

namespace Universe

/-- One universe has the factors of another and perhaps more. -/
def Extends (u' u : Universe) : Prop := u.factors <+: u'.factors

theorem Extends.findFactor? {u u' : Universe} (h : u'.Extends u) {name : String} {f : Factor}
    (hf : u.findFactor? name = some f) : u'.findFactor? name = some f := by
  obtain ⟨more, hmore⟩ := h
  rw [Universe.findFactor?] at hf ⊢
  rw [← hmore, List.find?_append, hf]
  rfl

end Universe

namespace Tree

open Universe

/-! ## More factors -/

section Extends

variable {u u' : Universe}

mutual

theorem Conjunction.clauses?_extends (hu : u'.Extends u) : ∀ (c : Conjunction)
    {xs : List Condition}, c.clauses? u = some xs → c.clauses? u' = some xs
  | .one d, xs, h => by
      obtain ⟨ts, hts, rfl⟩ := Conjunction.clauses?_one.mp h
      exact Conjunction.clauses?_one.mpr ⟨ts, Disjunction.terms?_extends hu d hts, rfl⟩
  | .and d c, xs, h => by
      obtain ⟨ts, cs, hts, hcs, rfl⟩ := Conjunction.clauses?_and.mp h
      exact Conjunction.clauses?_and.mpr ⟨ts, cs, Disjunction.terms?_extends hu d hts,
        Conjunction.clauses?_extends hu c hcs, rfl⟩

theorem Disjunction.terms?_extends (hu : u'.Extends u) : ∀ (d : Disjunction)
    {xs : List Condition}, d.terms? u = some xs → d.terms? u' = some xs
  | .one t, xs, h => by
      obtain ⟨x, hx, rfl⟩ := Disjunction.terms?_one.mp h
      exact Disjunction.terms?_one.mpr ⟨x, Term.condition?_extends hu t hx, rfl⟩
  | .or t d, xs, h => by
      obtain ⟨x, ys, hx, hys, rfl⟩ := Disjunction.terms?_or.mp h
      exact Disjunction.terms?_or.mpr ⟨x, ys, Term.condition?_extends hu t hx,
        Disjunction.terms?_extends hu d hys, rfl⟩

theorem Term.condition?_extends (hu : u'.Extends u) : ∀ (t : Term) {x : Condition},
    t.condition? u = some x → t.condition? u' = some x
  | .test name a, x, h => by
      obtain ⟨f, hf, rfl⟩ := Term.condition?_test.mp h
      exact Term.condition?_test.mpr ⟨f, hu.findFactor? hf, rfl⟩
  | .group c, x, h => by
      obtain ⟨xs, hxs, rfl⟩ := Term.condition?_group.mp h
      exact Term.condition?_group.mpr ⟨xs, Conjunction.clauses?_extends hu c hxs, rfl⟩

end

/-- What a condition means it means with more factors too. -/
theorem Conjunction.condition?_extends (hu : u'.Extends u) {c : Conjunction} {x : Condition}
    (h : c.condition? u = some x) : c.condition? u' = some x := by
  obtain ⟨xs, hxs, rfl⟩ := Conjunction.condition?_eq_some.mp h
  exact Conjunction.condition?_eq_some.mpr ⟨xs, c.clauses?_extends hu hxs, rfl⟩

end Extends

/-! ## Where conditions come from -/

theorem Block.world?_extends {u u' : Universe} {b : Block} (h : b.world? u = some u') :
    u'.Extends u := by
  cases b with
  | factor name as =>
      obtain ⟨id, hadd⟩ := world?_factor.mp h
      obtain ⟨-, -, _, _, -, rfl⟩ := addFactor_eq_ok_iff.mp hadd
      exact List.prefix_append _ _
  | transition name c t es told =>
      obtain ⟨x, ps, id, -, -, hadd⟩ := world?_transition.mp h
      obtain ⟨-, -, rfl⟩ := addTransition_eq_ok_iff.mp hadd
      exact List.prefix_refl _
  | description c told =>
      obtain ⟨-, rfl⟩ := world?_description.mp h
      exact List.prefix_refl _

/-- Blocks only add factors. -/
theorem compile?_extends {bs : List Block} {c c' : Compilation} {ps : List Span}
    (h : compile? c bs ps = some c') : c'.world.Extends c.world := by
  refine compile?_keeps (P := fun d => d.world.Extends c.world) ?_ h (List.prefix_refl _)
  intro b _ d d' ps hb hd
  obtain ⟨w, hw, rfl⟩ := Block.compile?_eq_some.mp hb
  exact hd.trans (Block.world?_extends hw)

/-- A block adds its own condition and no other. -/
theorem Block.compile?_conditions {c c' : Compilation} {b : Block} {ps : List Span}
    (h : b.compile? c ps = some c') {x : Condition} (hx : x ∈ c'.conditions) :
    x ∈ c.conditions ∨ ∃ d, b.condition? = some d ∧ d.condition? c.world = some x := by
  obtain ⟨w, hw, rfl⟩ := Block.compile?_eq_some.mp h
  rw [Compilation.conditions, List.map_append, List.mem_append, List.mem_append] at hx
  rw [Compilation.conditions, List.mem_append]
  cases b with
  | factor name as =>
      obtain ⟨id, hadd⟩ := world?_factor.mp hw
      obtain ⟨-, -, _, _, -, rfl⟩ := addFactor_eq_ok_iff.mp hadd
      rcases hx with hx | hx | hx
      · exact .inl (.inl hx)
      · exact .inl (.inr hx)
      · exact absurd hx List.not_mem_nil
  | transition name d t es told =>
      obtain ⟨y, qs, id, hy, -, hadd⟩ := world?_transition.mp hw
      obtain ⟨-, -, rfl⟩ := addTransition_eq_ok_iff.mp hadd
      rw [List.map_append, List.mem_append, List.map_singleton, List.mem_singleton] at hx
      rcases hx with (hx | rfl) | hx | hx
      · exact .inl (.inl hx)
      · exact .inr ⟨d, rfl, hy⟩
      · exact .inl (.inr hx)
      · exact absurd hx List.not_mem_nil
  | description d told =>
      obtain ⟨⟨y, hy⟩, rfl⟩ := world?_description.mp hw
      rw [Block.described, hy] at hx
      rcases hx with hx | hx | hx
      · exact .inl (.inl hx)
      · exact .inl (.inr hx)
      · obtain rfl := List.mem_singleton.mp hx
        exact .inr ⟨d, rfl, hy⟩

/-- All conditions are what the conditions of blocks mean. -/
def ConditionsOf (bs : List Block) (c : Compilation) : Prop :=
  ∀ x ∈ c.conditions, ∃ b ∈ bs, ∃ d, b.condition? = some d ∧ d.condition? c.world = some x

theorem compile?_conditions {bs : List Block} {c c' : Compilation} {ps : List Span}
    (h : compile? c bs ps = some c') (hc : ConditionsOf bs c) : ConditionsOf bs c' := by
  refine compile?_keeps ?_ h hc
  intro b hb c c₁ ps h hc x hx
  have hextends : c₁.world.Extends c.world := by
    obtain ⟨w, hw, rfl⟩ := Block.compile?_eq_some.mp h
    exact Block.world?_extends hw
  rcases Block.compile?_conditions h hx with hx | ⟨d, hd, hdx⟩
  · obtain ⟨b', hb', d, hd, hdx⟩ := hc x hx
    exact ⟨b', hb', d, hd, Conjunction.condition?_extends hextends hdx⟩
  · exact ⟨b, hb, d, hd, Conjunction.condition?_extends hextends hdx⟩

/-- Every condition of a story is a conjunction of disjunctions, none of them empty, and
tests declared factors only. -/
theorem compile?_conjunctive {bs : List Block} {c : Compilation} {ps : List Span}
    (h : compile? ⟨.empty, [], []⟩ bs ps = some c) :
    ∀ x ∈ c.conditions, x.Conjunctive fun f _ => c.world.Declares f := by
  intro x hx
  obtain ⟨b, -, d, -, hd⟩ := compile?_conditions h (fun y hy => absurd hy List.not_mem_nil) x hx
  exact Conjunction.condition?_conjunctive (compile?_built h .empty) hd

end Tree

end Storyworld
