import Storyworld.Proofs.Accepts

/-!
# What is found in a story

Everything that is found in a story rests on something that can be read off the
declarations (`Finding.Ground`).  A test and an effect are compared with the values of
their factor when they are read, and the values of a factor that is written down again
are those it is declared with.  Factors are only added and keep their values, so what a
finding rests on still holds at the end of the story (`compile_grounded`).

Findings miss no effect.  What a transition gives to a factor is a value that the factor
was declared to hold, or it was found that it is not (`compile_vetted`).  An effect that
another one of the same transition replaces is found too, although it gives nothing, so
the findings may say more.
-/

namespace Storyworld

/-! ## Grounds -/

/-- What a finding rests on. -/
def Finding.Ground (u : Universe) : Finding → Prop
  | .repeatedValue v name => ∃ f, u.findFactor? name = some f ∧ v ∈ f.values
  | .neverHolds name v => ∃ f, u.findFactor? name = some f ∧ v ∉ f.values
  | .undeclaredValue v name => ∃ f, u.findFactor? name = some f ∧ v ∉ f.values
  | .aboveOne p => p.exceeds 1 0 = true

/-- All findings have their grounds. -/
def Grounded (u : Universe) (ws : List (Spanned Finding)) : Prop := ∀ w ∈ ws, w.node.Ground u

theorem grounded_append {u : Universe} {ws ws' : List (Spanned Finding)} :
    Grounded u (ws ++ ws') ↔ Grounded u ws ∧ Grounded u ws' := List.forall_mem_append

/-- What a finding rests on stays when factors are added. -/
theorem Grounded.extends {u u' : Universe} {ws : List (Spanned Finding)} (h : Grounded u ws)
    (hu : u'.Extends u) : Grounded u' ws := by
  intro w hw
  have hground := h w hw
  cases hnode : w.node with
  | aboveOne p =>
      rw [hnode] at hground
      exact hground
  | repeatedValue v name | neverHolds name v | undeclaredValue v name =>
      rw [hnode] at hground
      obtain ⟨f, hf, hv⟩ := hground
      exact ⟨f, hu.findFactor? hf, hv⟩

namespace Universe

theorem Extends.factor? {u u' : Universe} (h : u'.Extends u) {id : FactorId} {f : Factor}
    (hf : u.factor? id = some f) : u'.factor? id = some f := by
  obtain ⟨more, hmore⟩ := h
  have hlt := (List.getElem?_eq_some_iff.mp hf).1
  rw [Universe.factor?, ← hmore, List.getElem?_append_left hlt]
  exact hf

/-- A factor that was added is found by its name, with the values it was given. -/
theorem findFactor?_addFactor {u u' : Universe} {name : String} {vs : List Value} {id : FactorId}
    (h : u.addFactor name vs = .ok (id, u')) :
    ∃ f, u'.findFactor? name = some f ∧ ∀ v, v ∈ f.values ↔ v ∈ vs := by
  obtain ⟨hnew, rfl, initial, others, hdistinct, rfl⟩ := addFactor_eq_ok_iff.mp h
  refine ⟨⟨⟨u.factors.length⟩, name, initial, others⟩, ?_, fun v => ?_⟩
  · have hnone := findFactor?_eq_none_iff.mpr hnew
    rw [findFactor?] at hnone
    rw [findFactor?, List.find?_append, hnone]
    simp
  · rw [← mem_distinct v vs, hdistinct]
    exact Iff.rfl

end Universe

namespace Tree

open Universe

variable {u u' : Universe}

/-- A finding that is made where a factor is declared without a value. -/
theorem mem_of_not_admitted {o : Option Factor} {v : Value} {w w' : Spanned Finding}
    (h : w ∈ match o with
      | some f => if f.admits v then [] else [w']
      | none => []) : w = w' ∧ ∃ f, o = some f ∧ v ∉ f.values := by
  cases o with
  | none => exact absurd h List.not_mem_nil
  | some f =>
      simp only [f.admits_iff] at h
      split at h
      · exact absurd h List.not_mem_nil
      · next hv => exact ⟨List.mem_singleton.mp h, f, rfl, hv⟩

mutual

theorem Conjunction.found_grounded : ∀ (c : Conjunction) (ps : List Span),
    Grounded u (c.found u ps)
  | .one d, ps => Disjunction.found_grounded d ps
  | .and d c, _ => grounded_append.mpr
      ⟨Disjunction.found_grounded d _, Conjunction.found_grounded c _⟩

theorem Disjunction.found_grounded : ∀ (d : Disjunction) (ps : List Span),
    Grounded u (d.found u ps)
  | .one t, ps => Term.found_grounded t ps
  | .or t d, _ => grounded_append.mpr
      ⟨Term.found_grounded t _, Disjunction.found_grounded d _⟩

theorem Term.found_grounded : ∀ (t : Term) (ps : List Span), Grounded u (t.found u ps)
  | .test name a, ps => by
      intro w hw
      obtain ⟨rfl, hground⟩ := mem_of_not_admitted hw
      exact hground
  | .group c, _ => Conjunction.found_grounded c _

end

theorem Timing.found_grounded (t : Timing) (ps : List Span) : Grounded u (t.found ps) := by
  cases t with
  | choice offer => exact fun w hw => absurd hw List.not_mem_nil
  | spontaneous p =>
      intro w hw
      rw [Timing.found, Chance.found] at hw
      split at hw
      · next habove =>
          obtain rfl := List.mem_singleton.mp hw
          exact habove
      · exact absurd hw List.not_mem_nil

theorem Change.found_grounded (e : Change) (ps : List Span) : Grounded u (e.found u ps) := by
  intro w hw
  obtain ⟨rfl, hground⟩ := mem_of_not_admitted hw
  exact hground

theorem Change.foundIn_grounded (es : Several Change) (ps : List Span) :
    Grounded u (Change.foundIn u es ps) := by
  induction es generalizing ps with
  | one e => exact e.found_grounded ps
  | more e es ih => exact grounded_append.mpr ⟨e.found_grounded _, ih _⟩

theorem Changes.found_grounded (es : Changes) (ps : List Span) : Grounded u (es.found u ps) := by
  cases es with
  | bare e => exact e.found_grounded ps
  | listed es => exact Change.foundIn_grounded es _

theorem mem_repetitions {name : String} {seen : List Value} {vs : List (Spanned Value)}
    {w : Spanned Finding} (h : w ∈ Reading.repetitions name seen vs) :
    ∃ v ∈ vs.map Spanned.node, w.node = .repeatedValue v name := by
  induction vs generalizing seen with
  | nil => exact absurd h List.not_mem_nil
  | cons v vs ih =>
      rw [Reading.repetitions] at h
      rw [List.map_cons]
      split at h
      · rcases List.mem_cons.mp h with rfl | h
        · exact ⟨v.node, List.mem_cons_self .., rfl⟩
        · obtain ⟨v', hv', hw⟩ := ih h
          exact ⟨v', List.mem_cons_of_mem _ hv', hw⟩
      · obtain ⟨v', hv', hw⟩ := ih h
        exact ⟨v', List.mem_cons_of_mem _ hv', hw⟩

/-- What is found in a block has its grounds behind the block. -/
theorem Block.found_grounded {b : Block} (h : b.world? u = some u') (ps : List Span) :
    Grounded u' (b.found u ps) := by
  cases b with
  | factor name as =>
      obtain ⟨id, hadd⟩ := world?_factor.mp h
      obtain ⟨f, hf, hvalues⟩ := findFactor?_addFactor hadd
      intro w hw
      obtain ⟨v, hv, hnode⟩ := mem_repetitions hw
      rw [Reading.spannedValues_node, ← hvalues] at hv
      rw [hnode]
      exact ⟨f, hf, hv⟩
  | transition name c t es told =>
      have hground : Grounded u ((Block.transition name c t es told).found u ps) :=
        grounded_append.mpr ⟨grounded_append.mpr ⟨c.found_grounded _, t.found_grounded _⟩,
          es.found_grounded _⟩
      exact hground.extends (world?_extends h)
  | description c told =>
      have hground : Grounded u ((Block.description c told).found u ps) := c.found_grounded _
      exact hground.extends (world?_extends h)

theorem compile?_grounded {bs : List Block} {c c' : Compilation} {ps : List Span}
    (h : compile? c bs ps = some c') (hc : Grounded c.world c.findings) :
    Grounded c'.world c'.findings := by
  refine compile?_keeps (P := fun c => Grounded c.world c.findings) ?_ h hc
  intro b _ c c' ps hb hc
  obtain ⟨w, hw, rfl⟩ := Block.compile?_eq_some.mp hb
  exact grounded_append.mpr ⟨hc.extends (Block.world?_extends hw), Block.found_grounded hw ps⟩

end Tree

/-! ## Effects -/

/-- An effect gives a value that its factor was declared to hold, or it is found that it does
not. -/
def Vetted (u : Universe) (ws : List (Spanned Finding)) (p : FactorId × Value) : Prop :=
  ∃ f, u.factor? p.1 = some f ∧
    (p.2 ∈ f.values ∨ ∃ place, ⟨.undeclaredValue p.2 f.label, place⟩ ∈ ws)

theorem Vetted.mono {u u' : Universe} {ws ws' : List (Spanned Finding)} {p : FactorId × Value}
    (h : Vetted u ws p) (hu : u'.Extends u) (hws : ∀ w ∈ ws, w ∈ ws') : Vetted u' ws' p := by
  obtain ⟨f, hf, hv | ⟨place, hw⟩⟩ := h
  · exact ⟨f, hu.factor? hf, .inl hv⟩
  · exact ⟨f, hu.factor? hf, .inr ⟨place, hws _ hw⟩⟩

/-- Every effect of every transition is vetted. -/
def Compilation.AllVetted (c : Compilation) : Prop :=
  ∀ t ∈ c.world.transitions, ∀ p ∈ t.effects.entries, Vetted c.world c.findings p

namespace Tree

open Universe

variable {u : Universe} {p : FactorId × Value}

theorem Change.vetted (hu : u.Built) {e : Change} (h : e.pair? u = some p) (ps : List Span) :
    Vetted u (e.found u ps) p := by
  obtain ⟨f, hf, rfl⟩ := Option.map_eq_some_iff.mp h
  refine ⟨f, hu.factor?_of_findFactor? hf, ?_⟩
  rw [(mem_of_findFactor? hf).2, Change.found, hf]
  cases hv : f.admits e.value.value with
  | true => exact .inl ((f.admits_iff _).mp hv)
  | false => exact .inr ⟨_, by simp only [hv]; exact List.mem_singleton_self _⟩

theorem Change.vetted_several (hu : u.Built) {es : Several Change}
    {qs : List (FactorId × Value)} (h : Change.pairs? u es = some qs) (ps : List Span) :
    ∀ p ∈ qs, Vetted u (Change.foundIn u es ps) p := by
  induction es generalizing qs ps with
  | one e =>
      obtain ⟨p, hp, rfl⟩ := Option.map_eq_some_iff.mp h
      exact List.forall_mem_singleton.mpr (Change.vetted hu hp ps)
  | more e es ih =>
      obtain ⟨p, hp, h⟩ := Option.bind_eq_some_iff.mp h
      obtain ⟨qs, hqs, h⟩ := Option.bind_eq_some_iff.mp h
      cases h
      refine List.forall_mem_cons.mpr ⟨?_, fun q hq => ?_⟩
      · exact (Change.vetted hu hp _).mono (List.prefix_refl _) fun w => List.mem_append_left _
      · exact (ih hqs _ q hq).mono (List.prefix_refl _) fun w => List.mem_append_right _

theorem Changes.vetted (hu : u.Built) {es : Changes} {qs : List (FactorId × Value)}
    (h : es.pairs? u = some qs) (ps : List Span) : ∀ p ∈ qs, Vetted u (es.found u ps) p := by
  cases es with
  | bare e =>
      obtain ⟨p, hp, rfl⟩ := Option.map_eq_some_iff.mp h
      exact List.forall_mem_singleton.mpr (Change.vetted hu hp ps)
  | listed es => exact Change.vetted_several hu h _

/-- A block that is declared has its effects vetted. -/
theorem Block.compile?_vetted {b : Block} {c c' : Compilation} {ps : List Span}
    (h : b.compile? c ps = some c') (hu : c.world.Built) (hc : c.AllVetted) : c'.AllVetted := by
  obtain ⟨w, hw, rfl⟩ := Block.compile?_eq_some.mp h
  have hextends := Block.world?_extends hw
  have hold : ∀ t ∈ c.world.transitions, ∀ p ∈ t.effects.entries,
      Vetted w (c.findings ++ b.found c.world ps) p := by
    intro t ht p hp
    exact (hc t ht p hp).mono hextends fun w => List.mem_append_left _
  cases b with
  | factor name as =>
      obtain ⟨id, hadd⟩ := world?_factor.mp hw
      obtain ⟨-, -, _, _, -, rfl⟩ := addFactor_eq_ok_iff.mp hadd
      exact hold
  | transition name d t es told =>
      obtain ⟨x, qs, id, -, hqs, hadd⟩ := world?_transition.mp hw
      obtain ⟨-, -, rfl⟩ := addTransition_eq_ok_iff.mp hadd
      refine List.forall_mem_append.mpr ⟨hold, ?_⟩
      rw [List.forall_mem_singleton]
      intro p hp
      have hvetted := fun places => Changes.vetted hu hqs places p (Effects.mem_ofList hp)
      exact (hvetted _).mono hextends fun w hw =>
        List.mem_append_right _ (List.mem_append_right _ hw)
  | description d told =>
      obtain ⟨-, rfl⟩ := world?_description.mp hw
      exact hold

theorem compile?_vetted {bs : List Block} {c c' : Compilation} {ps : List Span}
    (h : compile? c bs ps = some c') (hu : c.world.Built) (hc : c.AllVetted) : c'.AllVetted := by
  refine (compile?_keeps (P := fun c => c.world.Built ∧ c.AllVetted) ?_ h ⟨hu, hc⟩).2
  rintro b - c c' ps hb ⟨hu, hc⟩
  refine ⟨?_, Block.compile?_vetted hb hu hc⟩
  obtain ⟨w, hw, rfl⟩ := Block.compile?_eq_some.mp hb
  exact (Block.world?_eq_some hu hw).1

end Tree

/-! ## Stories -/

section Stories

variable {source : String} {c : Compilation}

/-- What can be read off what compiling gives is that of a compilation. -/
theorem exists_compilation {α : Type} {g : Compilation → α} {a : α}
    (h : (compile source).toOption.map g = some a) : ∃ c, compile source = .ok c ∧ g c = a := by
  cases hc : compile source with
  | error e =>
      rw [hc] at h
      cases h
  | ok c =>
      rw [hc] at h
      exact ⟨c, rfl, Option.some.inj h⟩

/-- An error of compiling, whatever would be read off otherwise. -/
theorem compile_eq_error_of_map {α : Type} {g : Compilation → α} {e : CompileError}
    (h : (compile source).map g = .error e) : compile source = .error e := by
  cases hc : compile source with
  | error e' =>
      rw [hc] at h
      exact congrArg Except.error (Except.error.inj h)
  | ok c =>
      rw [hc] at h
      cases h

theorem compile_built (h : compile source = .ok c) : c.world.Built := by
  obtain ⟨ts, bs, -, -, hcompile⟩ := compile_eq_ok.mp h
  exact Tree.compile?_built hcompile .empty

/-- What is found in a story has its grounds in the declarations of the story. -/
theorem compile_grounded (h : compile source = .ok c) : Grounded c.world c.findings := by
  obtain ⟨ts, bs, -, -, hcompile⟩ := compile_eq_ok.mp h
  exact Tree.compile?_grounded hcompile fun w hw => absurd hw List.not_mem_nil

/-- What transitions give to a factor is declared for the factor, or it was found that it is
not. -/
theorem compile_vetted (h : compile source = .ok c) : c.AllVetted := by
  obtain ⟨ts, bs, -, -, hcompile⟩ := compile_eq_ok.mp h
  exact Tree.compile?_vetted hcompile .empty fun t ht => absurd ht List.not_mem_nil

end Stories

end Storyworld
