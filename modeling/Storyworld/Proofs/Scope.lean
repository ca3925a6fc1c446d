import Mathlib.Data.List.Induction
import Mathlib.Data.List.Nodup
import Storyworld.Proofs.Built
import Storyworld.Proofs.Tree

/-!
# Names and their declarations

What a tree means depends on the universe only through the names that are
declared in it.  A tree means something exactly if all its names are
(`condition?_isSome_iff`), and what it means then speaks of declared factors
only, so the universe does not refuse it.  So blocks can be compiled exactly if
they are well scoped (`compile?_isSome_iff`).  What each block keeps compiling
keeps (`compile?_keeps`).
-/

namespace Storyworld

/-! ## The factors of a universe -/

/-- The names of the factors, in the order of declaration. -/
def Universe.names (u : Universe) : List String := u.factors.map Factor.label

theorem Universe.findFactor?_isSome_iff {u : Universe} {name : String} :
    (u.findFactor? name).isSome ↔ name ∈ u.names := by
  rw [Option.isSome_iff_ne_none, ne_eq, findFactor?_eq_none_iff]
  exact not_not

theorem Universe.mem_of_findFactor? {u : Universe} {name : String} {f : Factor}
    (h : u.findFactor? name = some f) : f ∈ u.factors ∧ f.label = name :=
  ⟨List.mem_of_find?_eq_some h, by simpa using List.find?_some h⟩

/-- The factor of a name is found by its handle. -/
theorem Universe.Built.factor?_of_findFactor? {u : Universe} (hu : u.Built) {name : String}
    {f : Factor} (h : u.findFactor? name = some f) : u.factor? f.id = some f :=
  hu.factor?_id (mem_of_findFactor? h).1

/-- A handle is that of a factor. -/
def Universe.Declares (u : Universe) (f : FactorId) : Prop := (u.factor? f).isSome

/-! ## The shape of conditions that are read -/

namespace Condition

section Shape

variable (ok : FactorId → Value → Prop)

mutual

/-- A conjunction of one clause or more, whose tests are all of a kind. -/
inductive Conjunctive : Condition → Prop
  | all {cs : List Condition} : cs ≠ [] → (∀ c ∈ cs, Disjunctive c) → Conjunctive (.all cs)

/-- A disjunction of one term or more. -/
inductive Disjunctive : Condition → Prop
  | any {ts : List Condition} : ts ≠ [] → (∀ t ∈ ts, Elementary t) → Disjunctive (.any ts)

/-- A test, or a conjunction in parentheses. -/
inductive Elementary : Condition → Prop
  | holds {f : FactorId} {v : Value} : ok f v → Elementary (.holds f v)
  | group {c : Condition} : Conjunctive c → Elementary c

end

end Shape

variable {ok : FactorId → Value → Prop}

mutual

theorem Conjunctive.tests {c : Condition} : c.Conjunctive ok → ∀ p ∈ c.tests, ok p.1 p.2
  | .all _ hcs => by
      intro p hp
      simp only [Condition.tests, testsOfList_eq, List.mem_flatMap] at hp
      obtain ⟨c, hc, hp⟩ := hp
      exact Disjunctive.tests (hcs c hc) p hp

theorem Disjunctive.tests {c : Condition} : c.Disjunctive ok → ∀ p ∈ c.tests, ok p.1 p.2
  | .any _ hts => by
      intro p hp
      simp only [Condition.tests, testsOfList_eq, List.mem_flatMap] at hp
      obtain ⟨t, ht, hp⟩ := hp
      exact Elementary.tests (hts t ht) p hp

theorem Elementary.tests {c : Condition} : c.Elementary ok → ∀ p ∈ c.tests, ok p.1 p.2
  | .holds hok => by
      intro p hp
      obtain rfl := List.mem_singleton.mp hp
      exact hok
  | .group hc => Conjunctive.tests hc

end

end Condition

/-! ## What trees mean -/

namespace Tree

open Universe Condition

section Parts

variable {u : Universe} {c : Conjunction} {d : Disjunction} {t : Term} {x : Condition}
variable {xs : List Condition}

theorem Conjunction.clauses?_one : (Conjunction.one d).clauses? u = some xs ↔
    ∃ ts, d.terms? u = some ts ∧ xs = [.any ts] := by
  rw [Conjunction.clauses?]
  cases d.terms? u <;> simp [eq_comm]

theorem Conjunction.clauses?_and : (Conjunction.and d c).clauses? u = some xs ↔
    ∃ ts cs, d.terms? u = some ts ∧ c.clauses? u = some cs ∧ xs = .any ts :: cs := by
  rw [Conjunction.clauses?]
  cases d.terms? u <;> cases c.clauses? u <;> simp [eq_comm]

theorem Disjunction.terms?_one : (Disjunction.one t).terms? u = some xs ↔
    ∃ y, t.condition? u = some y ∧ xs = [y] := by
  rw [Disjunction.terms?]
  cases t.condition? u <;> simp [eq_comm]

theorem Disjunction.terms?_or : (Disjunction.or t d).terms? u = some xs ↔
    ∃ y ys, t.condition? u = some y ∧ d.terms? u = some ys ∧ xs = y :: ys := by
  rw [Disjunction.terms?]
  cases t.condition? u <;> cases d.terms? u <;> simp [eq_comm]

theorem Term.condition?_test {name : String} {a : Atom} :
    (Term.test name a).condition? u = some x ↔
      ∃ f, u.findFactor? name = some f ∧ x = .holds f.id a.value := by
  rw [Term.condition?]
  cases u.findFactor? name <;> simp [eq_comm]

theorem Term.condition?_group : (Term.group c).condition? u = some x ↔
    ∃ cs, c.clauses? u = some cs ∧ x = .all cs := by
  rw [Term.condition?]
  cases c.clauses? u <;> simp [eq_comm]

theorem Conjunction.condition?_eq_some : c.condition? u = some x ↔
    ∃ cs, c.clauses? u = some cs ∧ x = .all cs := Term.condition?_group

end Parts

section Means

variable (u : Universe)

mutual

theorem Conjunction.clauses?_isSome_iff : ∀ c : Conjunction,
    (c.clauses? u).isSome ↔ ∀ p ∈ c.tests, p.1 ∈ u.names
  | .one d => by
      rw [Conjunction.clauses?, Conjunction.tests, Option.isSome_map]
      exact Disjunction.terms?_isSome_iff d
  | .and d c => by
      have hd := Disjunction.terms?_isSome_iff d
      have hc := Conjunction.clauses?_isSome_iff c
      rw [Conjunction.clauses?, Conjunction.tests, List.forall_mem_append, ← hd, ← hc]
      cases d.terms? u <;> cases c.clauses? u <;> simp

theorem Disjunction.terms?_isSome_iff : ∀ d : Disjunction,
    (d.terms? u).isSome ↔ ∀ p ∈ d.tests, p.1 ∈ u.names
  | .one t => by
      rw [Disjunction.terms?, Disjunction.tests, Option.isSome_map]
      exact Term.condition?_isSome_iff t
  | .or t d => by
      have ht := Term.condition?_isSome_iff t
      have hd := Disjunction.terms?_isSome_iff d
      rw [Disjunction.terms?, Disjunction.tests, List.forall_mem_append, ← ht, ← hd]
      cases t.condition? u <;> cases d.terms? u <;> simp

theorem Term.condition?_isSome_iff : ∀ t : Term,
    (t.condition? u).isSome ↔ ∀ p ∈ t.tests, p.1 ∈ u.names
  | .test name a => by
      rw [Term.condition?, Term.tests, Option.isSome_map, findFactor?_isSome_iff]
      simp
  | .group c => by
      rw [Term.condition?, Term.tests, Option.isSome_map]
      exact Conjunction.clauses?_isSome_iff c

end

/-- A condition means something exactly if the factors it tests are declared. -/
theorem Conjunction.condition?_isSome_iff (c : Conjunction) :
    (c.condition? u).isSome ↔ ∀ name ∈ c.names, name ∈ u.names := by
  rw [Conjunction.condition?, Option.isSome_map, c.clauses?_isSome_iff u, Conjunction.names]
  exact List.forall_mem_map.symm

end Means

section Shape

variable {u : Universe} {ok : FactorId → Value → Prop}

/-- The factors of these tests and their values are all of a kind. -/
def TestsOk (u : Universe) (ok : FactorId → Value → Prop) (tests : List (String × Atom)) : Prop :=
  ∀ p ∈ tests, ∀ f, u.findFactor? p.1 = some f → ok f.id p.2.value

mutual

theorem Conjunction.clauses?_shape : ∀ (c : Conjunction) {xs : List Condition},
    TestsOk u ok c.tests → c.clauses? u = some xs → xs ≠ [] ∧ ∀ x ∈ xs, x.Disjunctive ok
  | .one d, xs, hok, h => by
      obtain ⟨ts, hts, rfl⟩ := Conjunction.clauses?_one.mp h
      obtain ⟨hne, hall⟩ := Disjunction.terms?_shape d hok hts
      exact ⟨by simp, by simpa using Disjunctive.any hne hall⟩
  | .and d c, xs, hok, h => by
      rw [Conjunction.tests, TestsOk, List.forall_mem_append] at hok
      obtain ⟨ts, cs, hts, hcs, rfl⟩ := Conjunction.clauses?_and.mp h
      obtain ⟨hne, hall⟩ := Disjunction.terms?_shape d hok.1 hts
      obtain ⟨-, hrest⟩ := Conjunction.clauses?_shape c hok.2 hcs
      exact ⟨by simp, List.forall_mem_cons.mpr ⟨.any hne hall, hrest⟩⟩

theorem Disjunction.terms?_shape : ∀ (d : Disjunction) {xs : List Condition},
    TestsOk u ok d.tests → d.terms? u = some xs → xs ≠ [] ∧ ∀ x ∈ xs, x.Elementary ok
  | .one t, xs, hok, h => by
      obtain ⟨x, hx, rfl⟩ := Disjunction.terms?_one.mp h
      exact ⟨by simp, by simpa using Term.condition?_shape t hok hx⟩
  | .or t d, xs, hok, h => by
      rw [Disjunction.tests, TestsOk, List.forall_mem_append] at hok
      obtain ⟨x, ys, hx, hys, rfl⟩ := Disjunction.terms?_or.mp h
      obtain ⟨-, hrest⟩ := Disjunction.terms?_shape d hok.2 hys
      exact ⟨by simp, List.forall_mem_cons.mpr ⟨Term.condition?_shape t hok.1 hx, hrest⟩⟩

theorem Term.condition?_shape : ∀ (t : Term) {x : Condition},
    TestsOk u ok t.tests → t.condition? u = some x → x.Elementary ok
  | .test name a, x, hok, h => by
      obtain ⟨f, hf, rfl⟩ := Term.condition?_test.mp h
      exact .holds (hok (name, a) (List.mem_singleton_self _) f hf)
  | .group c, x, hok, h => by
      obtain ⟨cs, hcs, rfl⟩ := Term.condition?_group.mp h
      obtain ⟨hne, hall⟩ := Conjunction.clauses?_shape c hok hcs
      exact .group (.all hne hall)

end

/-- A condition that is read is a conjunction of disjunctions. -/
theorem Conjunction.condition?_shape {c : Conjunction} {x : Condition}
    (hok : TestsOk u ok c.tests) (h : c.condition? u = some x) : x.Conjunctive ok := by
  obtain ⟨cs, hcs, rfl⟩ := Conjunction.condition?_eq_some.mp h
  obtain ⟨hne, hall⟩ := c.clauses?_shape hok hcs
  exact .all hne hall

end Shape

/-! ## Effects -/

section Effects

variable {u : Universe}

theorem Change.pairs?_isSome_iff (es : Several Change) :
    (Change.pairs? u es).isSome ↔ ∀ e ∈ es.toList, e.factor ∈ u.names := by
  induction es with
  | one e =>
      rw [Change.pairs?, Option.isSome_map, Change.pair?, Option.isSome_map,
        findFactor?_isSome_iff]
      simp [Several.toList]
  | more e es ih =>
      rw [Change.pairs?, Several.toList, List.forall_mem_cons, ← ih, ← findFactor?_isSome_iff,
        Change.pair?]
      cases u.findFactor? e.factor <;> cases Change.pairs? u es <;> simp

/-- Effects mean something exactly if the factors they change are declared. -/
theorem Changes.pairs?_isSome_iff (es : Changes) :
    (es.pairs? u).isSome ↔ ∀ e ∈ es.toList, e.factor ∈ u.names := by
  cases es with
  | bare e =>
      rw [Changes.pairs?, Option.isSome_map, Change.pair?, Option.isSome_map,
        findFactor?_isSome_iff]
      simp [Changes.toList]
  | listed es => exact Change.pairs?_isSome_iff es

theorem Change.pair?_declares (hu : u.Built) {e : Change} {p : FactorId × Value}
    (h : e.pair? u = some p) : u.Declares p.1 := by
  obtain ⟨f, hf, rfl⟩ := Option.map_eq_some_iff.mp h
  rw [Declares, hu.factor?_of_findFactor? hf]
  rfl

theorem Change.pairs?_eq_some_iff (es : Several Change) {ps : List (FactorId × Value)} :
    Change.pairs? u es = some ps ↔ es.toList.map (Change.pair? u) = ps.map some := by
  induction es generalizing ps with
  | one e =>
      rw [Change.pairs?, Option.map_eq_some_iff, Several.toList, List.map_singleton,
        eq_comm (b := ps.map some), List.map_eq_singleton_iff]
      constructor
      · rintro ⟨p, hp, rfl⟩
        exact ⟨p, rfl, hp.symm⟩
      · rintro ⟨p, rfl, hp⟩
        exact ⟨p, hp.symm, rfl⟩
  | more e es ih =>
      rw [Several.toList, List.map_cons, eq_comm (b := ps.map some), List.map_eq_cons_iff]
      constructor
      · intro h
        obtain ⟨p, hp, h⟩ := Option.bind_eq_some_iff.mp h
        obtain ⟨qs, hqs, h⟩ := Option.bind_eq_some_iff.mp h
        exact ⟨p, qs, (Option.some.inj h).symm, hp.symm, (ih.mp hqs).symm⟩
      · rintro ⟨p, qs, rfl, hp, hqs⟩
        exact Option.bind_eq_some_iff.mpr
          ⟨p, hp.symm, Option.bind_eq_some_iff.mpr ⟨qs, ih.mpr hqs.symm, rfl⟩⟩

/-- Effects are read one by one. -/
theorem Changes.pairs?_eq_some_iff {es : Changes} {ps : List (FactorId × Value)} :
    es.pairs? u = some ps ↔ es.toList.map (Change.pair? u) = ps.map some := by
  cases es with
  | bare e => exact Change.pairs?_eq_some_iff (.one e)
  | listed es => exact Change.pairs?_eq_some_iff es

/-- Effects that are read change declared factors only. -/
theorem Changes.pairs?_declares (hu : u.Built) {es : Changes} {ps : List (FactorId × Value)}
    (h : es.pairs? u = some ps) : ∀ p ∈ ps, u.Declares p.1 := by
  intro p hp
  obtain ⟨e, -, he⟩ := List.mem_map.mp (pairs?_eq_some_iff.mp h ▸ List.mem_map_of_mem hp)
  exact Change.pair?_declares hu he

end Effects

end Tree

/-! ## What the universe accepts -/

theorem Effects.mem_place {f : FactorId} {v : Value} {es : List (FactorId × Value)}
    {p : FactorId × Value} (h : p ∈ place f v es) : p = (f, v) ∨ p ∈ es := by
  induction es with
  | nil => exact .inl (List.mem_singleton.mp h)
  | cons e es ih =>
      rw [place] at h
      split at h
      · rcases List.mem_cons.mp h with h | h
        · exact .inl h
        · exact .inr h
      · split at h
        · rcases List.mem_cons.mp h with h | h
          · exact .inl h
          · exact .inr (List.mem_cons_of_mem _ h)
        · rcases List.mem_cons.mp h with h | h
          · exact .inr (h ▸ List.mem_cons_self ..)
          · exact (ih h).imp_right (List.mem_cons_of_mem _)

/-- The entries of effects are among the pairs they were made of. -/
theorem Effects.mem_ofList {ps : List (FactorId × Value)} {p : FactorId × Value}
    (h : p ∈ (Effects.ofList ps).entries) : p ∈ ps := by
  induction ps using List.reverseRecOn with
  | nil => exact absurd h List.not_mem_nil
  | append_singleton ps q ih =>
      rw [ofList_concat] at h
      rcases mem_place h with rfl | h
      · exact List.mem_append_right ps (List.mem_singleton_self q)
      · exact List.mem_append_left [q] (ih h)

/-- A transition that speaks of declared factors only is not refused. -/
theorem Universe.firstUnknown?_eq_none {u : Universe} {c : Condition}
    {ps : List (FactorId × Value)} (hc : ∀ p ∈ c.tests, u.Declares p.1)
    (hps : ∀ p ∈ ps, u.Declares p.1) : u.firstUnknown? c (.ofList ps) = none := by
  rw [firstUnknown?, List.find?_eq_none]
  intro f hf
  have hdeclared : u.Declares f := by
    rcases List.mem_append.mp hf with hf | hf
    · obtain ⟨p, hp, rfl⟩ := List.mem_map.mp hf
      exact hc p hp
    · obtain ⟨p, hp, rfl⟩ := List.mem_map.mp hf
      exact hps p (Effects.mem_ofList hp)
  rw [Option.isNone_iff_eq_none]
  exact Option.isSome_iff_ne_none.mp hdeclared

/-! ## Blocks -/

namespace Tree

open Universe

variable {u u' : Universe}

theorem distinct_toList_ne_nil (as : Several Atom) :
    distinct (as.toList.map Atom.value) ≠ [] := by
  cases as <;> simp [Several.toList, distinct]

/-- A condition that is read tests declared factors only. -/
theorem Conjunction.condition?_conjunctive (hu : u.Built) {c : Conjunction} {x : Condition}
    (h : c.condition? u = some x) : x.Conjunctive fun f _ => u.Declares f := by
  refine Conjunction.condition?_shape (fun p _ f hf => ?_) h
  rw [Declares, hu.factor?_of_findFactor? hf]
  rfl

theorem Block.world?_factor {name : String} {as : Several Atom} :
    (Block.factor name as).world? u = some u' ↔
      ∃ id, u.addFactor name (as.toList.map Atom.value) = .ok (id, u') := by
  rw [Block.world?]
  cases u.addFactor name (as.toList.map Atom.value) with
  | error e => simp [Except.toOption]
  | ok added =>
      obtain ⟨id, w⟩ := added
      simp [Except.toOption]

theorem Block.world?_transition {name : Option String} {c : Conjunction} {t : Timing}
    {es : Changes} {told : Option String} :
    (Block.transition name c t es told).world? u = some u' ↔
      ∃ x ps id, c.condition? u = some x ∧ es.pairs? u = some ps ∧
        u.addTransition (name.getD "") x t.schedule (told.getD "") ps = .ok (id, u') := by
  rw [Block.world?]
  cases c.condition? u with
  | none => simp
  | some x =>
      cases es.pairs? u with
      | none => simp
      | some ps =>
          cases hadd : u.addTransition (name.getD "") x t.schedule (told.getD "") ps with
          | error e => simp [hadd, Except.toOption]
          | ok added =>
              obtain ⟨id, w⟩ := added
              simp [hadd, Except.toOption]

theorem Block.world?_description {c : Conjunction} {told : String} :
    (Block.description c told).world? u = some u' ↔ (∃ x, c.condition? u = some x) ∧ u' = u := by
  rw [Block.world?]
  cases c.condition? u <;> simp [eq_comm]

/-- What a block that can be declared adds to the universe. -/
theorem Block.world?_eq_some (hu : u.Built) {b : Block} (h : b.world? u = some u') :
    u'.Built ∧ u'.names = u.names ++ b.declares := by
  cases b with
  | factor name as =>
      obtain ⟨id, hadd⟩ := world?_factor.mp h
      refine ⟨.factor hu hadd, ?_⟩
      obtain ⟨-, -, _, _, -, rfl⟩ := addFactor_eq_ok_iff.mp hadd
      simp [names, declares]
  | transition name c t es told =>
      obtain ⟨x, ps, id, -, -, hadd⟩ := world?_transition.mp h
      refine ⟨.transition hu hadd, ?_⟩
      obtain ⟨-, -, rfl⟩ := addTransition_eq_ok_iff.mp hadd
      exact (List.append_nil _).symm
  | description c told =>
      obtain ⟨-, rfl⟩ := world?_description.mp h
      exact ⟨hu, (List.append_nil _).symm⟩

/-- A block can be declared exactly if the factors it speaks of are declared and the one it
declares is not. -/
theorem Block.world?_isSome_iff (hu : u.Built) (b : Block) :
    (b.world? u).isSome ↔
      (∀ name ∈ b.uses, name ∈ u.names) ∧ ∀ name ∈ b.declares, name ∉ u.names := by
  cases b with
  | factor name as =>
      simp only [world?, Option.isSome_map, uses, declares, List.mem_singleton, forall_eq,
        List.not_mem_nil, false_implies, implies_true, true_and]
      cases hadd : u.addFactor name (as.toList.map Atom.value) with
      | ok x =>
          obtain ⟨hnew, -⟩ := addFactor_eq_ok_iff.mp hadd
          exact ⟨fun _ => hnew, fun _ => rfl⟩
      | error e =>
          refine ⟨nofun, fun hnew => ?_⟩
          cases hvs : distinct (as.toList.map Atom.value) with
          | nil => exact absurd hvs (distinct_toList_ne_nil as)
          | cons initial others =>
              have hok := addFactor_eq_ok_iff.mpr ⟨hnew, rfl, initial, others, hvs, rfl⟩
              cases hadd.symm.trans hok
  | transition name c t es told =>
      have hc := c.condition?_isSome_iff u
      have hes := Changes.pairs?_isSome_iff (u := u) es
      have huses : (∀ n ∈ (Block.transition name c t es told).uses, n ∈ u.names) ↔
          (c.condition? u).isSome ∧ (es.pairs? u).isSome := by
        rw [uses, List.forall_mem_append, List.forall_mem_map, hc, hes]
      rw [huses, world?]
      cases hx : c.condition? u with
      | none => simp
      | some x =>
          cases hps : es.pairs? u with
          | none => simp
          | some ps =>
              have hnone := firstUnknown?_eq_none (Conjunction.condition?_conjunctive hu hx).tests
                (Changes.pairs?_declares hu hps)
              have hadded : ((u.addTransition (name.getD "") x t.schedule (told.getD "")
                  ps).toOption.map Prod.snd).isSome := by
                rw [addTransition_eq_ok_iff.mpr ⟨hnone, rfl, rfl⟩]
                rfl
              exact ⟨fun _ => ⟨⟨rfl, rfl⟩, fun _ hname => absurd hname List.not_mem_nil⟩,
                fun _ => hadded⟩
  | description c told =>
      rw [world?, Option.isSome_map, c.condition?_isSome_iff u]
      exact ⟨fun h => ⟨h, fun _ hname => absurd hname List.not_mem_nil⟩, fun h => h.1⟩

/-! ## Stories -/

theorem scoped_nil {known : List String} (h : known.Nodup) : Scoped known [] where
  used before b after heq := by simp at heq
  once := by simpa [declares] using h

/-- Blocks are well scoped if the first is and the others are behind it. -/
theorem scoped_cons {known : List String} {b : Block} {bs : List Block} :
    Scoped known (b :: bs) ↔ (∀ name ∈ b.uses, name ∈ known) ∧
      (∀ name ∈ b.declares, name ∉ known) ∧ Scoped (known ++ b.declares) bs := by
  have hassoc : known ++ declares (b :: bs) = known ++ b.declares ++ declares bs := by
    simp [declares]
  constructor
  · intro given
    obtain ⟨hused, honce⟩ := given
    rw [hassoc] at honce
    have hfirst := (List.nodup_append.mp (List.nodup_append.mp honce).1).2.2
    refine ⟨fun name hname => by simpa [declares] using hused [] b bs rfl name hname,
      fun name hname hmem => hfirst name hmem name hname rfl, ?_, honce⟩
    rintro before b' after rfl name hname
    have := hused (b :: before) b' after rfl name hname
    simpa [declares] using this
  · intro given
    obtain ⟨huses, hnew, hused, honce⟩ := given
    refine ⟨?_, hassoc ▸ honce⟩
    intro before b' after heq name hname
    cases before with
    | nil =>
        obtain ⟨rfl, rfl⟩ := List.cons.inj heq
        exact List.mem_append_left _ (huses name hname)
    | cons b'' before =>
        obtain ⟨rfl, rfl⟩ := List.cons.inj heq
        have := hused before b' after rfl name hname
        simpa [declares] using this

/-- Blocks can be compiled exactly if they are well scoped. -/
theorem compile?_isSome_iff (bs : List Block) (c : Compilation) (ps : List Span)
    (hu : c.world.Built) : (compile? c bs ps).isSome ↔ Scoped c.world.names bs := by
  induction bs generalizing c ps with
  | nil =>
      rw [compile?]
      exact ⟨fun _ => scoped_nil hu.labels_nodup, fun _ => rfl⟩
  | cons b bs ih =>
      rw [compile?, scoped_cons, ← and_assoc, ← b.world?_isSome_iff hu,
        Block.compile?]
      cases hw : b.world? c.world with
      | none => simp
      | some w =>
          obtain ⟨hbuilt, hnames⟩ := Block.world?_eq_some hu hw
          have hrest := ih ⟨w, c.findings ++ b.found c.world
            (ps.take b.tokens.length), c.descriptions ++ b.described c.world
            (ps.take b.tokens.length)⟩ (ps.drop b.tokens.length) hbuilt
          rw [hnames] at hrest
          simpa using hrest

/-- Blocks behind others are compiled behind what those compile to. -/
theorem compile?_append (bs bs' : List Block) (c : Compilation) (ps : List Span) :
    compile? c (bs ++ bs') ps =
      (compile? c bs ps).bind fun c' => compile? c' bs' (ps.drop (tokens bs).length) := by
  induction bs generalizing c ps with
  | nil => rfl
  | cons b bs ih =>
      rw [List.cons_append, compile?, compile?]
      cases b.compile? c (ps.take b.tokens.length) with
      | none => rfl
      | some c₁ =>
          have hrest := ih c₁ (ps.drop b.tokens.length)
          rw [List.drop_drop] at hrest
          simp only [tokens, List.flatMap_cons, List.length_append] at hrest ⊢
          exact hrest

theorem Block.tokens_ne_nil (b : Block) : b.tokens ≠ [] := by
  cases b <;> exact List.cons_ne_nil _ _

/-- The places of the tokens of the first block and of those of the others. -/
theorem length_split_blocks {b : Block} {bs : List Block} {ps : List Span}
    (h : ps.length = (tokens (b :: bs)).length) :
    (ps.take b.tokens.length).length = b.tokens.length ∧
      (ps.drop b.tokens.length).length = (tokens bs).length := by
  rw [tokens, List.flatMap_cons, List.length_append] at h
  rw [List.length_take, List.length_drop, tokens]
  omega

/-- Places behind those of the tokens make no difference. -/
theorem compile?_append_places {c : Compilation} {bs : List Block} {ps : List Span}
    (hps : ps.length = (tokens bs).length) (qs : List Span) :
    compile? c bs (ps ++ qs) = compile? c bs ps := by
  induction bs generalizing c ps with
  | nil => rfl
  | cons b bs ih =>
      obtain ⟨hfirst, hothers⟩ := length_split_blocks hps
      have hle : b.tokens.length ≤ ps.length := hfirst ▸ List.length_take_le' ..
      rw [compile?, compile?, List.take_append_of_le_length hle,
        List.drop_append_of_le_length hle]
      simp only [ih hothers]

/-! ## What compiling keeps -/

theorem Block.compile?_eq_some {b : Block} {c c' : Compilation} {ps : List Span} :
    b.compile? c ps = some c' ↔ ∃ w, b.world? c.world = some w ∧
      c' = ⟨w, c.findings ++ b.found c.world ps, c.descriptions ++ b.described c.world ps⟩ := by
  rw [compile?]
  cases b.world? c.world <;> simp [eq_comm]

/-- What each block keeps all blocks keep. -/
theorem compile?_keeps {P : Compilation → Prop} {bs : List Block}
    (step : ∀ b ∈ bs, ∀ c c' ps, b.compile? c ps = some c' → P c → P c')
    {c c' : Compilation} {ps : List Span} (h : compile? c bs ps = some c') (hc : P c) : P c' := by
  induction bs generalizing c ps with
  | nil =>
      cases h
      exact hc
  | cons b bs ih =>
      obtain ⟨c₁, hb, hrest⟩ := Option.bind_eq_some_iff.mp h
      have hc₁ : P c₁ := step b (List.mem_cons_self ..) c c₁ _ hb hc
      exact ih (fun b' hb' => step b' (List.mem_cons_of_mem b hb')) hrest hc₁

/-- The universe of compiled blocks was built. -/
theorem compile?_built {bs : List Block} {c c' : Compilation} {ps : List Span}
    (h : compile? c bs ps = some c') (hu : c.world.Built) : c'.world.Built := by
  refine compile?_keeps (P := fun c => c.world.Built) ?_ h hu
  intro b _ c c' ps hb hu
  obtain ⟨w, hw, rfl⟩ := Block.compile?_eq_some.mp hb
  exact (Block.world?_eq_some hu hw).1

end Tree

end Storyworld
