import Storyworld.Proofs.Visited

/-!
# Declarations in a register

A register stays in step with its universe: the index has the handle of every factor
at its name, and nothing else (`Register.InStep`).  Every declaration keeps that, and
in step a register answers as its universe does (`InStep.declare_eq`).  So what is
known of built universes is known of registers, and looking up a name never ends at a
handle that leads nowhere (`InStep.find_eq`).

A declaration is refused for one of the reasons that `Declaration.Refused` lists and
for no other.  The walk through a condition ends at the first unknown factor, since
the visitor keeps what it has found (`foldl_visit_unknown`).  Effects are in the order
of their factors, so the first unknown factor among them has the least number.

What a handle was given for it stands for in every later register
(`Declaration.StandsFor.grows`), because declaring only adds at the end.
-/

namespace Storyworld

/-! ## The values that are kept -/

/-- A list is another without the repetitions, in the order of the first occurrences. -/
structure FirstOccurrences (listed kept : List Value) : Prop where
  /-- Both have the same values. -/
  mem_iff : ∀ v, v ∈ kept ↔ v ∈ listed
  /-- No value is kept twice. -/
  nodup : kept.Nodup
  /-- Of two values the one that occurs first is first. -/
  ordered : kept.Pairwise fun v w => listed.idxOf v < listed.idxOf w

theorem firstOccurrences_distinct (vs : List Value) : FirstOccurrences vs (distinct vs) := by
  refine ⟨fun v => mem_distinct v vs, nodup_distinct vs, ?_⟩
  induction vs with
  | nil => exact .nil
  | cons v vs ih =>
      have hlater : ∀ w, w ≠ v → (v :: vs).idxOf w = vs.idxOf w + 1 :=
        fun w hw => List.idxOf_cons_ne vs hw.symm
      have hne : ∀ w ∈ (distinct vs).filter (· != v), w ≠ v :=
        fun w hw => bne_iff_ne.mp (List.mem_filter.mp hw).2
      rw [distinct, List.pairwise_cons]
      refine ⟨fun w hw => ?_, (ih.filter _).imp_of_mem fun {w x} hw hx hlt => ?_⟩
      · rw [hlater w (hne w hw), List.idxOf_cons_self]
        exact Nat.succ_pos _
      · rw [hlater w (hne w hw), hlater x (hne x hx)]
        exact Nat.succ_lt_succ hlt

/-- A factor is made of the values it was declared with. -/
structure Factor.MadeOf (f : Factor) (listed : List Value) : Prop where
  /-- The initial value is the first that was listed. -/
  initial : listed.head? = some f.initial
  /-- The others follow as they were listed. -/
  values : FirstOccurrences listed f.values

theorem head?_of_distinct {vs others : List Value} {v : Value}
    (h : distinct vs = v :: others) : vs.head? = some v := by
  cases vs with
  | nil => cases h
  | cons w ws =>
      rw [distinct] at h
      cases h
      rfl

theorem Factor.madeOf {listed others : List Value} {v : Value} (h : distinct listed = v :: others)
    (id : FactorId) (label : String) : Factor.MadeOf ⟨id, label, v, others⟩ listed := by
  refine ⟨head?_of_distinct h, ?_⟩
  rw [Factor.values, ← h]
  exact firstOccurrences_distinct listed

theorem distinct_eq_nil_iff {vs : List Value} : distinct vs = [] ↔ vs = [] := by
  cases vs <;> simp [distinct]

/-! ## Visiting the tests -/

/-- A visitor that keeps the first unknown factor ends with the first unknown factor. -/
theorem foldl_visit_unknown (unknown : FactorId → Bool) (ps : List (FactorId × Value))
    (found : Option FactorId) :
    ps.foldl (fun found p => if found.isNone && unknown p.1 then some p.1 else found) found =
      found.or ((ps.map Prod.fst).find? unknown) := by
  induction ps generalizing found with
  | nil => cases found <;> rfl
  | cons p ps ih =>
      rw [List.foldl_cons, ih, List.map_cons, List.find?_cons]
      cases found with
      | some f => rfl
      | none => cases unknown p.1 <;> rfl

/-! ## Why declarations are refused -/

namespace Universe

variable {u u' : Universe}

/-- A factor is the first that a condition tests and that is not declared. -/
def FirstUnknownTested (u : Universe) (c : Condition) (f : FactorId) : Prop :=
  ∃ before v after, c.tests = before ++ (f, v) :: after ∧ ¬ u.Declares f ∧
    ∀ p ∈ before, u.Declares p.1

/-- A factor is the one of the least number that pairs change and that is not declared. -/
def LeastUnknownChanged (u : Universe) (pairs : List (FactorId × Value)) (f : FactorId) : Prop :=
  f ∈ pairs.map Prod.fst ∧ ¬ u.Declares f ∧
    ∀ g ∈ pairs.map Prod.fst, ¬ u.Declares g → f.index ≤ g.index

end Universe

/-- A universe refuses a declaration, and why. -/
def Declaration.Refused (u : Universe) : Declaration → ModelError → Prop
  | .factor label values, e =>
      label ∈ u.names ∧ e = .duplicateFactor label ∨
      label ∉ u.names ∧ values = [] ∧ e = .emptyFactor label
  | .transition _ condition _ _ effects, e => ∃ f, e = .unknownFactor f ∧
      (u.FirstUnknownTested condition f ∨
        (∀ p ∈ condition.tests, u.Declares p.1) ∧ u.LeastUnknownChanged effects f)

/-- Effects change the factors of the pairs they were made of. -/
theorem Effects.mem_factors_ofList {ps : List (FactorId × Value)} {f : FactorId} :
    f ∈ (Effects.ofList ps).factors ↔ f ∈ ps.map Prod.fst := by
  constructor
  · intro hf
    obtain ⟨p, hp, rfl⟩ := List.mem_map.mp hf
    exact List.mem_map_of_mem (mem_ofList hp)
  · intro hf
    obtain ⟨p, hp, rfl⟩ := List.mem_map.mp hf
    -- one of the pairs for the factor is the last
    have hsome : (ps.filter fun q => q.1 = p.1) ≠ [] :=
      List.ne_nil_of_mem (List.mem_filter.mpr ⟨hp, decide_eq_true rfl⟩)
    obtain ⟨⟨g, v⟩, hlast⟩ : ∃ q, (ps.filter fun q => q.1 = p.1).getLast? = some q :=
      ⟨_, List.getLast?_eq_some_getLast hsome⟩
    obtain rfl : g = p.1 := of_decide_eq_true (List.mem_filter.mp (List.mem_of_getLast? hlast)).2
    exact List.mem_map.mpr ⟨(p.1, v), mem_ofList_iff.mpr hlast, rfl⟩

namespace Universe

variable {u : Universe}

theorem not_declares_iff {f : FactorId} : ¬ u.Declares f ↔ (u.factor? f).isNone = true := by
  rw [Declares]
  cases u.factor? f <;> simp

theorem declares_iff {f : FactorId} : u.Declares f ↔ (u.factor? f).isNone = false := by
  rw [Declares]
  cases u.factor? f <;> simp

/-- The first unknown factor among the tests. -/
theorem find?_tests_eq_some {c : Condition} {f : FactorId} :
    (c.tests.map Prod.fst).find? (fun f => (u.factor? f).isNone) = some f ↔
      u.FirstUnknownTested c f := by
  rw [List.find?_eq_some_iff_append]
  constructor
  · intro given
    obtain ⟨hunknown, before, after, hsplit, hbefore⟩ := given
    obtain ⟨ps, rest, htests, rfl, hrest⟩ := List.map_eq_append_iff.mp hsplit
    obtain ⟨⟨g, v⟩, qs, rfl, rfl, -⟩ := List.map_eq_cons_iff.mp hrest
    refine ⟨ps, v, qs, htests, not_declares_iff.mpr hunknown, fun p hp => ?_⟩
    have hknown := hbefore p.1 (List.mem_map_of_mem hp)
    exact declares_iff.mpr (by simpa using hknown)
  · intro given
    obtain ⟨before, v, after, htests, hunknown, hbefore⟩ := given
    refine ⟨not_declares_iff.mp hunknown, before.map Prod.fst, after.map Prod.fst, ?_, ?_⟩
    · rw [htests, List.map_append, List.map_cons]
    · intro g hg
      obtain ⟨p, hp, rfl⟩ := List.mem_map.mp hg
      simpa using declares_iff.mp (hbefore p hp)

theorem find?_tests_eq_none {c : Condition} :
    (c.tests.map Prod.fst).find? (fun f => (u.factor? f).isNone) = none ↔
      ∀ p ∈ c.tests, u.Declares p.1 := by
  rw [List.find?_eq_none, List.forall_mem_map]
  exact forall₂_congr fun p _ => by rw [← not_declares_iff, not_not]

/-- What is found first in an order is not behind anything else that could be found. -/
theorem index_le_of_find? {p : FactorId → Bool} {fs : List FactorId} {f : FactorId}
    (hfs : fs.Pairwise fun f g => f.index < g.index) (h : fs.find? p = some f) :
    ∀ g ∈ fs, p g = true → f.index ≤ g.index := by
  obtain ⟨-, before, after, rfl, hbefore⟩ := List.find?_eq_some_iff_append.mp h
  intro g hg hp
  rcases List.mem_append.mp hg with hg | hg
  · have hnot := hbefore g hg
    rw [hp] at hnot
    cases hnot
  · rcases List.mem_cons.mp hg with rfl | hg
    · exact Nat.le_refl _
    · exact Nat.le_of_lt ((List.pairwise_cons.mp (List.pairwise_append.mp hfs).2.1).1 g hg)

/-- The first unknown factor among effects has the least number of those unknown. -/
theorem find?_factors_eq_some {ps : List (FactorId × Value)} {f : FactorId} :
    (Effects.ofList ps).factors.find? (fun f => (u.factor? f).isNone) = some f ↔
      u.LeastUnknownChanged ps f := by
  have hordered : (Effects.ofList ps).factors.Pairwise fun f g => f.index < g.index :=
    List.pairwise_map.mpr (Effects.ordered_ofList ps)
  have hfound : ∀ f, (Effects.ofList ps).factors.find? (fun f => (u.factor? f).isNone) = some f →
      u.LeastUnknownChanged ps f := by
    intro f h
    have hunknown : (u.factor? f).isNone = true := by simpa using List.find?_some h
    refine ⟨Effects.mem_factors_ofList.mp (List.mem_of_find?_eq_some h),
      not_declares_iff.mpr hunknown, fun g hg hg' => ?_⟩
    exact index_le_of_find? hordered h g (Effects.mem_factors_ofList.mpr hg)
      (not_declares_iff.mp hg')
  refine ⟨hfound f, fun given => ?_⟩
  obtain ⟨hmem, hunknown, hleast⟩ := given
  cases hfind : (Effects.ofList ps).factors.find? (fun f => (u.factor? f).isNone) with
  | none =>
      have hf := Effects.mem_factors_ofList.mpr hmem
      exact absurd (not_declares_iff.mp hunknown) (List.find?_eq_none.mp hfind f hf)
  | some g =>
      obtain ⟨hg, hgunknown, hgleast⟩ := hfound g hfind
      have hindex := Nat.le_antisymm (hleast g hg hgunknown) (hgleast f hmem hunknown)
      cases f
      cases g
      exact congrArg (some ∘ FactorId.mk) hindex.symm

theorem find?_factors_eq_none {ps : List (FactorId × Value)} :
    (Effects.ofList ps).factors.find? (fun f => (u.factor? f).isNone) = none ↔
      ∀ f ∈ ps.map Prod.fst, u.Declares f := by
  rw [List.find?_eq_none]
  constructor
  · intro h f hf
    exact not_not.mp fun hunknown =>
      h f (Effects.mem_factors_ofList.mpr hf) (not_declares_iff.mp hunknown)
  · intro h f hf hunknown
    exact not_declares_iff.mpr hunknown (h f (Effects.mem_factors_ofList.mp hf))

/-- The tests come first, and the effects count only where the tests are declared. -/
theorem firstUnknown?_eq_some {c : Condition} {ps : List (FactorId × Value)} {f : FactorId} :
    u.firstUnknown? c (.ofList ps) = some f ↔ u.FirstUnknownTested c f ∨
      (∀ p ∈ c.tests, u.Declares p.1) ∧ u.LeastUnknownChanged ps f := by
  rw [firstUnknown?, List.find?_append, Option.or_eq_some_iff]
  exact or_congr find?_tests_eq_some (and_congr find?_tests_eq_none find?_factors_eq_some)

/-- A declaration is refused for its reason and for no other. -/
theorem declare_eq_error_iff {d : Declaration} {e : ModelError} :
    u.declare d = .error e ↔ d.Refused u e := by
  cases d with
  | factor label values =>
      rw [declare, Declaration.Refused, addFactor, ← findFactor?_isSome_iff]
      cases u.findFactor? label with
      | some f => simp [Except.map, eq_comm]
      | none =>
          cases hvalues : distinct values with
          | nil => simp [Except.map, distinct_eq_nil_iff.mp hvalues, eq_comm]
          | cons v others =>
              have hne : values ≠ [] := fun h => by simp [h, distinct] at hvalues
              simp [Except.map, hne]
  | transition label c s text es =>
      simp only [declare, addTransition, Declaration.Refused, ← firstUnknown?_eq_some]
      cases u.firstUnknown? c (.ofList es) <;> simp [Except.map, eq_comm]

end Universe

/-! ## What handles stand for -/

/-- A handle finds what was declared when the handle was given. -/
def Declaration.StandsFor (u : Universe) : Declaration → Declared → Prop
  | .factor label values, .factor id => ∃ f, u.factor? id = some f ∧ f.id = id ∧
      f.label = label ∧ f.MadeOf values
  | .transition label condition schedule text effects, .transition id =>
      u.transition? id = some ⟨id, label, condition, schedule, text, .ofList effects⟩
  | .factor .., .transition _ | .transition .., .factor _ => False

theorem Declaration.StandsFor.grows {u u' : Universe} {d : Declaration} {id : Declared}
    (h : d.StandsFor u id) (hu : u.Grows u') : d.StandsFor u' id := by
  cases d with
  | factor label values =>
      cases id with
      | factor id =>
          obtain ⟨f, hf, hrest⟩ := h
          exact ⟨f, hu.factor? hf, hrest⟩
      | transition id => exact h.elim
  | transition label c s text es =>
      cases id with
      | factor id => exact h.elim
      | transition id => exact hu.transition? h

namespace Universe

variable {u u' : Universe} {d : Declaration} {id : Declared}

/-- What a declaration that is not refused can have been. -/
theorem declare_cases (h : u.declare d = .ok (id, u')) :
    (∃ label values fid, d = .factor label values ∧ id = .factor fid ∧
      u.addFactor label values = .ok (fid, u')) ∨
    ∃ label c s text es tid, d = .transition label c s text es ∧ id = .transition tid ∧
      u.addTransition label c s text es = .ok (tid, u') := by
  cases d with
  | factor label values =>
      rw [declare] at h
      cases hadd : u.addFactor label values with
      | error e =>
          rw [hadd] at h
          cases h
      | ok added =>
          rw [hadd] at h
          cases h
          exact .inl ⟨label, values, added.1, rfl, rfl, hadd⟩
  | transition label c s text es =>
      rw [declare] at h
      cases hadd : u.addTransition label c s text es with
      | error e =>
          rw [hadd] at h
          cases h
      | ok added =>
          rw [hadd] at h
          cases h
          exact .inr ⟨label, c, s, text, es, added.1, rfl, rfl, hadd⟩

theorem declare_grows (h : u.declare d = .ok (id, u')) : u.Grows u' := by
  rcases declare_cases h with ⟨_, _, _, -, -, hadd⟩ | ⟨_, _, _, _, _, _, -, -, hadd⟩
  · exact addFactor_grows hadd
  · exact addTransition_grows hadd

/-- The handle of a declaration that is not refused stands for what was declared. -/
theorem standsFor_of_declare (h : u.declare d = .ok (id, u')) : d.StandsFor u' id := by
  rcases declare_cases h with
    ⟨label, values, fid, rfl, rfl, hadd⟩ | ⟨label, c, s, text, es, tid, rfl, rfl, hadd⟩
  · obtain ⟨-, rfl, initial, others, hvalues, rfl⟩ := addFactor_eq_ok_iff.mp hadd
    exact ⟨_, List.getElem?_concat_length, rfl, rfl, Factor.madeOf hvalues ..⟩
  · obtain ⟨-, rfl, rfl⟩ := addTransition_eq_ok_iff.mp hadd
    exact List.getElem?_concat_length

/-- A declaration adds no factor but the one it declares. -/
theorem factors_of_declare (h : u.declare d = .ok (id, u')) : ∀ f ∈ u'.factors,
    f ∈ u.factors ∨ ∃ listed, d = .factor f.label listed ∧ f.MadeOf listed := by
  rcases declare_cases h with
    ⟨label, listed, fid, rfl, rfl, hadd⟩ | ⟨_, _, _, _, _, _, rfl, rfl, hadd⟩
  · obtain ⟨-, -, initial, others, hvalues, rfl⟩ := addFactor_eq_ok_iff.mp hadd
    refine List.forall_mem_append.mpr ⟨fun f hf => .inl hf, ?_⟩
    exact List.forall_mem_singleton.mpr (.inr ⟨listed, rfl, Factor.madeOf hvalues ..⟩)
  · obtain ⟨-, -, rfl⟩ := addTransition_eq_ok_iff.mp hadd
    exact fun f hf => .inl hf

/-- Transitions speak of declared factors only. -/
theorem Built.declares {u : Universe} (hu : u.Built) : ∀ t ∈ u.transitions,
    (∀ p ∈ t.condition.tests, u.Declares p.1) ∧ ∀ p ∈ t.effects.entries, u.Declares p.1 := by
  have hmono : ∀ {u u' : Universe}, u.Grows u' → ∀ {f : FactorId}, u.Declares f →
      u'.Declares f := by
    intro u u' h f hf
    obtain ⟨g, hg⟩ := Option.isSome_iff_exists.mp hf
    exact Option.isSome_iff_exists.mpr ⟨g, h.factor? hg⟩
  induction hu with
  | empty => exact fun t ht => absurd ht List.not_mem_nil
  | factor _ hadd ih =>
      have hgrows := addFactor_grows hadd
      obtain ⟨-, -, _, _, -, rfl⟩ := addFactor_eq_ok_iff.mp hadd
      intro t ht
      exact ⟨fun p hp => hmono hgrows ((ih t ht).1 p hp),
        fun p hp => hmono hgrows ((ih t ht).2 p hp)⟩
  | @transition u _ _ c _ _ es _ _ hadd ih =>
      obtain ⟨hnone, -, rfl⟩ := addTransition_eq_ok_iff.mp hadd
      refine List.forall_mem_append.mpr ⟨ih, List.forall_mem_singleton.mpr ?_⟩
      rw [firstUnknown?, List.find?_append, Option.or_eq_none_iff] at hnone
      refine ⟨find?_tests_eq_none.mp hnone.1, fun p hp => ?_⟩
      exact find?_factors_eq_none.mp hnone.2 p.1 (List.mem_map_of_mem (Effects.mem_ofList hp))

end Universe

/-! ## Registers in step -/

namespace Register

variable {r : Register}

/-- The index of a register has the handles of its factors at their names. -/
structure InStep (r : Register) : Prop where
  /-- The universe was built by declarations. -/
  built : r.world.Built
  /-- The index finds the handle of the factor that has the name. -/
  indexed : ∀ label, r.byLabel[label]? = (r.world.findFactor? label).map Factor.id

theorem inStep_empty : empty.InStep := ⟨.empty, fun _ => Std.HashMap.getElem?_empty⟩

/-- Looking up a name finds the factor of the name. -/
theorem InStep.find_eq (h : r.InStep) (label : String) :
    r.find label = match r.world.findFactor? label with
      | some f => .found f
      | none => .missing := by
  rw [find, h.indexed]
  cases hf : r.world.findFactor? label with
  | none => rfl
  | some f => simp only [Option.map_some, h.built.factor?_of_findFactor? hf]

theorem InStep.addFactor_eq (h : r.InStep) (label : String) (values : List Value) :
    r.addFactor label values = match r.world.addFactor label values with
      | .ok (id, u) => (.ok id, ⟨u, r.byLabel.insert label id⟩)
      | .error e => (.error e, r) := by
  rw [addFactor, Universe.addFactor, Std.HashMap.contains_eq_isSome_getElem?, h.indexed,
    Option.isSome_map]
  cases r.world.findFactor? label with
  | some f => rfl
  | none => cases distinct values <;> rfl

theorem addTransition_eq (r : Register) (label : String) (condition : Condition)
    (schedule : Schedule) (text : String) (effects : List (FactorId × Value)) :
    r.addTransition label condition schedule text effects =
      match r.world.addTransition label condition schedule text effects with
      | .ok (id, u) => (.ok id, { r with world := u })
      | .error e => (.error e, r) := by
  have hfirst : r.firstUnknownTested? condition =
      (condition.tests.map Prod.fst).find? fun f => (r.world.factor? f).isNone := by
    rw [firstUnknownTested?, Condition.visit_eq]
    exact foldl_visit_unknown (fun f => (r.world.factor? f).isNone) condition.tests none
  rw [addTransition, Universe.addTransition, Universe.firstUnknown?, List.find?_append, hfirst]
  cases ((condition.tests.map Prod.fst).find? fun f => (r.world.factor? f).isNone).or
      ((Effects.ofList effects).factors.find? fun f => (r.world.factor? f).isNone) <;> rfl

/-- The handle of a new factor is found at its name, and all others where they were. -/
theorem InStep.addFactor (h : r.InStep) {label : String} {values : List Value} {id : FactorId}
    {u : Universe} (hadd : r.world.addFactor label values = .ok (id, u)) :
    InStep ⟨u, r.byLabel.insert label id⟩ := by
  refine ⟨.factor h.built hadd, fun label' => ?_⟩
  obtain ⟨hnew, rfl, initial, others, -, rfl⟩ := Universe.addFactor_eq_ok_iff.mp hadd
  have hnone := Universe.findFactor?_eq_none_iff.mpr hnew
  rw [Std.HashMap.getElem?_insert, Universe.findFactor?, List.find?_append, h.indexed]
  by_cases heq : label = label'
  · subst heq
    rw [Universe.findFactor?] at hnone
    simp [hnone]
  · have hother : (label == label') = false := beq_false_of_ne heq
    simp only [hother, Bool.false_eq_true, if_false, List.find?_cons, List.find?_nil,
      Option.or_none]
    rfl

/-- A register in step answers as its universe does. -/
theorem InStep.declare_eq (h : r.InStep) (d : Declaration) :
    r.world.declare d = (r.declare d).1.map fun id => (id, (r.declare d).2.world) := by
  cases d with
  | factor label values =>
      rw [Universe.declare, declare, h.addFactor_eq]
      cases r.world.addFactor label values <;> rfl
  | transition label c s text es =>
      rw [Universe.declare, declare, addTransition_eq]
      cases r.world.addTransition label c s text es <;> rfl

/-- Every declaration keeps a register in step. -/
theorem InStep.declare (h : r.InStep) (d : Declaration) : (r.declare d).2.InStep := by
  cases d with
  | factor label values =>
      rw [Register.declare, h.addFactor_eq]
      cases hadd : r.world.addFactor label values with
      | error e => exact h
      | ok added => exact h.addFactor hadd
  | transition label c s text es =>
      rw [Register.declare, addTransition_eq]
      cases hadd : r.world.addTransition label c s text es with
      | error e => exact h
      | ok added =>
          obtain ⟨id, world⟩ := added
          refine ⟨.transition h.built hadd, ?_⟩
          obtain ⟨-, -, rfl⟩ := Universe.addTransition_eq_ok_iff.mp hadd
          exact h.indexed

theorem InStep.declareAll (h : r.InStep) (ds : List Declaration) : (r.declareAll ds).2.InStep := by
  induction ds generalizing r with
  | nil => exact h
  | cons d ds ih => exact ih (h.declare d)

theorem addFactor_of_error {label : String} {values : List Value} {e : ModelError}
    (h : (r.addFactor label values).1 = .error e) : (r.addFactor label values).2 = r := by
  rw [addFactor] at h ⊢
  split
  · rfl
  · next hlabel =>
      rw [if_neg hlabel] at h
      cases hvalues : distinct values with
      | nil => rfl
      | cons v others =>
          rw [hvalues] at h
          cases h

theorem addTransition_of_error {label : String} {condition : Condition} {schedule : Schedule}
    {text : String} {effects : List (FactorId × Value)} {e : ModelError}
    (h : (r.addTransition label condition schedule text effects).1 = .error e) :
    (r.addTransition label condition schedule text effects).2 = r := by
  rw [addTransition_eq] at h ⊢
  cases hadd : r.world.addTransition label condition schedule text effects with
  | error e => rfl
  | ok added =>
      rw [hadd] at h
      cases h

theorem map_eq_error {α β : Type} {f : α → β} {x : Except ModelError α} {e : ModelError}
    (h : x.map f = .error e) : x = .error e := by
  cases x <;> cases h
  rfl

/-- A declaration that is refused changes nothing. -/
theorem declare_of_error {d : Declaration} {e : ModelError} (h : (r.declare d).1 = .error e) :
    (r.declare d).2 = r := by
  cases d with
  | factor label values => exact addFactor_of_error (map_eq_error h)
  | transition label c s text es => exact addTransition_of_error (map_eq_error h)

theorem InStep.declare_eq_ok (h : r.InStep) {d : Declaration} {id : Declared}
    (hd : (r.declare d).1 = .ok id) : r.world.declare d = .ok (id, (r.declare d).2.world) := by
  rw [h.declare_eq, hd]
  rfl

theorem InStep.declare_eq_error_iff (h : r.InStep) {d : Declaration} {e : ModelError} :
    (r.declare d).1 = .error e ↔ d.Refused r.world e := by
  rw [← Universe.declare_eq_error_iff, h.declare_eq]
  cases (r.declare d).1 <;> simp [Except.map]

theorem InStep.grows (h : r.InStep) (d : Declaration) : r.world.Grows (r.declare d).2.world := by
  cases hd : (r.declare d).1 with
  | error e =>
      rw [declare_of_error hd]
      exact .refl _
  | ok id => exact Universe.declare_grows (h.declare_eq_ok hd)

theorem InStep.growsAll (h : r.InStep) (ds : List Declaration) :
    r.world.Grows (r.declareAll ds).2.world := by
  induction ds generalizing r with
  | nil => exact .refl _
  | cons d ds ih => exact (h.grows d).trans (ih (h.declare d))

/-- A factor is there already, or it is made of the values of the declaration. -/
theorem InStep.factors_declare (h : r.InStep) (d : Declaration) :
    ∀ f ∈ (r.declare d).2.world.factors, f ∈ r.world.factors ∨
      ∃ listed, d = .factor f.label listed ∧ f.MadeOf listed := by
  intro f hf
  cases hd : (r.declare d).1 with
  | error e =>
      rw [declare_of_error hd] at hf
      exact .inl hf
  | ok id => exact Universe.factors_of_declare (h.declare_eq_ok hd) f hf

theorem InStep.factors_declareAll (h : r.InStep) (ds : List Declaration) :
    ∀ f ∈ (r.declareAll ds).2.world.factors, f ∈ r.world.factors ∨
      ∃ listed, .factor f.label listed ∈ ds ∧ f.MadeOf listed := by
  induction ds generalizing r with
  | nil => exact fun f hf => .inl hf
  | cons d ds ih =>
      intro f hf
      rcases ih (h.declare d) f hf with hf | ⟨listed, hmem, hmade⟩
      · rcases h.factors_declare d f hf with hf | ⟨listed, rfl, hmade⟩
        · exact .inl hf
        · exact .inr ⟨listed, List.mem_cons_self, hmade⟩
      · exact .inr ⟨listed, List.mem_cons_of_mem d hmem, hmade⟩

/-! ## Whole runs of declarations -/

/-- A register in which every handle, name and value is as it should be. -/
structure WellFormed (r : Register) : Prop where
  /-- The handle of a factor is its place. -/
  factor_id : ∀ (i : Nat) (f : Factor), r.world.factors[i]? = some f → f.id = ⟨i⟩
  /-- The handle of a transition is its place. -/
  transition_id : ∀ (i : Nat) (t : Transition), r.world.transitions[i]? = some t → t.id = ⟨i⟩
  /-- No two factors share a name. -/
  labels_nodup : (r.world.factors.map Factor.label).Nodup
  /-- The index has the declared names, each with the handle of its factor. -/
  indexed : ∀ label id, r.byLabel[label]? = some id ↔
    ∃ f ∈ r.world.factors, f.label = label ∧ f.id = id
  /-- Looking up a name finds the factor that has it, or no factor has it. -/
  find : ∀ label, (∃ f ∈ r.world.factors, f.label = label ∧ r.find label = .found f) ∨
    label ∉ r.world.factors.map Factor.label ∧ r.find label = .missing
  /-- The values of a factor are distinct, and the initial one is the first of them. -/
  values : ∀ f ∈ r.world.factors, f.values.head? = some f.initial ∧ f.values.Nodup
  /-- The factors that a transition tests, however deep, and those it changes are declared. -/
  declares : ∀ t ∈ r.world.transitions,
    (∀ p ∈ t.condition.tests, r.world.Declares p.1) ∧
      ∀ p ∈ t.effects.entries, r.world.Declares p.1

theorem InStep.wellFormed (h : r.InStep)
    (hvalues : ∀ f ∈ r.world.factors, f.values.Nodup) :
    r.WellFormed where
  factor_id _ _ := h.built.factor_id
  transition_id _ _ := h.built.transition_id
  labels_nodup := h.built.labels_nodup
  indexed label id := by
    rw [h.indexed, Option.map_eq_some_iff]
    constructor
    · rintro ⟨f, hf, rfl⟩
      obtain ⟨hmem, hlabel⟩ := Universe.mem_of_findFactor? hf
      exact ⟨f, hmem, hlabel, rfl⟩
    · rintro ⟨f, hf, rfl, rfl⟩
      exact ⟨f, h.built.findFactor?_label hf, rfl⟩
  find label := by
    rw [h.find_eq]
    cases hf : r.world.findFactor? label with
    | some f =>
        obtain ⟨hmem, hlabel⟩ := Universe.mem_of_findFactor? hf
        exact .inl ⟨f, hmem, hlabel, rfl⟩
    | none => exact .inr ⟨Universe.findFactor?_eq_none_iff.mp hf, rfl⟩
  values f hf := ⟨rfl, hvalues f hf⟩
  declares := h.built.declares

/-- A register is well formed after any declarations, whether refused or not.  Each of
its factors is made of the values one of them listed.  The next declaration is refused
for its reasons only, and changes nothing if it is; otherwise its handle stands for
what was declared, whatever is declared later.  The answers are those of the universe. -/
theorem declareAll_wellFormed (ds : List Declaration) :
    let r := (empty.declareAll ds).2
    r.WellFormed ∧
    (∀ f ∈ r.world.factors, ∃ listed, .factor f.label listed ∈ ds ∧ f.MadeOf listed) ∧
    (∀ d e, (r.declare d).1 = .error e ↔ d.Refused r.world e) ∧
    (∀ d e, (r.declare d).1 = .error e → (r.declare d).2 = r) ∧
    (∀ d id, (r.declare d).1 = .ok id →
      ∀ more, d.StandsFor ((r.declare d).2.declareAll more).2.world id) ∧
    (∀ more, r.world.Grows (r.declareAll more).2.world) ∧
    ∀ d, r.world.declare d = (r.declare d).1.map fun id => (id, (r.declare d).2.world) := by
  intro r
  have hstep : r.InStep := inStep_empty.declareAll ds
  have hmade : ∀ f ∈ r.world.factors, ∃ listed, .factor f.label listed ∈ ds ∧ f.MadeOf listed :=
    fun f hf => (inStep_empty.factors_declareAll ds f hf).resolve_left List.not_mem_nil
  have hnodup : ∀ f ∈ r.world.factors, f.values.Nodup := by
    intro f hf
    obtain ⟨_, _, hvalues⟩ := hmade f hf
    exact hvalues.values.nodup
  refine ⟨hstep.wellFormed hnodup, hmade, fun d e => hstep.declare_eq_error_iff,
    fun d e => declare_of_error, fun d id hd more => ?_, hstep.growsAll, hstep.declare_eq⟩
  have hstands := Universe.standsFor_of_declare (hstep.declare_eq_ok hd)
  exact hstands.grows ((hstep.declare d).growsAll more)

end Register

end Storyworld
