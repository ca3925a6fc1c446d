import Storyworld.Universe

/-!
# Universes that were built

A universe comes to be by declarations, from the one that declares nothing
(`Universe.Built`).  A refused declaration gives no universe, so only those that
succeed count.

What a declaration that succeeds does is said once (`addFactor_eq_ok_iff`,
`addTransition_eq_ok_iff`), and everything about built universes follows from it:
the handle of a factor or a transition is its place (`Built.factor_id`,
`Built.transition_id`), so handles find what they were given for
(`Built.transition?_id`), and names are not shared (`Built.labels_nodup`).  What was
declared once keeps its place (`Grows`).
-/

namespace Storyworld

namespace Universe

/-! ## One declaration -/

theorem findFactor?_eq_none_iff {u : Universe} {label : String} :
    u.findFactor? label = none ↔ label ∉ u.factors.map Factor.label := by
  rw [findFactor?, List.find?_eq_none, List.mem_map]
  constructor
  · intro h given
    obtain ⟨f, hf, rfl⟩ := given
    exact h f hf (beq_self_eq_true _)
  · intro h f hf heq
    exact h ⟨f, hf, eq_of_beq heq⟩

/-- A factor is declared if its name is new and it has a value. -/
theorem addFactor_eq_ok_iff {u u' : Universe} {label : String} {values : List Value}
    {id : FactorId} :
    u.addFactor label values = .ok (id, u') ↔
      label ∉ u.factors.map Factor.label ∧ id = ⟨u.factors.length⟩ ∧
      ∃ initial others, distinct values = initial :: others ∧
        u' = { u with factors := u.factors ++ [⟨id, label, initial, others⟩] } := by
  rw [addFactor, ← findFactor?_eq_none_iff]
  cases hf : u.findFactor? label with
  | some f => simp
  | none =>
      cases distinct values with
      | nil => simp
      | cons initial others =>
          simp only [Option.isSome_none, Bool.false_eq_true, ↓reduceIte, Except.ok.injEq,
            Prod.mk.injEq, true_and, List.cons.injEq]
          constructor
          · intro given
            obtain ⟨rfl, rfl⟩ := given
            exact ⟨rfl, _, _, ⟨rfl, rfl⟩, rfl⟩
          · intro given
            obtain ⟨rfl, _, _, ⟨rfl, rfl⟩, rfl⟩ := given
            exact ⟨rfl, rfl⟩

/-- A transition is declared if the factors it speaks of are. -/
theorem addTransition_eq_ok_iff {u u' : Universe} {label : String} {condition : Condition}
    {schedule : Schedule} {text : String} {effects : List (FactorId × Value)}
    {id : TransitionId} :
    u.addTransition label condition schedule text effects = .ok (id, u') ↔
      u.firstUnknown? condition (.ofList effects) = none ∧ id = ⟨u.transitions.length⟩ ∧
      u' = { u with
        transitions := u.transitions ++
          [⟨id, label, condition, schedule, text, .ofList effects⟩] } := by
  rw [addTransition]
  cases hf : u.firstUnknown? condition (.ofList effects) with
  | some f => simp
  | none =>
      simp only [Except.ok.injEq, Prod.mk.injEq, true_and]
      constructor
      · intro given
        obtain ⟨rfl, rfl⟩ := given
        exact ⟨rfl, rfl⟩
      · intro given
        obtain ⟨rfl, rfl⟩ := given
        exact ⟨rfl, rfl⟩

/-! ## All of them -/

/-- The universes that declarations build. -/
inductive Built : Universe → Prop where
  /-- Nothing is declared. -/
  | empty : Built .empty
  /-- A factor was declared. -/
  | factor {u u' : Universe} {label : String} {values : List Value} {id : FactorId} :
      Built u → u.addFactor label values = .ok (id, u') → Built u'
  /-- A transition was declared. -/
  | transition {u u' : Universe} {label : String} {condition : Condition} {schedule : Schedule}
      {text : String} {effects : List (FactorId × Value)} {id : TransitionId} :
      Built u → u.addTransition label condition schedule text effects = .ok (id, u') → Built u'

namespace Built

variable {u : Universe}

theorem getElem?_append_singleton {α : Type} {xs : List α} {x y : α} {i : Nat}
    (h : (xs ++ [x])[i]? = some y) : xs[i]? = some y ∨ i = xs.length ∧ y = x := by
  rw [List.getElem?_append] at h
  split at h
  · exact Or.inl h
  · next hi =>
      obtain ⟨hlt, heq⟩ := List.getElem?_eq_some_iff.mp h
      have hzero : i - xs.length = 0 := Nat.lt_one_iff.mp hlt
      exact Or.inr ⟨by omega, by simpa [hzero] using heq.symm⟩

/-- The handle of a transition is its place. -/
theorem transition_id (hu : u.Built) : ∀ {i : Nat} {t : Transition},
    u.transitions[i]? = some t → t.id = ⟨i⟩ := by
  induction hu with
  | empty => intro i t h; cases h
  | factor _ hadd ih =>
      obtain ⟨-, -, _, _, -, rfl⟩ := addFactor_eq_ok_iff.mp hadd
      exact ih
  | transition _ hadd ih =>
      obtain ⟨-, rfl, rfl⟩ := addTransition_eq_ok_iff.mp hadd
      intro i t h
      rcases getElem?_append_singleton h with h | ⟨rfl, rfl⟩
      · exact ih h
      · rfl

/-- The handle of a factor is its place. -/
theorem factor_id (hu : u.Built) : ∀ {i : Nat} {f : Factor},
    u.factors[i]? = some f → f.id = ⟨i⟩ := by
  induction hu with
  | empty => intro i f h; cases h
  | factor _ hadd ih =>
      obtain ⟨-, rfl, _, _, -, rfl⟩ := addFactor_eq_ok_iff.mp hadd
      intro i f h
      rcases getElem?_append_singleton h with h | ⟨rfl, rfl⟩
      · exact ih h
      · rfl
  | transition _ hadd ih =>
      obtain ⟨-, -, rfl⟩ := addTransition_eq_ok_iff.mp hadd
      exact ih

/-- No two factors share a name. -/
theorem labels_nodup (hu : u.Built) : (u.factors.map Factor.label).Nodup := by
  induction hu with
  | empty => exact .nil
  | factor _ hadd ih =>
      obtain ⟨hnew, -, _, _, -, rfl⟩ := addFactor_eq_ok_iff.mp hadd
      rw [List.map_append, List.nodup_append]
      refine ⟨ih, by simp, fun name hname other hother => ?_⟩
      rw [List.map_singleton, List.mem_singleton] at hother
      subst hother
      exact fun heq => hnew (heq ▸ hname)
  | transition _ hadd ih =>
      obtain ⟨-, -, rfl⟩ := addTransition_eq_ok_iff.mp hadd
      exact ih

/-- The handles of the transitions increase. -/
theorem transitions_ordered (hu : u.Built) :
    u.transitions.Pairwise fun t t' => t.id.index < t'.id.index := by
  rw [List.pairwise_iff_getElem]
  intro i j hi hj hij
  rw [hu.transition_id (List.getElem?_eq_getElem hi),
    hu.transition_id (List.getElem?_eq_getElem hj)]
  exact hij

/-- A transition is found by its handle. -/
theorem transition?_id (hu : u.Built) {t : Transition} (ht : t ∈ u.transitions) :
    u.transition? t.id = some t := by
  obtain ⟨i, hi⟩ := List.mem_iff_getElem?.mp ht
  rw [transition?, hu.transition_id hi]
  exact hi

/-- A factor is found by its handle. -/
theorem factor?_id (hu : u.Built) {f : Factor} (hf : f ∈ u.factors) : u.factor? f.id = some f := by
  obtain ⟨i, hi⟩ := List.mem_iff_getElem?.mp hf
  rw [factor?, hu.factor_id hi]
  exact hi

/-- A factor is found by its name. -/
theorem findFactor?_label (hu : u.Built) {f : Factor} (hf : f ∈ u.factors) :
    u.findFactor? f.label = some f := by
  have hdistinct : u.factors.Pairwise fun f g => f.label ≠ g.label :=
    List.pairwise_map.mp hu.labels_nodup
  obtain ⟨before, after, hsplit⟩ := List.append_of_mem hf
  rw [hsplit] at hdistinct
  have hbefore : before.find? (fun g => g.label == f.label) = none :=
    List.find?_eq_none.mpr fun g hg heq =>
      (List.pairwise_append.mp hdistinct).2.2 g hg f List.mem_cons_self (eq_of_beq heq)
  rw [findFactor?, hsplit, List.find?_append, hbefore, Option.none_or]
  exact List.find?_cons_of_pos (beq_self_eq_true f.label)

end Built

/-! ## Growing -/

/-- A universe that has what another has, at the same places, and perhaps more behind it. -/
structure Grows (u u' : Universe) : Prop where
  /-- The factors. -/
  factors : u.factors <+: u'.factors
  /-- The transitions. -/
  transitions : u.transitions <+: u'.transitions

namespace Grows

variable {u u' u'' : Universe}

theorem refl (u : Universe) : u.Grows u := ⟨List.prefix_refl _, List.prefix_refl _⟩

theorem trans (h : u.Grows u') (h' : u'.Grows u'') : u.Grows u'' :=
  ⟨h.factors.trans h'.factors, h.transitions.trans h'.transitions⟩

theorem getElem?_of_prefix {α : Type} {xs ys : List α} (h : xs <+: ys) {i : Nat} {x : α}
    (hx : xs[i]? = some x) : ys[i]? = some x := by
  obtain ⟨more, rfl⟩ := h
  rw [List.getElem?_append_left (List.getElem?_eq_some_iff.mp hx).1, hx]

/-- A handle finds the same factor again. -/
theorem factor? (h : u.Grows u') {id : FactorId} {f : Factor} (hf : u.factor? id = some f) :
    u'.factor? id = some f := getElem?_of_prefix h.factors hf

/-- A handle finds the same transition again. -/
theorem transition? (h : u.Grows u') {id : TransitionId} {t : Transition}
    (ht : u.transition? id = some t) : u'.transition? id = some t :=
  getElem?_of_prefix h.transitions ht

end Grows

theorem addFactor_grows {u u' : Universe} {label : String} {values : List Value} {id : FactorId}
    (h : u.addFactor label values = .ok (id, u')) : u.Grows u' := by
  obtain ⟨-, -, _, _, -, rfl⟩ := addFactor_eq_ok_iff.mp h
  exact ⟨List.prefix_append _ _, List.prefix_refl _⟩

theorem addTransition_grows {u u' : Universe} {label : String} {condition : Condition}
    {schedule : Schedule} {text : String} {effects : List (FactorId × Value)}
    {id : TransitionId} (h : u.addTransition label condition schedule text effects = .ok (id, u')) :
    u.Grows u' := by
  obtain ⟨-, -, rfl⟩ := addTransition_eq_ok_iff.mp h
  exact ⟨List.prefix_refl _, List.prefix_append _ _⟩

/-- Looking up the handles of declared transitions gives these transitions. -/
theorem filterMap_transition? {u : Universe} {ts : List Transition}
    (hts : ∀ t ∈ ts, u.transition? t.id = some t) :
    (ts.map Transition.id).filterMap u.transition? = ts := by
  induction ts with
  | nil => rfl
  | cons t ts ih =>
      obtain ⟨ht, hrest⟩ := List.forall_mem_cons.mp hts
      rw [List.map_cons, List.filterMap_cons_some ht, ih hrest]

end Universe

end Storyworld
