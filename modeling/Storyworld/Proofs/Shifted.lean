import Storyworld.Proofs.Scope

/-!
# Declarations further on

Handles are places, so declarations that come behind others have greater ones.  Everything that
speaks of factors is *shifted* by their number (`Condition.shift`, `Effects.shift`,
`Transition.shift`), and places in a text by the length of what stands before.

`Universe.followedBy` is one universe with the declarations of another behind its own.  If the
names of the factors do not clash, declaring something there amounts to declaring it in the
other universe alone, and shifting (`addFactor_followedBy`, `addTransition_followedBy`).  The
order of the entries of effects is that of the handles, which a shift keeps
(`Effects.ofList_shift`).
-/

namespace Storyworld

/-! ## Shifting -/

/-- The handle of a factor behind so many others. -/
def FactorId.shift (n : Nat) (f : FactorId) : FactorId := ⟨n + f.index⟩

/-- The handle of a transition behind so many others. -/
def TransitionId.shift (n : Nat) (t : TransitionId) : TransitionId := ⟨n + t.index⟩

theorem FactorId.shift_inj {n : Nat} {f g : FactorId} : f.shift n = g.shift n ↔ f = g := by
  rw [shift, shift, FactorId.mk.injEq, Nat.add_right_inj]
  exact ⟨fun h => congrArg FactorId.mk h, congrArg _⟩

/-- A factor and a value, with the handle shifted. -/
def shiftPair (n : Nat) (p : FactorId × Value) : FactorId × Value := (p.1.shift n, p.2)

namespace Condition

mutual

/-- A condition with the factors it tests shifted. -/
def shift (n : Nat) : Condition → Condition
  | .holds f v => .holds (f.shift n) v
  | .all cs => .all (shiftAll n cs)
  | .any cs => .any (shiftAll n cs)

/-- Conditions with the factors they test shifted. -/
def shiftAll (n : Nat) : List Condition → List Condition
  | [] => []
  | c :: cs => shift n c :: shiftAll n cs

end

mutual

theorem tests_shift (n : Nat) : ∀ c : Condition, (c.shift n).tests = c.tests.map (shiftPair n)
  | .holds _ _ => rfl
  | .all cs => testsOfList_shiftAll n cs
  | .any cs => testsOfList_shiftAll n cs

theorem testsOfList_shiftAll (n : Nat) : ∀ cs : List Condition,
    testsOfList (shiftAll n cs) = (testsOfList cs).map (shiftPair n)
  | [] => rfl
  | c :: cs => by
      rw [shiftAll, testsOfList, testsOfList, tests_shift n c, testsOfList_shiftAll n cs,
        List.map_append]

end

end Condition

namespace Effects

/-- Effects with the factors they change shifted. -/
def shift (n : Nat) (e : Effects) : Effects := ⟨e.entries.map (shiftPair n)⟩

theorem factors_shift (n : Nat) (e : Effects) :
    (e.shift n).factors = e.factors.map (FactorId.shift n) := by
  rw [factors, factors, shift, List.map_map, List.map_map]
  rfl

theorem place_shift (n : Nat) (f : FactorId) (v : Value) (es : List (FactorId × Value)) :
    place (f.shift n) v (es.map (shiftPair n)) = (place f v es).map (shiftPair n) := by
  induction es with
  | nil => rfl
  | cons e es ih =>
      have hlt : (f.shift n).index < (e.1.shift n).index ↔ f.index < e.1.index :=
        Nat.add_lt_add_iff_left
      simp only [List.map_cons, shiftPair, place, hlt, FactorId.shift_inj]
      split
      · rfl
      · split
        · rfl
        · rw [List.map_cons, ← ih]
          rfl

/-- Shifted pairs are kept in the order of the pairs. -/
theorem ofList_shift (n : Nat) (ps : List (FactorId × Value)) :
    ofList (ps.map (shiftPair n)) = (ofList ps).shift n := by
  induction ps using List.reverseRecOn with
  | nil => rfl
  | append_singleton ps p ih =>
      rw [List.map_append, List.map_singleton, ofList_concat, ofList_concat, ih]
      exact congrArg Effects.mk (place_shift n p.1 p.2 (ofList ps).entries)

end Effects

/-- A factor with its handle shifted. -/
def Factor.shift (n : Nat) (f : Factor) : Factor := { f with id := f.id.shift n }

/-- A transition behind so many factors and so many transitions. -/
def Transition.shift (factors transitions : Nat) (t : Transition) : Transition :=
  { t with
    id := t.id.shift transitions
    condition := t.condition.shift factors
    effects := t.effects.shift factors }

/-! ## One universe behind another -/

namespace Universe

variable {u u' : Universe}

/-- A universe, and behind its declarations those of another. -/
def followedBy (u u' : Universe) : Universe where
  factors := u.factors ++ u'.factors.map (Factor.shift u.factors.length)
  transitions := u.transitions ++
    u'.transitions.map (Transition.shift u.factors.length u.transitions.length)

theorem followedBy_empty (u : Universe) : u.followedBy .empty = u := by
  simp [followedBy, empty]

theorem names_followedBy (u u' : Universe) : (u.followedBy u').names = u.names ++ u'.names := by
  rw [names, followedBy, List.map_append, List.map_map]
  rfl

/-- A name that the first universe has not is looked up in the second. -/
theorem findFactor?_followedBy {name : String} (h : name ∉ u.names) :
    (u.followedBy u').findFactor? name =
      (u'.findFactor? name).map (Factor.shift u.factors.length) := by
  have hnone : u.factors.find? (fun f => f.label == name) = none :=
    findFactor?_eq_none_iff.mpr h
  rw [findFactor?, followedBy, List.find?_append, hnone, Option.none_or, List.find?_map]
  rfl

theorem factor?_followedBy (f : FactorId) :
    (u.followedBy u').factor? (f.shift u.factors.length) =
      (u'.factor? f).map (Factor.shift u.factors.length) := by
  rw [factor?, followedBy, FactorId.shift, List.getElem?_append_right (Nat.le_add_right ..),
    Nat.add_sub_cancel_left, List.getElem?_map]
  rfl

theorem firstUnknown?_followedBy (c : Condition) (e : Effects) :
    (u.followedBy u').firstUnknown? (c.shift u.factors.length) (e.shift u.factors.length) =
      (u'.firstUnknown? c e).map (FactorId.shift u.factors.length) := by
  have hfactors : ((c.shift u.factors.length).tests.map (·.1) ++
      (e.shift u.factors.length).factors) =
      (c.tests.map (·.1) ++ e.factors).map (FactorId.shift u.factors.length) := by
    rw [c.tests_shift, e.factors_shift, List.map_append, List.map_map, List.map_map]
    rfl
  rw [firstUnknown?, hfactors, List.find?_map]
  refine congrArg _ (congrArg (List.find? · _) (funext fun f => ?_))
  rw [Function.comp_apply, factor?_followedBy, Option.isNone_map]

/-- A factor whose name the first universe has not is declared as in the second. -/
theorem addFactor_followedBy {u'' : Universe} {name : String} {values : List Value} {id : FactorId}
    (hname : name ∉ u.names) (h : u'.addFactor name values = .ok (id, u'')) :
    (u.followedBy u').addFactor name values =
      .ok (id.shift u.factors.length, u.followedBy u'') := by
  obtain ⟨hnew, rfl, initial, others, hvalues, rfl⟩ := addFactor_eq_ok_iff.mp h
  refine addFactor_eq_ok_iff.mpr ⟨?_, ?_, initial, others, hvalues, ?_⟩
  · have hneither : name ∉ (u.followedBy u').names := by
      rw [names_followedBy, List.mem_append]
      exact not_or.mpr ⟨hname, hnew⟩
    exact hneither
  · rw [FactorId.shift, followedBy, List.length_append, List.length_map]
  · rw [followedBy, followedBy, List.map_append, ← List.append_assoc]
    rfl

/-- A transition is declared as in the second universe. -/
theorem addTransition_followedBy {u'' : Universe} {label : String} {c : Condition} {s : Schedule}
    {text : String} {ps : List (FactorId × Value)} {id : TransitionId}
    (h : u'.addTransition label c s text ps = .ok (id, u'')) :
    (u.followedBy u').addTransition label (c.shift u.factors.length) s text
        (ps.map (shiftPair u.factors.length)) =
      .ok (id.shift u.transitions.length, u.followedBy u'') := by
  obtain ⟨hknown, rfl, rfl⟩ := addTransition_eq_ok_iff.mp h
  refine addTransition_eq_ok_iff.mpr ⟨?_, ?_, ?_⟩
  · rw [Effects.ofList_shift, firstUnknown?_followedBy, hknown]
    rfl
  · rw [TransitionId.shift, followedBy, List.length_append, List.length_map]
  · rw [Effects.ofList_shift, followedBy, followedBy, List.map_append, ← List.append_assoc]
    rfl

end Universe

/-! ## Places further on -/

/-- A place in a text behind so many bytes. -/
def Span.shift (offset : Nat) (p : Span) : Span := ⟨offset + p.start, offset + p.stop⟩

/-- Something in a text behind so many bytes. -/
def Spanned.shift {α : Type} (offset : Nat) (x : Spanned α) : Spanned α :=
  ⟨x.node, x.span.shift offset⟩

/-- A text has the same lexemes wherever it begins. -/
theorem lexemesFrom_shift (offset start : Nat) (cs : List Char) :
    lexemesFrom (offset + start) cs = (lexemesFrom start cs).map (Spanned.shift offset) := by
  fun_induction lexemesFrom start cs with
  | case1 start =>
      rw [lexemesFrom]
      rfl
  | case2 start c cs more stop node hscan ih =>
      rw [lexemesFrom, hscan, List.map_cons, ← ih]
      simp only [stop, Spanned.shift, Span.shift, Nat.add_assoc]
  | case3 start c cs more stop hscan ih =>
      rw [lexemesFrom, hscan, ← ih]
      simp only [stop, Nat.add_assoc]

end Storyworld
