import Std.Data.HashMap
import Storyworld.Universe

/-!
# Registers

A universe is built in a register, which keeps an index of the names beside the
factors and transitions.  A name is looked up in the index, and the handle that
stands there is then followed.  A handle that leads nowhere would be a fault of the
register, so it is an outcome of its own (`Lookup.dangling`).

Declaring changes a register in place.  A declaration is checked before anything is
changed, and every check reads the register as it is: the name in the index, the
factors a condition tests in one walk through the condition (`Condition.visit`), the
factors that are changed in the order of the effects.
-/

namespace Storyworld

/-! ## Visiting tests -/

namespace Condition

variable {S : Type}

mutual

/-- Show every test of a condition to a visitor, from left to right. -/
def visit (visitor : S → FactorId → Value → S) : Condition → S → S
  | .holds f v, s => visitor s f v
  | .all cs, s => visitAll visitor cs s
  | .any cs, s => visitAll visitor cs s

/-- Show every test of several conditions to a visitor, from left to right. -/
def visitAll (visitor : S → FactorId → Value → S) : List Condition → S → S
  | [], s => s
  | c :: cs, s => visitAll visitor cs (visit visitor c s)

end

end Condition

/-! ## Declarations -/

/-- What can be declared. -/
inductive Declaration where
  /-- A factor with its values. -/
  | factor (label : String) (values : List Value)
  /-- A transition. -/
  | transition (label : String) (condition : Condition) (schedule : Schedule) (text : String)
    (effects : List (FactorId × Value))

/-- The handle that a declaration is given. -/
inductive Declared where
  /-- That of a factor. -/
  | factor (id : FactorId)
  /-- That of a transition. -/
  | transition (id : TransitionId)
deriving DecidableEq, Repr

/-- Declare a factor or a transition in a universe. -/
def Universe.declare (u : Universe) : Declaration → Except ModelError (Declared × Universe)
  | .factor label values => (u.addFactor label values).map fun (id, u) => (.factor id, u)
  | .transition label condition schedule text effects =>
      (u.addTransition label condition schedule text effects).map fun (id, u) =>
        (.transition id, u)

/-! ## Registers -/

/-- A universe being built. -/
structure Register where
  /-- The factors and transitions declared so far. -/
  world : Universe
  /-- The handles of the factors by their names. -/
  byLabel : Std.HashMap String FactorId

/-- What looking up a name comes to. -/
inductive Lookup where
  /-- No factor has the name. -/
  | missing
  /-- The factor of the name. -/
  | found (f : Factor)
  /-- The index has a handle for the name, and there is no factor with the handle. -/
  | dangling (id : FactorId)
deriving DecidableEq, Repr

namespace Register

/-- The register in which nothing is declared. -/
def empty : Register := ⟨.empty, ∅⟩

/-- Look up a name. -/
def find (r : Register) (label : String) : Lookup :=
  match r.byLabel[label]? with
  | none => .missing
  | some id =>
      match r.world.factor? id with
      | some f => .found f
      | none => .dangling id

/-- Declare a factor. -/
def addFactor (r : Register) (label : String) (values : List Value) :
    Except ModelError FactorId × Register :=
  if r.byLabel.contains label then (.error (.duplicateFactor label), r)
  else match distinct values with
    | [] => (.error (.emptyFactor label), r)
    | initial :: others =>
        let id : FactorId := ⟨r.world.factors.length⟩
        let factor : Factor := ⟨id, label, initial, others⟩
        (.ok id, ⟨{ r.world with factors := r.world.factors ++ [factor] },
          r.byLabel.insert label id⟩)

/-- The first factor a condition tests that is not declared. -/
def firstUnknownTested? (r : Register) (condition : Condition) : Option FactorId :=
  condition.visit (fun unknown f _ =>
    if unknown.isNone && (r.world.factor? f).isNone then some f else unknown) none

/-- Declare a transition. -/
def addTransition (r : Register) (label : String) (condition : Condition) (schedule : Schedule)
    (text : String) (effects : List (FactorId × Value)) :
    Except ModelError TransitionId × Register :=
  let effects := Effects.ofList effects
  let unknownChanged? := effects.factors.find? fun f => (r.world.factor? f).isNone
  match (r.firstUnknownTested? condition).or unknownChanged? with
  | some f => (.error (.unknownFactor f), r)
  | none =>
      let id : TransitionId := ⟨r.world.transitions.length⟩
      let transition : Transition := ⟨id, label, condition, schedule, text, effects⟩
      (.ok id, { r with
        world := { r.world with transitions := r.world.transitions ++ [transition] } })

/-- Do a declaration. -/
def declare (r : Register) : Declaration → Except ModelError Declared × Register
  | .factor label values =>
      let (answer, r) := r.addFactor label values
      (answer.map .factor, r)
  | .transition label condition schedule text effects =>
      let (answer, r) := r.addTransition label condition schedule text effects
      (answer.map .transition, r)

/-- Do declarations one after the other, those that are refused included. -/
def declareAll (r : Register) : List Declaration → List (Except ModelError Declared) × Register
  | [] => ([], r)
  | d :: ds =>
      let (answer, r) := r.declare d
      let (answers, r) := r.declareAll ds
      (answer :: answers, r)

end Register

end Storyworld
