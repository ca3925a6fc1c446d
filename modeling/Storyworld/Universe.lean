import Storyworld.ModelError
import Storyworld.Transition

/-!
# The universe of a story

A universe is everything a story declares: its factors and its transitions, each
in the order of declaration.  The handle of each is its place in that order.

A universe is built by `addFactor` and `addTransition`.  A call that is refused
gives no universe, so the one before it stays as it was.  A transition may speak
only of factors that are declared already.
-/

namespace Storyworld

/-! ## Factors and transitions -/

/-- The factors and transitions of a story. -/
structure Universe where
  /-- The factors, in the order of declaration. -/
  factors : List Factor
  /-- The transitions, in the order of declaration. -/
  transitions : List Transition
deriving Repr

namespace Universe

/-- The universe that declares nothing. -/
def empty : Universe := ⟨[], []⟩

/-- The factor with a handle. -/
def factor? (u : Universe) (id : FactorId) : Option Factor := u.factors[id.index]?

/-- The transition with a handle. -/
def transition? (u : Universe) (id : TransitionId) : Option Transition := u.transitions[id.index]?

/-- The factor with a name. -/
def findFactor? (u : Universe) (label : String) : Option Factor :=
  u.factors.find? fun f => f.label == label

/-- The first transition with a label. -/
def findTransition? (u : Universe) (label : String) : Option Transition :=
  u.transitions.find? fun t => t.label == label

/-- What every session starts with: each factor at its initial value. -/
def initial (u : Universe) : Snapshot := ⟨u.factors.map Factor.initial⟩

/-! ## Declaring -/

/-- Declare a factor.  Its first value is the initial one, and a value listed again
counts where it stood first. -/
def addFactor (u : Universe) (label : String) (values : List Value) :
    Except ModelError (FactorId × Universe) :=
  if (u.findFactor? label).isSome then .error (.duplicateFactor label)
  else match distinct values with
    | [] => .error (.emptyFactor label)
    | initial :: others =>
        let id : FactorId := ⟨u.factors.length⟩
        .ok (id, { u with factors := u.factors ++ [⟨id, label, initial, others⟩] })

/-- The first factor that is not declared, among those a condition tests in the order
of its tests, and then among those the effects change in their order. -/
def firstUnknown? (u : Universe) (condition : Condition) (effects : Effects) : Option FactorId :=
  (condition.tests.map (·.1) ++ effects.factors).find? fun f => (u.factor? f).isNone

/-- Declare a transition.  Of several effects on one factor the last counts. -/
def addTransition (u : Universe) (label : String) (condition : Condition) (schedule : Schedule)
    (text : String) (effects : List (FactorId × Value)) :
    Except ModelError (TransitionId × Universe) :=
  let effects := Effects.ofList effects
  match u.firstUnknown? condition effects with
  | some f => .error (.unknownFactor f)
  | none =>
      let id : TransitionId := ⟨u.transitions.length⟩
      .ok (id, { u with
        transitions := u.transitions ++ [⟨id, label, condition, schedule, text, effects⟩] })

/-! ## Writing -/

/-- A universe is written with its factors. -/
def display (u : Universe) : String :=
  "Universe[" ++ ", ".intercalate (u.factors.map Factor.display) ++ "]"

end Universe

/-! ## Tests -/

example : ((Universe.empty.addFactor "a" []).map (·.1)).toOption = none := by decide
example : (Universe.empty.addFactor "a" [⟨"x"⟩, ⟨"x"⟩, ⟨"y"⟩]).toOption.map (·.2.factors)
    = some [⟨⟨0⟩, "a", ⟨"x"⟩, [⟨"y"⟩]⟩] := by decide

end Storyworld
