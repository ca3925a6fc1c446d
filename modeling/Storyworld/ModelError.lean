import Storyworld.Handle

/-!
# Refusals

Declaring a factor or a transition and moving through a session can be refused,
and these are the reasons.  A refused call changes nothing.
-/

namespace Storyworld

/-- Why a universe or a session refuses what it is asked. -/
inductive ModelError where
  /-- A factor with this name is declared already. -/
  | duplicateFactor (label : String)
  /-- The factor is declared without values. -/
  | emptyFactor (label : String)
  /-- There is no factor with this handle. -/
  | unknownFactor (id : FactorId)
  /-- There is no transition with this handle. -/
  | unknownTransition (id : TransitionId)
  /-- The session has no moment with this handle, or no longer. -/
  | unknownMoment (id : MomentId)
deriving DecidableEq, Repr

/-- What a refusal says. -/
def ModelError.message : ModelError → String
  | .duplicateFactor label => s!"factor already declared: \"{label}\""
  | .emptyFactor label => s!"factor \"{label}\" declares no values"
  | .unknownFactor id => s!"unknown factor: {id.display}"
  | .unknownTransition id => s!"unknown transition: {id.display}"
  | .unknownMoment id => s!"moment {id.display} is not part of this history"

end Storyworld
