import Storyworld.Condition
import Storyworld.Effects
import Storyworld.Schedule

/-!
# Transitions

A transition is a change that a story allows: in the states where its condition
holds it can happen as its schedule says, and then it overlays its effects on the
state and is told to the player with its text.
-/

namespace Storyworld

/-- A change that a story allows. -/
structure Transition where
  /-- Its handle. -/
  id : TransitionId
  /-- The author's name for it, empty if it has none. -/
  label : String
  /-- Where it can happen. -/
  condition : Condition
  /-- When it happens where it can. -/
  schedule : Schedule
  /-- What the player reads when it happens. -/
  text : String
  /-- What it changes. -/
  effects : Effects
deriving Repr

namespace Transition

/-- Whether a transition can happen in a state. -/
def isPossible (t : Transition) (s : Snapshot) : Bool := t.condition.evaluate s

/-- A transition is written in braces, with its label alone. -/
def display (t : Transition) : String := "\x7b" ++ t.label ++ "...\x7d"

end Transition

end Storyworld
