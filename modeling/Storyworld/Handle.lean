/-!
# Handles

Factors, transitions and moments are numbered from zero in the order in which
they come to be, and spoken of by these numbers.  A handle says nothing about
whether there is a thing of that number; asking for it answers that.
-/

namespace Storyworld

/-- A handle of a factor: its number in the order of declaration. -/
structure FactorId where
  /-- The number, from zero. -/
  index : Nat
deriving DecidableEq, Repr, Inhabited

/-- A handle of a transition: its number in the order of declaration. -/
structure TransitionId where
  /-- The number, from zero. -/
  index : Nat
deriving DecidableEq, Repr, Inhabited

/-- A handle of a moment: its number in the order in which moments come to be. -/
structure MomentId where
  /-- The number, from zero. -/
  index : Nat
deriving DecidableEq, Repr, Inhabited

/-- The handle of a factor as messages show it. -/
def FactorId.display (id : FactorId) : String := s!"#{id.index}"

/-- The handle of a transition as messages show it. -/
def TransitionId.display (id : TransitionId) : String := s!"#{id.index}"

/-- The handle of a moment as messages show it. -/
def MomentId.display (id : MomentId) : String := s!"@{id.index}"

end Storyworld
