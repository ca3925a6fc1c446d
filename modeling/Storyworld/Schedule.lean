import Storyworld.Number.Written
import Storyworld.Random.Generator

/-!
# Schedules

A transition that is possible happens either by itself, with some probability in
every pass, or when the player chooses it.

The probability is compared with a draw from the unit interval, both exactly.  A
draw can be zero, so a probability of zero is ruled out before the comparison,
and a probability of one or more always fires.  The draw is made in any case:
how many words a pass uses up does not depend on the probabilities.
-/

namespace Storyworld

/-- When a possible transition happens. -/
inductive Schedule where
  /-- By itself, with a probability in every pass. -/
  | spontaneous (probability : Binary64)
  /-- When the player takes what is offered. -/
  | chosen (offer : String)
deriving DecidableEq, Repr

namespace Schedule

/-- Whether a draw of `k · 2^-53` makes a transition of this probability happen. -/
def hits (probability : Binary64) (k : Nat) : Bool :=
  probability.isPositive && probability.atLeast k (-53)

/-- Decide whether a transition happens in this pass.  Only spontaneous ones draw. -/
def fires {G : Type} [Generator G] (s : Schedule) (g : G) : Bool × G :=
  match s with
  | .spontaneous p =>
      let (k, g) := Random.unit g
      (hits p k, g)
  | .chosen _ => (false, g)

/-- What the player is offered. -/
def offer? : Schedule → Option String
  | .spontaneous _ => none
  | .chosen offer => some offer

/-- Whether the player is offered the transition. -/
def isOffered (s : Schedule) : Bool := s.offer?.isSome

/-- The probability of a spontaneous transition. -/
def probability? : Schedule → Option Binary64
  | .spontaneous p => some p
  | .chosen _ => none

/-! ## Tests -/

/-- Zero never fires, not even on a draw of zero. -/
example : hits (.ofNat 0) 0 = false := by decide +kernel
example : hits (.ofNat 1) (2 ^ 53 - 1) = true := by decide +kernel
/-- A draw equal to the probability fires. -/
example : hits (.ofRatio 1 2) (2 ^ 52) = true ∧ hits (.ofRatio 1 2) (2 ^ 52 + 1) = false := by
  decide +kernel

end Schedule

end Storyworld
