import Storyworld.Diagnostic
import Storyworld.Number.Written
import Storyworld.Value

/-!
# Findings

A finding is something in a story that is allowed but looks like a mistake.  The
compiler collects findings, each with its place, in the order in which it comes
to them, and they are shown as warnings.
-/

namespace Storyworld

/-- Something that looks like a mistake. -/
inductive Finding where
  /-- A factor lists a value again. -/
  | repeatedValue (value : Value) (factor : String)
  /-- A condition tests for a value that the factor was not declared to hold. -/
  | neverHolds (factor : String) (value : Value)
  /-- An effect gives a factor a value that it was not declared to hold. -/
  | undeclaredValue (value : Value) (factor : String)
  /-- A probability is above one. -/
  | aboveOne (probability : Binary64)
deriving DecidableEq, Repr

namespace Finding

/-- The headline of a finding. -/
def message : Finding → String
  | .repeatedValue v f => s!"value `{v.text}` is listed twice for factor `{f}`"
  | .neverHolds f v => s!"comparison `{f} = {v.text}` can never hold"
  | .undeclaredValue v f => s!"value `{v.text}` is not declared for factor `{f}`"
  | .aboveOne p => s!"probability {p.write .plain} is above 1"

/-- What stands at the place of a finding. -/
def label : Finding → String
  | .repeatedValue .. => "duplicate ignored"
  | .neverHolds .. => "not one of the factor's values"
  | .undeclaredValue .. => "the factor will hold an invalid value"
  | .aboveOne .. => "this transition fires on every pass"

/-- The warning that shows a finding. -/
def diagnostic (w : Spanned Finding) : Diagnostic where
  severity := .warning
  span := w.span
  message := w.node.message
  label := some w.node.label

end Finding

end Storyworld
