import Storyworld.Text.Span

/-!
# Diagnostics

A diagnostic is what the author of a story is told: a headline about a range of
the story, a label to stand at that range, and perhaps a note.  An error stops
the compilation and a warning does not.
-/

namespace Storyworld

/-- How grave a diagnostic is. -/
inductive Severity where
  | error | warning
deriving DecidableEq, Repr

/-- A message about a range of a story. -/
structure Diagnostic where
  /-- How grave it is. -/
  severity : Severity
  /-- The range. -/
  span : Span
  /-- The headline. -/
  message : String
  /-- What stands at the range, if not the headline. -/
  label : Option String := none
  /-- A hint at the end. -/
  note : Option String := none
deriving DecidableEq, Repr

namespace Diagnostic

/-- Whether the diagnostic stops the compilation. -/
def isError (d : Diagnostic) : Bool := d.severity == .error

/-- A diagnostic on one line. -/
def display (d : Diagnostic) : String :=
  match d.severity with
  | .error => "error: " ++ d.message
  | .warning => "warning: " ++ d.message

end Diagnostic

end Storyworld
