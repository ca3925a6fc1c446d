/-!
# Painted text

Text for a terminal is a sequence of pieces, each in one ink.  The pieces carry
all there is to say, the text itself (`plain`), the inks in use (`codes`) and the
form with control sequences that a terminal understands (`painted`), so what is
written and how it is coloured can not disagree.
-/

namespace Storyworld

/-- The colour of a piece of text, or none. -/
inductive Ink where
  /-- No colour of its own. -/
  | plain
  /-- Red, for errors. -/
  | error
  /-- Yellow, for warnings. -/
  | warning
  /-- Grey, for the frame of a report and its line numbers. -/
  | frame
  /-- Darker grey, for the bars beside lines that have no number. -/
  | gutter
  /-- Light grey, for the text around the place that is meant. -/
  | context
  /-- Green, for hints. -/
  | hint
deriving DecidableEq, Repr

/-- The terminal's code for an ink. -/
def Ink.code? : Ink → Option String
  | .plain => none
  | .error => some "31"
  | .warning => some "33"
  | .frame => some "38;5;246"
  | .gutter => some "38;5;240"
  | .context => some "38;5;249"
  | .hint => some "38;5;115"

/-- The code that ends a colour. -/
def resetCode : String := "0"

/-- A text in one ink. -/
structure Piece where
  /-- The ink. -/
  ink : Ink
  /-- The text. -/
  text : String
deriving DecidableEq, Repr

/-- A text in several inks. -/
abbrev Painting := List Piece

/-- A text without a colour. -/
def bare (s : String) : Piece := ⟨.plain, s⟩

namespace Piece

/-- The codes that stand around a piece. -/
def codes (p : Piece) : List String := (p.ink.code?.map fun c => [c, resetCode]).getD []

/-- A piece with its control sequences. -/
def painted (p : Piece) : String :=
  match p.ink.code? with
  | some code => s!"\x1b[{code}m{p.text}\x1b[{resetCode}m"
  | none => p.text

end Piece

namespace Painting

/-- The text alone. -/
def plain (t : Painting) : String := String.join (t.map Piece.text)

/-- The text with control sequences. -/
def painted (t : Painting) : String := String.join (t.map Piece.painted)

/-- Put a text into a list in increasing order, unless it is there. -/
def insertCode (code : String) : List String → List String
  | [] => [code]
  | c :: cs =>
      if code = c then c :: cs
      else if code < c then code :: c :: cs
      else c :: insertCode code cs

/-- The codes in use, each once, in increasing order. -/
def codes (t : Painting) : List String := (t.flatMap Piece.codes).foldr insertCode []

/-! ## Tests -/

example : codes [⟨.warning, "a"⟩, bare "b", ⟨.frame, "c"⟩, ⟨.warning, "d"⟩]
    = ["0", "33", "38;5;246"] := by decide
example : plain [⟨.warning, "a"⟩, bare "b"] = "ab" := by decide

end Painting

end Storyworld
