import Storyworld.Text.Blank
import Storyworld.Text.Width

/-!
# The lines of a source

A report shows lines of a source and marks places in them.  Here places are
counted in characters.  A line keeps its terminator, so the lines put together
are the source, and a source that ends in a terminator has no empty line after
it.

A shown line loses the white space at its end, and what is left of its white
space is drawn as spaces: a tab as many as lead to the next multiple of four,
counted in characters of the line.  Marks under a line are drawn in cells, one
for each character and as wide as it, with cells of one column behind the end.
-/

namespace Storyworld

/-- A line of a source. -/
structure SourceLine where
  /-- The place of its first character. -/
  start : Nat
  /-- Its characters, the terminator included. -/
  chars : List Char
deriving DecidableEq, Repr

/-- The place behind a line. -/
def SourceLine.stop (l : SourceLine) : Nat := l.start + l.chars.length

/-! ## Splitting a source -/

/-- Whether a character ends a line. -/
def endsLine (c : Char) : Bool :=
  c == '\n' || c == '\r' || c == '\x0b' || c == '\x0c' || c == '\x85' || c == '\u2028' ||
    c == '\u2029'

/-- The lines of the rest of a source, given the first characters of the line that the
rest continues, last first.  A carriage return and a line feed together end one
line. -/
def splitLines : List Char → List Char → List (List Char)
  | [], [] => []
  | line, [] => [line.reverse]
  | line, '\r' :: '\n' :: cs => ('\n' :: '\r' :: line).reverse :: splitLines [] cs
  | line, c :: cs =>
      if endsLine c then (c :: line).reverse :: splitLines [] cs else splitLines (c :: line) cs

/-- Lines with the places where they start. -/
def placeLines : Nat → List (List Char) → List SourceLine
  | _, [] => []
  | start, line :: lines => ⟨start, line⟩ :: placeLines (start + line.length) lines

/-- The lines of a source.  An empty source has one empty line. -/
def sourceLines (cs : List Char) : List SourceLine :=
  match splitLines [] cs with
  | [] => [⟨0, []⟩]
  | lines => placeLines 0 lines

/-- The number, from zero, of the line that holds a place, or of the last line if the
place is the end of the source. -/
def lineAt? (lines : List SourceLine) (place : Nat) : Option Nat :=
  let stop := (lines.getLast?.map SourceLine.stop).getD 0
  if stop < place then none
  else some ((lines.takeWhile fun l => decide (l.start ≤ place)).length - 1)

/-- Nothing of a source is lost by splitting it. -/
theorem flatten_splitLines (line cs : List Char) :
    (splitLines line cs).flatten = line.reverse ++ cs := by
  fun_induction splitLines line cs <;> simp_all

/-! ## Drawing a line -/

namespace SourceLine

/-- The characters of a line that are shown. -/
def shown (l : SourceLine) : List Char := trimEnd l.chars

/-- The distance of tab stops. -/
def tabStop : Nat := 4

/-- How many columns a character takes, by its place in the line. -/
def cellWidth (place : Nat) (c : Char) : Nat :=
  if c = '\t' then tabStop - place % tabStop else if isBlank c then 1 else charWidth c

/-- What is drawn for a character, by its place in the line. -/
def drawn (place : Nat) (c : Char) : String :=
  if isBlank c then String.ofList (List.replicate (cellWidth place c) ' ') else c.toString

/-- The widths of the first `n` cells under a line. -/
def cells (l : SourceLine) (n : Nat) : List Nat :=
  let widths := l.shown.zipIdx.map fun (c, place) => cellWidth place c
  widths.take n ++ List.replicate (n - widths.length) 1

end SourceLine

/-! ## Tests -/

example : (sourceLines "ab\r\nc\n\nd".toList).map SourceLine.start = [0, 4, 6, 7] := by
  decide +kernel
example : sourceLines "a\n".toList = [⟨0, ['a', '\n']⟩] := by decide +kernel
example : (lineAt? (sourceLines "a\nb".toList) 1, lineAt? (sourceLines "a\nb".toList) 3,
    lineAt? (sourceLines "a\nb".toList) 4) = (some 0, some 1, none) := by decide +kernel
example : (SourceLine.mk 0 "a\tb\n".toList).cells 5 = [1, 3, 1, 1, 1] := by decide +kernel

end Storyworld
