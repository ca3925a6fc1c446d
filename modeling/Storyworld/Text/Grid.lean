import Storyworld.Text.Columns
import Storyworld.Text.Split

/-!
# Grids

A grid is a table drawn with characters: a row of headings and then rows of
cells.  A text of several lines makes its row as many lines high.  Every column
is as wide as its widest line, with a space on both sides.
-/

namespace Storyworld

/-- A table of texts. -/
structure Grid where
  /-- The headings. -/
  headings : List String
  /-- The rows below them, each with a cell for every heading. -/
  rows : List (List String)
deriving Repr

namespace Grid

/-- The lines of a cell. -/
def cellLines (cell : String) : List (List Char) := splitAtEach '\n' cell.toList

/-- The number of columns of a terminal that a cell takes. -/
def cellWidth (cell : String) : Nat := ((cellLines cell).map columns).foldl max 0

/-- The greater of each pair, and what the longer list has beyond the shorter. -/
def maxima : List Nat → List Nat → List Nat
  | [], bs => bs
  | as, [] => as
  | a :: as, b :: bs => max a b :: maxima as bs

/-- The widths of the columns, without the spaces on both sides. -/
def widths (g : Grid) : List Nat :=
  (g.headings :: g.rows).foldl (fun ws row => maxima ws (row.map cellWidth)) []

/-- A horizontal line. -/
def rule (ends : Char) (stroke crossing : Char) (widths : List Nat) : List Char :=
  let strokes := widths.map fun w => List.replicate (w + 2) stroke
  ends :: [crossing].intercalate strokes ++ [ends]

/-- A line of a cell, filled up to the width of its column. -/
def filled (width : Nat) (line : List Char) : List Char :=
  ' ' :: line ++ List.replicate (width - columns line + 1) ' '

/-- The lines of a row. -/
def rowLines (widths : List Nat) (row : List String) : List (List Char) :=
  let cells := row.map cellLines
  let height := (cells.map List.length).foldl max 0
  (List.range height).map fun i =>
    let parts := (widths.zip cells).map fun (w, lines) => filled w ((lines[i]?).getD [])
    '|' :: ['|'].intercalate parts ++ ['|']

/-- The lines of a grid. -/
def lines (g : Grid) : List (List Char) :=
  let ws := g.widths
  let border := rule '+' '-' '+' ws
  let between := rule '|' '-' '+' ws
  let body := [between].intercalate (g.rows.map (rowLines ws))
  border :: rowLines ws g.headings ++ rule '+' '=' '=' ws :: body ++ [border]

/-- A grid as text, without a line end after its last line. -/
def render (g : Grid) : String := "\n".intercalate (g.lines.map String.ofList)

/-! ## Tests -/

example : (Grid.mk ["A", "B"] [["x", "1\n22"], ["", "3"]]).lines.map String.ofList =
    ["+---+----+",
     "| A | B  |",
     "+========+",
     "| x | 1  |",
     "|   | 22 |",
     "|---+----|",
     "|   | 3  |",
     "+---+----+"] := by decide +kernel

end Grid

end Storyworld
