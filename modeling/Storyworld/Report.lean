import Storyworld.Diagnostic
import Storyworld.Report.Lines
import Storyworld.Text.Painted
import Storyworld.Text.Split

/-!
# Reports

A report shows a diagnostic to the author: the headline, the lines of the source
that the diagnostic is about in a frame, a label drawn at the place, and the note.

The two ends of a span are byte offsets everywhere else in this library.  A
report takes the same two numbers as places counted in characters.  In a source
of ASCII characters that is the same thing; behind others the place shown lies
further on, and if it lies behind the end of the source the report has a headline
only.

A place within one line is underlined, with a mark at its middle from which the
label hangs.  A place over several lines is an arrow from its first line to its
last with the label under that, and the lines in between are left out.
-/

namespace Storyworld

/-- The place a report is about, in characters, and what it says there. -/
structure Marked where
  /-- The first character. -/
  start : Nat
  /-- The place behind the last character. -/
  stop : Nat
  /-- The ink of the marks. -/
  ink : Ink
  /-- What stands at the place. -/
  label : String

namespace Marked

/-! ## Frames -/

/-- Spaces. -/
def spaces (n : Nat) : String := String.ofList (List.replicate n ' ')

/-- A character repeated. -/
def run (n : Nat) (c : Char) : String := String.ofList (List.replicate n c)

/-- The margin beside lines without a number, for numbers of so many digits. -/
def margin (digits : Nat) : Painting := [bare (spaces (digits + 2)), ⟨.gutter, "│"⟩, bare " "]

/-- The margin beside a line with a number. -/
def numbered (digits number : Nat) : Painting :=
  let text := toString number
  [⟨.frame, " " ++ spaces (digits - text.length) ++ text ++ " │"⟩, bare " "]

/-- A line of the source.  What is meant has the ink of the marks. -/
def sourceText (m : Marked) (l : SourceLine) : Painting :=
  l.shown.zipIdx.map fun (c, place) =>
    let meant := decide (m.start ≤ l.start + place) && decide (l.start + place < m.stop)
    ⟨if meant then m.ink else .context, SourceLine.drawn place c⟩

/-- A cell: a character, and another for each further column. -/
def cell (width : Nat) (first others : Char) : String :=
  match width with
  | 0 => ""
  | n + 1 => String.ofList (first :: List.replicate n others)

/-! ## One line -/

/-- The place from which the label hangs. -/
def middle (m : Marked) : Nat := max ((m.start + m.stop) / 2) m.start

/-- The marks under the line: a line under what is meant, with a knot at its middle. -/
def underline (m : Marked) (l : SourceLine) : String :=
  String.join ((l.cells (m.stop - l.start + 2)).zipIdx.map fun (width, i) =>
    let place := l.start + i
    let meant := decide (m.start ≤ place) && decide (place < m.stop)
    if place = m.middle then
      if meant then cell width '┬' '─' else cell width '│' ' '
    else if meant then cell width '─' '─' else cell width ' ' ' ')

/-- The hook from the middle to the label. -/
def hook (m : Marked) (l : SourceLine) : String :=
  String.join ((l.cells (m.stop - l.start + 2)).zipIdx.map fun (width, i) =>
    let place := l.start + i
    if place < m.middle then cell width ' ' ' '
    else if place = m.middle then cell width '╰' '─' else cell width '─' '─')

/-- The lines of a report about a place within one line.  If the place reaches beyond
the line nothing of it is shown. -/
def oneLine (m : Marked) (digits number : Nat) (l : SourceLine) : List Painting :=
  if l.stop < m.stop then [margin digits]
  else
    [numbered digits number ++ m.sourceText l,
     margin digits ++ [⟨m.ink, m.underline l⟩],
     margin digits ++ [⟨m.ink, m.hook l⟩, bare (" " ++ m.label)]]

/-! ## Several lines -/

/-- The lines of a report about a place from one line to a later one.  If the place reaches
beyond the last line, that line is left out with those in between, and the label with it. -/
def severalLines (m : Marked) (digits first last : Nat) (l k : SourceLine) : List Painting :=
  let width := (k.cells (k.chars.length + 2)).foldl (· + ·) 0
  let ends := decide (m.stop ≤ k.stop)
  let skipped : List Painting :=
    if !ends || decide (first + 1 < last) then
      [[bare (spaces (digits + 2)), ⟨.gutter, "┆"⟩, bare " ", ⟨m.ink, "┆"⟩, bare "   "]]
    else []
  let arrow : List Painting :=
    if ends then
      [numbered digits last ++ ⟨m.ink, "├─▶ "⟩ :: m.sourceText k,
       margin digits ++ [⟨m.ink, "│   " ++ spaces width⟩],
       margin digits ++ [⟨m.ink, "╰───" ++ run width '─'⟩, bare (" " ++ m.label)]]
    else []
  [numbered digits first ++ ⟨m.ink, "╭─▶ "⟩ :: m.sourceText l] ++ skipped ++ arrow

end Marked

/-! ## The whole report -/

namespace Diagnostic

/-- The ink of a diagnostic. -/
def ink (d : Diagnostic) : Ink :=
  match d.severity with
  | .error => .error
  | .warning => .warning

/-- The word for a diagnostic. -/
def word (d : Diagnostic) : String :=
  match d.severity with
  | .error => "Error:"
  | .warning => "Warning:"

/-- The lines of a note.  A line end may have a carriage return before its line feed,
and behind the last line end no line begins. -/
def textLines (text : String) : List String :=
  let parts := splitAtEach '\n' text.toList
  let ended := parts.dropLast.map fun line =>
    if line.getLast? = some '\r' then line.dropLast else line
  (ended ++ parts.getLast?.toList.filter fun line => !line.isEmpty).map String.ofList

/-- The lines of a note, each behind the margin of the report. -/
def noteLines (margin : Painting) (note : String) : List Painting :=
  match textLines note with
  | first :: others =>
      margin :: (margin ++ [⟨.hint, "Note:"⟩, bare (" " ++ first)]) ::
        others.map fun line => margin ++ [bare (Marked.spaces 6 ++ line)]
  | [] => [margin]

/-- The lines, by number from zero, where the place of a diagnostic begins and where it
ends, if the source has them.  An empty place ends in the line where it begins. -/
def lineRange? (lines : List SourceLine) (d : Diagnostic) : Option (Nat × Nat) := do
  let first ← lineAt? lines d.span.start
  let last ← if d.span.start < d.span.stop then lineAt? lines (d.span.stop - 1) else some first
  return (first, last)

/-- The line and column that a report gives for a diagnostic. -/
def location? (lines : List SourceLine) (d : Diagnostic) : Option Position := do
  let (first, _) ← d.lineRange? lines
  let l ← lines[first]?
  return ⟨first + 1, d.span.start - l.start + 1⟩

/-- The frame of a report, if its place lies within the source. -/
def framed? (filename : String) (lines : List SourceLine) (d : Diagnostic) :
    Option (List Painting) := do
  let (first, last) ← d.lineRange? lines
  let position ← d.location? lines
  let l ← lines[first]?
  let k ← lines[last]?
  let m : Marked := ⟨d.span.start, d.span.stop, d.ink, d.label.getD d.message⟩
  let digits := (toString (last + 1)).length
  let head : List Painting :=
    [[bare (Marked.spaces (digits + 2)), ⟨.frame, "╭─["⟩,
      bare s!" {filename}:{position.display} ", ⟨.frame, "]"⟩],
     [bare (Marked.spaces (digits + 2)), ⟨.frame, "│"⟩]]
  let body :=
    if first = last then m.oneLine digits (first + 1) l
    else m.severalLines digits (first + 1) (last + 1) l k
  let beside : Painting :=
    if first = last then []
    else if lines.head?.map (·.chars.length) = some m.start then [⟨m.ink, "│"⟩, bare "   "]
    else [bare "    "]
  let notes := (d.note.map (noteLines (Marked.margin digits ++ beside))).getD []
  return head ++ body ++ notes ++ [[⟨.frame, Marked.run (digits + 2) '─' ++ "╯"⟩]]

/-- The report of a diagnostic about a source. -/
def report (filename : String) (source : String) (d : Diagnostic) : Painting :=
  let headline : Painting := [⟨d.ink, d.word⟩, bare (" " ++ d.message)]
  let lines := headline :: (d.framed? filename (sourceLines source.toList)).getD []
  lines.flatMap fun line => line ++ [bare "\n"]

/-- The reports of several diagnostics about a source, one after another. -/
def reports (filename source : String) (ds : List Diagnostic) : Painting :=
  ds.flatMap (report filename source)

end Diagnostic

end Storyworld
