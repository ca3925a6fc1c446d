import Storyworld.Report
import Storyworld.Story.Compile

/-!
# Loading a story

Every command begins by reading and compiling a story file.  What the author
should know goes to the error output: a report for each diagnostic and a line
that counts them.  Nothing is written when there is nothing to say.

The contents of the file are given, or the reason why there are none.
-/

namespace Storyworld

/-- A story file as it was found. -/
structure StoryFile where
  /-- The name it was asked for by. -/
  name : String
  /-- What it contains, or why it could not be read. -/
  contents : Except String String

/-- What a command writes, and whether it succeeds. -/
structure CommandOutcome where
  /-- What it writes to the output. -/
  out : String
  /-- What it writes to the error output. -/
  err : Painting
  /-- Whether it succeeds, or why not. -/
  result : Except String Unit

namespace Diagnostic

/-- A number of things. -/
def countOf (n : Nat) (thing : String) : String :=
  s!"{n} {thing}" ++ (if n = 1 then "" else "s")

/-- The line that counts diagnostics.  Warnings are counted beside errors even if
there are none. -/
def countLine (ds : List Diagnostic) : String :=
  let errors := ds.countP isError
  let warnings := countOf (ds.length - errors) "warning"
  if errors = 0 then s!"  {warnings}\n"
  else
    let errors := countOf errors "error"
    s!"  {errors}, {warnings}\n"

/-- The reports of diagnostics and their count. -/
def announcement (filename source : String) (ds : List Diagnostic) : Painting :=
  if ds.isEmpty then [] else reports filename source ds ++ [bare (countLine ds)]

end Diagnostic

/-- What loading a story says, and the compiled story or why there is none. -/
def StoryFile.load (f : StoryFile) : Painting × Except String Compilation :=
  match f.contents with
  | .error reason => ([], .error s!"cannot read {f.name}: {reason}")
  | .ok source =>
      match compile source with
      | .ok c => (Diagnostic.announcement f.name source c.warnings, .ok c)
      | .error e =>
          (Diagnostic.announcement f.name source [e.diagnostic],
            .error "compilation failed with errors")

end Storyworld
