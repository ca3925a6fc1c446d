import Storyworld.Command.Load
import Storyworld.Story.Written
import Storyworld.Text.Grid

/-!
# Checking a story

The command compiles a story and says how much there is in it.  Asked for more,
it lists the factors and the transitions in grids.
-/

namespace Storyworld

/-- The factors of a universe. -/
def Universe.factorGrid (u : Universe) : Grid where
  headings := ["Factor", "Initial", "Values"]
  rows := u.factors.map fun f =>
    [f.label, f.initial.text, ", ".intercalate (f.values.map Value.text)]

/-- A schedule in a few words. -/
def Schedule.summary : Schedule → String
  | .spontaneous p => s!"spontaneous {p.write .plain}"
  | .chosen offer => s!"choice \"{offer}\""

/-- An effect in a few words. -/
def Universe.effectSummary (u : Universe) (w : FactorId × Value) : String :=
  u.labelOf w.1 ++ " -> " ++ w.2.text

/-- The transitions of a universe. -/
def Universe.transitionGrid (u : Universe) : Grid where
  headings := ["Transition", "Schedule", "Effects"]
  rows := u.transitions.map fun t =>
    [if t.label = "" then "(anonymous)" else t.label, t.schedule.summary,
     ", ".intercalate (t.effects.entries.map u.effectSummary)]

/-- What is said of a story that compiles. -/
def Compilation.summary (c : Compilation) (filename : String) (verbose : Bool) : String :=
  let factors := c.world.factors.length
  let transitions := c.world.transitions.length
  let blocks := c.descriptions.length
  let grids :=
    if verbose then
      "\n" ++ c.world.factorGrid.render ++ "\n" ++
        (if transitions = 0 then "" else c.world.transitionGrid.render ++ "\n")
    else ""
  s!"  All checks passed for '{filename}'.\n" ++
    s!"  {factors} factors, {transitions} transitions, {blocks} description blocks\n" ++ grids

/-- Check a story. -/
def StoryFile.check (f : StoryFile) (verbose : Bool) : CommandOutcome :=
  match f.load with
  | (err, .ok c) => ⟨c.summary f.name verbose, err, .ok ()⟩
  | (err, .error reason) => ⟨"", err, .error reason⟩

end Storyworld
