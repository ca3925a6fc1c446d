import Storyworld.Command.Load
import Storyworld.Outline

/-!
# Exporting a story

The command compiles a story and gives its outline as JSON, on the output or in a
file.  Saving the file is left to the caller, who says how it went.
-/

namespace Storyworld

/-- What exporting a story says, and the outline or why there is none. -/
def StoryFile.outlineText (f : StoryFile) : Painting × Except String String :=
  match f.load with
  | (err, .ok c) => (err, .ok c.outline.json.pretty)
  | (err, .error reason) => (err, .error reason)

/-- A file to export to, and whether saving the outline there succeeded. -/
structure Saved where
  /-- The name of the file. -/
  path : String
  /-- Whether saving succeeded, or why not. -/
  result : Except String Unit

/-- Export a story: to the output, or to a file where it was saved. -/
def StoryFile.export (f : StoryFile) (saved : Option Saved) : CommandOutcome :=
  match f.outlineText, saved with
  | (err, .error reason), _ => ⟨"", err, .error reason⟩
  | (err, .ok text), none => ⟨text ++ "\n", err, .ok ()⟩
  | (err, .ok _), some ⟨path, .ok ()⟩ => ⟨s!"  Exported to {path}\n", err, .ok ()⟩
  | (err, .ok _), some ⟨path, .error reason⟩ =>
      ⟨"", err, .error s!"cannot write to {path}: {reason}"⟩

end Storyworld
