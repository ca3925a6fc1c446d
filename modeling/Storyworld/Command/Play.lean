import Storyworld.Command.Load
import Storyworld.Game
import Storyworld.Random.Stream

/-!
# Playing a story

The command compiles a story, says how to play it, and plays it with the lines of
the input.
-/

namespace Storyworld

/-- What is said before a game. -/
def greeting (filename : String) (seed : UInt64) : String :=
  s!"  Playing {filename}\n" ++
    s!"  Seed: {seed} | Type a number to choose, 'u' to undo, 'r' to redo.\n\n"

/-- The game of a compiled story, at its beginning. -/
def Compilation.game (c : Compilation) (settings : Settings) : Game Stream :=
  ⟨.start c.world settings, .ofSeed settings.seed⟩

/-- Play a story with the lines of an input. -/
def StoryFile.play (f : StoryFile) (settings : Settings) (lines : List (Except String String)) :
    CommandOutcome :=
  match f.load with
  | (err, .error reason) => ⟨"", err, .error reason⟩
  | (err, .ok c) =>
      let played := (c.game settings).play lines
      ⟨greeting f.name settings.seed ++ String.join (played.events.map Event.text), err,
        played.result⟩

end Storyworld
