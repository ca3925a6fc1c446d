import Storyworld.Random.Generator

/-!
# Words given beforehand

A generator that repeats a list of 64-bit words for ever.  A draw of 32 bits
takes the low half of the next word.  With no words at all every draw is zero.
-/

namespace Storyworld

/-- The words, and how many have been drawn. -/
structure Replay where
  /-- The words that are repeated. -/
  words : Array UInt64
  /-- The number of draws so far. -/
  drawn : Nat := 0
deriving Repr

/-- The next word. -/
def Replay.next (r : Replay) : UInt64 × Replay :=
  ((r.words[r.drawn % r.words.size]?).getD 0, { r with drawn := r.drawn + 1 })

instance : Generator Replay where
  next32 r := let (w, r) := r.next; (w.toUInt32, r)
  next64 r := r.next

/-! ## Tests -/

example : (Random.unit (Replay.mk #[(1 : UInt64) <<< 63] 0)).1 = 2 ^ 52 := by decide
/-- Draws of zero exchange every element with the first. -/
example : (Random.shuffle [0, 1, 2, 3] (Replay.mk #[] 0)).1 = [3, 0, 1, 2] := by decide

end Storyworld
