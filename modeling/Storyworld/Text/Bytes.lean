/-!
# Text from bytes

Stories and the player's lines come as bytes and are read as UTF-8.  Input is
taken line by line, each decoded by itself, so bytes that are no text do harm
only when their line is reached.
-/

namespace Storyworld

/-- What is said of bytes that are no text. -/
def notText : String := "stream did not contain valid UTF-8"

/-- The text of bytes. -/
def decodeText (bytes : List UInt8) : Except String String :=
  match String.fromUTF8? ⟨bytes.toArray⟩ with
  | some s => .ok s
  | none => .error notText

/-- The byte of a line feed. -/
def lineFeed : UInt8 := 10

/-- The lines of bytes, each with its line feed, given the bytes of the line that is
continued, last first.  The last line may have no line feed. -/
def byteLines : List UInt8 → List UInt8 → List (List UInt8)
  | [], [] => []
  | line, [] => [line.reverse]
  | line, b :: bs =>
      if b = lineFeed then (b :: line).reverse :: byteLines [] bs else byteLines (b :: line) bs

/-- The lines of an input. -/
def inputLines (bytes : List UInt8) : List (Except String String) :=
  (byteLines [] bytes).map decodeText

/-! ## Tests -/

example : byteLines [] [97, 10, 98] = [[97, 10], [98]] := by decide

end Storyworld
