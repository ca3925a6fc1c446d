/-!
# Values

A factor of a story holds one value at a time.  A value is an atom that is
compared by its text alone.  A number in a story is such an atom too: the value
`3` is the text of the digit.
-/

namespace Storyworld

/-- One of the things a factor can hold. -/
structure Value where
  /-- What it is called, and all that tells it from others. -/
  text : String
deriving DecidableEq, Repr, Inhabited

/-- The value whose text is the decimal form of an integer. -/
def Value.ofInt (n : Int) : Value := ⟨toString n⟩

/-- The order of values is that of their texts, character by character. -/
def Value.le (v w : Value) : Bool := decide (v.text ≤ w.text)

example : Value.ofInt (-7) = ⟨"-7"⟩ := by decide

end Storyworld
