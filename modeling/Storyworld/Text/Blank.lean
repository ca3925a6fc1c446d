import Storyworld.Text.CharSet

/-!
# White space

The characters that count as white space between words of a person: the blanks,
tabs and line ends of every script.  A line that a player types is trimmed of
them, and a source line shown in a report loses those at its end.  Story files
themselves are stricter: between their tokens only four characters are blank,
and that rule stands with the tokens.
-/

namespace Storyworld

/-- The white-space characters. -/
def blanks : CharSet where
  ranges :=
  [(0x9, 0xD), (0x20, 0x20), (0x85, 0x85), (0xA0, 0xA0), (0x1680, 0x1680), (0x2000, 0x200A),
   (0x2028, 0x2029), (0x202F, 0x202F), (0x205F, 0x205F), (0x3000, 0x3000)]

/-- Whether a character is white space. -/
def isBlank (c : Char) : Bool := blanks.contains c

/-- Characters without the white space at their front. -/
def trimStart (cs : List Char) : List Char := cs.dropWhile isBlank

/-- Characters without the white space at their end. -/
def trimEnd (cs : List Char) : List Char := (cs.reverse.dropWhile isBlank).reverse

/-- Characters without the white space at both ends. -/
def trim (cs : List Char) : List Char := trimEnd (trimStart cs)

/-! ## Tests -/

example : trim [' ', '\u3000', 'u', ' ', 'r', '\n'] = ['u', ' ', 'r'] := by decide
/-- The zero-width space is no white space. -/
example : isBlank '\u200b' = false := by decide

end Storyworld
