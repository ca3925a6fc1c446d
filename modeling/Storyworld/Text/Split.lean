/-!
# Splitting text

The parts of a text between the occurrences of one character.  There is one part
more than there are occurrences, so a text without any is one part, and the empty
text is one empty part.
-/

namespace Storyworld

/-- Put a character in front of the first part. -/
def extendFirst (c : Char) : List (List Char) → List (List Char)
  | [] => [[c]]
  | part :: parts => (c :: part) :: parts

/-- The parts of a text between the occurrences of a character. -/
def splitAtEach (separator : Char) : List Char → List (List Char)
  | [] => [[]]
  | c :: cs =>
      if c = separator then [] :: splitAtEach separator cs
      else extendFirst c (splitAtEach separator cs)

example : splitAtEach '\n' "a\n\nb".toList = [['a'], [], ['b']] := by decide

end Storyworld
