import Storyworld.Story.Lexeme

/-!
# Lexemes one at a time

A cursor stands in a story and gives one lexeme at each call.  A fault is given like
a token, and the next call goes on behind it.  At the end of the story every call
gives the end again.
-/

namespace Storyworld

/-- The lexeme behind all others, at the end of the story. -/
def Lexeme.closing (place : Nat) : Lexeme := ⟨.token .finish, ⟨place, place⟩⟩

/-- A place in a story. -/
structure Cursor where
  /-- The offset of the place. -/
  offset : Nat
  /-- The characters behind it. -/
  rest : List Char
deriving DecidableEq, Repr

namespace Cursor

/-- The cursor at the start of a story. -/
def start (source : String) : Cursor := ⟨0, source.toList⟩

/-- The next lexeme, and the cursor behind it. -/
def nextFrom (offset : Nat) : List Char → Lexeme × Cursor
  | [] => (.closing offset, ⟨offset, []⟩)
  | c :: cs =>
      let (found, more) := scan c cs
      let stop := offset + byteLength (c :: cs.take more)
      match found with
      | some node => (⟨node, ⟨offset, stop⟩⟩, ⟨stop, cs.drop more⟩)
      | none => nextFrom stop (cs.drop more)
termination_by cs => cs.length
decreasing_by exact length_drop_lt more c cs

/-- The next lexeme, and the cursor behind it. -/
def next (k : Cursor) : Lexeme × Cursor := nextFrom k.offset k.rest

/-- What a number of calls give, one after the other. -/
def answers : Nat → Cursor → List Lexeme
  | 0, _ => []
  | n + 1, k =>
      let (l, k) := k.next
      l :: answers n k

end Cursor

end Storyworld
