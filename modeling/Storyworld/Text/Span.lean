/-!
# Spans and positions

A story is a text, and everything said about it (a token, a warning, an error)
points into the text.  A *span* is a half-open range of byte offsets into the
UTF-8 form of the text.  A *position* is what a person reads: a line and a
column, both counted from one, the column in characters.

`Position.locate` turns an offset into a position.  It walks the characters that
end at or before the offset (`charsBefore`) and moves a position over each of
them.  So an offset inside a character stands for the start of that character,
and an offset past the end stands for the end; no case is special.
-/

namespace Storyworld

/-! ## Spans -/

/-- A half-open range of byte offsets into a text. -/
structure Span where
  /-- The offset of the first byte. -/
  start : Nat
  /-- The offset behind the last byte. -/
  stop : Nat
deriving DecidableEq, Repr, Inhabited

/-- A value paired with the range of the text it came from. -/
structure Spanned (α : Type) where
  /-- The value. -/
  node : α
  /-- Where it came from. -/
  span : Span
deriving DecidableEq, Repr, Inhabited

/-- The same place with another value. -/
def Spanned.map {α β : Type} (f : α → β) (s : Spanned α) : Spanned β := ⟨f s.node, s.span⟩

/-! ## The size of a text -/

/-- The number of bytes that characters take in UTF-8. -/
def byteLength : List Char → Nat
  | [] => 0
  | c :: cs => c.utf8Size + byteLength cs

@[simp] theorem byteLength_nil : byteLength [] = 0 := rfl

@[simp] theorem byteLength_cons (c : Char) (cs : List Char) :
    byteLength (c :: cs) = c.utf8Size + byteLength cs := rfl

@[simp] theorem byteLength_append (a b : List Char) :
    byteLength (a ++ b) = byteLength a + byteLength b := by
  induction a with
  | nil => simp
  | cons c a ih => simp [ih, Nat.add_assoc]

/-- The characters that end at or before a byte offset. -/
def charsBefore : Nat → List Char → List Char
  | _, [] => []
  | offset, c :: cs =>
      if c.utf8Size ≤ offset then c :: charsBefore (offset - c.utf8Size) cs else []

/-- A whole prefix of the text lies before the offset of its end. -/
theorem charsBefore_byteLength_append (a b : List Char) :
    charsBefore (byteLength a) (a ++ b) = a := by
  induction a with
  | nil =>
      cases b with
      | nil => rfl
      | cons c b =>
          have := Char.utf8Size_pos c
          simp [charsBefore]
          omega
  | cons c a ih => simp [charsBefore, ih]

/-! ## Positions -/

/-- A line and a column, both counted from one. -/
structure Position where
  /-- The number of the line. -/
  line : Nat
  /-- The number of the character within its line. -/
  column : Nat
deriving DecidableEq, Repr, Inhabited

namespace Position

/-- Where a text begins. -/
def first : Position := ⟨1, 1⟩

/-- The position behind a character: a line feed begins the next line. -/
def after (p : Position) (c : Char) : Position :=
  if c = '\n' then ⟨p.line + 1, 1⟩ else ⟨p.line, p.column + 1⟩

/-- The position of a byte offset. -/
def locate (text : String) (offset : Nat) : Position :=
  (charsBefore offset text.toList).foldl after first

/-- A position is written as its line, a colon and its column. -/
def display (p : Position) : String := s!"{p.line}:{p.column}"

end Position

/-! ## Tests -/

example : Position.locate "ab\ncd" 4 = ⟨2, 2⟩ := by decide
/-- Two bytes of one letter are one column. -/
example : (List.range 4).map (Position.locate "éa") = [⟨1, 1⟩, ⟨1, 1⟩, ⟨1, 2⟩, ⟨1, 3⟩] := by decide
example : Position.locate "ab" 100 = ⟨1, 3⟩ := by decide

end Storyworld
