import Storyworld.Story.Fault
import Storyworld.Story.Finding
import Storyworld.Story.Suggestion

/-!
# Reading a story

The compiler goes through the tokens of a story once.  A *reader* is where it
stands: the token it looks at, the lexemes behind it, and what the blocks so far
have declared.  Reading is a computation on a reader that can be refused.

There is one token of lookahead.  Passing a token looks at the next one, and if
that is no token the reading ends there, before anything is said about the token
passed.

The steps here are all that reading does to a reader: look, pass, expect, note a
finding, refuse.  The grammar is built from them alone.  Repetition is bounded by
the number of lexemes that are left, since each round passes at least one.
-/

namespace Storyworld

/-! ## The reader -/

/-- A description block: a text, and when it applies. -/
structure Description where
  /-- When the text applies. -/
  condition : Condition
  /-- The text. -/
  text : String
  /-- The place of the whole block. -/
  span : Span
deriving Repr

/-- Where reading stands, and what it has found. -/
structure Reader where
  /-- The token that is looked at. -/
  current : Spanned Token
  /-- The lexemes behind it. -/
  ahead : List Lexeme
  /-- The factors and transitions declared so far. -/
  world : Universe
  /-- The findings so far, in order. -/
  findings : List (Spanned Finding)
  /-- The description blocks so far, in order. -/
  descriptions : List Description

/-- Why reading ends early. -/
inductive Refusal where
  /-- A fault of the story. -/
  | fault (f : Spanned Fault)
  /-- A declaration that the universe refused. -/
  | model (cause : ModelError)
deriving DecidableEq, Repr

/-- The reader that looks at the next lexeme.  Behind the last there is none, and the
reader goes on looking at the end of the story. -/
def Reader.next (r : Reader) : Except Refusal Reader :=
  match r.ahead with
  | [] => .ok r
  | ⟨.token t, span⟩ :: rest => .ok { r with current := ⟨t, span⟩, ahead := rest }
  | ⟨.fault f, span⟩ :: _ => .error (.fault ⟨f.fault, span⟩)

/-- The reader of lexemes that has declared nothing and looks at the first. -/
def Reader.start (lexemes : List Lexeme) : Except Refusal Reader :=
  Reader.next ⟨⟨.finish, ⟨0, 0⟩⟩, lexemes, .empty, [], []⟩

/-! ## Steps -/

/-- A computation on a reader that can be refused. -/
abbrev Reading.Step (α : Type) := StateT Reader (Except Refusal) α

namespace Reading

/-- The token that is looked at. -/
def look : Step Token := do return (← get).current.node

/-- Pass the token that is looked at, and give its place. -/
def pass : Step Span := do
  let r ← get
  set (← r.next)
  return r.current.span

/-- Refuse for a fault at a place. -/
def refuse {α : Type} (fault : Fault) (span : Span) : Step α := throw (.fault ⟨fault, span⟩)

/-- Refuse because something else should stand here. -/
def unexpected {α : Type} (expected : String) : Step α := do
  let current := (← get).current
  refuse (.unexpected expected current.node.display) current.span

/-- Pass the given token, or refuse. -/
def expect (t : Token) : Step Span := do
  if (← look) = t then pass else unexpected t.display

/-- Pass a word, or refuse. -/
def word (expected : String) : Step (Spanned String) := do
  match ← look with
  | .word name => return ⟨name, ← pass⟩
  | _ => unexpected expected

/-- Pass a quoted text, or refuse. -/
def text (expected : String) : Step (Spanned String) := do
  match ← look with
  | .text content => return ⟨content, ← pass⟩
  | _ => unexpected expected

/-- Pass a value, or refuse.  A number is the value of its decimal form. -/
def value : Step (Spanned Value) := do
  match ← look with
  | .word name => return ⟨⟨name⟩, ← pass⟩
  | .whole n => return ⟨⟨toString n⟩, ← pass⟩
  | _ => unexpected "a value"

/-- Note a finding. -/
def note (finding : Finding) (span : Span) : Step Unit :=
  modify fun r => { r with findings := r.findings ++ [⟨finding, span⟩] }

/-- The declared factor of a name, or refuse. -/
def resolve (name : Spanned String) : Step Factor := do
  let world := (← get).world
  match world.findFactor? name.node with
  | some f => return f
  | none => refuse (.undefinedFactor name.node (world.closest? name.node)) name.span

/-! ## Repetition -/

/-- At most so many further items, each behind a separator. -/
def further {α : Type} (separator : Mark) (item : Step α) : Nat → Step (List α)
  | 0 => return []
  | n + 1 => do
      if (← look) = .mark separator then
        let _ ← pass
        let x ← item
        let xs ← further separator item n
        return x :: xs
      else return []

/-- One item or more, with separators between them. -/
def separated {α : Type} (separator : Mark) (item : Step α) : Step (List α) := do
  let x ← item
  let xs ← further separator item (← get).ahead.length
  return x :: xs

end Reading

end Storyworld
