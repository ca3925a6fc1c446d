import Storyworld.Number.Written

/-!
# The tokens of a story

A story file is a sequence of tokens: marks, keywords, words, numbers and quoted
texts.  Keywords are case-sensitive, and a word is one only if it is exactly one
of the five, so `factors` names a thing.  The last token of every story is
`finish`.

`Token.display` is how a token is named in a message.  It shows what a word or a
number says but not what a quoted text says.
-/

namespace Storyworld

/-! ## Marks and keywords -/

/-- A token of one character. -/
inductive Mark where
  | colon | openParen | closeParen | comma | less | greater | equals | minus | backslash | plus
  | pipe | ampersand
deriving DecidableEq, Repr

/-- The character of a mark. -/
def Mark.char : Mark → Char
  | .colon => ':'
  | .openParen => '('
  | .closeParen => ')'
  | .comma => ','
  | .less => '<'
  | .greater => '>'
  | .equals => '='
  | .minus => '-'
  | .backslash => '\\'
  | .plus => '+'
  | .pipe => '|'
  | .ampersand => '&'

/-- Every mark. -/
def Mark.all : List Mark :=
  [.colon, .openParen, .closeParen, .comma, .less, .greater, .equals, .minus, .backslash, .plus,
   .pipe, .ampersand]

/-- The mark that a character is, if it is one. -/
def Mark.ofChar? (c : Char) : Option Mark := Mark.all.find? fun m => m.char == c

/-- A word with a meaning of its own. -/
inductive Keyword where
  | factor | transition | description | spontaneous | choice
deriving DecidableEq, Repr

/-- The letters of a keyword. -/
def Keyword.text : Keyword → String
  | .factor => "factor"
  | .transition => "transition"
  | .description => "description"
  | .spontaneous => "spontaneous"
  | .choice => "choice"

/-- Every keyword. -/
def Keyword.all : List Keyword := [.factor, .transition, .description, .spontaneous, .choice]

/-- The keyword that a word is, if it is one. -/
def Keyword.ofText? (word : String) : Option Keyword := Keyword.all.find? fun k => k.text == word

theorem Mark.ofChar?_char (m : Mark) : Mark.ofChar? m.char = some m := by
  cases m <;> decide

theorem Keyword.ofText?_text (k : Keyword) : Keyword.ofText? k.text = some k := by
  cases k <;> decide

/-! ## Tokens -/

/-- A token of a story. -/
inductive Token where
  /-- A mark. -/
  | mark (m : Mark)
  /-- A keyword. -/
  | keyword (k : Keyword)
  /-- A name of a factor, a value or a transition. -/
  | word (name : String)
  /-- A number without a point. -/
  | whole (n : Nat)
  /-- A number with a point. -/
  | decimal (x : Binary64)
  /-- A text, without its quotes. -/
  | text (content : String)
  /-- The end of the story. -/
  | finish
deriving DecidableEq, Repr

/-- A token as messages name it. -/
def Token.display : Token → String
  | .mark m => String.ofList ['`', m.char, '`']
  | .keyword k => s!"`{k.text}`"
  | .word name => s!"`{name}`"
  | .whole n => s!"`{n}`"
  | .decimal x => s!"`{x.write .plain}`"
  | .text _ => "string literal"
  | .finish => "end of input"

end Storyworld
