import Storyworld.Story.Token
import Storyworld.Text.Span
import Storyworld.Text.Quoted

/-!
# From characters to tokens

`scan` looks at the front of a text and says what stands there and how many
further characters belong to it: a token, a fault, or nothing to be kept (blanks
and comments).  Tokens are as long as they can be: a word takes all letters,
digits and underscores that follow, a number all its digits.

`lexemes` scans a whole text.  A fault does not stop it: an unknown character
and a quote that is never closed are passed over by themselves, a number that is
too large as a whole, and scanning goes on behind.  `tokens` is for those who
want no faults.

The count of further characters is all that `scan` says about where it stopped.
The rest of the text is what remains after dropping that many, so a scan can
lose nothing and invent nothing, and it ends because the rest is shorter.
-/

namespace Storyworld

/-! ## Faults -/

/-- Why characters are no token. -/
inductive LexicalFault where
  /-- No token begins with this character. -/
  | unknown (c : Char)
  /-- A quote that opens a text and is never closed. -/
  | unclosed
  /-- A number without a point that does not fit in 64 bits. -/
  | tooLarge (digits : String)
deriving DecidableEq, Repr

/-- What should have stood there. -/
def LexicalFault.expected : LexicalFault → String
  | .unknown _ => "a token"
  | .unclosed => "closing `\"`"
  | .tooLarge _ => "an integer that fits in 64 bits"

/-- What stands there. -/
def LexicalFault.found : LexicalFault → String
  | .unknown c => quoted [c]
  | .unclosed => "end of input"
  | .tooLarge digits => digits

/-! ## Classes of characters -/

/-- The characters that separate tokens. -/
def isSpace (c : Char) : Bool := c == ' ' || c == '\t' || c == '\r' || c == '\n'

/-- The characters that begin a word. -/
def isWordStart (c : Char) : Bool := c.isAlpha || c == '_'

/-- The characters of a word. -/
def isWordChar (c : Char) : Bool := isWordStart c || c.isDigit

/-! ## One scan -/

/-- What characters say: a token, or why they are none. -/
inductive Reading where
  /-- A token. -/
  | token (t : Token)
  /-- No token. -/
  | fault (f : LexicalFault)
deriving DecidableEq, Repr

/-- The token of a word. -/
def wordToken (letters : List Char) : Token :=
  let word := String.ofList letters
  match Keyword.ofText? word with
  | some k => .keyword k
  | none => .word word

/-- The token of a run of digits, which may be too large for one. -/
def wholeToken (digits : List Char) : Reading :=
  let n := Nat.ofDigitChars 10 digits 0
  if n < twoTo 64 then .token (.whole n) else .fault (.tooLarge (String.ofList digits))

/-- A number that begins with a digit. -/
def scanNumber (c : Char) (cs : List Char) : Reading × Nat :=
  let run := cs.takeWhile Char.isDigit
  match cs.drop run.length with
  | '.' :: after =>
      let fraction := after.takeWhile Char.isDigit
      (.token (.decimal (.ofDigits (c :: run) fraction)), run.length + 1 + fraction.length)
  | _ => (wholeToken (c :: run), run.length)

/-- What follows a point: digits make it a number, and alone it is no token. -/
def scanPoint (cs : List Char) : Reading × Nat :=
  match cs.takeWhile Char.isDigit with
  | [] => (.fault (.unknown '.'), 0)
  | fraction => (.token (.decimal (.ofDigits [] fraction)), fraction.length)

/-- What follows a quote: a text up to the next one. -/
def scanText (cs : List Char) : Reading × Nat :=
  let content := cs.takeWhile (· != '"')
  if content.length < cs.length then (.token (.text (String.ofList content)), content.length + 1)
  else (.fault .unclosed, 0)

/-- What stands at the front of a text, given as its first character and the others,
and how many of the others belong to it. -/
def scan (c : Char) (cs : List Char) : Option Reading × Nat :=
  if isSpace c then (none, 0)
  else if c = '%' then (none, (cs.takeWhile (· != '\n')).length)
  else if c = '"' then (scanText cs).map some id
  else if c.isDigit then (scanNumber c cs).map some id
  else if c = '.' then (scanPoint cs).map some id
  else if isWordStart c then
    let run := cs.takeWhile isWordChar
    (some (.token (wordToken (c :: run))), run.length)
  else match Mark.ofChar? c with
    | some m => (some (.token (.mark m)), 0)
    | none => (some (.fault (.unknown c)), 0)

/-! ## A whole text -/

/-- A token or a fault, and its place. -/
abbrev Lexeme := Spanned Reading

/-- What is left behind one character or more is shorter. -/
theorem length_drop_lt (n : Nat) (c : Char) (cs : List Char) :
    (cs.drop n).length < (c :: cs).length := by
  rw [List.length_drop, List.length_cons]
  omega

/-- The lexemes of a text whose first byte has the given offset, ending with
`Token.finish`. -/
def lexemesFrom (offset : Nat) : List Char → List Lexeme
  | [] => [⟨.token .finish, ⟨offset, offset⟩⟩]
  | c :: cs =>
      let (found, more) := scan c cs
      let stop := offset + byteLength (c :: cs.take more)
      match found with
      | some node => ⟨node, ⟨offset, stop⟩⟩ :: lexemesFrom stop (cs.drop more)
      | none => lexemesFrom stop (cs.drop more)
termination_by cs => cs.length
decreasing_by all_goals exact length_drop_lt more c cs

/-- The lexemes of a story. -/
def lexemes (source : String) : List Lexeme := lexemesFrom 0 source.toList

/-- The token of a lexeme, or its fault with its place. -/
def Lexeme.token (l : Lexeme) : Except (Spanned LexicalFault) (Spanned Token) :=
  match l.node with
  | .token t => .ok ⟨t, l.span⟩
  | .fault f => .error ⟨f, l.span⟩

/-- The tokens of a story, or its first fault. -/
def tokens (source : String) : Except (Spanned LexicalFault) (List (Spanned Token)) :=
  (lexemes source).mapM Lexeme.token

/-! ## Tests -/

example : (tokens "a: 07%x").toOption = some
    [⟨.word "a", ⟨0, 1⟩⟩, ⟨.mark .colon, ⟨1, 2⟩⟩, ⟨.whole 7, ⟨3, 5⟩⟩, ⟨.finish, ⟨7, 7⟩⟩] := by
  decide +kernel
/-- A longer word is no keyword. -/
example : (lexemes "factor factors").map (·.node)
    = [.token (.keyword .factor), .token (.word "factors"), .token .finish] := by decide +kernel
/-- The quote alone is the fault, and the words behind it are tokens. -/
example : lexemes "\"a" =
    [⟨.fault .unclosed, ⟨0, 1⟩⟩, ⟨.token (.word "a"), ⟨1, 2⟩⟩, ⟨.token .finish, ⟨2, 2⟩⟩] := by
  decide +kernel
example : (lexemes "1..5 .").map (·.node) =
    [.token (.decimal (.ofNat 1)), .token (.decimal (.ofRatio 1 2)), .fault (.unknown '.'),
     .token .finish] := by decide +kernel

end Storyworld
