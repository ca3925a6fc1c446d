import Storyworld.Number.Written

/-!
# JSON text

A small tree of JSON values and its two written forms: `compact` without any
space, and `pretty` with one entry on a line and two spaces for each level.
Fields of an object are written in the order they are given.  Numbers are those
of `Layout.json`.

In a string only the quote, the backslash and the control characters are escaped;
all other characters stand for themselves.
-/

namespace Storyworld

/-- A JSON value. -/
inductive JsonText where
  | number (x : Binary64)
  | string (s : String)
  | array (items : List JsonText)
  | object (fields : List (String × JsonText))
deriving Repr

namespace JsonText

/-! ## Strings -/

/-- The code point of a control character, in four digits. -/
def fourDigits (n : Nat) : List Char :=
  let digits := Nat.toDigits 16 n
  List.replicate (4 - digits.length) '0' ++ digits

/-- A character as it stands in a string. -/
def escaped (c : Char) : List Char :=
  match c with
  | '"' => ['\\', '"']
  | '\\' => ['\\', '\\']
  | '\x08' => ['\\', 'b']
  | '\t' => ['\\', 't']
  | '\n' => ['\\', 'n']
  | '\x0c' => ['\\', 'f']
  | '\r' => ['\\', 'r']
  | c => if c.toNat < 0x20 then '\\' :: 'u' :: fourDigits c.toNat else [c]

/-- A string between its quotes. -/
def quote (s : String) : String := String.ofList ('"' :: s.toList.flatMap escaped ++ ['"'])

/-! ## Values -/

mutual

/-- A value without any space. -/
def compact : JsonText → String
  | .number x => x.write .json
  | .string s => quote s
  | .array items => "[" ++ compactItems items ++ "]"
  | .object fields => "\x7b" ++ compactFields fields ++ "\x7d"

/-- The items of an array, with commas between them. -/
def compactItems : List JsonText → String
  | [] => ""
  | [x] => compact x
  | x :: xs => compact x ++ "," ++ compactItems xs

/-- The fields of an object, with commas between them. -/
def compactFields : List (String × JsonText) → String
  | [] => ""
  | [(k, x)] => quote k ++ ":" ++ compact x
  | (k, x) :: xs => quote k ++ ":" ++ compact x ++ "," ++ compactFields xs

end

/-- The beginning of a line at a level. -/
def indent (level : Nat) : String := "\n" ++ String.ofList (List.replicate (2 * level) ' ')

mutual

/-- A value at a level, with its entries on lines of their own one level deeper. -/
def prettyAt (level : Nat) : JsonText → String
  | .number x => x.write .json
  | .string s => quote s
  | .array [] => "[]"
  | .array items => "[" ++ prettyItems (level + 1) items ++ indent level ++ "]"
  | .object [] => "\x7b\x7d"
  | .object fields => "\x7b" ++ prettyFields (level + 1) fields ++ indent level ++ "\x7d"

/-- The items of an array, each on a line of its own. -/
def prettyItems (level : Nat) : List JsonText → String
  | [] => ""
  | [x] => indent level ++ prettyAt level x
  | x :: xs => indent level ++ prettyAt level x ++ "," ++ prettyItems level xs

/-- The fields of an object, each on a line of its own. -/
def prettyFields (level : Nat) : List (String × JsonText) → String
  | [] => ""
  | [(k, x)] => indent level ++ quote k ++ ": " ++ prettyAt level x
  | (k, x) :: xs =>
      indent level ++ quote k ++ ": " ++ prettyAt level x ++ "," ++ prettyFields level xs

end

/-- A value with one entry on a line. -/
def pretty (j : JsonText) : String := j.prettyAt 0

/-! ## Tests -/

example : (JsonText.object [("a", .array [.string "x\n", .array []])]).compact
    = "\x7b\"a\":[\"x\\n\",[]]\x7d" := by decide +kernel
example : (JsonText.object [("a", .array [.string "x"])]).pretty
    = "\x7b\n  \"a\": [\n    \"x\"\n  ]\n\x7d" := by decide +kernel

end JsonText

end Storyworld
