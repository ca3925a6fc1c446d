import Storyworld.Number.Shortest

/-!
# How numbers are written

A *layout* says how the shortest digits of a number become text: where the
positional form ends and the form with an exponent begins, what follows a whole
number, and what is written for the words that are no finite number.  Two are in
use.  `Layout.plain` stands in messages and tables, `Layout.json` in exported
models.
-/

namespace Storyworld.Binary64

/-- The decisions of a written form of numbers. -/
structure Layout where
  /-- Which of two equally near decimals is taken. -/
  tie : Tie
  /-- Whether a number whose first digit stands at this power of ten is written
  without an exponent. -/
  positional : Int → Bool
  /-- What follows a whole number in positional form. -/
  wholeMark : String
  /-- The text of a word that is no number. -/
  notANumber : String
  /-- The text of an infinity, by whether it is negative. -/
  infinite : Bool → String

/-- Messages write every number in positional form and whole numbers bare. -/
def Layout.plain : Layout where
  tie := .up
  positional _ := true
  wholeMark := ""
  notANumber := "NaN"
  infinite negative := if negative then "-inf" else "inf"

/-- Exported models keep a fraction on whole numbers, use an exponent outside
`10^-5` to `10^15`, and have no text for what is not finite. -/
def Layout.json : Layout where
  tie := .even
  positional place := decide (-5 ≤ place) && decide (place ≤ 15)
  wholeMark := ".0"
  notANumber := "null"
  infinite _ := "null"

/-- A run of zeros. -/
def zeros (n : Nat) : List Char := List.replicate n '0'

/-- The power of ten at which the first digit of a decimal stands. -/
def Decimal.place (d : Decimal) : Int := (Nat.toDigits 10 d.coefficient).length - 1 + d.exponent

/-- A decimal without an exponent. -/
def Decimal.positional (wholeMark : String) (d : Decimal) : List Char :=
  let digits := Nat.toDigits 10 d.coefficient
  if 0 ≤ d.exponent then digits ++ zeros d.exponent.toNat ++ wholeMark.toList
  else
    let behind := (-d.exponent).toNat
    if behind < digits.length then
      digits.take (digits.length - behind) ++ '.' :: digits.drop (digits.length - behind)
    else '0' :: '.' :: zeros (behind - digits.length) ++ digits

/-- A decimal with one digit before the point and an exponent with its sign. -/
def Decimal.withExponent (d : Decimal) : List Char :=
  let digits := Nat.toDigits 10 d.coefficient
  let sign := if d.place < 0 then '-' else '+'
  digits.take 1 ++ (if digits.length = 1 then [] else '.' :: digits.drop 1) ++
    'e' :: sign :: Nat.toDigits 10 d.place.natAbs

/-- The text of a number in a layout. -/
def write (layout : Layout) (x : Binary64) : String :=
  match x.parts with
  | .notANumber => layout.notANumber
  | .infinite negative => layout.infinite negative
  | .finite negative m q =>
      let d := shortest layout.tie m q
      let body := if layout.positional d.place then d.positional layout.wholeMark
        else d.withExponent
      String.ofList (if negative then '-' :: body else body)

/-- The number that decimal digits name: the digits before the point and those
behind it. -/
def ofDigits (whole fraction : List Char) : Binary64 :=
  ofRatio (Nat.ofDigitChars 10 (whole ++ fraction) 0) (tenTo fraction.length)

/-! ## Tests -/

example : (ofDigits ['2'] ['5', '0']).write .plain = "2.5" := by decide +kernel
example : (ofNat (10 ^ 16)).write .plain = "10000000000000000" := by decide +kernel
example : (ofNat (10 ^ 16)).write .json = "1e+16" ∧ (ofNat (10 ^ 15)).write .json
    = "1000000000000000.0" := by decide +kernel
example : (ofRatio 1 100000).write .json = "0.00001" ∧ (ofRatio 15 100000000).write .json
    = "1.5e-7" := by decide +kernel
/-- The sign of zero is kept. -/
example : (Binary64.mk 0x8000000000000000).write .plain = "-0" := by decide +kernel

end Storyworld.Binary64
