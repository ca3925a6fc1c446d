import Storyworld.Number.Power

/-!
# Binary floating-point numbers, exactly

The chance of a transition is a number in the 64-bit binary format: a sign, a
significand of at most 53 bits and a power of two.  The library keeps the raw
word, so that every number, the not-a-numbers included, is exactly what it was
given as, and reads the word when a question is asked of it.

All questions are answered in exact integer arithmetic.  `parts` reads a word
as `± m · 2^q`, and `scaledLe` compares two such products after moving both to
the smaller power.  No operation here rounds except `ofRatio`, which gives the
number nearest to a quotient, a half going to the even neighbour.  It serves
both for decimal literals and for whole numbers, which are a quotient by one.

The encoding in `ofRatio` has no case for subnormal numbers and none for a
significand that rounds up to the next power of two.  The word of `m · 2^q` is
`(q + 1074) · 2^52 + m` for every `m` below `2^53`: the hidden bit of a normal
number is carried into the exponent field by the addition.
-/

namespace Storyworld

/-- A number in the 64-bit binary floating-point format, as its word. -/
structure Binary64 where
  /-- The word: sign, eleven bits of exponent, fifty-two bits of fraction. -/
  bits : UInt64
deriving DecidableEq, Repr, Inhabited

namespace Binary64

/-! ## Reading the word -/

/-- What a word stands for. -/
inductive Parts where
  /-- No number at all. -/
  | notANumber
  /-- An infinity of the given sign. -/
  | infinite (negative : Bool)
  /-- The number `± significand · 2^exponent`. -/
  | finite (negative : Bool) (significand : Nat) (exponent : Int)
deriving DecidableEq, Repr

/-- The number of bits behind the leading one. -/
def fractionBits : Nat := 52

/-- The exponent of the least positive number. -/
def leastExponent : Int := -1074

/-- Read a word. -/
def parts (x : Binary64) : Parts :=
  let word := x.bits.toNat
  let negative := decide (twoTo 63 ≤ word)
  let field : Nat := word / twoTo fractionBits % twoTo 11
  let fraction : Nat := word % twoTo fractionBits
  if field = twoTo 11 - 1 then
    if fraction = 0 then .infinite negative else .notANumber
  else if field = 0 then .finite negative fraction leastExponent
  else .finite negative (twoTo fractionBits + fraction) ((field : Int) + leastExponent - 1)

/-! ## Comparisons -/

/-- Whether `m · 2^q ≤ n · 2^r`. -/
def scaledLe (m : Nat) (q : Int) (n : Nat) (r : Int) : Bool :=
  decide (m * twoTo (q - r).toNat ≤ n * twoTo (r - q).toNat)

/-- Whether a number is above zero. -/
def isPositive (x : Binary64) : Bool :=
  match x.parts with
  | .notANumber => false
  | .infinite negative => !negative
  | .finite negative m _ => !negative && decide (0 < m)

/-- Whether a number is at least `k · 2^q`, for `k` not negative. -/
def atLeast (x : Binary64) (k : Nat) (q : Int) : Bool :=
  match x.parts with
  | .notANumber => false
  | .infinite negative => !negative
  | .finite negative m r => if negative then m == 0 && k == 0 else scaledLe k q m r

/-- Whether a number is above `k · 2^q`, for `k` not negative. -/
def exceeds (x : Binary64) (k : Nat) (q : Int) : Bool :=
  match x.parts with
  | .notANumber => false
  | .infinite negative => !negative
  | .finite negative m r => !negative && !scaledLe m r k q

/-! ## The nearest number to a quotient -/

/-- The whole number nearest to `num / den`; of two equally near, the even one. -/
def roundToEven (num den : Nat) : Nat :=
  let floor := num / den
  let rest := num % den
  if 2 * rest < den then floor
  else if den < 2 * rest then floor + 1
  else if floor % 2 = 0 then floor else floor + 1

/-- The greatest `e` with `2^e ≤ num / den`, for positive `num` and `den`. -/
def floorLog2 (num den : Nat) : Int :=
  let guess : Int := num.log2 - den.log2
  if den * twoTo guess.toNat ≤ num * twoTo (-guess).toNat then guess else guess - 1

/-- The word of positive infinity. -/
def infinityWord : Nat := (twoTo 11 - 1) * twoTo fractionBits

/-- The number nearest to `num / den`, for positive `den`.  A quotient beyond the
range gives infinity. -/
def ofRatio (num den : Nat) : Binary64 :=
  if num = 0 then ⟨0⟩
  else
    let q := max (floorLog2 num den - fractionBits) leastExponent
    let m := roundToEven (num * twoTo (-q).toNat) (den * twoTo q.toNat)
    let word := (q - leastExponent).toNat * twoTo fractionBits + m
    ⟨.ofNat (min word infinityWord)⟩

/-- The number nearest to a whole number. -/
def ofNat (n : Nat) : Binary64 := ofRatio n 1

/-! ## Tests -/

example : (ofNat 1).bits = 0x3ff0000000000000 := by decide +kernel
example : (ofRatio 1 10).bits = 0x3fb999999999999a := by decide +kernel
/-- Of two numbers equally near the even one is taken. -/
example : ofNat (2 ^ 53 + 1) = ofNat (2 ^ 53) := by decide +kernel
/-- The greatest 64-bit word rounds up to the next power of two. -/
example : ofNat (2 ^ 64 - 1) = ofNat (2 ^ 64) := by decide +kernel
/-- The least positive number, and half of it, which is no more than zero. -/
example : (ofRatio 1 (2 ^ 1074)).bits = 1 ∧ (ofRatio 1 (2 ^ 1075)).bits = 0 := by decide +kernel
example : (ofNat (10 ^ 400)).parts = .infinite false := by decide +kernel

end Binary64

end Storyworld
