import Storyworld.Number.Binary64

/-!
# The shortest digits of a number

A binary number is written with the fewest decimal digits that still name it.
The reals that round to `m · 2^q` form an interval around it, ends included
exactly when `m` is even.  A decimal with exponent `k` is a point of the grid of
multiples of `10^k`, so the fewest digits mean the coarsest grid with a point in
the interval.  If any point of a grid lies there then so does one of the two
neighbours of the number itself, and these are all that is tested.

Of two neighbours in the interval the nearer is taken.  Which of two equally
near ones is taken is the writer's choice (`Tie`): the two forms in which this
library writes numbers differ in it.

All arithmetic is on whole numbers: the interval is scaled by the denominators
of both grids.
-/

namespace Storyworld.Binary64

/-- Which of two equally near decimals is taken. -/
inductive Tie where
  /-- The greater. -/
  | up
  /-- The one whose last digit is even. -/
  | even
deriving DecidableEq, Repr

/-- A decimal `coefficient · 10^exponent`. -/
structure Decimal where
  /-- The digits, read as a whole number. -/
  coefficient : Nat
  /-- The place of the last digit. -/
  exponent : Int
deriving DecidableEq, Repr

/-- The reals that round to a positive number, and the number itself, in units of
`1 / unit`. -/
structure Neighbourhood where
  /-- The lower end. -/
  low : Nat
  /-- The number. -/
  centre : Nat
  /-- The upper end. -/
  high : Nat
  /-- How many units make one. -/
  unit : Nat
  /-- Whether the ends belong to it. -/
  closed : Bool

/-- The reals that round to `m · 2^q`.  Below a power of two the numbers lie twice
as dense, so the interval is shorter on that side. -/
def neighbourhood (m : Nat) (q : Int) : Neighbourhood :=
  let grow := twoTo (q - 2).toNat
  let below := if m = twoTo fractionBits ∧ leastExponent < q then 1 else 2
  { low := (4 * m - below) * grow
    centre := 4 * m * grow
    high := (4 * m + 2) * grow
    unit := twoTo (2 - q).toNat
    closed := m % 2 == 0 }

/-- The multiple of `10^k` taken for the number, if one lies in its interval. -/
def Neighbourhood.onGrid? (tie : Tie) (n : Neighbourhood) (k : Int) : Option Nat :=
  let fine := tenTo (-k).toNat
  let step := n.unit * tenTo k.toNat
  let within (a b : Nat) : Bool := if n.closed then decide (a ≤ b) else decide (a < b)
  let centre := n.centre * fine
  let d := centre / step
  let lower := within (n.low * fine) (d * step)
  let upper := within ((d + 1) * step) (n.high * fine)
  if lower && upper then
    let down := centre - d * step
    let up := (d + 1) * step - centre
    if down < up then some d
    else if up < down then some (d + 1)
    else match tie with
      | .up => some (d + 1)
      | .even => if d % 2 = 0 then some d else some (d + 1)
  else if lower then some d
  else if upper then some (d + 1)
  else none

/-- Try the grids from `10^k` on, each ten times finer than the one before. -/
def Neighbourhood.coarsest (tie : Tie) (n : Neighbourhood) : Nat → Int → Decimal
  | 0, k => ⟨n.centre * tenTo (-k).toNat / (n.unit * tenTo k.toNat), k⟩
  | steps + 1, k =>
      match n.onGrid? tie k with
      | some d => ⟨d, k⟩
      | none => n.coarsest tie steps (k - 1)

/-- The shortest decimal of `m · 2^q`.  The first grid tried is coarser than the
number, and seventeen digits tell all numbers apart, so twenty-four grids reach
one that has a point. -/
def shortest (tie : Tie) (m : Nat) (q : Int) : Decimal :=
  if m = 0 then ⟨0, 0⟩
  else (neighbourhood m q).coarsest tie 24 ((m.log2 + q + 1) * 30103 / 100000 + 2)

/-! ## Tests -/

example : shortest .up (2 ^ 52) (-52) = ⟨1, 0⟩ := by decide +kernel
/-- One tenth. -/
example : shortest .up 7205759403792794 (-56) = ⟨1, -1⟩ := by decide +kernel
/-- The least positive number is nearest to five, not to three, of its last digit. -/
example : shortest .up 1 (-1074) = ⟨5, -324⟩ := by decide +kernel
/-- A quarter lies halfway between two tenths. -/
example : (shortest .even (2 ^ 52 + 1) (-2), shortest .up (2 ^ 52 + 1) (-2))
    = (⟨11258999068426242, -1⟩, ⟨11258999068426243, -1⟩) := by decide +kernel

end Storyworld.Binary64
