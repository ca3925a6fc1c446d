/-!
# Sets of characters

A property of characters is a table of ranges of code points, in increasing
order.  Nothing here depends on the order but the reader of the tables.
-/

namespace Storyworld

/-- A set of characters, as inclusive ranges of code points. -/
structure CharSet where
  /-- The ranges. -/
  ranges : List (Nat × Nat)

/-- Whether a character is in the set. -/
def CharSet.contains (s : CharSet) (c : Char) : Bool :=
  s.ranges.any fun (low, high) => decide (low ≤ c.toNat) && decide (c.toNat ≤ high)

/-- Whether the ranges are in increasing order, with a gap between any two. -/
def CharSet.isOrdered (s : CharSet) : Bool :=
  s.ranges.all (fun (low, high) => decide (low ≤ high)) &&
    (s.ranges.zip s.ranges.tail).all fun (a, b) => decide (a.2 + 1 < b.1)

end Storyworld
