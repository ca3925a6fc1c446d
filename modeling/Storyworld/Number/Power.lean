/-!
# Powers

The powers of the two bases that numbers are written in.  The exponents are whole
numbers that are not negative; a quotient by a power stands for a negative one.
-/

namespace Storyworld

/-- A power of two. -/
def twoTo (n : Nat) : Nat := Nat.pow 2 n

/-- A power of ten. -/
def tenTo (n : Nat) : Nat := Nat.pow 10 n

theorem twoTo_zero : twoTo 0 = 1 := rfl

end Storyworld
