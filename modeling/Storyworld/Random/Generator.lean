import Storyworld.Number.Power

/-!
# Chance

Everything random in a session is drawn from a *generator*, a state that gives a
word and the state after it.  There are draws of 32 and of 64 bits, and a
generator decides how the two share its words.

Two derived draws are in use.  `unit` is a number of the unit interval in steps
of `2^-53`, given as the number of steps.  `shuffle` permutes a list.

A shuffle needs, for each place `i`, a place up to `i` to exchange with.  Drawing
a number for every place would waste most of each word.  So one draw, below a
product of several consecutive bounds, is taken apart into one place for each of
the bounds by division with remainder (`Places`).  `shuffle_perm` says that the
draws, whatever they are, only move elements.
-/

namespace Storyworld

/-- A source of random words. -/
class Generator (G : Type) where
  /-- A word of 32 bits, and the generator behind it. -/
  next32 : G → UInt32 × G
  /-- A word of 64 bits, and the generator behind it. -/
  next64 : G → UInt64 × G

namespace Random

variable {G : Type} [Generator G]

/-! ## The unit interval -/

/-- A number of the unit interval, as its multiple of `2^-53`. -/
def unit (g : G) : Nat × G :=
  let (word, g) := Generator.next64 g
  ((word >>> 11).toNat, g)

/-! ## Whole numbers below a bound -/

/-- The number of 32-bit words. -/
def wordCount : Nat := twoTo 32

/-- A number below `n`, for `n` up to `2^32`.  The high half of a word times `n` is
nearly uniform; a second word decides whether the low half carries over. -/
def below (n : Nat) (g : G) : Nat × G :=
  let (word, g) := Generator.next32 g
  let product := word.toNat * n
  let high := product / wordCount
  let low := product % wordCount
  if wordCount - n < low then
    let (word, g) := Generator.next32 g
    let carry := low + word.toNat * n / wordCount
    (if wordCount ≤ carry then high + 1 else high, g)
  else (high, g)

/-! ## Shuffling -/

/-- A draw that has not been used up. -/
structure Places where
  /-- What is left of the draw. -/
  chunk : Nat
  /-- For how many more places it is good. -/
  remaining : Nat

/-- Multiply a product by consecutive numbers while it stays below `2^32`.  Gives
the product and how many numbers went in.  Every number at least doubles it, so
thirty-two are enough. -/
def widen : Nat → Nat → Nat → Nat → Nat × Nat
  | 0, product, _, count => (product, count)
  | steps + 1, product, next, count =>
      if product * next < wordCount then widen steps (product * next) (next + 1) (count + 1)
      else (product, count)

/-- A place below `bound`, drawing only if the last draw is used up. -/
def place (p : Places) (bound : Nat) (g : G) : Nat × Places × G :=
  let (chunk, remaining, g) :=
    if p.remaining = 0 then
      let (product, count) := widen 32 bound (bound + 1) 1
      let (chunk, g) := below product g
      (chunk, count, g)
    else (p.chunk, p.remaining, g)
  if remaining = 1 then (chunk, ⟨chunk, 0⟩, g)
  else (chunk % bound, ⟨chunk / bound, remaining - 1⟩, g)

/-- A list with one more element at the end, exchanged with the one at place `j`. -/
def appendSwapped {α : Type} (xs : List α) (j : Nat) (x : α) : List α :=
  match xs[j]? with
  | some y => xs.set j x ++ [y]
  | none => xs ++ [x]

/-- Go through a list, exchanging each element with one that was passed or with
itself. -/
def shuffleFrom {α : Type} (p : Places) (passed : List α) : List α → G → List α × G
  | [], g => (passed, g)
  | x :: xs, g =>
      let (j, p, g) := place p (passed.length + 1) g
      shuffleFrom p (appendSwapped passed j x) xs g

/-- A list in random order.  The first element has nowhere to go, so a list of one
draws nothing. -/
def shuffle {α : Type} (xs : List α) (g : G) : List α × G := shuffleFrom ⟨0, 1⟩ [] xs g

/-! ## A shuffle is a permutation -/

theorem appendSwapped_perm {α : Type} (xs : List α) (j : Nat) (x : α) :
    (appendSwapped xs j x).Perm (xs ++ [x]) := by
  unfold appendSwapped
  split
  · next y h =>
      obtain ⟨hj, rfl⟩ := List.getElem?_eq_some_iff.mp h
      have hs : xs.set j x = xs.take j ++ x :: xs.drop (j + 1) := by
        rw [List.set_eq_take_append_cons_drop, if_pos hj]
      have hx : xs = xs.take j ++ xs[j] :: xs.drop (j + 1) := by simp
      rw [hs]
      refine List.Perm.trans ?_ (List.Perm.append_right [x] (List.Perm.of_eq hx.symm))
      simp only [List.append_assoc, List.cons_append]
      refine List.Perm.append_left _ ?_
      exact ((List.perm_append_singleton _ _).cons x).trans
        ((List.Perm.swap _ _ _).trans ((List.perm_append_singleton x _).symm.cons _))
  · exact List.Perm.refl _

theorem shuffleFrom_perm {α : Type} (xs : List α) :
    ∀ (p : Places) (passed : List α) (g : G),
      (shuffleFrom p passed xs g).1.Perm (passed ++ xs) := by
  induction xs with
  | nil => intro p passed g; simp [shuffleFrom]
  | cons x xs ih =>
      intro p passed g
      simp only [shuffleFrom]
      refine (ih _ _ _).trans ?_
      have := (appendSwapped_perm passed (place p (passed.length + 1) g).1 x).append_right xs
      simpa using this

/-- A shuffled list has the elements of the list, each as often. -/
theorem shuffle_perm {α : Type} (xs : List α) (g : G) : (shuffle xs g).1.Perm xs := by
  simpa [shuffle] using shuffleFrom_perm xs ⟨0, 1⟩ [] g

theorem mem_shuffle {α : Type} (xs : List α) (g : G) (x : α) : x ∈ (shuffle xs g).1 ↔ x ∈ xs :=
  (shuffle_perm xs g).mem_iff

end Random

end Storyworld
