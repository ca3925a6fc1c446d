import Storyworld.Snapshot

/-!
# Conditions

A condition is a question to a snapshot, built from tests whether a factor holds
a value.  A conjunction of no conditions holds and a disjunction of none does
not, by the meaning of "all" and "any".

`tests` lists the tests of a condition from left to right.  They are all that a
condition can see of a snapshot.
-/

namespace Storyworld

/-- A question to a snapshot. -/
inductive Condition where
  /-- The factor holds the value. -/
  | holds (factor : FactorId) (value : Value)
  /-- All of the conditions hold. -/
  | all (clauses : List Condition)
  /-- At least one of the conditions holds. -/
  | any (clauses : List Condition)
deriving Repr, Inhabited

namespace Condition

mutual

/-- Whether a condition holds in a snapshot. -/
def evaluate (s : Snapshot) : Condition → Bool
  | .holds f v => s.get? f == some v
  | .all cs => evaluateAll s cs
  | .any cs => evaluateAny s cs

/-- Whether all conditions hold in a snapshot. -/
def evaluateAll (s : Snapshot) : List Condition → Bool
  | [] => true
  | c :: cs => evaluate s c && evaluateAll s cs

/-- Whether at least one condition holds in a snapshot. -/
def evaluateAny (s : Snapshot) : List Condition → Bool
  | [] => false
  | c :: cs => evaluate s c || evaluateAny s cs

end

mutual

/-- The tests of a condition, from left to right. -/
def tests : Condition → List (FactorId × Value)
  | .holds f v => [(f, v)]
  | .all cs => testsOfList cs
  | .any cs => testsOfList cs

/-- The tests of several conditions, from left to right. -/
def testsOfList : List Condition → List (FactorId × Value)
  | [] => []
  | c :: cs => tests c ++ testsOfList cs

end

theorem evaluateAny_eq (s : Snapshot) (cs : List Condition) :
    evaluateAny s cs = cs.any (evaluate s) := by
  induction cs with
  | nil => rfl
  | cons c cs ih => simp [evaluateAny, ih]

theorem testsOfList_eq (cs : List Condition) : testsOfList cs = cs.flatMap tests := by
  induction cs with
  | nil => rfl
  | cons c cs ih => simp [testsOfList, ih]

/-- The condition that always holds. -/
def always : Condition := .all []

/-! ## Tests -/

example : evaluate ⟨[⟨"x"⟩]⟩ (.all [.any [.holds ⟨0⟩ ⟨"y"⟩, .holds ⟨0⟩ ⟨"x"⟩], always]) = true := by
  decide
/-- A test of a factor that is not there does not hold. -/
example : evaluate ⟨[⟨"x"⟩]⟩ (.holds ⟨1⟩ ⟨"x"⟩) = false := by decide

end Condition

end Storyworld
