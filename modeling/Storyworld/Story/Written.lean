import Storyworld.Universe

/-!
# Conditions as text

A condition can be written back in the form that stories have it.  Since `&`
binds looser than `|`, a conjunction needs parentheses only inside a disjunction,
and one of a single clause not even there.

Two conditions have no such form, the conjunction and the disjunction of nothing.
They are written as the truth values they are, and no story contains them.
-/

namespace Storyworld

/-- The name of a factor. -/
def Universe.labelOf (u : Universe) (id : FactorId) : String :=
  ((u.factor? id).map Factor.label).getD "?"

namespace Condition

/-- Whether a condition must stand in parentheses inside a disjunction. -/
def needsParens : Condition → Bool
  | .all (_ :: _ :: _) => true
  | _ => false

mutual

/-- A condition as a story has it. -/
def write (u : Universe) : Condition → String
  | .holds f v => u.labelOf f ++ " = " ++ v.text
  | .all [] => "true"
  | .any [] => "false"
  | .all cs => " & ".intercalate (writeClauses u cs)
  | .any cs => " | ".intercalate (writeTerms u cs)

/-- The clauses of a conjunction. -/
def writeClauses (u : Universe) : List Condition → List String
  | [] => []
  | c :: cs => write u c :: writeClauses u cs

/-- The terms of a disjunction. -/
def writeTerms (u : Universe) : List Condition → List String
  | [] => []
  | c :: cs =>
      (if c.needsParens then "(" ++ write u c ++ ")" else write u c) :: writeTerms u cs

end

/-! ## Tests -/

example : write .empty (.any [.all [.holds ⟨0⟩ ⟨"x"⟩, .any []], .all [.holds ⟨1⟩ ⟨"y"⟩]])
    = "(? = x & false) | ? = y" := by decide

end Condition

end Storyworld
