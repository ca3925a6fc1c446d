import Storyworld.Handle
import Storyworld.Value

/-!
# Factors

A factor is a named variable of a story with a fixed, finite choice of values.
It always has at least one, the value every session starts with, so the values
are kept as that one and the others.
-/

namespace Storyworld

/-- A variable of a story. -/
structure Factor where
  /-- Its handle. -/
  id : FactorId
  /-- Its name, which no other factor of the story has. -/
  label : String
  /-- The value every session starts with. -/
  initial : Value
  /-- The further values it can hold, in the order of declaration. -/
  others : List Value
deriving DecidableEq, Repr

namespace Factor

/-- The values a factor can hold, the initial one first. -/
def values (f : Factor) : List Value := f.initial :: f.others

/-- Whether a value is one of those declared for the factor. -/
def admits (f : Factor) (v : Value) : Bool := f.values.contains v

@[simp] theorem admits_iff (f : Factor) (v : Value) : f.admits v = true ↔ v ∈ f.values := by
  simp [admits]

/-- The initial value is one of those declared. -/
theorem admits_initial (f : Factor) : f.admits f.initial = true := by simp [values]

/-- A factor is written in braces, with its name, its values and its initial value. -/
def display (f : Factor) : String :=
  "\x7b" ++ f.label ++ " [" ++ ", ".intercalate (f.values.map Value.text) ++ "] " ++
    f.initial.text ++ "\x7d"

end Factor

/-! ## Distinct values -/

/-- A list without the repetitions: each value stands where it stood first. -/
def distinct : List Value → List Value
  | [] => []
  | v :: vs => v :: (distinct vs).filter (· != v)

theorem mem_distinct (v : Value) (vs : List Value) : v ∈ distinct vs ↔ v ∈ vs := by
  induction vs with
  | nil => simp [distinct]
  | cons w ws ih => by_cases h : v = w <;> simp [distinct, h, ih]

theorem nodup_distinct (vs : List Value) : (distinct vs).Nodup := by
  induction vs with
  | nil => simp [distinct]
  | cons v vs ih =>
      rw [distinct, List.nodup_cons]
      exact ⟨by simp, List.Pairwise.filter _ ih⟩

example : distinct [⟨"a"⟩, ⟨"b"⟩, ⟨"a"⟩, ⟨"c"⟩, ⟨"b"⟩] = [⟨"a"⟩, ⟨"b"⟩, ⟨"c"⟩] := by decide

end Storyworld
