import Storyworld.Factor

/-!
# Snapshots

A snapshot is what every factor holds at one moment: one value for each factor,
in the order of declaration.  Writing to a factor that the snapshot does not
know changes nothing, so writing is total and keeps the number of values.
-/

namespace Storyworld

/-- The value of every factor at one moment. -/
structure Snapshot where
  /-- The values, in the order of the factors. -/
  values : List Value
deriving DecidableEq, Repr, Inhabited

namespace Snapshot

/-- What a factor holds, if the snapshot knows the factor. -/
def get? (s : Snapshot) (f : FactorId) : Option Value := s.values[f.index]?

/-- The number of factors. -/
def size (s : Snapshot) : Nat := s.values.length

/-- The snapshot after one factor was given a value. -/
def set (s : Snapshot) (f : FactorId) (v : Value) : Snapshot := ⟨s.values.set f.index v⟩

/-- The snapshot after several values were given, from left to right. -/
def setAll (s : Snapshot) (writes : List (FactorId × Value)) : Snapshot :=
  writes.foldl (fun s w => s.set w.1 w.2) s

@[simp] theorem size_set (s : Snapshot) (f : FactorId) (v : Value) :
    (s.set f v).size = s.size := by simp [set, size]

/-- A factor holds what was written to it, if the snapshot knows it; others hold
what they held. -/
theorem get?_set (s : Snapshot) (f g : FactorId) (v : Value) :
    (s.set f v).get? g = if f = g then (s.get? g).map fun _ => v else s.get? g := by
  simp only [set, get?, List.getElem?_set]
  by_cases h : f = g
  · subst h
    simp only [↓reduceIte]
    split <;> simp_all
  · have : f.index ≠ g.index := fun e => h (by cases f; cases g; simp_all)
    simp [h, this]

@[simp] theorem setAll_nil (s : Snapshot) : s.setAll [] = s := rfl

@[simp] theorem setAll_cons (s : Snapshot) (w : FactorId × Value) (ws : List (FactorId × Value)) :
    s.setAll (w :: ws) = (s.set w.1 w.2).setAll ws := rfl

theorem setAll_append (s : Snapshot) (ws us : List (FactorId × Value)) :
    s.setAll (ws ++ us) = (s.setAll ws).setAll us := by simp [setAll]

end Snapshot

/-! ## Tests -/

example : (Snapshot.mk [⟨"a"⟩, ⟨"b"⟩]).setAll [(⟨1⟩, ⟨"c"⟩), (⟨7⟩, ⟨"d"⟩), (⟨1⟩, ⟨"e"⟩)]
    = ⟨[⟨"a"⟩, ⟨"e"⟩]⟩ := by decide

end Storyworld
