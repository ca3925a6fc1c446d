import Storyworld.Snapshot

/-!
# Effects

The effects of a transition say which factors it changes and to what.  They are
a finite map: each factor stands at most once, in increasing order of its
number.  A list of pairs becomes such a map by inserting the pairs in turn, so
that a later pair for the same factor replaces an earlier one (`ofList`).

The order of the entries is a convention for readers of the map.  What effects
do to a snapshot does not depend on it.
-/

namespace Storyworld

/-- A finite map from factors to the values they are given. -/
structure Effects where
  /-- The entries, in increasing order of the factors. -/
  entries : List (FactorId × Value)
deriving DecidableEq, Repr, Inhabited

namespace Effects

/-- No effects. -/
def empty : Effects := ⟨[]⟩

/-- Put an entry in its place among entries in increasing order, replacing the one
of the same factor. -/
def place (f : FactorId) (v : Value) : List (FactorId × Value) → List (FactorId × Value)
  | [] => [(f, v)]
  | (g, w) :: rest =>
      if f.index < g.index then (f, v) :: (g, w) :: rest
      else if f = g then (f, v) :: rest
      else (g, w) :: place f v rest

/-- The effects with one more entry. -/
def insert (e : Effects) (f : FactorId) (v : Value) : Effects := ⟨place f v e.entries⟩

/-- The effects that a list of pairs describes; the last pair for a factor counts. -/
def ofList (pairs : List (FactorId × Value)) : Effects :=
  pairs.foldl (fun e p => e.insert p.1 p.2) empty

/-- The last pair is inserted last. -/
theorem ofList_concat (pairs : List (FactorId × Value)) (p : FactorId × Value) :
    ofList (pairs ++ [p]) = (ofList pairs).insert p.1 p.2 := by
  rw [ofList, List.foldl_append]
  rfl

/-- The factors that are changed, in increasing order. -/
def factors (e : Effects) : List FactorId := e.entries.map (·.1)

end Effects

/-- The snapshot overlaid with effects. -/
def Snapshot.overlay (s : Snapshot) (e : Effects) : Snapshot := s.setAll e.entries

@[simp] theorem Snapshot.size_overlay (s : Snapshot) (e : Effects) :
    (s.overlay e).size = s.size := by
  suffices h : ∀ ws (s : Snapshot), (s.setAll ws).size = s.size from h _ _
  intro ws
  induction ws with
  | nil => intro s; rfl
  | cons w ws ih => intro s; simp [ih]

/-! ## Tests -/

example : Effects.ofList [(⟨2⟩, ⟨"a"⟩), (⟨0⟩, ⟨"b"⟩), (⟨2⟩, ⟨"c"⟩)]
    = ⟨[(⟨0⟩, ⟨"b"⟩), (⟨2⟩, ⟨"c"⟩)]⟩ := by decide

end Storyworld
