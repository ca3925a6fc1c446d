import Storyworld.Text.Similarity
import Storyworld.Universe

/-!
# Suggestions

When a story uses a factor that is not declared, the declared name most like the
one written is suggested, if it is like it at all.  Case does not count.  Names
in a story are made of ASCII letters, so lowering those is all there is to do.
-/

namespace Storyworld

/-- How alike a name must be to be suggested. -/
def suggestionThreshold : Float := 0.8

/-- The letters of a name in lower case. -/
def lowered (name : String) : List Char := name.toList.map Char.toLower

/-- The better of two scored names; of two equally good the later one. -/
def betterScored (best : Option (String × Float)) (next : String × Float) :
    Option (String × Float) :=
  match best with
  | some b => if next.2 < b.2 then some b else some next
  | none => some next

/-- The declared factor name most like a name, if one is like enough. -/
def Universe.closest? (u : Universe) (name : String) : Option String :=
  let scored := u.factors.map fun f =>
    (f.label, Similarity.jaroWinkler (lowered name) (lowered f.label))
  let near := scored.filter fun p => suggestionThreshold ≤ p.2
  (near.foldl betterScored none).map (·.1)

/-! ## Tests -/

example :
    let u : Universe := ⟨[⟨⟨0⟩, "moon", ⟨"x"⟩, []⟩, ⟨⟨1⟩, "weather", ⟨"x"⟩, []⟩], []⟩
    u.closest? "Weathr" = some "weather" := by decide +kernel

end Storyworld
