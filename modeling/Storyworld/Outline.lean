import Storyworld.Story.Compile
import Storyworld.Story.Written
import Storyworld.Text.Json

/-!
# Outlines

An outline is a compiled story told by names instead of handles, for other
programs to read.  `Compilation.outline` takes the names from the universe, and
`Outline.json` is the outline as JSON: the fields in the order of the structures
here, the effects of a transition in the order of the factors' names.
-/

namespace Storyworld

/-! ## By names -/

/-- A factor by names. -/
structure FactorOutline where
  /-- Its name. -/
  name : String
  /-- Its initial value. -/
  initial : String
  /-- All its values. -/
  values : List String
deriving DecidableEq, Repr

/-- A transition by names. -/
structure TransitionOutline where
  /-- Its label. -/
  name : String
  /-- Its condition as a story has it. -/
  condition : String
  /-- Its schedule. -/
  schedule : Schedule
  /-- The factors it changes and to what, in the order of their names. -/
  effects : List (String × String)
  /-- Its text. -/
  description : String
deriving DecidableEq, Repr

/-- A description block by names. -/
structure DescriptionOutline where
  /-- Its condition as a story has it. -/
  condition : String
  /-- Its text. -/
  text : String
deriving DecidableEq, Repr

/-- A compiled story by names. -/
structure Outline where
  /-- The factors. -/
  factors : List FactorOutline
  /-- The transitions. -/
  transitions : List TransitionOutline
  /-- The description blocks. -/
  descriptions : List DescriptionOutline
deriving DecidableEq, Repr

/-- A factor by names. -/
def Factor.outline (f : Factor) : FactorOutline :=
  ⟨f.label, f.initial.text, f.values.map Value.text⟩

/-- Of entries in the order of their names, the last one for each name. -/
def lastOfEach : List (String × String) → List (String × String)
  | [] => []
  | [e] => [e]
  | e :: e' :: es =>
      if e.1 = e'.1 then lastOfEach (e' :: es) else e :: lastOfEach (e' :: es)

/-- Effects by names, in the order of the factors' names.  A name stands once, with the last
value it is given. -/
def Effects.outline (u : Universe) (e : Effects) : List (String × String) :=
  lastOfEach <|
    (e.entries.map fun (f, v) => (u.labelOf f, v.text)).mergeSort fun a b => decide (a.1 ≤ b.1)

/-- A transition by names. -/
def Transition.outline (u : Universe) (t : Transition) : TransitionOutline :=
  ⟨t.label, t.condition.write u, t.schedule, t.effects.outline u, t.text⟩

/-- A compiled story by names. -/
def Compilation.outline (c : Compilation) : Outline where
  factors := c.world.factors.map Factor.outline
  transitions := c.world.transitions.map (Transition.outline c.world)
  descriptions := c.descriptions.map fun d => ⟨d.condition.write c.world, d.text⟩

/-! ## As JSON -/

/-- A schedule as JSON. -/
def Schedule.json : Schedule → JsonText
  | .spontaneous p =>
      .object [("kind", .string "spontaneous"), ("probability_per_turn", .number p)]
  | .chosen offer => .object [("kind", .string "chosen"), ("choice_description", .string offer)]

/-- A factor as JSON. -/
def FactorOutline.json (f : FactorOutline) : JsonText :=
  .object [("name", .string f.name), ("initial", .string f.initial),
    ("values", .array (f.values.map .string))]

/-- A transition as JSON. -/
def TransitionOutline.json (t : TransitionOutline) : JsonText :=
  .object [("name", .string t.name), ("condition", .string t.condition),
    ("schedule", t.schedule.json),
    ("effects", .object (t.effects.map fun (f, v) => (f, .string v))),
    ("description", .string t.description)]

/-- A description block as JSON. -/
def DescriptionOutline.json (d : DescriptionOutline) : JsonText :=
  .object [("condition", .string d.condition), ("text", .string d.text)]

/-- An outline as JSON. -/
def Outline.json (o : Outline) : JsonText :=
  .object [("factors", .array (o.factors.map FactorOutline.json)),
    ("transitions", .array (o.transitions.map TransitionOutline.json)),
    ("descriptions", .array (o.descriptions.map DescriptionOutline.json))]

end Storyworld
