import Storyworld.Story.Reader

/-!
# The grammar of stories

A story is a sequence of blocks.

    factor NAME : ( VALUE , ... )
    transition [NAME] : ( CONDITION , SCHEDULE , EFFECTS [, "TEXT"] )
    description : ( CONDITION , "TEXT" )

    CONDITION := DISJUNCTION & ...
    DISJUNCTION := TEST | ...
    TEST := ( CONDITION ) or FACTOR = VALUE
    SCHEDULE := spontaneous NUMBER or choice : "TEXT"
    EFFECTS := EFFECT or ( EFFECT , ... )
    EFFECT := FACTOR - > VALUE

In a condition `&` binds looser than `|`.  Every condition read is a conjunction
of disjunctions, also where one term stands alone.

A block is registered as soon as it has been read, so it can speak of factors
declared before it and of no others.  A factor's name is looked up where it
stands, before the tokens that follow it are read.

Only parentheses nest, so `conditionWithin` recurses on a bound of their depth.
-/

namespace Storyworld.Reading

/-! ## Conditions -/

/-- A test of a factor.  It is noted if the factor can not hold the value. -/
def test : Step Condition := do
  let name ← word "a factor name or `(`"
  let factor ← resolve name
  let _ ← expect (.mark .equals)
  let v ← value
  if !factor.admits v.node then
    note (.neverHolds name.node v.node) ⟨name.span.start, v.span.stop⟩
  return .holds factor.id v.node

/-- A condition in parentheses, or a test. -/
def term (nested : Step Condition) : Step Condition := do
  if (← look) = .mark .openParen then
    let _ ← pass
    let inner ← nested
    let _ ← expect (.mark .closeParen)
    return inner
  else test

/-- A condition with parentheses at most so deep. -/
def conditionWithin : Nat → Step Condition
  | 0 => unexpected "a factor name or `(`"
  | depth + 1 => do
      let clauses ← separated .ampersand do
        let terms ← separated .pipe (term (conditionWithin depth))
        return Condition.any terms
      return .all clauses

/-- A condition.  Each parenthesis is one of the lexemes that are left. -/
def condition : Step Condition := do conditionWithin ((← get).ahead.length + 1)

/-! ## Schedules and effects -/

/-- The probability of a spontaneous transition.  It is noted if above one. -/
def probability : Step Binary64 := do
  let p ← match ← look with
    | .whole n => pure (Binary64.ofNat n)
    | .decimal x => pure x
    | _ => unexpected "a probability"
  let span ← pass
  if p.exceeds 1 0 then note (.aboveOne p) span
  return p

/-- A schedule. -/
def schedule : Step Schedule := do
  match ← look with
  | .keyword .spontaneous =>
      let _ ← pass
      return .spontaneous (← probability)
  | .keyword .choice =>
      let _ ← pass
      let _ ← expect (.mark .colon)
      return .chosen (← text "the choice text").node
  | _ => unexpected "`spontaneous` or `choice`"

/-- An effect.  It is noted if the value is not declared for the factor. -/
def effect : Step (FactorId × Value) := do
  let name ← word "a factor name"
  let factor ← resolve name
  let _ ← expect (.mark .minus)
  let _ ← expect (.mark .greater)
  let v ← value
  if !factor.admits v.node then note (.undeclaredValue v.node name.node) v.span
  return (factor.id, v.node)

/-- One effect, or several in parentheses. -/
def effects : Step (List (FactorId × Value)) := do
  if (← look) = .mark .openParen then
    let _ ← pass
    let es ← separated .comma effect
    let _ ← expect (.mark .closeParen)
    return es
  else return [← effect]

/-! ## Blocks -/

/-- The findings of a list of values in which some are listed again. -/
def repetitions (factor : String) : List Value → List (Spanned Value) → List (Spanned Finding)
  | _, [] => []
  | seen, v :: vs =>
      if seen.contains v.node then
        ⟨.repeatedValue v.node factor, v.span⟩ :: repetitions factor seen vs
      else repetitions factor (v.node :: seen) vs

/-- Read and declare a factor. -/
def factorBlock : Step Unit := do
  let _ ← expect (.keyword .factor)
  let name ← word "a factor name"
  let _ ← expect (.mark .colon)
  let _ ← expect (.mark .openParen)
  let values ← separated .comma value
  let _ ← expect (.mark .closeParen)
  modify fun r => { r with findings := r.findings ++ repetitions name.node [] values }
  match (← get).world.addFactor name.node (values.map Spanned.node) with
  | .ok (_, world) => modify fun r => { r with world := world }
  | .error (.duplicateFactor _) => refuse (.duplicateFactor name.node) name.span
  | .error (.emptyFactor _) => refuse (.emptyFactor name.node) name.span
  | .error cause => throw (.model cause)

/-- Read and declare a transition. -/
def transitionBlock : Step Unit := do
  let _ ← expect (.keyword .transition)
  let label ← match ← look with
    | .word _ => pure (← word "a transition name").node
    | _ => pure ""
  let _ ← expect (.mark .colon)
  let _ ← expect (.mark .openParen)
  let c ← condition
  let _ ← expect (.mark .comma)
  let s ← schedule
  let _ ← expect (.mark .comma)
  let es ← effects
  let told ← if (← look) = .mark .comma then do
      let _ ← pass
      pure (← text "a description string").node
    else pure ""
  let _ ← expect (.mark .closeParen)
  match (← get).world.addTransition label c s told es with
  | .ok (_, world) => modify fun r => { r with world := world }
  | .error cause => throw (.model cause)

/-- Read a description. -/
def descriptionBlock : Step Unit := do
  let first ← expect (.keyword .description)
  let _ ← expect (.mark .colon)
  let _ ← expect (.mark .openParen)
  let c ← condition
  let _ ← expect (.mark .comma)
  let told ← text "a description string"
  let last ← expect (.mark .closeParen)
  modify fun r =>
    { r with descriptions := r.descriptions ++ [⟨c, told.node, ⟨first.start, last.stop⟩⟩] }

/-- Read blocks up to the end of the story, at most so many. -/
def blocks : Nat → Step Unit
  | 0 => return
  | n + 1 => do
      match ← look with
      | .keyword .factor => factorBlock; blocks n
      | .keyword .transition => transitionBlock; blocks n
      | .keyword .description => descriptionBlock; blocks n
      | .finish => return
      | _ => unexpected "`factor`, `transition` or `description`"

end Storyworld.Reading
