import Storyworld.History
import Storyworld.Universe

/-!
# Sessions

A session plays a universe.  It stands at one moment of its history, *now*, and
only `apply` makes new moments: it overlays the effects of a transition on what
the factors hold and moves to the moment made.  `apply` does not ask whether the
transition is possible; those who call it do.

A *pass* gives every spontaneous transition one chance.  Its candidates are the
transitions possible when it begins, in the order of declaration or shuffled.
Each in turn draws, and happens if the draw says so and its condition still
holds: earlier ones of the same pass may have changed that.

`undo`, `redo` and `goto` move within the history and make nothing, so the way
back is never lost by going back.
-/

namespace Storyworld

/-! ## Settings -/

/-- The order in which a pass considers its candidates. -/
inductive PassOrder where
  /-- As the story declares them. -/
  | declaration
  /-- Shuffled anew for every pass. -/
  | shuffled
deriving DecidableEq, Repr

/-- What can be chosen about a session before it starts. -/
structure Settings where
  /-- The seed of its generator. -/
  seed : UInt64 := 42
  /-- The order within a pass. -/
  order : PassOrder := .declaration
deriving DecidableEq, Repr

/-! ## Where a session stands -/

/-- A universe being played. -/
structure Session where
  /-- What is played. -/
  world : Universe
  /-- The moments so far. -/
  history : History
  /-- The moment where the session stands. -/
  now : MomentId
  /-- How it is played. -/
  settings : Settings

namespace Session

/-- A session at its beginning. -/
def start (u : Universe) (settings : Settings) : Session where
  world := u
  history := .start u.initial
  now := History.root
  settings := settings

/-- The moment where the session stands.  Every operation here moves to a moment that
there is. -/
def current? (s : Session) : Option Moment := s.history.get? s.now

/-- What the factors hold now. -/
def values (s : Session) : Snapshot := (s.current?.map Moment.values).getD ⟨[]⟩

/-- What a factor holds now. -/
def get? (s : Session) (f : FactorId) : Option Value := s.values.get? f

/-- What the factor of a name holds now. -/
def getByLabel? (s : Session) (label : String) : Option Value :=
  (s.world.findFactor? label).bind fun f => s.get? f.id

/-- Whether a factor holds one of its declared values now. -/
def isValid (s : Session) (id : FactorId) : Bool :=
  match s.world.factor? id, s.get? id with
  | some f, some v => f.admits v
  | _, _ => false

/-- The factors that hold now what they were not declared to hold. -/
def invalidFactors (s : Session) : List FactorId :=
  (s.world.factors.map Factor.id).filter fun id => !s.isValid id

/-- The transitions that can happen now, in the order of declaration. -/
def possible (s : Session) : List Transition :=
  s.world.transitions.filter fun t => t.isPossible s.values

/-- The transitions the player can choose now, in the order of declaration. -/
def choices (s : Session) : List Transition :=
  s.possible.filter fun t => t.schedule.isOffered

/-- A session is written with what its factors hold now, and a note at those that
hold what they were not declared to hold. -/
def display (s : Session) : String :=
  let shown (f : Factor) : String :=
    f.label ++ ":" ++ (if s.isValid f.id then "" else "<INVALID>") ++
      ((s.get? f.id).map Value.text).getD ""
  "State[" ++ ", ".intercalate (s.world.factors.map shown) ++ "]"

/-! ## Making moments -/

/-- Let a transition happen, whether or not it is possible. -/
def apply (s : Session) (t : Transition) : MomentId × Session :=
  let (id, history) := s.history.pushAfter s.now (s.values.overlay t.effects) t.id
  (id, { s with history := history, now := id })

/-- Let the transition with a handle happen. -/
def applyId (s : Session) (id : TransitionId) : Except ModelError (MomentId × Session) :=
  match s.world.transition? id with
  | some t => .ok (s.apply t)
  | none => .error (.unknownTransition id)

section Pass

variable {G : Type} [Generator G]

/-- Give each candidate in turn its chance.  Gives those that happened. -/
def passOver (s : Session) (g : G) : List Transition → List TransitionId × Session × G
  | [] => ([], s, g)
  | t :: ts =>
      let (fires, g) := t.schedule.fires g
      if fires && t.isPossible s.values then
        let (fired, s, g) := passOver (s.apply t).2 g ts
        (t.id :: fired, s, g)
      else passOver s g ts

/-- The candidates of a pass, in the order of the session. -/
def candidates (s : Session) (g : G) : List Transition × G :=
  match s.settings.order with
  | .declaration => (s.possible, g)
  | .shuffled => Random.shuffle s.possible g

/-- One pass.  Gives the transitions that happened, in order. -/
def runPass (s : Session) (g : G) : List TransitionId × Session × G :=
  let (ts, g) := s.candidates g
  s.passOver g ts

end Pass

/-! ## Moving through the history -/

/-- Go to a moment of the history. -/
def goto (s : Session) (id : MomentId) : Except ModelError Session :=
  if s.history.contains id then .ok { s with now := id } else .error (.unknownMoment id)

/-- The session one moment earlier, if there is one. -/
def undo? (s : Session) : Option Session :=
  (s.current?.bind Moment.past).map fun id => { s with now := id }

/-- The session one moment later, if there is one. -/
def redo? (s : Session) : Option Session :=
  (s.current?.bind Moment.future).map fun id => { s with now := id }

/-- Whether there is an earlier moment. -/
def canUndo (s : Session) : Bool := s.undo?.isSome

/-- Whether there is a later moment. -/
def canRedo (s : Session) : Bool := s.redo?.isSome

/-- The transitions that happened after a moment up to now, oldest first; none if the
moment is not one that now came from. -/
def eventsSince (s : Session) (id : MomentId) : List Transition :=
  ((s.history.causesSince? id s.now).getD []).filterMap s.world.transition?

end Session

end Storyworld
