import Storyworld.Session
import Storyworld.Text.Blank

/-!
# Games

A game is a session that a player leads through a menu.  Each round has a pass,
tells what happened since the last menu, shows the menu and asks.  The player
answers with a line.  Going back and forth in the history shows the menu again
without a pass, since a pass could make a moment and so lose the way forward.

A game shows *events*, and `Event.text` is how each is written.  `Game.opening`
gives the events up to the first question and `Game.answer` those from one answer
to the next question.  `Game.play` answers a list of lines.

What happened since the last menu is what `Session.eventsSince` says of the
moment at which that menu was shown, and at a question the session stands at that
very moment.  So a game needs to remember nothing but its session and its
generator.
-/

namespace Storyworld

/-! ## Answers -/

/-- What a player can ask for. -/
inductive Action where
  /-- To leave. -/
  | leave
  /-- To do nothing. -/
  | wait
  /-- To let a transition of the menu happen. -/
  | choose (id : TransitionId)
  /-- To go back. -/
  | undo
  /-- To go forward again. -/
  | redo
deriving DecidableEq, Repr

/-- The number of 64-bit words. -/
def numeralLimit : Nat := twoTo 64

/-- The number that decimal digits say, with or without a plus sign before them. -/
def numeral? (cs : List Char) : Option Nat :=
  let digits := match cs with
    | '+' :: digits => digits
    | _ => cs
  if digits.isEmpty || !digits.all Char.isDigit then none
  else
    let n := Nat.ofDigitChars 10 digits 0
    if n < numeralLimit then some n else none

/-- The action that a line asks for, white space around it apart.  On the menu zero
leaves, one waits and the numbers from two on are the choices. -/
def Action.ofLine? (choices : List Transition) (line : String) : Option Action :=
  let cs := trim line.toList
  if cs = "u".toList ∨ cs = "undo".toList then some .undo
  else if cs = "r".toList ∨ cs = "redo".toList then some .redo
  else match numeral? cs with
    | none => none
    | some 0 => some .leave
    | some 1 => some .wait
    | some (k + 2) => (choices[k]?).map fun t => .choose t.id

/-! ## Events -/

/-- What a game shows. -/
inductive Event where
  /-- The text of a transition that happened. -/
  | told (text : String)
  /-- The menu, with what the choices offer. -/
  | menu (offers : List String)
  /-- The question for an answer. -/
  | question
  /-- That the answer was none, with the greatest number that is one. -/
  | rejected (greatest : Nat)
  /-- That there is no way back. -/
  | nothingToUndo
  /-- That there is no way forward. -/
  | nothingToRedo
deriving DecidableEq, Repr

/-- An event as it is written. -/
def Event.text : Event → String
  | .told text => text ++ "\n"
  | .menu offers =>
      let entries := "Exit." :: "Do nothing." :: offers
      String.join (entries.zipIdx.map fun (entry, i) => s!"  {i}. {entry}\n")
  | .question => "> "
  | .rejected greatest => s!"Please enter a number between 0 and {greatest}.\n"
  | .nothingToUndo => "Nothing to undo.\n"
  | .nothingToRedo => "Nothing to redo.\n"

/-! ## Games -/

/-- A session led by a player, and its generator. -/
structure Game (G : Type) where
  /-- The session. -/
  session : Session
  /-- The generator of its passes. -/
  generator : G

namespace Game

variable {G : Type}

/-- What the menu offers. -/
def offers (g : Game G) : List String :=
  g.session.choices.map fun t => t.schedule.offer?.getD ""

/-- Show the menu and ask. -/
def ask (g : Game G) : List Event := [.menu g.offers, .question]

/-- Tell the transitions that happened after a moment.  Those without a text are not
told. -/
def tellSince (g : Game G) (since : MomentId) : List Event :=
  ((g.session.eventsSince since).filter fun t => t.text != "").map fun t => .told t.text

/-- A game and what it showed on the way there. -/
structure Shown (G : Type) where
  /-- What was shown. -/
  events : List Event
  /-- The game. -/
  game : Game G

/-- Run a pass, tell what happened after a moment, show the menu and ask. -/
def round [Generator G] (g : Game G) (since : MomentId) : Shown G :=
  let (_, session, generator) := g.session.runPass g.generator
  let g : Game G := ⟨session, generator⟩
  ⟨g.tellSince since ++ g.ask, g⟩

/-- The game up to its first question. -/
def opening [Generator G] (g : Game G) : Shown G := g.round g.session.now

/-- Where an answer leads. -/
inductive Outcome (G : Type) where
  /-- To the next question. -/
  | asks (shown : Shown G)
  /-- To the end of the game. -/
  | ends
  /-- To a failure. -/
  | fails (reason : String)

/-- The game after the player moved in the history, or could not. -/
def moved (g : Game G) (session : Option Session) (otherwise : Event) : Shown G :=
  match session with
  | some s => let g : Game G := ⟨s, g.generator⟩; ⟨g.ask, g⟩
  | none => ⟨otherwise :: g.ask, g⟩

/-- Answer the question of a game with a line. -/
def answer [Generator G] (g : Game G) (line : String) : Outcome G :=
  let choices := g.session.choices
  match Action.ofLine? choices line with
  | none => .asks ⟨[.rejected (choices.length + 1), .question], g⟩
  | some .leave => .ends
  | some .wait => .asks (g.round g.session.now)
  | some (.choose id) =>
      match g.session.applyId id with
      | .ok (_, session) => .asks ((Game.mk session g.generator).round g.session.now)
      | .error e => .fails e.message
  | some .undo => .asks (g.moved g.session.undo? .nothingToUndo)
  | some .redo => .asks (g.moved g.session.redo? .nothingToRedo)

/-- A game that is over. -/
structure Played (G : Type) where
  /-- What was shown. -/
  events : List Event
  /-- The game at the last question. -/
  game : Game G
  /-- Whether it ended well. -/
  result : Except String Unit

/-- Answer a list of lines.  The game ends with them, if not before. -/
def answerAll [Generator G] (g : Game G) : List (Except String String) → Played G
  | [] => ⟨[], g, .ok ()⟩
  | .error reason :: _ => ⟨[], g, .error reason⟩
  | .ok line :: lines =>
      match g.answer line with
      | .ends => ⟨[], g, .ok ()⟩
      | .fails reason => ⟨[], g, .error reason⟩
      | .asks shown =>
          let rest := shown.game.answerAll lines
          { rest with events := shown.events ++ rest.events }

/-- Play a game from its beginning with a list of lines. -/
def play [Generator G] (g : Game G) (lines : List (Except String String)) : Played G :=
  let first := g.opening
  let rest := first.game.answerAll lines
  { rest with events := first.events ++ rest.events }

end Game

/-! ## Tests -/

example : Action.ofLine? [] " undo\n" = some .undo ∧ Action.ofLine? [] "+01" = some .wait ∧
    Action.ofLine? [] "2" = none ∧ Action.ofLine? [] "-1" = none := by decide +kernel

end Storyworld
