import Storyworld.Game
import Storyworld.Proofs.Happening

/-!
# What a game asks of its session

A game leads its session by the operations of sessions and has no other hold on it.
`Game.requests` lists the operations that the answer to a question comes to: a pass, a
transition of the menu and a pass, a step back or forth, or none.  `Game.playRequests`
lists those of a whole game.  The session of a game stands where these operations lead
(`answer_session`, `play_session`).  So what holds after every run of a session holds at
every question of a game.

What the player can choose is what the menu offers, and the menu offers what is possible
where the session stands (`mem_choices_of_ofLine?`).
-/

namespace Storyworld

/-- A choice is one of the menu. -/
theorem Action.mem_choices_of_ofLine? {choices : List Transition} {line : String}
    {id : TransitionId} (h : Action.ofLine? choices line = some (.choose id)) :
    ∃ t ∈ choices, t.id = id := by
  rw [ofLine?] at h
  split at h
  · cases h
  · split at h
    · cases h
    · split at h
      · cases h
      · cases h
      · cases h
      · obtain ⟨t, ht, hid⟩ := Option.map_eq_some_iff.mp h
        cases hid
        exact ⟨t, List.mem_of_getElem? ht, rfl⟩

namespace Game

variable {G : Type}

theorem moved_session (g : Game G) (moved : Option Session) (otherwise : Event) :
    (g.moved moved otherwise).game.session = moved.getD g.session := by
  cases moved <;> rfl

variable [Generator G]

/-! ## Operations -/

/-- The operations that a line comes to as the answer to a question. -/
def requests (g : Game G) (line : String) : List (Operation G) :=
  match Action.ofLine? g.session.choices line with
  | none | some .leave => []
  | some .wait => [.pass g.generator]
  | some (.choose id) => [.applyId id, .pass g.generator]
  | some .undo => [.undo]
  | some .redo => [.redo]

/-- The operations that lines come to as answers, one after the other. -/
def requestsAll (g : Game G) : List (Except String String) → List (Operation G)
  | [] | .error _ :: _ => []
  | .ok line :: lines =>
      match g.answer line with
      | .asks shown => g.requests line ++ shown.game.requestsAll lines
      | .ends | .fails _ => []

/-- The operations of a game that is played with lines. -/
def playRequests (g : Game G) (lines : List (Except String String)) : List (Operation G) :=
  .pass g.generator :: g.opening.game.requestsAll lines

theorem round_session (g : Game G) (since : MomentId) :
    (g.round since).game.session = (g.session.perform (.pass g.generator)).2 := rfl

/-- At the next question the session is where the operations led. -/
theorem answer_session {g : Game G} {line : String} {shown : Shown G}
    (h : g.answer line = .asks shown) :
    shown.game.session = (g.session.run (g.requests line)).2 := by
  rw [answer] at h
  rw [requests]
  cases haction : Action.ofLine? g.session.choices line with
  | none =>
      rw [haction] at h
      cases h
      rfl
  | some action =>
      rw [haction] at h
      cases action with
      | leave => cases h
      | wait =>
          cases h
          rfl
      | choose id =>
          simp only [Session.run_cons, Session.perform]
          cases happly : g.session.applyId id with
          | error e => simp [happly] at h
          | ok made =>
              simp only [happly] at h
              cases h
              rfl
      | undo =>
          cases h
          rw [moved_session, Session.run_cons]
          cases hundo : g.session.undo? with
          | none => rw [Session.perform_undo_of_none hundo]; rfl
          | some s => rw [Session.perform_undo_of_some hundo]; rfl
      | redo =>
          cases h
          rw [moved_session, Session.run_cons]
          cases hredo : g.session.redo? with
          | none => rw [Session.perform_redo_of_none hredo]; rfl
          | some s => rw [Session.perform_redo_of_some hredo]; rfl

theorem answerAll_session (lines : List (Except String String)) (g : Game G) :
    (g.answerAll lines).game.session = (g.session.run (g.requestsAll lines)).2 := by
  induction lines generalizing g with
  | nil => rfl
  | cons line lines ih =>
      cases line with
      | error reason => rfl
      | ok line =>
          rw [answerAll, requestsAll]
          cases hanswer : g.answer line with
          | ends => rfl
          | fails reason => rfl
          | asks shown =>
              simp only
              rw [ih, answer_session hanswer, Session.run_append]

/-- At the last question of a game the session is where the operations of the game led. -/
theorem play_session (g : Game G) (lines : List (Except String String)) :
    (g.play lines).game.session = (g.session.run (g.playRequests lines)).2 := by
  show (g.opening.game.answerAll lines).game.session = _
  rw [answerAll_session, playRequests, Session.run_cons]
  rfl

end Game

/-- A door that the player opens and the wind shuts. -/
def door : Universe where
  factors := [⟨⟨0⟩, "door", ⟨"shut"⟩, [⟨"open"⟩]⟩]
  transitions :=
    [⟨⟨0⟩, "", .holds ⟨0⟩ ⟨"shut"⟩, .chosen "Open it.", "The door is open.",
        .ofList [(⟨0⟩, ⟨"open"⟩)]⟩,
     ⟨⟨1⟩, "", .holds ⟨0⟩ ⟨"open"⟩, .spontaneous (.ofNat 1), "The wind shuts the door.",
        .ofList [(⟨0⟩, ⟨"shut"⟩)]⟩]

theorem built_door : door.Built := by
  let declared (n : Nat) : Universe := ⟨door.factors, door.transitions.take n⟩
  have hdoor : Universe.empty.addFactor "door" [⟨"shut"⟩, ⟨"open"⟩] = .ok (⟨0⟩, declared 0) := rfl
  have hopen : (declared 0).addTransition "" (.holds ⟨0⟩ ⟨"shut"⟩) (.chosen "Open it.")
      "The door is open." [(⟨0⟩, ⟨"open"⟩)] = .ok (⟨0⟩, declared 1) := rfl
  have hshut : (declared 1).addTransition "" (.holds ⟨0⟩ ⟨"open"⟩) (.spontaneous (.ofNat 1))
      "The wind shuts the door." [(⟨0⟩, ⟨"shut"⟩)] = .ok (⟨1⟩, door) := rfl
  exact .transition (.transition (.factor .empty hdoor) hopen) hshut

end Storyworld
