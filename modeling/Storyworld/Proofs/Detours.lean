import Storyworld.Proofs.Narration
import Storyworld.Proofs.Questions

/-!
# Detours

A *detour* is a list of lines that leads a game from a question back to where it stands: the
same session and the same generator.  A line that is none of the answers is one
(`questionAfter?_rejected`), and so is a step back with the step forward behind it, or the
other way round (`questionAfter?_back_and_forth`, `questionAfter?_forth_and_back`).

A game remembers nothing but its session and its generator.  So what comes after a detour
cannot tell that there was one: the game goes on as it would have, and all that is left of the
detour is what was shown on it, at its place among the events (`play_questionAfter?`).
-/

namespace Storyworld

/-! ## Words for a step -/

/-- A line asks for a step back. -/
def Action.AsksBack (line : String) : Prop :=
  trim line.toList = "u".toList ∨ trim line.toList = "undo".toList

/-- A line asks for a step forward. -/
def Action.AsksForth (line : String) : Prop :=
  trim line.toList = "r".toList ∨ trim line.toList = "redo".toList

theorem Action.AsksBack.ofLine? {line : String} (h : AsksBack line) (choices : List Transition) :
    ofLine? choices line = some .undo := ofLine?_eq_some_iff.mpr (.undo h)

theorem Action.AsksForth.ofLine? {line : String} (h : AsksForth line)
    (choices : List Transition) : ofLine? choices line = some .redo :=
  ofLine?_eq_some_iff.mpr (.redo h)

namespace Game

variable {G : Type}

/-- Menus tell nothing. -/
theorem toldTexts_ask (g g' : Game G) : Course.toldTexts (g.ask ++ g'.ask) = [] := rfl

variable [Generator G]

/-! ## From question to question -/

/-- The game at the question behind lines, if all of them are read and one is asked. -/
def questionAfter? (g : Game G) : List (Except String String) → Option (Game G)
  | [] => some g
  | .error _ :: _ => none
  | .ok line :: lines =>
      match g.answer line with
      | .asks shown => shown.game.questionAfter? lines
      | .ends | .fails _ => none

theorem questionAfter?_cons {g : Game G} {line : String} {shown : Shown G}
    (h : g.answer line = .asks shown) (lines : List (Except String String)) :
    g.questionAfter? (.ok line :: lines) = shown.game.questionAfter? lines := by
  rw [questionAfter?, h]

theorem answerAll_cons {g : Game G} {line : String} {shown : Shown G}
    (h : g.answer line = .asks shown) (lines : List (Except String String)) :
    g.answerAll (.ok line :: lines) =
      { shown.game.answerAll lines with
        events := shown.events ++ (shown.game.answerAll lines).events } := by
  rw [answerAll, h]

/-- Lines behind a question are answered from there. -/
theorem answerAll_append (lines more : List (Except String String)) {g q : Game G}
    (h : g.questionAfter? lines = some q) :
    g.answerAll (lines ++ more) =
      { q.answerAll more with
        events := (g.answerAll lines).events ++ (q.answerAll more).events } := by
  induction lines generalizing g with
  | nil =>
      cases h
      rfl
  | cons line lines ih =>
      cases line with
      | error reason => cases h
      | ok line =>
          cases hanswer : g.answer line with
          | ends => simp [questionAfter?, hanswer] at h
          | fails reason => simp [questionAfter?, hanswer] at h
          | asks shown =>
              rw [questionAfter?_cons hanswer] at h
              rw [List.cons_append, answerAll_cons hanswer, answerAll_cons hanswer, ih h,
                List.append_assoc]

/-- The game at the question behind lines is the one that they end with. -/
theorem answerAll_game (lines : List (Except String String)) {g q : Game G}
    (h : g.questionAfter? lines = some q) : (g.answerAll lines).game = q := by
  have happend := answerAll_append lines [] h
  rw [List.append_nil] at happend
  rw [happend]
  rfl

theorem questionAfter?_of_isSome (lines : List (Except String String)) {g : Game G}
    (h : (g.questionAfter? lines).isSome = true) :
    g.questionAfter? lines = some (g.answerAll lines).game := by
  obtain ⟨q, hq⟩ := Option.isSome_iff_exists.mp h
  rw [hq, answerAll_game lines hq]

/-- Lines behind a question of a game are answered from there. -/
theorem play_append (before more : List (Except String String)) {g q : Game G}
    (h : g.opening.game.questionAfter? before = some q) :
    g.play (before ++ more) =
      { q.answerAll more with
        events := (g.play before).events ++ (q.answerAll more).events } := by
  simp only [play, answerAll_append before more h, List.append_assoc]

/-- The game at a question has a session like any other. -/
theorem questionAfter?_follows {u : Universe} {settings : Settings}
    (lines : List (Except String String)) {g q : Game G} {tl : Timeline}
    (h : g.session.Follows u settings tl) (hq : g.questionAfter? lines = some q) :
    ∃ tl', q.session.Follows u settings tl' := by
  rw [← answerAll_game lines hq, answerAll_session]
  exact ⟨_, (h.run _).2⟩

/-! ## Detours -/

section Detours

variable {q : Game G}

/-- A line that is no answer leads nowhere. -/
theorem questionAfter?_rejected {line : String}
    (h : Action.ofLine? q.session.choices line = none) :
    q.questionAfter? [.ok line] = some q ∧ (q.answerAll [.ok line]).events =
      [.rejected (q.session.choices.length + 1), .question] := by
  rw [questionAfter?_cons (answer_of_none h), answerAll_cons (answer_of_none h)]
  exact ⟨rfl, rfl⟩

theorem answer_back {line : String} (h : Action.AsksBack line) {s : Session}
    (hs : q.session.undo? = some s) :
    q.answer line = .asks ⟨(Game.mk s q.generator).ask, ⟨s, q.generator⟩⟩ := by
  rw [answer, h.ofLine?, hs]
  rfl

theorem answer_forth {line : String} (h : Action.AsksForth line) {s : Session}
    (hs : q.session.redo? = some s) :
    q.answer line = .asks ⟨(Game.mk s q.generator).ask, ⟨s, q.generator⟩⟩ := by
  rw [answer, h.ofLine?, hs]
  rfl

variable {u : Universe} {settings : Settings} {tl : Timeline}

/-- A step back and a step forward lead to the question where they began. -/
theorem questionAfter?_back_and_forth (h : q.session.Follows u settings tl) {back forth : String}
    (hback : Action.AsksBack back) (hforth : Action.AsksForth forth) {s : Session}
    (hs : q.session.undo? = some s) :
    q.questionAfter? [.ok back, .ok forth] = some q ∧
      (q.answerAll [.ok back, .ok forth]).events = (Game.mk s q.generator).ask ++ q.ask := by
  have hthere := answer_back hback hs
  have hhere := answer_forth (q := ⟨s, q.generator⟩) hforth (h.redo?_of_undo? hs)
  rw [questionAfter?_cons hthere, questionAfter?_cons hhere, answerAll_cons hthere,
    answerAll_cons hhere]
  exact ⟨rfl, congrArg (_ ++ ·) (List.append_nil _)⟩

/-- A step forward and a step back lead to the question where they began. -/
theorem questionAfter?_forth_and_back (h : q.session.Follows u settings tl) {back forth : String}
    (hback : Action.AsksBack back) (hforth : Action.AsksForth forth) {s : Session}
    (hs : q.session.redo? = some s) :
    q.questionAfter? [.ok forth, .ok back] = some q ∧
      (q.answerAll [.ok forth, .ok back]).events = (Game.mk s q.generator).ask ++ q.ask := by
  have hthere := answer_forth hforth hs
  have hhere := answer_back (q := ⟨s, q.generator⟩) hback (h.undo?_of_redo? hs)
  rw [questionAfter?_cons hthere, questionAfter?_cons hhere, answerAll_cons hthere,
    answerAll_cons hhere]
  exact ⟨rfl, congrArg (_ ++ ·) (List.append_nil _)⟩

end Detours

/-! ## Whole games -/

/-- Lines more or less between others make no difference to a game but for what is shown on
them. -/
structure Detour (g : Game G) (before detour after : List (Except String String))
    (shown : List Event) : Prop where
  /-- The game ends with the same session and the same generator. -/
  game : (g.play (before ++ detour ++ after)).game = (g.play (before ++ after)).game
  /-- It ends in the same way. -/
  result : (g.play (before ++ detour ++ after)).result = (g.play (before ++ after)).result
  /-- What is shown on the detour stands where it was made. -/
  events : ∃ rest, (g.play (before ++ after)).events = (g.play before).events ++ rest ∧
    (g.play (before ++ detour ++ after)).events = (g.play before).events ++ shown ++ rest
  /-- Nothing is told on it. -/
  silent : Course.toldTexts shown = []
  /-- So the same is told. -/
  told : Course.toldTexts (g.play (before ++ detour ++ after)).events =
    Course.toldTexts (g.play (before ++ after)).events

/-- Lines that lead back to the question where they begin are a detour if nothing is told. -/
theorem play_questionAfter? {g q : Game G} {before detour : List (Except String String)}
    {shown : List Event} (hq : g.opening.game.questionAfter? before = some q)
    (hdetour : q.questionAfter? detour = some q ∧ (q.answerAll detour).events = shown)
    (hsilent : Course.toldTexts shown = []) (after : List (Except String String)) :
    g.Detour before detour after shown := by
  obtain ⟨hback, rfl⟩ := hdetour
  have hwithout := play_append before after hq
  have hwith : g.play (before ++ detour ++ after) =
      { q.answerAll after with
        events := (g.play before).events ++ (q.answerAll detour).events ++
          (q.answerAll after).events } := by
    rw [List.append_assoc, play_append before _ hq, answerAll_append detour after hback,
      List.append_assoc]
  refine ⟨by rw [hwith, hwithout], by rw [hwith, hwithout],
    ⟨(q.answerAll after).events, by rw [hwithout], by rw [hwith]⟩, hsilent, ?_⟩
  rw [hwith, hwithout]
  simp only [Course.toldTexts_append, hsilent, List.append_nil]

/-- At any question of any game, lines that are none of the answers are a detour, and so are a step
back and one forward in either order, as far as there is a way. -/
theorem play_detours {u : Universe} (settings : Settings)
    (earlier : List (Operation G)) (generator : G) (before after : List (Except String String))
    {q : Game G}
    (hq : (Game.mk (Session.after u settings earlier) generator).opening.game.questionAfter?
      before = some q) :
    (∀ line, Action.ofLine? q.session.choices line = none →
      (Game.mk (Session.after u settings earlier) generator).Detour before [.ok line] after
        [.rejected (q.session.choices.length + 1), .question]) ∧
    ∀ back forth, Action.AsksBack back → Action.AsksForth forth →
      (q.session.canUndo = true → ∃ s, q.session.undo? = some s ∧
        (Game.mk (Session.after u settings earlier) generator).Detour before
          [.ok back, .ok forth] after ((Game.mk s q.generator).ask ++ q.ask)) ∧
      (q.session.canRedo = true → ∃ s, q.session.redo? = some s ∧
        (Game.mk (Session.after u settings earlier) generator).Detour before
          [.ok forth, .ok back] after ((Game.mk s q.generator).ask ++ q.ask)) := by
  obtain ⟨tl, hfollows⟩ : ∃ tl, q.session.Follows u settings tl := by
    have hstart := ((Session.follows_start u settings).run earlier).2
    exact questionAfter?_follows before (hstart.perform (.pass generator)).2 hq
  refine ⟨fun line hline => ?_, fun back forth hback hforth => ⟨fun hcan => ?_, fun hcan => ?_⟩⟩
  · exact play_questionAfter? hq (questionAfter?_rejected hline) rfl after
  · obtain ⟨s, hs⟩ := Option.isSome_iff_exists.mp hcan
    exact ⟨s, hs, play_questionAfter? hq
      (questionAfter?_back_and_forth hfollows hback hforth hs) (toldTexts_ask _ _) after⟩
  · obtain ⟨s, hs⟩ := Option.isSome_iff_exists.mp hcan
    exact ⟨s, hs, play_questionAfter? hq
      (questionAfter?_forth_and_back hfollows hback hforth hs) (toldTexts_ask _ _) after⟩

/-- The door was opened, the wind shut it, and one step was taken back. -/
def doorBack : List (Except String String) := [.ok "2", .ok "u"]

/-- From the open door one can go either way, and a line is none of the answers. -/
theorem play_detours_door :
    let g := Game.mk (Session.after door {} doorRun) (Replay.mk #[] 0)
    let q := (g.opening.game.answerAll doorBack).game
    g.opening.game.questionAfter? doorBack = some q ∧
      Action.ofLine? q.session.choices "7" = none ∧
      g.Detour doorBack [.ok "7"] [.ok "1"]
        [.rejected (q.session.choices.length + 1), .question] ∧
      q.session.canUndo = true ∧ q.session.canRedo = true ∧
      (∃ s, q.session.undo? = some s ∧
        g.Detour doorBack [.ok " u", .ok "redo"] [.ok "1"]
          ((Game.mk s q.generator).ask ++ q.ask)) ∧
      ∃ s, q.session.redo? = some s ∧
        g.Detour doorBack [.ok "redo", .ok " u"] [.ok "1"]
          ((Game.mk s q.generator).ask ++ q.ask) := by
  intro g q
  have hq : g.opening.game.questionAfter? doorBack = some q :=
    questionAfter?_of_isSome doorBack (by decide +kernel)
  have hundo : q.session.canUndo = true := by decide +kernel
  have hredo : q.session.canRedo = true := by decide +kernel
  obtain ⟨hrejected, hsteps⟩ := play_detours {} doorRun (Replay.mk #[] 0) doorBack [.ok "1"] hq
  obtain ⟨hback, hforth⟩ := hsteps " u" "redo" (.inl (by decide +kernel)) (.inr (by decide +kernel))
  have hnone : Action.ofLine? q.session.choices "7" = none := by decide +kernel
  exact ⟨hq, hnone, hrejected "7" hnone, hundo, hredo, hback hundo, hforth hredo⟩

end Game

end Storyworld
