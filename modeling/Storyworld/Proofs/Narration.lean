import Storyworld.Proofs.Rounds
import Storyworld.Random.Replay

/-!
# What a game tells

The *course* of a game is what goes on in it, in order: transitions happen, and things are
shown.  From one question to the next the transitions come first, those of the choice and
of the pass, and then what is shown of them.

A game finds out what happened by looking back from where its session stands to where it
stood at the last question.  Nothing goes back in between, so looking back meets that
moment, and what is found there are the transitions that happened since, no more and no
fewer (`round_tells`).  After a step back or forth nothing happened and nothing is told.
Each part of the course so ends with a question, and when it is asked everything is told
that has happened until then (`Punctual`).

`Game.Narrates` puts this together for a whole game, and `Game.play_narrates` says it of
every game.
-/

namespace Storyworld

/-! ## The course of a game -/

/-- What goes on in a game. -/
inductive Occurrence where
  /-- A transition happens. -/
  | happens (t : Transition)
  /-- Something is shown. -/
  | shows (e : Event)

/-- The transition that happens, if one does. -/
def Occurrence.transition? : Occurrence → Option Transition
  | .happens t => some t
  | .shows _ => none

/-- What is shown, if something is. -/
def Occurrence.event? : Occurrence → Option Event
  | .happens _ => none
  | .shows e => some e

/-- The text that an event tells, if it tells one. -/
def Event.told? : Event → Option String
  | .told text => some text
  | .menu _ | .question | .rejected _ | .nothingToUndo | .nothingToRedo => none

namespace Course

/-- Transitions happen, and then things are shown. -/
def stretch (ts : List Transition) (es : List Event) : List Occurrence :=
  ts.map .happens ++ es.map .shows

/-- The transitions that happen, in order. -/
def happened (os : List Occurrence) : List Transition := os.filterMap Occurrence.transition?

/-- What is shown, in order. -/
def shown (os : List Occurrence) : List Event := os.filterMap Occurrence.event?

/-- The texts that events tell, in order. -/
def toldTexts (es : List Event) : List String := es.filterMap Event.told?

/-- The texts of the transitions that have one, in order. -/
def textsOf (ts : List Transition) : List String :=
  (ts.filter fun t => t.text != "").map Transition.text

theorem happened_append (os more : List Occurrence) :
    happened (os ++ more) = happened os ++ happened more := List.filterMap_append

theorem shown_append (os more : List Occurrence) :
    shown (os ++ more) = shown os ++ shown more := List.filterMap_append

theorem toldTexts_append (es more : List Event) :
    toldTexts (es ++ more) = toldTexts es ++ toldTexts more := List.filterMap_append

theorem textsOf_append (ts more : List Transition) :
    textsOf (ts ++ more) = textsOf ts ++ textsOf more := by
  rw [textsOf, List.filter_append, List.map_append]
  rfl

theorem happened_stretch (ts : List Transition) (es : List Event) :
    happened (stretch ts es) = ts := by
  simp [happened, stretch, List.filterMap_append, List.filterMap_map, Function.comp_def,
    Occurrence.transition?]

theorem shown_stretch (ts : List Transition) (es : List Event) :
    shown (stretch ts es) = es := by
  simp [shown, stretch, List.filterMap_append, List.filterMap_map, Function.comp_def,
    Occurrence.event?]

theorem toldTexts_map_told (texts : List String) : toldTexts (texts.map Event.told) = texts := by
  simp [toldTexts, Event.told?, List.filterMap_map, Function.comp_def]

/-! ## Telling in time -/

/-- What was told is what happened: the texts of all transitions that have one, in order and
each once. -/
def Told (os : List Occurrence) : Prop := toldTexts (shown os) = textsOf (happened os)

theorem Told.append {os more : List Occurrence} (h : Told os) (h' : Told more) :
    Told (os ++ more) := by
  rw [Told, shown_append, toldTexts_append, h, h', happened_append, textsOf_append]

/-- What was told is what happened, in the end and whenever a question is asked. -/
structure Punctual (os : List Occurrence) : Prop where
  /-- In the end everything is told. -/
  told : Told os
  /-- When a question is asked everything is told. -/
  question : ∀ {before after}, os = before ++ .shows .question :: after → Told before

/-- Events tell transitions, and then show other things. -/
def Tells (ts : List Transition) (es : List Event) : Prop :=
  ∃ others : List Event, (∀ e ∈ others, e.told? = none) ∧ es = (textsOf ts).map .told ++ others

theorem Tells.toldTexts_eq {ts : List Transition} {es : List Event} (h : Tells ts es) :
    toldTexts es = textsOf ts := by
  obtain ⟨others, hothers, rfl⟩ := h
  rw [toldTexts_append, toldTexts_map_told, toldTexts, List.filterMap_eq_nil_iff.mpr hothers,
    List.append_nil]

theorem Tells.told_stretch {ts : List Transition} {es : List Event} (h : Tells ts es) :
    Told (stretch ts es) := by
  rw [Told, shown_stretch, happened_stretch, h.toldTexts_eq]

namespace Punctual

theorem nil : Punctual [] := ⟨rfl, fun heq => by simp at heq⟩

theorem append {os more : List Occurrence} (h : Punctual os) (h' : Punctual more) :
    Punctual (os ++ more) := by
  refine ⟨h.told.append h'.told, fun {before after} heq => ?_⟩
  obtain ⟨rest, rfl, hmore⟩ | ⟨rest, hos, hquestion⟩ := List.append_eq_append_iff.mp heq
  · exact h.told.append (h'.question hmore)
  · cases rest with
    | nil => exact List.append_nil before ▸ hos ▸ h.told
    | cons o rest =>
        obtain ⟨rfl, -⟩ := List.cons.inj hquestion
        exact h.question hos

/-- It is enough to tell what happened before anything else is shown. -/
theorem of_tells {ts : List Transition} {es : List Event} (h : Tells ts es) :
    Punctual (stretch ts es) := by
  refine ⟨h.told_stretch, fun {before after} heq => ?_⟩
  obtain ⟨others, hothers, rfl⟩ := h
  -- What is told comes before any question, and what comes behind it tells nothing.
  have htelling : Told (stretch ts ((textsOf ts).map .told)) :=
    Tells.told_stretch ⟨[], nofun, (List.append_nil _).symm⟩
  rw [stretch, List.map_append, ← List.append_assoc] at heq
  obtain ⟨rest, rfl, hmore⟩ | ⟨rest, htold, hquestion⟩ := List.append_eq_append_iff.mp heq
  · obtain ⟨es, es', rfl, rfl, -⟩ := List.map_eq_append_iff.mp hmore
    have hsilent : Tells [] es := ⟨es, fun e he => hothers e (List.mem_append_left _ he), rfl⟩
    exact htelling.append hsilent.told_stretch
  · cases rest with
    | nil => exact List.append_nil before ▸ htold ▸ htelling
    | cons o rest =>
        obtain ⟨rfl, -⟩ := List.cons.inj hquestion
        have hmem : Occurrence.shows .question ∈ stretch ts ((textsOf ts).map .told) := by
          rw [stretch, htold]
          exact List.mem_append_right _ (List.mem_cons_self ..)
        simp [stretch] at hmem

end Punctual

end Course

/-! ## Games -/

namespace Game

variable {G : Type}

/-- Moving tells nothing. -/
theorem moved_tells (g : Game G) (session : Option Session) {otherwise : Event}
    (hotherwise : otherwise.told? = none) :
    Course.Tells [] (g.moved session otherwise).events := by
  have hask : ∀ (g : Game G), ∀ e ∈ g.ask, e.told? = none := by simp [ask, Event.told?]
  refine ⟨(g.moved session otherwise).events, ?_, rfl⟩
  cases session with
  | none => exact List.forall_mem_cons.mpr ⟨hotherwise, hask g⟩
  | some s => exact hask ⟨s, g.generator⟩

variable [Generator G]

/-- What goes on in a game from a question on that is answered with lines. -/
def courseAll (g : Game G) : List (Except String String) → List Occurrence
  | [] | .error _ :: _ => []
  | .ok line :: lines =>
      match g.answer line with
      | .asks shown =>
          Course.stretch (g.session.happenings (g.requests line)) shown.events ++
            shown.game.courseAll lines
      | .ends | .fails _ => []

/-- What goes on in a game that is played with lines. -/
def course (g : Game G) (lines : List (Except String String)) : List Occurrence :=
  Course.stretch (g.session.happening (.pass g.generator)) g.opening.events ++
    g.opening.game.courseAll lines

theorem shown_courseAll (lines : List (Except String String)) (g : Game G) :
    Course.shown (g.courseAll lines) = (g.answerAll lines).events := by
  induction lines generalizing g with
  | nil => rfl
  | cons line lines ih =>
      cases line with
      | error reason => rfl
      | ok line =>
          rw [courseAll, answerAll]
          cases g.answer line with
          | ends => rfl
          | fails reason => rfl
          | asks shown =>
              simp only
              rw [Course.shown_append, Course.shown_stretch, ih]

theorem happened_courseAll (lines : List (Except String String)) (g : Game G) :
    Course.happened (g.courseAll lines) = g.session.happenings (g.requestsAll lines) := by
  induction lines generalizing g with
  | nil => rfl
  | cons line lines ih =>
      cases line with
      | error reason => rfl
      | ok line =>
          rw [courseAll, requestsAll]
          cases hanswer : g.answer line with
          | ends => rfl
          | fails reason => rfl
          | asks shown =>
              simp only
              rw [Course.happened_append, Course.happened_stretch, ih, answer_session hanswer,
                Session.happenings_append]

/-- The events of the course of a game are those it shows. -/
theorem shown_course (g : Game G) (lines : List (Except String String)) :
    Course.shown (g.course lines) = (g.play lines).events := by
  rw [course, Course.shown_append, Course.shown_stretch, shown_courseAll]
  rfl

/-- The transitions of the course of a game are those that the operations of its session let
happen. -/
theorem happened_course (g : Game G) (lines : List (Except String String)) :
    Course.happened (g.course lines) = g.session.happenings (g.playRequests lines) := by
  rw [course, Course.happened_append, Course.happened_stretch, happened_courseAll]
  rfl

/-! ## Each question -/

section Follows

variable {u : Universe} {settings : Settings} {tl : Timeline}

/-- A round tells the transitions that happened since the last question and those of its pass. -/
theorem round_tells (hu : u.Built) {s : Session} (h : s.Follows u settings tl)
    (ts : List Transition) (hts : ∀ t ∈ ts, t ∈ u.transitions) (generator : G) :
    Course.Tells (ts ++ (s.applyAll ts).happening (.pass generator))
      ((Game.mk (s.applyAll ts) generator).round s.now).events := by
  have hpass : ∀ t ∈ (s.applyAll ts).happening (.pass generator), t ∈ u.transitions := by
    intro t ht
    have hpossible := List.mem_of_mem_filter (Session.mem_happening_pass ht).1
    rwa [(h.applyAll ts).world] at hpossible
  have hall : ∀ t ∈ ts ++ (s.applyAll ts).happening (.pass generator),
      u.transition? t.id = some t := fun t ht =>
    hu.transition?_id ((List.mem_append.mp ht).elim (hts t) (hpass t))
  have hsession : ((Game.mk (s.applyAll ts) generator).round s.now).game.session =
      s.applyAll (ts ++ (s.applyAll ts).happening (.pass generator)) := by
    rw [round_session, Session.perform_pass, Session.applyAll_append]
  have hevents := h.eventsSince_applyAll hall
  rw [← hsession] at hevents
  refine ⟨((Game.mk (s.applyAll ts) generator).round s.now).game.ask, ?_, ?_⟩
  · simp [ask, Event.told?]
  · rw [Course.textsOf, List.map_map, ← hevents]
    rfl

/-- What is shown up to the next question tells what happened since the last. -/
theorem answer_tells (hu : u.Built) {g : Game G} (h : g.session.Follows u settings tl)
    {line : String} {shown : Shown G} (hanswer : g.answer line = .asks shown) :
    Course.Tells (g.session.happenings (g.requests line)) shown.events := by
  rw [answer] at hanswer
  rw [requests]
  cases haction : Action.ofLine? g.session.choices line with
  | none =>
      rw [haction] at hanswer
      cases hanswer
      exact ⟨_, by simp [Event.told?], rfl⟩
  | some action =>
      rw [haction] at hanswer
      cases action with
      | leave => cases hanswer
      | wait =>
          cases hanswer
          have htells := round_tells hu h [] (List.forall_mem_nil _) g.generator
          rw [Session.happenings, Session.happenings, List.append_nil]
          exact htells
      | choose id =>
          simp only [Session.applyId, h.world] at hanswer
          simp only [Session.happenings, Session.happening, Session.perform, Session.applyId,
            h.world, List.append_nil]
          cases ht : u.transition? id with
          | none => simp [ht] at hanswer
          | some t =>
              simp only [ht] at hanswer
              cases hanswer
              exact round_tells hu h [t] (by simpa using List.mem_of_getElem? ht) g.generator
      | undo =>
          cases hanswer
          exact moved_tells g _ rfl
      | redo =>
          cases hanswer
          exact moved_tells g _ rfl

theorem courseAll_punctual (hu : u.Built) (lines : List (Except String String)) {g : Game G}
    (h : g.session.Follows u settings tl) : Course.Punctual (g.courseAll lines) := by
  induction lines generalizing g tl with
  | nil => exact .nil
  | cons line lines ih =>
      cases line with
      | error reason => exact .nil
      | ok line =>
          rw [courseAll]
          cases hanswer : g.answer line with
          | ends => exact .nil
          | fails reason => exact .nil
          | asks shown =>
              have hnext := (h.run (g.requests line)).2
              rw [← answer_session hanswer] at hnext
              exact (Course.Punctual.of_tells (answer_tells hu h hanswer)).append (ih hnext)

theorem course_punctual (hu : u.Built) (lines : List (Except String String)) {g : Game G}
    (h : g.session.Follows u settings tl) : Course.Punctual (g.course lines) := by
  have hopening := round_tells hu h [] (List.forall_mem_nil _) g.generator
  have hnext := (h.perform (.pass g.generator)).2
  exact (Course.Punctual.of_tells hopening).append (courseAll_punctual hu lines hnext)

end Follows

/-! ## Whole games -/

/-- A game tells what happens in it, in time. -/
structure Narrates (g : Game G) (lines : List (Except String String)) : Prop where
  /-- The events of its course are those that the game shows. -/
  shown : Course.shown (g.course lines) = (g.play lines).events
  /-- The transitions of its course are those that happen when its session does what the game
  asks of it, and that leads the session where it stands in the end. -/
  happened : Course.happened (g.course lines) = g.session.happenings (g.playRequests lines) ∧
    (g.play lines).game.session = (g.session.run (g.playRequests lines)).2
  /-- In the end the game has told the texts of the transitions that happened, in order and each
  once.  Those without a text are passed over. -/
  told : Course.toldTexts (g.play lines).events =
    Course.textsOf (g.session.happenings (g.playRequests lines))
  /-- It has done so whenever it asks a question. -/
  question : ∀ before after, g.course lines = before ++ .shows .question :: after →
    Course.toldTexts (Course.shown before) = Course.textsOf (Course.happened before)
  /-- A step back or forth tells nothing, and nothing happens. -/
  silent : ∀ line, Action.ofLine? (g.play lines).game.session.choices line = some .undo ∨
      Action.ofLine? (g.play lines).game.session.choices line = some .redo →
    ∃ shown, (g.play lines).game.answer line = .asks shown ∧
      Course.toldTexts shown.events = [] ∧
      (g.play lines).game.session.happenings ((g.play lines).game.requests line) = []

/-- A step back or forth tells nothing, and nothing happens. -/
theorem answer_silent {g : Game G} {line : String}
    (h : Action.ofLine? g.session.choices line = some .undo ∨
      Action.ofLine? g.session.choices line = some .redo) :
    ∃ shown, g.answer line = .asks shown ∧ Course.toldTexts shown.events = [] ∧
      g.session.happenings (g.requests line) = [] := by
  rcases h with haction | haction
  all_goals
    refine ⟨_, by rw [answer, haction], (moved_tells g _ rfl).toldTexts_eq, ?_⟩
    rw [requests, haction]
    rfl

/-- Every game tells what happens in it, in time, whatever was done before it began, with any
generator, in either order and with any lines. -/
theorem play_narrates {u : Universe} (hu : u.Built) (settings : Settings)
    (earlier : List (Operation G)) (generator : G) (lines : List (Except String String)) :
    (Game.mk (Session.after u settings earlier) generator).Narrates lines := by
  have hfollows := ((Session.follows_start u settings).run earlier).2
  have hpunctual : Course.Punctual
      ((Game.mk (Session.after u settings earlier) generator).course lines) :=
    course_punctual hu lines hfollows
  refine ⟨shown_course _ lines, ⟨happened_course _ lines, play_session _ lines⟩, ?_,
    fun before after => hpunctual.question, fun line => answer_silent⟩
  have htold := hpunctual.told
  rwa [Course.Told, shown_course, happened_course] at htold

/-- The door is opened, and shut again by a step back. -/
def doorRun : List (Operation Replay) := [.applyId ⟨0⟩, .undo]

/-- Two answers open the door, one goes back, one is none and one waits. -/
def doorLines : List (Except String String) := [.ok "2", .ok "u", .ok "7", .ok "1", .ok "2"]

/-- What is told of the door. -/
theorem play_narrates_door : door.Built ∧
    (Game.mk (Session.after door {} doorRun) (Replay.mk #[] 0)).Narrates doorLines ∧
    Course.toldTexts
        ((Game.mk (Session.after door {} doorRun) (Replay.mk #[] 0)).play doorLines).events =
      ["The door is open.", "The wind shuts the door.", "The wind shuts the door.",
        "The door is open.", "The wind shuts the door."] :=
  ⟨built_door, play_narrates built_door {} doorRun ⟨#[], 0⟩ doorLines, by decide +kernel⟩

end Game

end Storyworld
