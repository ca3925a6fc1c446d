import Storyworld.Proofs.Links
import Storyworld.Proofs.Rounds
import Storyworld.Random.Replay

/-!
# Moments that are made by the rules

A session lets any transition happen that it is told to.  That a transition was possible,
and that it could come about as its schedule says, is left to those who ask.  A game asks by
the rules: a pass considers each candidate again when its turn comes, and the player
chooses from a menu of what is possible where the session stands.

`Entry.MadeLawfully` says of two neighbours on a timeline that the one was made from the
other by the rules, and `Session.Lawful` says it of all neighbours on the timeline of a
session.  A transition that can come about keeps it (`Session.Lawful.apply`), and so does a
pass (`Session.Lawful.pass`).  A step back or forth makes nothing (`Session.Lawful.move`),
and what is on the menu can come about (`Session.Lawful.choice`).  So each answer keeps it
(`Game.lawful_requests`), and every moment at every question of a game was made by the rules
(`Game.play_lawful`).
-/

namespace Storyworld

/-! ## One moment from another -/

/-- A transition of a universe can come about in a state: its condition holds there, and it is
offered to the player or happens by itself with a probability above zero. -/
structure Transition.Lawful (u : Universe) (s : Snapshot) (t : Transition) : Prop where
  /-- It is a transition of the universe. -/
  declared : t ∈ u.transitions
  /-- Its condition holds. -/
  possible : t.condition.evaluate s = true
  /-- It is offered, or has a chance above zero. -/
  scheduled : (∃ offer, t.schedule = .chosen offer) ∨ t.schedule.CanFire

/-- An entry was made from another by the rules. -/
def Entry.MadeLawfully (u : Universe) (e f : Entry) : Prop :=
  ∃ t : Transition, t.Lawful u e.values ∧ f.cause = some t.id ∧
    f.values = e.values.overlay t.effects

/-- All moments of a session were made by the rules, each from the one before it. -/
def Session.Lawful (u : Universe) (settings : Settings) (s : Session) : Prop :=
  ∃ tl, s.Follows u settings tl ∧ tl.entries.IsChain (Entry.MadeLawfully u)

namespace Session

variable {u : Universe} {settings : Settings} {s : Session}

theorem lawful_start (u : Universe) (settings : Settings) :
    (Session.start u settings).Lawful u settings :=
  ⟨_, follows_start u settings, List.isChain_singleton _⟩

namespace Lawful

theorem world (h : s.Lawful u settings) : s.world = u := by
  obtain ⟨tl, hfollows, -⟩ := h
  exact hfollows.world

/-- A transition that can come about where the session stands was not against the rules. -/
theorem apply (h : s.Lawful u settings) {t : Transition} (ht : t.Lawful u s.values) :
    (s.apply t).2.Lawful u settings := by
  obtain ⟨tl, hfollows, hchain⟩ := h
  rw [hfollows.values] at ht
  exact ⟨_, (hfollows.apply t).2, Timeline.isChain_apply hchain ⟨t, ht, rfl, rfl⟩⟩

theorem passes {cs ts : List Transition} (hpasses : s.Passes cs ts) (h : s.Lawful u settings)
    (hcs : ∀ t ∈ cs, t ∈ u.transitions) : (s.applyAll ts).Lawful u settings := by
  induction hpasses with
  | nil => exact h
  | happens hfire hpossible _ ih =>
      obtain ⟨ht, hrest⟩ := List.forall_mem_cons.mp hcs
      exact ih (h.apply ⟨ht, hpossible, .inr hfire⟩) hrest
  | stays _ _ ih => exact ih h (List.forall_mem_cons.mp hcs).2

variable {G : Type} [Generator G]

/-- A pass lets only happen what can, at the moment reached. -/
theorem pass (h : s.Lawful u settings) (g : G) :
    (s.perform (.pass g)).2.Lawful u settings := by
  rw [perform_pass]
  refine passes (happenOver_passes _ _ _) h fun t ht => ?_
  have hpossible := (s.candidates_perm g).mem_iff.mp ht
  exact h.world ▸ List.mem_of_mem_filter hpossible

/-- Moving makes nothing. -/
theorem move (h : s.Lawful u settings) (op : Operation G) (hop : op.navigates = true) :
    (s.perform op).2.Lawful u settings := by
  obtain ⟨tl, hfollows, hchain⟩ := h
  refine ⟨_, (hfollows.perform op).2, ?_⟩
  rw [(tl.perform_of_navigates u settings.order op hop).1]
  exact hchain

/-- What the player can choose can come about where the session stands. -/
theorem choice (h : s.Lawful u settings) {t : Transition} (ht : t ∈ s.choices) :
    t.Lawful u s.values := by
  obtain ⟨hpossible, hoffered⟩ := List.mem_filter.mp ht
  obtain ⟨hdeclared, hholds⟩ := List.mem_filter.mp hpossible
  refine ⟨h.world ▸ hdeclared, hholds, .inl ?_⟩
  cases hschedule : t.schedule with
  | chosen offer => exact ⟨offer, rfl⟩
  | spontaneous p =>
      rw [hschedule] at hoffered
      cases hoffered

/-- Every moment but the root was made by the rules from its past. -/
theorem moment (h : s.Lawful u settings) {id : MomentId} {m : Moment}
    (hm : s.history.get? id = some m) (hid : id ≠ History.root) :
    ∃ past before, ∃ t : Transition, m.past = some past ∧
      s.history.get? past = some before ∧ m.cause = some t.id ∧ t.Lawful u before.values ∧
      m.values = before.values.overlay t.effects := by
  obtain ⟨tl, hfollows, hchain⟩ := h
  obtain ⟨i, e, hi, rfl, rfl⟩ := hfollows.holds.exists_entry hm
  cases i with
  | zero => exact absurd ((History.index_eq_zero_iff tl hi).mp rfl) hid
  | succ i =>
      obtain ⟨hlt, rfl⟩ := List.getElem?_eq_some_iff.mp hi
      have hprev := List.getElem?_eq_getElem (Nat.lt_of_succ_lt hlt)
      obtain ⟨t, ht, hcause, hvalues⟩ := List.isChain_iff_getElem.mp hchain i hlt
      refine ⟨_, _, t, ?_, hfollows.holds.moment hprev, hcause, ht, hvalues⟩
      rw [momentAt, pastAt, hprev]
      rfl

end Lawful

end Session

/-! ## Games -/

namespace Game

variable {G : Type} [Generator G] {u : Universe} {settings : Settings}

/-- Whatever the player answers, the session is asked only for what is by the rules. -/
theorem lawful_requests (hu : u.Built) {g : Game G} (h : g.session.Lawful u settings)
    (line : String) : (g.session.run (g.requests line)).2.Lawful u settings := by
  rw [requests]
  cases haction : Action.ofLine? g.session.choices line with
  | none => exact h
  | some action =>
      cases action with
      | leave => exact h
      | wait => exact h.pass g.generator
      | choose id =>
          obtain ⟨t, ht, rfl⟩ := Action.mem_choices_of_ofLine? haction
          have hlawful := h.choice ht
          have hfound : g.session.world.transition? t.id = some t := by
            rw [h.world]
            exact hu.transition?_id hlawful.declared
          rw [Session.run_cons, Session.perform_applyId_of_some hfound]
          exact (h.apply hlawful).pass g.generator
      | undo => exact h.move (.undo : Operation G) rfl
      | redo => exact h.move (.redo : Operation G) rfl

theorem lawful_requestsAll (hu : u.Built) (lines : List (Except String String)) {g : Game G}
    (h : g.session.Lawful u settings) :
    (g.session.run (g.requestsAll lines)).2.Lawful u settings := by
  induction lines generalizing g with
  | nil => exact h
  | cons line lines ih =>
      cases line with
      | error reason => exact h
      | ok line =>
          rw [requestsAll]
          cases hanswer : g.answer line with
          | ends => exact h
          | fails reason => exact h
          | asks shown =>
              have hsession := answer_session hanswer
              have hnext := lawful_requests hu h line
              rw [← hsession] at hnext
              rw [Session.run_append, ← hsession]
              exact ih hnext

/-- At every question of a game, whatever the lines before it, every moment but the root was made
from its past by a transition of the story that could come about there. -/
theorem play_lawful (hu : u.Built) (settings : Settings) (generator : G)
    (lines : List (Except String String)) :
    let history := ((Game.mk (Session.start u settings) generator).play lines).game.session.history
    ∀ id m, history.get? id = some m → id ≠ History.root →
      ∃ past before, ∃ t : Transition, m.past = some past ∧ history.get? past = some before ∧
        m.cause = some t.id ∧ t.Lawful u before.values ∧
        m.values = before.values.overlay t.effects := by
  intro history id m hm hid
  have hopening := (Session.lawful_start u settings).pass generator
  have hlawful := lawful_requestsAll hu lines
    (g := (Game.mk (Session.start u settings) generator).opening.game) hopening
  have hsession := play_session (Game.mk (Session.start u settings) generator) lines
  rw [playRequests, Session.run_cons] at hsession
  exact (hsession ▸ hlawful).moment hm hid

/-- The door is opened and the wind shuts it.  After a step back it does so again. -/
theorem play_lawful_door : door.Built ∧
    let history := ((Game.mk (Session.start door {}) (Replay.mk #[] 0)).play
      [.ok "2", .ok "u", .ok "1"]).game.session.history
    ∃ m, history.get? ⟨3⟩ = some m ∧ (⟨3⟩ : MomentId) ≠ History.root ∧
      ∃ past before, ∃ t : Transition, m.past = some past ∧ history.get? past = some before ∧
        m.cause = some t.id ∧ t.Lawful door before.values ∧
        m.values = before.values.overlay t.effects := by
  refine ⟨built_door, ?_⟩
  intro history
  have hlive : (history.get? ⟨3⟩).isSome := by decide +kernel
  obtain ⟨m, hm⟩ := Option.isSome_iff_exists.mp hlive
  have hid : (⟨3⟩ : MomentId) ≠ History.root := by decide
  exact ⟨m, hm, hid, play_lawful built_door {} (Replay.mk #[] 0) _ _ m hm hid⟩

end Game

end Storyworld
