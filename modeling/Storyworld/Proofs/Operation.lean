import Storyworld.Session

/-!
# Operations on a session

A session lives by operations: a transition happens, by itself or by its handle, a
pass is run, or the session moves within its history.  Each gives an answer, and
one that is refused changes nothing.  `Session.perform` does one operation, and
`Session.run` a list of them.

A pass brings its own generator.  So a list of operations speaks of every way in
which chance can be provided, one generator for the whole run included.

`performAll` is all that runs share.  Two machines that answer one operation
alike and stay related answer a whole run alike (`performAll_simulates`).
-/

namespace Storyworld

/-- What a session can be asked to do. -/
inductive Operation (G : Type) where
  /-- To let a transition happen, of whatever universe it is. -/
  | apply (t : Transition)
  /-- To let the transition with a handle happen. -/
  | applyId (id : TransitionId)
  /-- To run a pass. -/
  | pass (generator : G)
  /-- To go to a moment. -/
  | goto (id : MomentId)
  /-- To go back. -/
  | undo
  /-- To go forward again. -/
  | redo

/-- Whether an operation only moves within the history. -/
def Operation.navigates {G : Type} : Operation G → Bool
  | .goto _ | .undo | .redo => true
  | .apply _ | .applyId _ | .pass _ => false

/-- What a session answers. -/
inductive Answer where
  /-- The moment that was made. -/
  | made (id : MomentId)
  /-- The transitions that happened in a pass. -/
  | passed (fired : List TransitionId)
  /-- Whether the session moved. -/
  | moved (moved : Bool)
  /-- That the session is where it was told to go. -/
  | arrived
  /-- That nothing was done, and why. -/
  | refused (cause : ModelError)
deriving DecidableEq, Repr

/-! ## Runs -/

/-- Perform operations one after the other, with their answers. -/
def performAll {S G : Type} (perform : S → Operation G → Answer × S) :
    S → List (Operation G) → List Answer × S
  | s, [] => ([], s)
  | s, op :: ops =>
      let (answer, s) := perform s op
      let (answers, s) := performAll perform s ops
      (answer :: answers, s)

section Runs

variable {S T G : Type} {perform : S → Operation G → Answer × S}

theorem performAll_append (s : S) (ops more : List (Operation G)) :
    performAll perform s (ops ++ more) =
      ((performAll perform s ops).1 ++ (performAll perform (performAll perform s ops).2 more).1,
        (performAll perform (performAll perform s ops).2 more).2) := by
  induction ops generalizing s with
  | nil => rfl
  | cons op ops ih => simp only [List.cons_append, performAll, ih]

/-- Machines that answer every operation alike and stay related answer a run alike. -/
theorem performAll_simulates {perform' : T → Operation G → Answer × T} {R : S → T → Prop}
    (step : ∀ s t op, R s t →
      (perform s op).1 = (perform' t op).1 ∧ R (perform s op).2 (perform' t op).2) :
    ∀ (ops : List (Operation G)) (s : S) (t : T), R s t →
      (performAll perform s ops).1 = (performAll perform' t ops).1 ∧
      R (performAll perform s ops).2 (performAll perform' t ops).2 := by
  intro ops
  induction ops with
  | nil =>
      intro s t h
      exact ⟨rfl, h⟩
  | cons op ops ih =>
      intro s t h
      obtain ⟨hanswer, hstep⟩ := step s t op h
      obtain ⟨hanswers, hrest⟩ := ih _ _ hstep
      exact ⟨by simp only [performAll, hanswer, hanswers], hrest⟩

/-- What every operation of a run keeps the run keeps. -/
theorem performAll_keeps {P : S → Prop} {ops : List (Operation G)}
    (step : ∀ op ∈ ops, ∀ s, P s → P (perform s op).2) {s : S} (h : P s) :
    P (performAll perform s ops).2 := by
  induction ops generalizing s with
  | nil => exact h
  | cons op ops ih =>
      have hfirst := step op (List.mem_cons_self ..) s h
      exact ih (fun op' hop => step op' (List.mem_cons_of_mem op hop)) hfirst

end Runs

/-! ## Sessions -/

namespace Session

variable {G : Type} [Generator G]

/-- Do one operation. -/
def perform (s : Session) : Operation G → Answer × Session
  | .apply t =>
      let (id, s) := s.apply t
      (.made id, s)
  | .applyId id =>
      match s.applyId id with
      | .ok (id, s) => (.made id, s)
      | .error cause => (.refused cause, s)
  | .pass g =>
      let (fired, s, _) := s.runPass g
      (.passed fired, s)
  | .goto id =>
      match s.goto id with
      | .ok s => (.arrived, s)
      | .error cause => (.refused cause, s)
  | .undo =>
      match s.undo? with
      | some s => (.moved true, s)
      | none => (.moved false, s)
  | .redo =>
      match s.redo? with
      | some s => (.moved true, s)
      | none => (.moved false, s)

theorem perform_applyId_of_some {s : Session} {id : TransitionId} {t : Transition}
    (h : s.world.transition? id = some t) :
    s.perform (.applyId id : Operation G) = s.perform (.apply t : Operation G) := by
  simp only [perform, applyId, h]

theorem perform_undo_of_some {s s' : Session} (h : s.undo? = some s') :
    s.perform (.undo : Operation G) = (.moved true, s') := by
  simp only [perform, h]

theorem perform_undo_of_none {s : Session} (h : s.undo? = none) :
    s.perform (.undo : Operation G) = (.moved false, s) := by
  simp only [perform, h]

theorem perform_redo_of_some {s s' : Session} (h : s.redo? = some s') :
    s.perform (.redo : Operation G) = (.moved true, s') := by
  simp only [perform, h]

theorem perform_redo_of_none {s : Session} (h : s.redo? = none) :
    s.perform (.redo : Operation G) = (.moved false, s) := by
  simp only [perform, h]

theorem perform_goto_of_not_contains {s : Session} {id : MomentId}
    (h : s.history.contains id = false) :
    s.perform (.goto id : Operation G) = (.refused (.unknownMoment id), s) := by
  rw [perform, goto, if_neg (by rw [h]; exact Bool.false_ne_true)]

/-- One candidate of a pass: it happens if its draw says so and its condition still holds. -/
theorem passOver_cons (s : Session) (g : G) (t : Transition) (ts : List Transition) :
    s.passOver g (t :: ts) =
      if ((t.schedule.fires g).1 && t.isPossible s.values) = true then
        (t.id :: ((s.apply t).2.passOver (t.schedule.fires g).2 ts).1,
          ((s.apply t).2.passOver (t.schedule.fires g).2 ts).2)
      else s.passOver (t.schedule.fires g).2 ts := rfl

/-- Do operations one after the other. -/
def run (s : Session) (ops : List (Operation G)) : List Answer × Session :=
  performAll perform s ops

theorem run_cons (s : Session) (op : Operation G) (ops : List (Operation G)) :
    s.run (op :: ops) =
      ((s.perform op).1 :: ((s.perform op).2.run ops).1, ((s.perform op).2.run ops).2) := rfl

theorem run_append (s : Session) (ops more : List (Operation G)) :
    s.run (ops ++ more) =
      ((s.run ops).1 ++ ((s.run ops).2.run more).1, ((s.run ops).2.run more).2) :=
  performAll_append s ops more

/-- The session that operations lead to from a beginning. -/
def after (u : Universe) (settings : Settings) (ops : List (Operation G)) : Session :=
  ((Session.start u settings).run ops).2

end Session

end Storyworld
