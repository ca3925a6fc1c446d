import Storyworld.Proofs.Pass

/-!
# What happens in a run

Moments are made by transitions that happen and by nothing else.  A transition happens
because an operation names it or because a pass lets it happen; `Session.happening`
lists those of one operation in order, and `Session.happenings` those of a run.

The history that an operation leaves is the one that these transitions leave when they
happen one after the other (`perform_history`).  So what is said of `Session.apply` is
said of runs, passes included.  Each transition that happens is given the handle of the
moment it makes (`Session.handles`), and the answer of an operation speaks of the
handles that were given (`perform_reports`).
-/

namespace Storyworld

namespace Session

variable {G : Type} [Generator G]

/-! ## Transitions -/

/-- The transitions that an operation lets happen, in order. -/
def happening (s : Session) : Operation G → List Transition
  | .apply t => [t]
  | .applyId id => (s.world.transition? id).toList
  | .pass g => s.happenOver (s.candidates g).2 (s.candidates g).1
  | .goto _ | .undo | .redo => []

/-- The transitions that happen in a run, in order. -/
def happenings (s : Session) : List (Operation G) → List Transition
  | [] => []
  | op :: ops => s.happening op ++ (s.perform op).2.happenings ops

theorem happenings_append (s : Session) (ops more : List (Operation G)) :
    s.happenings (ops ++ more) = s.happenings ops ++ (s.run ops).2.happenings more := by
  induction ops generalizing s with
  | nil => rfl
  | cons op ops ih =>
      rw [List.cons_append, happenings, happenings, ih, run_cons, List.append_assoc]

/-- A pass leads where the transitions lead that happen in it. -/
theorem perform_pass (s : Session) (g : G) :
    s.perform (.pass g) =
      (.passed ((s.happening (.pass g)).map Transition.id),
        s.applyAll (s.happening (.pass g))) := by
  obtain ⟨hfired, hstate⟩ := passOver_eq (s.candidates g).1 s (s.candidates g).2
  calc s.perform (.pass g)
      = (.passed (s.passOver (s.candidates g).2 (s.candidates g).1).1,
          (s.passOver (s.candidates g).2 (s.candidates g).1).2.1) := rfl
    _ = _ := by rw [hfired, hstate]; rfl

/-- What happens in a pass was possible when it began, and has a chance above zero. -/
theorem mem_happening_pass {s : Session} {g : G} {t : Transition}
    (ht : t ∈ s.happening (.pass g)) : t ∈ s.possible ∧ t.schedule.CanFire := by
  have hpasses := happenOver_passes (s.candidates g).1 s (s.candidates g).2
  exact ⟨(s.candidates_perm g).mem_iff.mp (hpasses.sublist.subset ht), hpasses.canFire t ht⟩

/-! ## Handles -/

/-- The handles of the moments that transitions make which happen one after the other. -/
def handles (s : Session) : List Transition → List MomentId
  | [] => []
  | t :: ts => (s.apply t).1 :: (s.apply t).2.handles ts

theorem length_handles (s : Session) (ts : List Transition) :
    (s.handles ts).length = ts.length := by
  induction ts generalizing s with
  | nil => rfl
  | cons t ts ih => rw [handles, List.length_cons, List.length_cons, ih]

/-- The handles of the moments that are made in a run, in order. -/
def made (s : Session) : List (Operation G) → List MomentId
  | [] => []
  | op :: ops => s.handles (s.happening op) ++ (s.perform op).2.made ops

end Session

/-- What an answer says of the handles of the moments that were made. -/
def Answer.Reports : Answer → List MomentId → Prop
  | .made id, ids => ids = [id]
  | .passed fired, ids => ids.length = fired.length
  | .moved _, ids | .arrived, ids | .refused _, ids => ids = []

namespace Session

variable {G : Type} [Generator G]

/-- Moving makes nothing, and no answer to it says otherwise. -/
theorem perform_navigates (s : Session) {op : Operation G} (hop : op.navigates = true) :
    (s.perform op).2.history = s.history ∧ (s.perform op).1.Reports [] := by
  cases op with
  | apply t => cases hop
  | applyId id => cases hop
  | pass g => cases hop
  | goto id =>
      rw [perform, goto]
      by_cases hid : s.history.contains id = true
      · rw [if_pos hid]
        exact ⟨rfl, rfl⟩
      · rw [if_neg hid]
        exact ⟨rfl, rfl⟩
  | undo =>
      simp only [perform, undo?]
      cases s.current?.bind Moment.past <;> exact ⟨rfl, rfl⟩
  | redo =>
      simp only [perform, redo?]
      cases s.current?.bind Moment.future <;> exact ⟨rfl, rfl⟩

/-- The history that an operation leaves is the one that the transitions leave which happen. -/
theorem perform_history (s : Session) (op : Operation G) :
    (s.perform op).2.history = (s.applyAll (s.happening op)).history := by
  cases op with
  | apply t => rfl
  | applyId id =>
      simp only [perform, applyId, happening]
      cases s.world.transition? id with
      | none => rfl
      | some t => rfl
  | pass g => rw [perform_pass]
  | goto id => exact (s.perform_navigates rfl).1
  | undo => exact (s.perform_navigates rfl).1
  | redo => exact (s.perform_navigates rfl).1

/-- The answer of an operation speaks of the moments it made: one if it names a transition, as
many as transitions if it is a pass, and none if it moves or is refused. -/
theorem perform_reports (s : Session) (op : Operation G) :
    (s.perform op).1.Reports (s.handles (s.happening op)) := by
  cases op with
  | apply t => exact rfl
  | applyId id =>
      simp only [perform, applyId, happening]
      cases s.world.transition? id with
      | none => exact rfl
      | some t => exact rfl
  | pass g => rw [perform_pass, Answer.Reports, length_handles, List.length_map]
  | goto id => exact (s.perform_navigates rfl).2
  | undo => exact (s.perform_navigates rfl).2
  | redo => exact (s.perform_navigates rfl).2

end Session

end Storyworld
