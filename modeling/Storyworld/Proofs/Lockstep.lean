import Mathlib.Data.List.Forall2
import Storyworld.Proofs.Operation

/-!
# Sessions in lockstep

Transitions match if they differ at most in how their conditions are put together, and
universes match if their factors are the same and their transitions match one by one.
Nothing in a session tells such universes apart.  Sessions of them that stand at the same
moment of the same history let the same happen (`Session.Matches.apply`), in a pass too,
where they draw the same numbers (`Session.Matches.runPass`).  So they answer the same
operations alike, and stay where they were, at the same moment (`Session.Matches.run`).

A shuffle moves elements by their places alone (`Random.shuffle_map`), so it shuffles two
lists that match one by one in the same way.
-/

namespace Storyworld

/-! ## Shuffling without looking -/

namespace Random

variable {G : Type} [Generator G] {α β : Type}

theorem appendSwapped_map (f : α → β) (xs : List α) (j : Nat) (x : α) :
    appendSwapped (xs.map f) j (f x) = (appendSwapped xs j x).map f := by
  rw [appendSwapped, appendSwapped, List.getElem?_map]
  cases xs[j]? with
  | none => simp only [Option.map_none, List.map_append, List.map_singleton]
  | some y => simp only [Option.map_some, List.map_append, List.map_set, List.map_singleton]

theorem shuffleFrom_map (f : α → β) (xs : List α) (p : Places) (passed : List α) (g : G) :
    shuffleFrom p (passed.map f) (xs.map f) g =
      ((shuffleFrom p passed xs g).1.map f, (shuffleFrom p passed xs g).2) := by
  induction xs generalizing p passed g with
  | nil => rfl
  | cons x xs ih => simp only [List.map_cons, shuffleFrom, List.length_map, appendSwapped_map, ih]

/-- What is shuffled does not matter for how it is shuffled. -/
theorem shuffle_map (f : α → β) (xs : List α) (g : G) :
    shuffle (xs.map f) g = ((shuffle xs g).1.map f, (shuffle xs g).2) :=
  shuffleFrom_map f xs ⟨0, 1⟩ [] g

/-- Lists that are related one by one are so when they are shuffled. -/
theorem shuffle_forall₂ {R : α → β → Prop} {xs : List α} {ys : List β} (h : List.Forall₂ R xs ys)
    (g : G) : List.Forall₂ R (shuffle xs g).1 (shuffle ys g).1 ∧
      (shuffle xs g).2 = (shuffle ys g).2 := by
  obtain ⟨hlength, hzip⟩ := List.forall₂_iff_zip.mp h
  -- both are shuffles of the list of pairs
  have hxs : shuffle xs g =
      ((shuffle (xs.zip ys) g).1.map Prod.fst, (shuffle (xs.zip ys) g).2) := by
    rw [← shuffle_map, List.map_fst_zip (Nat.le_of_eq hlength)]
  have hys : shuffle ys g =
      ((shuffle (xs.zip ys) g).1.map Prod.snd, (shuffle (xs.zip ys) g).2) := by
    rw [← shuffle_map, List.map_snd_zip (Nat.le_of_eq hlength.symm)]
  rw [hxs, hys]
  refine ⟨?_, rfl⟩
  rw [List.forall₂_map_left_iff, List.forall₂_map_right_iff, List.forall₂_same]
  exact fun p hp => hzip ((mem_shuffle _ g p).mp hp)

end Random

theorem getElem?_forall₂ {α β : Type} {R : α → β → Prop} {xs : List α} {ys : List β}
    (h : List.Forall₂ R xs ys) (i : Nat) : Option.Rel R xs[i]? ys[i]? := by
  induction h generalizing i with
  | nil => exact .none
  | cons hxy _ ih =>
      cases i with
      | zero => exact .some hxy
      | succ i => exact ih i

/-! ## What matches -/

/-- Transitions whose conditions ask the same, and that are the same otherwise. -/
structure Transition.Matches (t t' : Transition) : Prop where
  /-- Their handles. -/
  id : t.id = t'.id
  /-- Their labels. -/
  label : t.label = t'.label
  /-- Their conditions. -/
  condition : ∀ s, t.condition.evaluate s = t'.condition.evaluate s
  /-- Their schedules. -/
  schedule : t.schedule = t'.schedule
  /-- Their texts. -/
  text : t.text = t'.text
  /-- Their effects. -/
  effects : t.effects = t'.effects

/-- Universes with the same factors, and with transitions that match one by one. -/
structure Universe.Matches (u u' : Universe) : Prop where
  /-- Their factors. -/
  factors : u.factors = u'.factors
  /-- Their transitions. -/
  transitions : List.Forall₂ Transition.Matches u.transitions u'.transitions

/-- Sessions of universes that match, at the same moment of the same history. -/
structure Session.Matches (s s' : Session) : Prop where
  /-- What they play. -/
  world : s.world.Matches s'.world
  /-- Their moments. -/
  history : s.history = s'.history
  /-- Where they stand. -/
  now : s.now = s'.now
  /-- How they are played. -/
  settings : s.settings = s'.settings

theorem Transition.ids_eq {ts ts' : List Transition} (h : List.Forall₂ Transition.Matches ts ts') :
    ts.map Transition.id = ts'.map Transition.id := by
  induction h with
  | nil => rfl
  | cons ht _ ih => rw [List.map_cons, List.map_cons, ht.id, ih]

namespace Session

variable {G : Type} [Generator G] {s s' : Session} {t t' : Transition}

/-- Universes that match start alike. -/
theorem start_matches {u u' : Universe} (h : u.Matches u') (settings : Settings) :
    (start u settings).Matches (start u' settings) := by
  refine ⟨h, ?_, rfl, rfl⟩
  simp only [start, Universe.initial, h.factors]

namespace Matches

theorem current?_eq (h : s.Matches s') : s.current? = s'.current? := by
  rw [current?, current?, h.history, h.now]

theorem values (h : s.Matches s') : s.values = s'.values := by
  rw [Session.values, Session.values, h.current?_eq]

theorem possible (h : s.Matches s') : List.Forall₂ Transition.Matches s.possible s'.possible := by
  refine List.rel_filter (fun t t' ht => ?_) h.world.transitions
  simp only [Transition.isPossible, h.values, ht.condition]

theorem choices (h : s.Matches s') : List.Forall₂ Transition.Matches s.choices s'.choices := by
  refine List.rel_filter (fun t t' ht => ?_) h.possible
  simp only [ht.schedule]

theorem candidates (h : s.Matches s') (g : G) :
    List.Forall₂ Transition.Matches (s.candidates g).1 (s'.candidates g).1 ∧
      (s.candidates g).2 = (s'.candidates g).2 := by
  simp only [Session.candidates, h.settings]
  split
  · exact ⟨h.possible, rfl⟩
  · exact Random.shuffle_forall₂ h.possible g

/-! ### Operations -/

theorem apply (h : s.Matches s') (ht : t.Matches t') :
    (s.apply t).1 = (s'.apply t').1 ∧ (s.apply t).2.Matches (s'.apply t').2 := by
  have hpush : s.history.pushAfter s.now (s.values.overlay t.effects) t.id =
      s'.history.pushAfter s'.now (s'.values.overlay t'.effects) t'.id := by
    rw [h.history, h.now, h.values, ht.effects, ht.id]
  have hid := congrArg Prod.fst hpush
  exact ⟨hid, h.world, congrArg Prod.snd hpush, hid, h.settings⟩

theorem passOver {ts ts' : List Transition} (hts : List.Forall₂ Transition.Matches ts ts')
    (h : s.Matches s') (g : G) :
    (s.passOver g ts).1 = (s'.passOver g ts').1 ∧
      (s.passOver g ts).2.1.Matches (s'.passOver g ts').2.1 ∧
      (s.passOver g ts).2.2 = (s'.passOver g ts').2.2 := by
  induction hts generalizing s s' g with
  | nil => exact ⟨rfl, h, rfl⟩
  | @cons t t' ts ts' ht _ ih =>
      have hpossible : t.isPossible s.values = t'.isPossible s'.values := by
        rw [h.values]
        exact ht.condition _
      rw [passOver_cons, passOver_cons, hpossible, ht.schedule, ht.id]
      split
      · obtain ⟨hfired, hrest⟩ := ih (h.apply ht).2 (t'.schedule.fires g).2
        exact ⟨congrArg (t'.id :: ·) hfired, hrest⟩
      · exact ih h (t'.schedule.fires g).2

/-- In a pass the same happens, and the same numbers are drawn. -/
theorem runPass (h : s.Matches s') (g : G) :
    (s.runPass g).1 = (s'.runPass g).1 ∧ (s.runPass g).2.1.Matches (s'.runPass g).2.1 ∧
      (s.runPass g).2.2 = (s'.runPass g).2.2 := by
  obtain ⟨hcandidates, hg⟩ := h.candidates g
  simp only [Session.runPass, hg]
  exact passOver hcandidates h _

/-- Sessions that match still do if they go to the same moment. -/
theorem move (h : s.Matches s') (id : MomentId) :
    ({ s with now := id } : Session).Matches { s' with now := id } :=
  ⟨h.world, h.history, rfl, h.settings⟩

/-- A handle finds transitions that match, or none. -/
theorem transition? (h : s.Matches s') (id : TransitionId) :
    Option.Rel Transition.Matches (s.world.transition? id) (s'.world.transition? id) :=
  getElem?_forall₂ h.world.transitions id.index

theorem perform (h : s.Matches s') (op : Operation G) :
    (s.perform op).1 = (s'.perform op).1 ∧ (s.perform op).2.Matches (s'.perform op).2 := by
  cases op with
  | apply t =>
      obtain ⟨hid, hs⟩ := h.apply (t := t) ⟨rfl, rfl, fun _ => rfl, rfl, rfl, rfl⟩
      exact ⟨congrArg Answer.made hid, hs⟩
  | applyId id =>
      have hfound := h.transition? id
      rw [Session.perform, Session.perform, applyId, applyId]
      generalize s.world.transition? id = found, s'.world.transition? id = found' at hfound
      cases hfound with
      | none => exact ⟨rfl, h⟩
      | some ht =>
          obtain ⟨hid, hs⟩ := h.apply ht
          exact ⟨congrArg Answer.made hid, hs⟩
  | pass g =>
      obtain ⟨hfired, hs, -⟩ := h.runPass g
      exact ⟨congrArg Answer.passed hfired, hs⟩
  | goto id =>
      have hcontains : s.history.contains id = s'.history.contains id := by rw [h.history]
      rw [Session.perform, Session.perform, goto, goto, hcontains]
      cases s'.history.contains id with
      | true => exact ⟨rfl, h.move id⟩
      | false => exact ⟨rfl, h⟩
  | undo =>
      rw [Session.perform, Session.perform, undo?, undo?, h.current?_eq]
      cases s'.current?.bind Moment.past with
      | none => exact ⟨rfl, h⟩
      | some id => exact ⟨rfl, h.move id⟩
  | redo =>
      rw [Session.perform, Session.perform, redo?, redo?, h.current?_eq]
      cases s'.current?.bind Moment.future with
      | none => exact ⟨rfl, h⟩
      | some id => exact ⟨rfl, h.move id⟩

/-- Sessions that match answer operations alike and still match behind them. -/
theorem run (h : s.Matches s') (ops : List (Operation G)) :
    (s.run ops).1 = (s'.run ops).1 ∧ (s.run ops).2.Matches (s'.run ops).2 :=
  performAll_simulates (fun _ _ op h => h.perform op) ops s s' h

end Matches

end Session

end Storyworld
