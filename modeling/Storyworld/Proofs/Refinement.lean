import Storyworld.Proofs.Arena
import Storyworld.Proofs.Operation

/-!
# Sessions are timelines

A timeline answers the operations of a session from its list and its cursor alone
(`Timeline.perform`).  A session that starts and a timeline that starts answer
every run alike, and after it the session is where the timeline is: it stands at
the same moment with the same values, can go back and forth where there are
entries, and its history has the moments of the list with the links of the list
and no others (`run_agrees_timeline`).

`Session.Follows` is what carries the induction.  It says that the history holds
the timeline and that the session stands at the entry of the cursor.  All that
can be asked of a session is read off it (`Session.Agrees`).
-/

namespace Storyworld

/-! ## The abstract machine -/

namespace Timeline

variable {G : Type} [Generator G]

/-- The transitions that can happen here. -/
def possible (u : Universe) (tl : Timeline) : List Transition :=
  u.transitions.filter fun t => t.isPossible tl.here.values

/-- Give each candidate in turn its chance. -/
def passOver (tl : Timeline) (g : G) : List Transition → List TransitionId × Timeline
  | [] => ([], tl)
  | t :: ts =>
      let (fires, g) := t.schedule.fires g
      if fires && t.isPossible tl.here.values then
        let (fired, tl) := passOver (tl.apply t) g ts
        (t.id :: fired, tl)
      else passOver tl g ts

theorem passOver_cons (tl : Timeline) (g : G) (t : Transition) (ts : List Transition) :
    tl.passOver g (t :: ts) =
      if ((t.schedule.fires g).1 && t.isPossible tl.here.values) = true then
        (t.id :: ((tl.apply t).passOver (t.schedule.fires g).2 ts).1,
          ((tl.apply t).passOver (t.schedule.fires g).2 ts).2)
      else tl.passOver (t.schedule.fires g).2 ts := rfl

/-- The candidates of a pass in their order, and the generator behind it. -/
def candidates (u : Universe) (order : PassOrder) (tl : Timeline) (g : G) : List Transition × G :=
  match order with
  | .declaration => (tl.possible u, g)
  | .shuffled => Random.shuffle (tl.possible u) g

/-- Do one operation. -/
def perform (u : Universe) (order : PassOrder) (tl : Timeline) : Operation G → Answer × Timeline
  | .apply t => (.made ⟨tl.made⟩, tl.apply t)
  | .applyId id =>
      match u.transition? id with
      | some t => (.made ⟨tl.made⟩, tl.apply t)
      | none => (.refused (.unknownTransition id), tl)
  | .pass g =>
      let (ts, g) := tl.candidates u order g
      let (fired, tl) := tl.passOver g ts
      (.passed fired, tl)
  | .goto id =>
      match tl.goto? id with
      | some tl => (.arrived, tl)
      | none => (.refused (.unknownMoment id), tl)
  | .undo =>
      match tl.undo? with
      | some tl => (.moved true, tl)
      | none => (.moved false, tl)
  | .redo =>
      match tl.redo? with
      | some tl => (.moved true, tl)
      | none => (.moved false, tl)

/-- Moving changes neither the list nor the count of entries. -/
theorem perform_of_navigates (u : Universe) (order : PassOrder) (tl : Timeline) (op : Operation G)
    (h : op.navigates = true) :
    (tl.perform u order op).2.entries = tl.entries ∧
    (tl.perform u order op).2.made = tl.made := by
  cases op with
  | apply t => cases h
  | applyId id => cases h
  | pass g => cases h
  | goto id =>
      rw [perform]
      split
      · next hg => exact ⟨(goto?_frame hg).1, (goto?_frame hg).2.1⟩
      · exact ⟨rfl, rfl⟩
  | undo =>
      rw [perform]
      split
      · next hg => exact ⟨(undo?_frame hg).1, (undo?_frame hg).2.1⟩
      · exact ⟨rfl, rfl⟩
  | redo =>
      rw [perform]
      split
      · next hg => exact ⟨(redo?_frame hg).1, (redo?_frame hg).2.1⟩
      · exact ⟨rfl, rfl⟩

/-- Do operations one after the other. -/
def run (u : Universe) (order : PassOrder) (tl : Timeline) (ops : List (Operation G)) :
    List Answer × Timeline :=
  performAll (perform u order) tl ops

end Timeline

/-! ## Where a session agrees with a timeline -/

/-- A session and a timeline can not be told apart. -/
structure Session.Agrees (s : Session) (tl : Timeline) : Prop where
  /-- Both stand at the same moment. -/
  now : s.now = tl.here.id
  /-- The factors hold the same values. -/
  values : s.values = tl.here.values
  /-- There is a way back if there is an entry before the cursor. -/
  canUndo : s.canUndo = true ↔ 0 < tl.cursor
  /-- There is a way forward if there is an entry behind the cursor. -/
  canRedo : s.canRedo = true ↔ tl.cursor + 1 < tl.entries.length
  /-- There are as many moments as entries. -/
  size : s.history.size = tl.entries.length
  /-- The moments are those of the entries. -/
  contains : ∀ id, s.history.contains id = true ↔ id ∈ tl.ids
  /-- Every moment has the values and the cause of its entry, and its links are the
  neighbours of the entry in the list. -/
  moment : ∀ i e, tl.entries[i]? = some e →
    s.history.get? e.id = some ⟨e.values, e.cause, pastAt tl.entries i, futureAt tl.entries i⟩

/-- A session of a universe has a timeline for its history and stands at its cursor. -/
structure Session.Follows (u : Universe) (settings : Settings) (s : Session) (tl : Timeline) :
    Prop where
  /-- The session plays the universe. -/
  world : s.world = u
  /-- The session is played as it was begun. -/
  settings_eq : s.settings = settings
  /-- The history holds the timeline. -/
  holds : s.history.Holds tl
  /-- The session stands at the cursor. -/
  now : s.now = tl.here.id

namespace Session

theorem follows_start (u : Universe) (settings : Settings) :
    (Session.start u settings).Follows u settings (Timeline.start u.initial) :=
  ⟨rfl, rfl, History.holds_start _, rfl⟩

section Follows

variable {u : Universe} {settings : Settings} {s : Session} {tl : Timeline}
variable {G : Type} [Generator G]

/-- The moment where the session stands is the entry of the cursor. -/
theorem Follows.current? (h : s.Follows u settings tl) :
    s.current? = some (momentAt tl.entries tl.cursor tl.here) := by
  rw [Session.current?, h.now]
  exact h.holds.moment tl.getElem?_cursor

theorem Follows.values (h : s.Follows u settings tl) : s.values = tl.here.values := by
  rw [Session.values, h.current?]
  rfl

/-- Another cursor is another place in the same history. -/
theorem Follows.move (h : s.Follows u settings tl) {tl' : Timeline}
    (hentries : tl'.entries = tl.entries) (hmade : tl'.made = tl.made) :
    Follows u settings { s with now := tl'.here.id } tl' :=
  ⟨h.world, h.settings_eq, h.holds.of_entries hentries hmade, rfl⟩

/-! ## Each operation -/

theorem Follows.apply (h : s.Follows u settings tl) (t : Transition) :
    (s.apply t).1 = ⟨tl.made⟩ ∧ (s.apply t).2.Follows u settings (tl.apply t) := by
  have hid := (h.holds.get?_pushAfter (tl.here.values.overlay t.effects) t.id).1
  have hholds := h.holds.pushAfter t
  rw [← h.now, ← h.values] at hid hholds
  refine ⟨hid, h.world, h.settings_eq, hholds, ?_⟩
  rw [Timeline.here_apply]
  exact hid

theorem Follows.undo? (h : s.Follows u settings tl) :
    s.undo? = tl.undo?.map fun tl' => { s with now := tl'.here.id } := by
  rw [Session.undo?, h.current?, Timeline.undo?]
  by_cases hc : tl.cursor = 0
  · simp [hc, momentAt, pastAt]
  · obtain ⟨c, hc'⟩ := Nat.exists_eq_succ_of_ne_zero hc
    have hlt : c < tl.entries.length := by
      have := tl.cursor_lt
      omega
    simp [momentAt, pastAt, hc', List.getElem?_eq_getElem hlt, Timeline.here]

theorem Follows.redo? (h : s.Follows u settings tl) :
    s.redo? = tl.redo?.map fun tl' => { s with now := tl'.here.id } := by
  rw [Session.redo?, h.current?, Timeline.redo?]
  by_cases hc : tl.cursor + 1 < tl.entries.length
  · simp [hc, momentAt, futureAt, Timeline.here]
  · simp [hc, momentAt, futureAt]

/-- Going back and forth again leads to the same place. -/
theorem Follows.redo?_of_undo? (h : s.Follows u settings tl) {s' : Session}
    (hs : s.undo? = some s') : s'.redo? = some s := by
  rw [h.undo?] at hs
  obtain ⟨tl', htl, rfl⟩ := Option.map_eq_some_iff.mp hs
  obtain ⟨hentries, hmade, -⟩ := Timeline.undo?_frame htl
  rw [(h.move hentries hmade).redo?, Timeline.redo?_of_undo? htl, Option.map_some, ← h.now]

/-- Going forth and back again leads to the same place. -/
theorem Follows.undo?_of_redo? (h : s.Follows u settings tl) {s' : Session}
    (hs : s.redo? = some s') : s'.undo? = some s := by
  rw [h.redo?] at hs
  obtain ⟨tl', htl, rfl⟩ := Option.map_eq_some_iff.mp hs
  obtain ⟨hentries, hmade, -⟩ := Timeline.redo?_frame htl
  rw [(h.move hentries hmade).undo?, Timeline.undo?_of_redo? htl, Option.map_some, ← h.now]

theorem Follows.goto (h : s.Follows u settings tl) (id : MomentId) :
    s.goto id = match tl.goto? id with
      | some tl' => .ok { s with now := tl'.here.id }
      | none => .error (.unknownMoment id) := by
  rw [Session.goto]
  cases hg : tl.goto? id with
  | none =>
      have hid := Timeline.goto?_eq_none_iff.mp hg
      rw [if_neg (fun hc => hid ((h.holds.contains_iff id).mp hc))]
  | some tl' =>
      obtain ⟨hentries, -, hhere⟩ := Timeline.goto?_frame hg
      have hid : id ∈ tl.ids := by
        rw [Timeline.ids, ← hentries, ← hhere]
        exact List.mem_map_of_mem tl'.here_mem
      rw [if_pos ((h.holds.contains_iff id).mpr hid)]
      exact congrArg (fun m => Except.ok { s with now := m }) hhere.symm

theorem Follows.passOver (ts : List Transition) (g : G) (h : s.Follows u settings tl) :
    (s.passOver g ts).1 = (tl.passOver g ts).1 ∧
    (s.passOver g ts).2.1.Follows u settings (tl.passOver g ts).2 := by
  induction ts generalizing s tl g with
  | nil => exact ⟨rfl, h⟩
  | cons t ts ih =>
      rw [Session.passOver_cons, Timeline.passOver_cons, h.values]
      split
      · obtain ⟨hfired, hrest⟩ := ih (t.schedule.fires g).2 (h.apply t).2
        exact ⟨congrArg (t.id :: ·) hfired, hrest⟩
      · exact ih (t.schedule.fires g).2 h

theorem Follows.candidates (h : s.Follows u settings tl) (g : G) :
    s.candidates g = tl.candidates u settings.order g := by
  have hpossible : s.possible = tl.possible u := by
    rw [Session.possible, Timeline.possible, h.world, h.values]
  have hsettings : s.settings.order = settings.order := congrArg Settings.order h.settings_eq
  rw [Session.candidates, hsettings]
  cases settings.order with
  | declaration => rw [hpossible]; rfl
  | shuffled => rw [hpossible]; rfl

/-- A session and its timeline answer every operation alike. -/
theorem Follows.perform (op : Operation G) (h : s.Follows u settings tl) :
    (s.perform op).1 = (tl.perform u settings.order op).1 ∧
    (s.perform op).2.Follows u settings (tl.perform u settings.order op).2 := by
  cases op with
  | apply t => exact ⟨congrArg Answer.made (h.apply t).1, (h.apply t).2⟩
  | applyId id =>
      simp only [Session.perform, Timeline.perform, Session.applyId, h.world]
      cases u.transition? id with
      | none => exact ⟨rfl, h⟩
      | some t => exact ⟨congrArg Answer.made (h.apply t).1, (h.apply t).2⟩
  | pass g =>
      simp only [Session.perform, Timeline.perform, Session.runPass, h.candidates g]
      obtain ⟨hfired, hrest⟩ := Follows.passOver (tl.candidates u settings.order g).1
        (tl.candidates u settings.order g).2 h
      exact ⟨congrArg Answer.passed hfired, hrest⟩
  | goto id =>
      simp only [Session.perform, Timeline.perform, h.goto id]
      cases hg : tl.goto? id with
      | none => exact ⟨rfl, h⟩
      | some tl' => exact ⟨rfl, h.move (Timeline.goto?_frame hg).1 (Timeline.goto?_frame hg).2.1⟩
  | undo =>
      simp only [Session.perform, Timeline.perform, h.undo?]
      cases hg : tl.undo? with
      | none => exact ⟨rfl, h⟩
      | some tl' => exact ⟨rfl, h.move (Timeline.undo?_frame hg).1 (Timeline.undo?_frame hg).2.1⟩
  | redo =>
      simp only [Session.perform, Timeline.perform, h.redo?]
      cases hg : tl.redo? with
      | none => exact ⟨rfl, h⟩
      | some tl' => exact ⟨rfl, h.move (Timeline.redo?_frame hg).1 (Timeline.redo?_frame hg).2.1⟩

/-- A session and its timeline answer every run alike. -/
theorem Follows.run (ops : List (Operation G)) (h : s.Follows u settings tl) :
    (s.run ops).1 = (tl.run u settings.order ops).1 ∧
    (s.run ops).2.Follows u settings (tl.run u settings.order ops).2 :=
  performAll_simulates (fun _ _ op h => Follows.perform op h) ops s tl h

/-! ## What can be asked -/

theorem Follows.agrees (h : s.Follows u settings tl) : s.Agrees tl where
  now := h.now
  values := h.values
  canUndo := by
    rw [Session.canUndo, h.undo?, Timeline.undo?]
    split <;> simp <;> omega
  canRedo := by
    rw [Session.canRedo, h.redo?, Timeline.redo?]
    split <;> simp <;> omega
  size := h.holds.live
  contains := h.holds.contains_iff
  moment _ _ hi := h.holds.moment hi

/-- Looking back from where the session stands to an earlier entry gives the causes of the
entries in between and of the last. -/
theorem Follows.causesSince? (h : s.Follows u settings tl) {j : Nat} {f : Entry}
    (hj : tl.entries[j]? = some f) (hle : j ≤ tl.cursor) :
    s.history.causesSince? f.id s.now =
      some (((tl.entries.take (tl.cursor + 1)).drop (j + 1)).filterMap Entry.cause) := by
  have hsteps : tl.cursor - j ≤ tl.made := by
    have := tl.cursor_lt
    have := tl.length_le_made
    omega
  rw [History.causesSince?, h.now, h.holds.made,
    h.holds.causesBack? hj [] tl.getElem?_cursor hle hsteps, List.append_nil]

/-! ## Back and forth -/

variable (G) in
/-- Going back `k` times succeeds exactly if there are so many entries before the cursor. -/
theorem Follows.run_undo (k : Nat) (h : s.Follows u settings tl) :
    (s.run (List.replicate k (.undo : Operation G))).1 = List.replicate k (.moved true) ↔
      k ≤ tl.cursor := by
  induction k generalizing s tl with
  | zero => exact iff_of_true rfl (Nat.zero_le _)
  | succ k ih =>
      have hback := h.undo?
      rw [List.replicate_succ, List.replicate_succ, run_cons]
      cases hg : tl.undo? with
      | none =>
          rw [hg] at hback
          have hcursor := Timeline.undo?_eq_none_iff.mp hg
          rw [perform_undo_of_none hback, hcursor]
          simp
      | some tl' =>
          obtain ⟨hentries, hmade, hcursor⟩ := Timeline.undo?_frame hg
          have hrest := ih (h.move hentries hmade)
          rw [hg] at hback
          rw [perform_undo_of_some hback, hcursor, Nat.add_le_add_iff_right, ← hrest]
          exact ⟨fun heq => (List.cons.inj heq).2, congrArg _⟩

variable (G) in
/-- Going back `k` times and forward as often leaves no trace. -/
theorem Follows.run_undo_redo (k : Nat) (h : s.Follows u settings tl) (hk : k ≤ tl.cursor) :
    s.run (List.replicate k (.undo : Operation G) ++ List.replicate k .redo) =
      (List.replicate (k + k) (.moved true), s) := by
  induction k generalizing s tl with
  | zero => rfl
  | succ k ih =>
      have hback := h.undo?
      cases hg : tl.undo? with
      | none =>
          have := Timeline.undo?_eq_none_iff.mp hg
          omega
      | some tl' =>
          obtain ⟨hentries, hmade, hcursor⟩ := Timeline.undo?_frame hg
          have hmoved := h.move hentries hmade
          rw [hg] at hback
          have hforth := h.redo?_of_undo? hback
          have hrest := ih hmoved (by omega)
          -- The outermost step back and the last step forward undo each other.
          have hops : List.replicate (k + 1) (.undo : Operation G) ++ List.replicate (k + 1) .redo =
              .undo :: ((List.replicate k .undo ++ List.replicate k .redo) ++ [.redo]) := by
            rw [List.replicate_succ, List.replicate_succ', List.cons_append, List.append_assoc]
          have hanswers : List.replicate (k + 1 + (k + 1)) (Answer.moved true) =
              .moved true :: (List.replicate (k + k) (.moved true) ++ [.moved true]) := by
            rw [← List.replicate_succ', ← List.replicate_succ]
            congr 1
            omega
          rw [hops, hanswers, run_cons, perform_undo_of_some hback, run_append, hrest, run_cons,
            perform_redo_of_some hforth]
          rfl

end Follows

/-- A session is a timeline: it answers every run as the timeline does that only keeps a
list and a cursor, and it can not be told from that timeline afterwards.  Moving keeps the
list.  The session can go back exactly as often as there are entries before the cursor, and
going forward as often again restores it. -/
theorem run_agrees_timeline {G : Type} [Generator G] (u : Universe) (settings : Settings)
    (ops : List (Operation G)) :
    let played := (Session.start u settings).run ops
    let told := (Timeline.start u.initial).run u settings.order ops
    played.1 = told.1 ∧ played.2.Agrees told.2 ∧
    (∀ op : Operation G, op.navigates = true →
      (told.2.perform u settings.order op).2.entries = told.2.entries) ∧
    (∀ k, (played.2.run (List.replicate k (.undo : Operation G))).1 =
      List.replicate k (.moved true) ↔ k ≤ told.2.cursor) ∧
    ∀ k ≤ told.2.cursor,
      played.2.run (List.replicate k (.undo : Operation G) ++ List.replicate k .redo) =
        (List.replicate (k + k) (.moved true), played.2) := by
  intro played told
  obtain ⟨hanswers, hfollows⟩ := (follows_start u settings).run ops
  exact ⟨hanswers, hfollows.agrees,
    fun op hop => (Timeline.perform_of_navigates u settings.order told.2 op hop).1,
    fun k => hfollows.run_undo G k, fun k hk => hfollows.run_undo_redo G k hk⟩

end Session

end Storyworld
