import Storyworld.Proofs.Happening

/-!
# What handles of moments mean

A handle is given out once.  The handles of a session are numbered in the order in which
its moments are made, whatever was undone, given up or gone back to in between
(`Follows.made_eq`).

`History.Continues` says that a history is a later state of another: of the moments that
had a handle before, those that are still there were there before, with the same values,
the same cause and the same past.  Making a moment continues a history
(`Follows.continues_apply`), and so does everything a session can be asked to do
(`Follows.continues_run`).  So a moment that is there never changed, and one that is gone
never comes back.  Two sessions that went separate ways from one session both continue
its history, and agree on the moments that have been there before they parted.

`Session.HandlesStable` puts together what a handle means now and later, and
`Session.made_handlesStable` says it of every session.
-/

namespace Storyworld

/-! ## Later histories -/

/-- Two moments were made in the same way: what they hold, by which transition and from which
moment.  What was made from them may differ. -/
structure Moment.SameOrigin (m n : Moment) : Prop where
  /-- They hold the same values. -/
  values : m.values = n.values
  /-- They were made by the same transition. -/
  cause : m.cause = n.cause
  /-- They were made from the same moment. -/
  past : m.past = n.past

namespace Moment.SameOrigin

theorem refl (m : Moment) : m.SameOrigin m := ⟨rfl, rfl, rfl⟩

theorem symm {m n : Moment} (h : m.SameOrigin n) : n.SameOrigin m :=
  ⟨h.values.symm, h.cause.symm, h.past.symm⟩

theorem trans {m n o : Moment} (h : m.SameOrigin n) (h' : n.SameOrigin o) : m.SameOrigin o :=
  ⟨h.values.trans h'.values, h.cause.trans h'.cause, h.past.trans h'.past⟩

end Moment.SameOrigin

/-- A history is a later state of another. -/
structure History.Continues (h h' : History) : Prop where
  /-- No slot is taken away. -/
  size_le : h.slots.size ≤ h'.slots.size
  /-- A moment whose slot there was before was in it before. -/
  kept : ∀ {id : MomentId} {m' : Moment}, id.index < h.slots.size → h'.get? id = some m' →
    ∃ m, h.get? id = some m ∧ m.SameOrigin m'

namespace History

namespace Continues

theorem refl (h : History) : h.Continues h :=
  ⟨Nat.le_refl _, fun _ hm => ⟨_, hm, .refl _⟩⟩

theorem trans {h h' h'' : History} (first : h.Continues h') (second : h'.Continues h'') :
    h.Continues h'' := by
  refine ⟨Nat.le_trans first.size_le second.size_le, fun hlt hm'' => ?_⟩
  obtain ⟨m', hm', horigin'⟩ := second.kept (Nat.lt_of_lt_of_le hlt first.size_le) hm''
  obtain ⟨m, hm, horigin⟩ := first.kept hlt hm'
  exact ⟨m, hm, horigin.trans horigin'⟩

end Continues

/-- Making a moment from the one at the cursor continues a history: the origin is given a new
future, and other moments stay as they are or go. -/
theorem Holds.continues_pushAfter {h : History} {tl : Timeline} (hh : h.Holds tl)
    (values : Snapshot) (cause : TransitionId) :
    h.Continues (h.pushAfter tl.here.id values cause).2 := by
  obtain ⟨-, hsize, -, hget⟩ := hh.get?_pushAfter values cause
  refine ⟨by rw [hsize, hh.made]; exact Nat.le_succ _, fun {id m'} hlt hm' => ?_⟩
  rw [hh.made] at hlt
  rw [hget id, if_neg (Nat.ne_of_lt hlt)] at hm'
  split at hm'
  · cases hm'
  · split at hm'
    · next hid =>
        cases hm'
        have hm := hh.moment tl.getElem?_cursor
        rw [← hid] at hm
        exact ⟨_, hm, rfl, rfl, rfl⟩
    · exact ⟨m', hm', .refl m'⟩

end History

namespace Session

section Follows

variable {u : Universe} {settings : Settings} {s : Session} {tl : Timeline}

theorem Follows.continues_apply (h : s.Follows u settings tl) (t : Transition) :
    s.history.Continues (s.apply t).2.history := by
  have hcontinues := h.holds.continues_pushAfter (s.values.overlay t.effects) t.id
  rw [← h.now] at hcontinues
  exact hcontinues

theorem Follows.continues_applyAll (ts : List Transition) (h : s.Follows u settings tl) :
    s.history.Continues (s.applyAll ts).history := by
  induction ts generalizing s tl with
  | nil => exact .refl _
  | cons t ts ih => exact (h.continues_apply t).trans (ih (h.apply t).2)

variable {G : Type} [Generator G]

/-- Every operation continues the history of a session. -/
theorem Follows.continues_perform (op : Operation G) (h : s.Follows u settings tl) :
    s.history.Continues (s.perform op).2.history := by
  rw [perform_history]
  exact h.continues_applyAll (s.happening op)

/-- Every run continues the history of a session. -/
theorem Follows.continues_run (ops : List (Operation G)) (h : s.Follows u settings tl) :
    s.history.Continues (s.run ops).2.history := by
  induction ops generalizing s tl with
  | nil => exact .refl _
  | cons op ops ih => exact (h.continues_perform op).trans (ih (h.perform op).2)

/-! ## The order in which handles are given out -/

/-- Each transition that happens is given the first handle that was not given before. -/
theorem Follows.size_apply (h : s.Follows u settings tl) (t : Transition) :
    (s.apply t).2.history.slots.size = s.history.slots.size + 1 := by
  rw [(h.apply t).2.holds.made, h.holds.made]
  rfl

theorem Follows.handles_eq (ts : List Transition) (h : s.Follows u settings tl) :
    s.handles ts = (List.range' s.history.slots.size ts.length).map MomentId.mk ∧
    (s.applyAll ts).history.slots.size = s.history.slots.size + ts.length := by
  induction ts generalizing s tl with
  | nil => exact ⟨rfl, rfl⟩
  | cons t ts ih =>
      obtain ⟨hhandles, hsize⟩ := ih (h.apply t).2
      rw [h.size_apply] at hhandles hsize
      rw [List.length_cons]
      refine ⟨?_, hsize.trans (by omega)⟩
      rw [handles, hhandles, List.range'_succ, List.map_cons]
      rfl

/-- In a run the handles are given out in order, one for each transition that happens. -/
theorem Follows.made_eq (ops : List (Operation G)) (h : s.Follows u settings tl) :
    s.made ops = (List.range' s.history.slots.size (s.happenings ops).length).map MomentId.mk ∧
    (s.run ops).2.history.slots.size = s.history.slots.size + (s.happenings ops).length := by
  induction ops generalizing s tl with
  | nil => exact ⟨rfl, rfl⟩
  | cons op ops ih =>
      obtain ⟨hhandles, hsize⟩ := h.handles_eq (s.happening op)
      obtain ⟨hmade, hlater⟩ := ih (h.perform op).2
      rw [perform_history, hsize] at hmade hlater
      rw [made, happenings, List.length_append, hhandles, hmade, ← List.map_append,
        List.range'_append_1]
      exact ⟨rfl, hlater.trans (Nat.add_assoc _ _ _)⟩

/-- What the slots hold after a transition happened. -/
theorem Follows.get?_apply (h : s.Follows u settings tl) (t : Transition) (id : MomentId) :
    (s.apply t).2.history.get? id =
      if id.index = tl.made then
        some ⟨s.values.overlay t.effects, some t.id, some tl.here.id, none⟩
      else if id ∈ (tl.entries.drop (tl.cursor + 1)).map Entry.id then none
      else if id = tl.here.id then
        some { momentAt tl.entries tl.cursor tl.here with future := some ⟨tl.made⟩ }
      else s.history.get? id := by
  have hget := (h.holds.get?_pushAfter (s.values.overlay t.effects) t.id).2.2.2 id
  rw [← hget, ← h.now]
  rfl

/-- The moments that go when a transition happens are those behind the moment where the session
stands. -/
theorem Follows.contains_apply_eq_false_iff (h : s.Follows u settings tl) (t : Transition)
    {id : MomentId} (hid : s.history.contains id = true) :
    (s.apply t).2.history.contains id = false ↔ Relation.TransGen s.history.Next s.now id := by
  obtain ⟨m, hm⟩ := Option.isSome_iff_exists.mp hid
  obtain ⟨i, e, hi, rfl, rfl⟩ := h.holds.exists_entry hm
  have hknown : e.id.index ≠ tl.made := Nat.ne_of_lt (tl.known e (List.mem_of_getElem? hi))
  have hbehind := History.mem_ids_drop tl hi (tl.cursor + 1)
  rw [h.now, h.holds.transGen_next_iff tl.getElem?_cursor hi, History.contains, h.get?_apply,
    if_neg hknown]
  by_cases hlt : tl.cursor < i
  · rw [if_pos (hbehind.mpr hlt)]
    exact iff_of_true rfl hlt
  · rw [if_neg fun hmem => hlt (hbehind.mp hmem)]
    refine iff_of_false ?_ hlt
    split <;> simp [hm]

end Follows

/-! ## What handles mean -/

/-- What the handles given out so far mean in a session and in all that can come of it. -/
structure HandlesStable (G : Type) [Generator G] (s : Session) (given : List MomentId) :
    Prop where
  /-- Every moment has a handle that was given out. -/
  given_of_contains : ∀ id, s.history.contains id = true → id ∈ given
  /-- A transition that happens is given a handle that was not given before, of a moment that it
  makes from the one where the session stands. -/
  apply_new : ∀ t, (s.apply t).1 ∉ given ∧
    (s.apply t).2.history.get? (s.apply t).1 =
      some ⟨s.values.overlay t.effects, some t.id, some s.now, none⟩
  /-- The moments behind that one go then, and no others. -/
  apply_drops : ∀ t id, s.history.contains id = true →
    ((s.apply t).2.history.contains id = false ↔ Relation.TransGen s.history.Next s.now id)
  /-- A moment that is there later is as it was made. -/
  unchanged : ∀ (later : List (Operation G)) id m m', s.history.get? id = some m →
    (s.run later).2.history.get? id = some m' → m.SameOrigin m'
  /-- A moment that is gone stays gone.  There is no way to it then, and trying changes
  nothing. -/
  gone : ∀ (later : List (Operation G)) id, id ∈ given → s.history.contains id = false →
    (s.run later).2.history.contains id = false ∧
    (s.run later).2.perform (.goto id : Operation G) =
      (.refused (.unknownMoment id), (s.run later).2)
  /-- Sessions that went separate ways from here agree on the moments made before. -/
  separate : ∀ (one other : List (Operation G)) id m m', id ∈ given →
    (s.run one).2.history.get? id = some m → (s.run other).2.history.get? id = some m' →
      m.SameOrigin m'

variable {G : Type} [Generator G]

/-- It is enough that the handles given out are those below the number of slots. -/
theorem Follows.handlesStable {u : Universe} {settings : Settings} {s : Session} {tl : Timeline}
    (h : s.Follows u settings tl) {given : List MomentId}
    (hgiven : ∀ id, id ∈ given ↔ id.index < s.history.slots.size) :
    s.HandlesStable G given where
  given_of_contains := by
    intro id hid
    obtain ⟨m, hm⟩ := Option.isSome_iff_exists.mp hid
    exact (hgiven id).mpr (lt_size_of_join hm)
  apply_new := by
    intro t
    refine ⟨fun hmem => Nat.lt_irrefl _ ((hgiven _).mp hmem), ?_⟩
    rw [h.get?_apply, (h.apply t).1, if_pos rfl, h.now]
  apply_drops t _ hid := h.contains_apply_eq_false_iff t hid
  unchanged := by
    intro later id m m' hm hm'
    obtain ⟨m₀, hm₀, horigin⟩ := (h.continues_run later).kept (lt_size_of_join hm) hm'
    cases hm.symm.trans hm₀
    exact horigin
  gone := by
    intro later id hid hgone
    have hstays : (s.run later).2.history.contains id = false := by
      rw [Bool.eq_false_iff]
      intro hback
      obtain ⟨m', hm'⟩ := Option.isSome_iff_exists.mp hback
      obtain ⟨m, hm, -⟩ := (h.continues_run later).kept ((hgiven id).mp hid) hm'
      rw [History.contains, hm] at hgone
      cases hgone
    exact ⟨hstays, perform_goto_of_not_contains hstays⟩
  separate := by
    intro one other id m m' hid hm hm'
    obtain ⟨n, hn, horigin⟩ := (h.continues_run one).kept ((hgiven id).mp hid) hm
    obtain ⟨n', hn', horigin'⟩ := (h.continues_run other).kept ((hgiven id).mp hid) hm'
    cases hn.symm.trans hn'
    exact horigin.symm.trans horigin'

/-- In every run the transitions that happen are given the handles from one on, in order, and each
answer speaks of the handles given.  The handles mean the same ever after, or nothing. -/
theorem made_handlesStable (u : Universe) (settings : Settings) (ops : List (Operation G)) :
    (Session.start u settings).made ops =
      (List.range ((Session.start u settings).happenings ops).length).map (fun k => ⟨k + 1⟩) ∧
    (∀ op : Operation G, ((Session.after u settings ops).perform op).1.Reports
      ((Session.after u settings ops).made [op])) ∧
    (Session.after u settings ops).HandlesStable G
      (History.root :: (Session.start u settings).made ops) := by
  have hstart := follows_start u settings
  obtain ⟨hmade, hsize⟩ := hstart.made_eq ops
  have hone : (Session.start u settings).history.slots.size = 1 := rfl
  rw [hone] at hmade hsize
  refine ⟨?_, fun op => ?_, (hstart.run ops).2.handlesStable fun id => ?_⟩
  · rw [hmade, List.range'_eq_map_range, List.map_map]
    refine List.map_congr_left fun k _ => ?_
    rw [Function.comp_apply, Nat.add_comm]
  · have hreports := perform_reports (Session.after u settings ops) op
    rw [made, made, List.append_nil]
    exact hreports
  · rw [hsize, hmade, List.mem_cons, List.mem_map]
    constructor
    · rintro (rfl | ⟨k, hk, rfl⟩)
      · exact Nat.add_pos_left Nat.one_pos _
      · exact (List.mem_range'_1.mp hk).2
    · intro hlt
      rcases Nat.eq_zero_or_pos id.index with hzero | hpos
      · exact .inl (MomentId.eq_of_index_eq hzero)
      · exact .inr ⟨id.index, List.mem_range'_1.mpr ⟨hpos, hlt⟩, rfl⟩

end Session

end Storyworld
