import Mathlib.Data.List.Chain
import Storyworld.Proofs.Built
import Storyworld.Proofs.Refinement

/-!
# Where moments come from

Every entry of a timeline but the first was made from the one before it: a
transition overlaid its effects on what the factors held, and it is the cause of
the entry.  `Timeline.Descends` says this of a whole timeline, and of which kind
the transitions are.  Operations that let only transitions of the kind happen keep
it (`Descends.perform`), so it holds after every run (`Session.after_descends`).

What an entry holds is then what an earlier entry held, after the transitions on the
way from the one to the other happened one after the other (`Descends.values_eq`).  So
whatever holds at the beginning and survives every transition of the kind holds at every
moment of a session, wherever the session stands (`Session.after_always`).
-/

namespace Storyworld

/-! ## Transitions on a snapshot -/

/-- The snapshot after transitions happened one after the other. -/
def Snapshot.play (s : Snapshot) (ts : List Transition) : Snapshot :=
  ts.foldl (fun s t => s.overlay t.effects) s

theorem Snapshot.play_append (s : Snapshot) (ts us : List Transition) :
    s.play (ts ++ us) = (s.play ts).play us := List.foldl_append ..

/-- What every transition keeps all of them keep. -/
theorem Snapshot.play_keeps {P : Snapshot → Prop} {ts : List Transition}
    (step : ∀ t ∈ ts, ∀ s, P s → P (s.overlay t.effects)) {s : Snapshot} (h : P s) :
    P (s.play ts) := by
  induction ts generalizing s with
  | nil => exact h
  | cons t ts ih =>
      have hfirst := step t (List.mem_cons_self ..) s h
      exact ih (fun t' ht => step t' (List.mem_cons_of_mem t ht)) hfirst

/-! ## Timelines -/

/-- An entry was made from another by a transition of a kind. -/
def Entry.Makes (T : Transition → Prop) (e f : Entry) : Prop :=
  ∃ t, T t ∧ f.cause = some t.id ∧ f.values = e.values.overlay t.effects

/-- Every entry of a timeline was made from the one before it by a transition of a kind, and
the first has the given values. -/
structure Timeline.Descends (T : Transition → Prop) (values : Snapshot) (tl : Timeline) :
    Prop where
  /-- What the first entry holds. -/
  first : tl.entries.head?.map Entry.values = some values
  /-- Each entry was made from the one before. -/
  chain : tl.entries.IsChain (Entry.Makes T)

/-- The transition that an operation brings along, if it does, is of a kind. -/
def Operation.Brings {G : Type} (T : Transition → Prop) : Operation G → Prop
  | .apply t => T t
  | .applyId _ | .pass _ | .goto _ | .undo | .redo => True

namespace Timeline

variable {T : Transition → Prop} {values : Snapshot} {tl : Timeline}

theorem descends_start (T : Transition → Prop) (values : Snapshot) :
    (start values).Descends T values := ⟨rfl, List.isChain_singleton _⟩

/-- Up to the cursor the entry at the cursor is the last. -/
theorem getLast?_take_cursor (tl : Timeline) :
    (tl.entries.take (tl.cursor + 1)).getLast? = some tl.here := by
  rw [List.take_add_one, tl.getElem?_cursor]
  simp

/-- What holds between neighbours still does when a transition happens, if it holds between the
entry at the cursor and the new one. -/
theorem isChain_apply {R : Entry → Entry → Prop} (h : tl.entries.IsChain R) {t : Transition}
    (ht : R tl.here (tl.nextEntry t)) : (tl.apply t).entries.IsChain R := by
  rw [apply_entries, List.isChain_append]
  refine ⟨h.take _, List.isChain_singleton _, ?_⟩
  rw [tl.getLast?_take_cursor]
  rintro e he f hf
  cases he
  cases hf
  exact ht

namespace Descends

/-- Only the entries matter. -/
theorem of_entries (h : tl.Descends T values) {tl' : Timeline}
    (hentries : tl'.entries = tl.entries) : tl'.Descends T values := by
  refine ⟨?_, ?_⟩
  · rw [hentries]
    exact h.first
  · rw [hentries]
    exact h.chain

theorem apply (h : tl.Descends T values) {t : Transition} (ht : T t) :
    (tl.apply t).Descends T values := by
  have hhead : (tl.apply t).entries.head? = tl.entries.head? := tl.extended_head? _
  exact ⟨hhead ▸ h.first, isChain_apply h.chain ⟨t, ht, rfl, rfl⟩⟩

section Operations

variable {G : Type} [Generator G]

theorem passOver (ts : List Transition) (hts : ∀ t ∈ ts, T t) (g : G)
    (h : tl.Descends T values) : (tl.passOver g ts).2.Descends T values := by
  induction ts generalizing tl g with
  | nil => exact h
  | cons t ts ih =>
      obtain ⟨ht, hrest⟩ := List.forall_mem_cons.mp hts
      rw [passOver_cons]
      split
      · exact ih hrest _ (h.apply ht)
      · exact ih hrest _ h

theorem candidates_mem {u : Universe} {order : PassOrder} {g : G} {t : Transition}
    (ht : t ∈ (tl.candidates u order g).1) : t ∈ u.transitions := by
  have hpossible : t ∈ tl.possible u := by
    cases order with
    | declaration => exact ht
    | shuffled => exact (Random.shuffle_perm _ g).mem_iff.mp ht
  exact List.mem_of_mem_filter hpossible

/-- An operation makes entries by transitions of its universe and the one it brings. -/
theorem perform {u : Universe} (hu : ∀ t ∈ u.transitions, T t) (order : PassOrder)
    {op : Operation G} (hop : op.Brings T) (h : tl.Descends T values) :
    (tl.perform u order op).2.Descends T values := by
  cases op with
  | apply t => exact h.apply hop
  | applyId id =>
      simp only [Timeline.perform]
      cases ht : u.transition? id with
      | none => exact h
      | some t => exact h.apply (hu t (List.mem_of_getElem? ht))
  | pass g => exact Descends.passOver _ (fun t ht => hu t (candidates_mem ht)) _ h
  | goto id => exact h.of_entries (perform_of_navigates u order tl (.goto id : Operation G) rfl).1
  | undo => exact h.of_entries (perform_of_navigates u order tl (.undo : Operation G) rfl).1
  | redo => exact h.of_entries (perform_of_navigates u order tl (.redo : Operation G) rfl).1

theorem run {u : Universe} (hu : ∀ t ∈ u.transitions, T t) (order : PassOrder)
    {ops : List (Operation G)} (hops : ∀ op ∈ ops, op.Brings T) (h : tl.Descends T values) :
    (tl.run u order ops).2.Descends T values :=
  performAll_keeps (fun op hop _ h => h.perform hu order (hops op hop)) h

end Operations

/-- The first entry holds the given values. -/
theorem exists_first (h : tl.Descends T values) :
    ∃ f, tl.entries[0]? = some f ∧ f.values = values := by
  have hfirst := h.first
  rw [List.head?_eq_getElem?] at hfirst
  exact Option.map_eq_some_iff.mp hfirst

/-- What an entry holds is what an earlier one held, after the transitions on the way from the
one to the other. -/
theorem values_eq (h : tl.Descends T values) {j : Nat} {f : Entry}
    (hj : tl.entries[j]? = some f) : ∀ {i : Nat} {e : Entry}, tl.entries[i]? = some e → j ≤ i →
      ∃ ts : List Transition, (∀ t ∈ ts, T t) ∧
        ((tl.entries.take (i + 1)).drop (j + 1)).filterMap Entry.cause = ts.map Transition.id ∧
        e.values = f.values.play ts
  | 0, e, hi, hji => by
      obtain rfl := Nat.le_zero.mp hji
      cases hi.symm.trans hj
      exact ⟨[], nofun, by rw [History.drop_take_self]; rfl, rfl⟩
  | i + 1, e, hi, hji => by
      rcases Nat.lt_or_eq_of_le hji with hlt | rfl
      · have hbound := (List.getElem?_eq_some_iff.mp hi).1
        have hprev := List.getElem?_eq_getElem (Nat.lt_of_succ_lt hbound)
        have hle := Nat.le_of_lt_succ hlt
        obtain ⟨ts, hts, hcauses, hvalues⟩ := values_eq h hj hprev hle
        have hstep := List.isChain_iff_getElem.mp h.chain i hbound
        rw [(List.getElem?_eq_some_iff.mp hi).2] at hstep
        obtain ⟨t, ht, hcause, heffect⟩ := hstep
        refine ⟨ts ++ [t], ?_, ?_, ?_⟩
        · exact List.forall_mem_append.mpr ⟨hts, by simpa using ht⟩
        · rw [History.drop_take_succ hi hle, List.filterMap_append, hcauses, List.map_append]
          simp [hcause]
        · rw [heffect, hvalues, Snapshot.play_append]
          rfl
      · cases hi.symm.trans hj
        exact ⟨[], nofun, by rw [History.drop_take_self]; rfl, rfl⟩

/-- What holds at the beginning and survives every transition holds of every entry. -/
theorem always (h : tl.Descends T values) {P : Snapshot → Prop} (hstart : P values)
    (step : ∀ t s, T t → P s → P (s.overlay t.effects)) : ∀ e ∈ tl.entries, P e.values := by
  intro e he
  obtain ⟨f, hf, rfl⟩ := h.exists_first
  obtain ⟨i, hi⟩ := List.mem_iff_getElem?.mp he
  obtain ⟨ts, hts, -, hvalues⟩ := h.values_eq hf hi (Nat.zero_le i)
  rw [hvalues]
  exact Snapshot.play_keeps (fun t ht s => step t s (hts t ht)) hstart

end Descends

end Timeline

/-! ## Sessions -/

namespace History

/-- Giving up moments empties slots and keeps their number. -/
theorem size_discard (n : Nat) (slots : Array (Option Moment)) (first : Option MomentId) :
    (discard n slots first).1.size = slots.size := by
  induction n generalizing slots first with
  | zero => rfl
  | succ n ih =>
      cases first with
      | none => rfl
      | some id => exact (ih _ _).trans Array.size_setIfInBounds

/-- The moment that was made is found by its handle. -/
theorem get?_pushAfter_made (h : History) (origin : MomentId) (values : Snapshot)
    (cause : TransitionId) : (h.pushAfter origin values cause).2.get?
      (h.pushAfter origin values cause).1 = some ⟨values, some cause, some origin, none⟩ := by
  rw [pushAfter]
  cases h.get? origin with
  | none =>
      simp only
      rw [get?, join_push, size_discard, if_pos rfl]
  | some m =>
      simp only
      rw [get?, join_push, size_discard, Array.size_setIfInBounds, if_pos rfl]

end History

namespace Session

/-- Behind a transition the factors hold what they held, overlaid with its effects, whatever the
history of the session. -/
theorem values_apply (s : Session) (t : Transition) :
    (s.apply t).2.values = s.values.overlay t.effects := by
  have hmade := s.history.get?_pushAfter_made s.now (s.values.overlay t.effects) t.id
  rw [values, current?, apply, hmade]
  rfl

section Follows

variable {u : Universe} {settings : Settings} {s : Session} {tl : Timeline}

/-- What the factors hold now is what they held at an earlier entry, after all that happened
since. -/
theorem Follows.values_eq_play_of_entry (hu : u.Built) (h : s.Follows u settings tl)
    (hd : tl.Descends (· ∈ u.transitions) u.initial) {j : Nat} {f : Entry}
    (hj : tl.entries[j]? = some f) (hle : j ≤ tl.cursor) :
    s.values = f.values.play (s.eventsSince f.id) ∧
      ∀ t ∈ s.eventsSince f.id, t ∈ u.transitions := by
  obtain ⟨ts, hts, hcauses, hvalues⟩ := hd.values_eq hj tl.getElem?_cursor hle
  have hevents : s.eventsSince f.id = ts := by
    rw [Session.eventsSince, h.causesSince? hj hle, hcauses, h.world, Option.getD_some,
      Universe.filterMap_transition? fun t ht => hu.transition?_id (hts t ht)]
  rw [hevents, h.values]
  exact ⟨hvalues, hts⟩

/-- What the factors hold now is what they held at the beginning, after all that happened
since. -/
theorem Follows.values_eq_play (hu : u.Built) (h : s.Follows u settings tl)
    (hd : tl.Descends (· ∈ u.transitions) u.initial) :
    s.values = u.initial.play (s.eventsSince History.root) ∧
      ∀ t ∈ s.eventsSince History.root, t ∈ u.transitions := by
  obtain ⟨f, hf, hvalues⟩ := hd.exists_first
  have hroot : f.id = History.root := by
    have hid := tl.first
    rw [List.head?_eq_getElem?, hf] at hid
    exact Option.some.inj hid
  rw [← hvalues, ← hroot]
  exact h.values_eq_play_of_entry hu hd hf (Nat.zero_le _)

end Follows

variable {G : Type} [Generator G] {T : Transition → Prop}

/-- The timeline of a session descends from the beginning of its universe. -/
theorem after_descends (u : Universe) (settings : Settings) {ops : List (Operation G)}
    (hu : ∀ t ∈ u.transitions, T t) (hops : ∀ op ∈ ops, op.Brings T) :
    ∃ tl, (Session.after u settings ops).Follows u settings tl ∧ tl.Descends T u.initial :=
  ⟨_, ((follows_start u settings).run ops).2,
    (Timeline.descends_start T u.initial).run hu settings.order hops⟩

/-- What holds at the beginning and survives every transition holds at every moment. -/
theorem after_always (u : Universe) (settings : Settings) {ops : List (Operation G)}
    (hu : ∀ t ∈ u.transitions, T t) (hops : ∀ op ∈ ops, op.Brings T) {P : Snapshot → Prop}
    (hstart : P u.initial) (step : ∀ t s, T t → P s → P (s.overlay t.effects)) :
    ∀ id m, (Session.after u settings ops).history.get? id = some m → P m.values := by
  intro id m hm
  obtain ⟨tl, hfollows, hdescends⟩ := after_descends u settings hu hops
  obtain ⟨i, e, hi, -, rfl⟩ := hfollows.holds.exists_entry hm
  exact hdescends.always hstart step e (List.mem_of_getElem? hi)

end Session

end Storyworld
