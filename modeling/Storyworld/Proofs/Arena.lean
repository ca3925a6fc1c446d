import Storyworld.Proofs.Timeline

/-!
# The history holds a timeline

A history keeps its moments in slots with links, and counts them as it goes.
`History.Holds` says that all of this is one timeline written down: the slot of
an entry has its values and its cause, its links are the neighbours of the entry
in the list, no other slot is filled, and both counts are right.

The history of a session that starts holds the timeline that starts
(`holds_start`), and a moment made after the entry at the cursor makes it hold
the timeline after the transition (`Holds.pushAfter`).  Between the two steps of
the latter the slots hold no timeline: the origin is linked to a slot that is not
there yet.  So `discard_linked` asks only for the links among the entries given
up (`Linked`), and says of the other slots that they stay.

Looking back from one entry to an earlier one finds the causes of the entries from the
one to the other (`Holds.causesBack?`).
-/

namespace Storyworld

/-! ## Slots -/

section Slots

variable {slots : Array (Option Moment)}

theorem join_setIfInBounds_none (i j : Nat) :
    (slots.setIfInBounds i none)[j]?.join = if i = j then none else slots[j]?.join := by
  rw [Array.getElem?_setIfInBounds]
  by_cases h : i = j
  · rw [if_pos h, if_pos h]
    split <;> rfl
  · rw [if_neg h, if_neg h]

theorem join_setIfInBounds_some {i : Nat} (hi : i < slots.size) (m : Moment) (j : Nat) :
    (slots.setIfInBounds i (some m))[j]?.join = if i = j then some m else slots[j]?.join := by
  rw [Array.getElem?_setIfInBounds]
  by_cases h : i = j
  · rw [if_pos h, if_pos h, if_pos hi]
    rfl
  · rw [if_neg h, if_neg h]

theorem join_push (m : Moment) (j : Nat) :
    (slots.push (some m))[j]?.join = if j = slots.size then some m else slots[j]?.join := by
  rw [Array.getElem?_push]
  by_cases h : j = slots.size
  · rw [if_pos h, if_pos h]
    rfl
  · rw [if_neg h, if_neg h]

theorem lt_size_of_join {i : Nat} {m : Moment} (h : slots[i]?.join = some m) : i < slots.size := by
  by_cases hi : i < slots.size
  · exact hi
  · rw [Array.getElem?_eq_none (Nat.le_of_not_lt hi)] at h
    cases h

end Slots

theorem MomentId.eq_of_index_eq {a b : MomentId} (h : a.index = b.index) : a = b := by
  cases a
  cases b
  exact congrArg MomentId.mk h

/-! ## Giving up entries -/

namespace History

/-- The slots of entries have one entry after the other as their future, and the last
has none. -/
def Linked (slots : Array (Option Moment)) : List Entry → Prop
  | [] => True
  | e :: es =>
      slots[e.id.index]?.join.bind Moment.future = es.head?.map Entry.id ∧ Linked slots es

theorem linked_setIfInBounds {slots : Array (Option Moment)} {i : Nat} {m : Option Moment} :
    ∀ {es : List Entry}, (∀ e ∈ es, i < e.id.index) → Linked slots es →
      Linked (slots.setIfInBounds i m) es
  | [], _, _ => trivial
  | e :: es, hlt, h => by
      have hi := hlt e (List.mem_cons_self ..)
      refine ⟨?_, linked_setIfInBounds (fun f hf => hlt f (List.mem_cons_of_mem _ hf)) h.2⟩
      rw [Array.getElem?_setIfInBounds, if_neg (Nat.ne_of_lt hi)]
      exact h.1

/-- Giving up linked entries empties their slots and no others, and counts them. -/
theorem discard_linked : ∀ {es : List Entry} {n : Nat} {slots : Array (Option Moment)},
    es.length < n → es.Pairwise Entry.Before → Linked slots es →
      (discard n slots (es.head?.map Entry.id)).2 = es.length ∧
      (discard n slots (es.head?.map Entry.id)).1.size = slots.size ∧
      ∀ id : MomentId, (discard n slots (es.head?.map Entry.id)).1[id.index]?.join =
        if id ∈ es.map Entry.id then none else slots[id.index]?.join
  | [], 0, _, hn, _, _ => absurd hn (Nat.lt_irrefl 0)
  | [], n + 1, slots, _, _, _ => by simp [discard]
  | e :: es, 0, _, hn, _, _ => absurd hn (Nat.not_lt_zero _)
  | e :: es, n + 1, slots, hn, ho, hl => by
      obtain ⟨hbefore, ho'⟩ := List.pairwise_cons.mp ho
      have hl' : Linked (slots.setIfInBounds e.id.index none) es :=
        linked_setIfInBounds hbefore hl.2
      obtain ⟨hcount, hsize, hslots⟩ :=
        discard_linked (n := n) (Nat.lt_of_succ_lt_succ hn) ho' hl'
      simp only [List.head?_cons, Option.map_some, discard, hl.1]
      refine ⟨congrArg (· + 1) hcount, by rw [hsize, Array.size_setIfInBounds], fun id => ?_⟩
      rw [hslots id, join_setIfInBounds_none]
      by_cases hid : id = e.id
      · simp [hid]
      · have hne : e.id.index ≠ id.index := fun h => hid (MomentId.eq_of_index_eq h.symm)
        simp [hid, hne]

end History

/-! ## Holding a timeline -/

/-- The handle of the entry before a place. -/
def pastAt (entries : List Entry) : Nat → Option MomentId
  | 0 => none
  | i + 1 => entries[i]?.map Entry.id

/-- The handle of the entry after a place. -/
def futureAt (entries : List Entry) (i : Nat) : Option MomentId := entries[i + 1]?.map Entry.id

/-- The moment that an entry is at its place. -/
def momentAt (entries : List Entry) (i : Nat) (e : Entry) : Moment :=
  ⟨e.values, e.cause, pastAt entries i, futureAt entries i⟩

/-- A history is a timeline written down in slots. -/
structure History.Holds (h : History) (tl : Timeline) : Prop where
  /-- The slot of an entry is the entry with its neighbours as links. -/
  moment : ∀ {i : Nat} {e : Entry}, tl.entries[i]? = some e →
    h.get? e.id = some (momentAt tl.entries i e)
  /-- Every slot that is filled is the slot of an entry. -/
  entry : ∀ {id : MomentId} {m : Moment}, h.get? id = some m → id ∈ tl.ids
  /-- The count of moments is that of the entries. -/
  live : h.live = tl.entries.length
  /-- There is a slot for every entry ever made. -/
  made : h.slots.size = tl.made

namespace History

theorem holds_start (values : Snapshot) : (History.start values).Holds (Timeline.start values) where
  moment := by
    intro i e hi
    cases i with
    | zero =>
        cases hi
        rfl
    | succ i => simp [Timeline.start] at hi
  entry := by
    intro id m hm
    have hid : id.index < 1 := lt_size_of_join hm
    have : id = root := MomentId.eq_of_index_eq (Nat.lt_one_iff.mp hid)
    simp [Timeline.ids, Timeline.start, this]
  live := rfl
  made := rfl

section Holds

variable {h : History} {tl : Timeline}

/-- Where the cursor stands makes no difference to the slots. -/
theorem Holds.of_entries (hh : h.Holds tl) {tl' : Timeline} (hentries : tl'.entries = tl.entries)
    (hmade : tl'.made = tl.made) : h.Holds tl' where
  moment hi := by
    rw [hentries] at hi ⊢
    exact hh.moment hi
  entry hm := by
    rw [Timeline.ids, hentries]
    exact hh.entry hm
  live := by rw [hh.live, hentries]
  made := by rw [hh.made, hmade]

/-- The slot of an entry is empty or filled as the entry is dropped or kept. -/
theorem Holds.contains_iff (hh : h.Holds tl) (id : MomentId) :
    h.contains id = true ↔ id ∈ tl.ids := by
  rw [History.contains, Option.isSome_iff_exists]
  constructor
  · intro given
    obtain ⟨m, hm⟩ := given
    exact hh.entry hm
  · intro hid
    obtain ⟨e, he, rfl⟩ := List.mem_map.mp hid
    obtain ⟨i, hi⟩ := List.mem_iff_getElem?.mp he
    exact ⟨_, hh.moment hi⟩

/-- Every moment is that of an entry at its place. -/
theorem Holds.exists_entry (hh : h.Holds tl) {id : MomentId} {m : Moment}
    (hm : h.get? id = some m) :
    ∃ i e, tl.entries[i]? = some e ∧ id = e.id ∧ m = momentAt tl.entries i e := by
  obtain ⟨e, he, rfl⟩ := List.mem_map.mp (hh.entry hm)
  obtain ⟨i, hi⟩ := List.mem_iff_getElem?.mp he
  exact ⟨i, e, hi, rfl, Option.some.inj (hm.symm.trans (hh.moment hi))⟩

/-- The links among the entries behind a place. -/
theorem Holds.linked_drop (hh : h.Holds tl) (k : Nat) : Linked h.slots (tl.entries.drop k) := by
  suffices hs : ∀ (n k : Nat), tl.entries.length - k = n →
      Linked h.slots (tl.entries.drop k) from hs _ k rfl
  intro n
  induction n with
  | zero =>
      intro k hk
      rw [List.drop_eq_nil_of_le (by omega)]
      trivial
  | succ n ih =>
      intro k hk
      have hlt : k < tl.entries.length := by omega
      rw [List.drop_eq_getElem_cons hlt]
      refine ⟨?_, ih (k + 1) (by omega)⟩
      have hm : h.slots[(tl.entries[k]).id.index]?.join =
          some (momentAt tl.entries k tl.entries[k]) :=
        hh.moment (List.getElem?_eq_getElem hlt)
      rw [hm, List.head?_drop]
      rfl

/-- The entries behind the cursor, seen from the front. -/
theorem mem_ids_drop (tl : Timeline) {i : Nat} {e : Entry} (hi : tl.entries[i]? = some e)
    (k : Nat) : e.id ∈ (tl.entries.drop k).map Entry.id ↔ k ≤ i := by
  constructor
  · intro hmem
    obtain ⟨f, hf, hid⟩ := List.mem_map.mp hmem
    obtain ⟨j, hj⟩ := List.mem_iff_getElem?.mp hf
    rw [List.getElem?_drop] at hj
    have := tl.index_unique hj hi hid
    omega
  · intro hk
    refine List.mem_map.mpr ⟨e, List.mem_iff_getElem?.mpr ⟨i - k, ?_⟩, rfl⟩
    rw [List.getElem?_drop, Nat.add_sub_cancel' hk, hi]

/-- The entries behind the cursor come after the one at the cursor. -/
theorem here_before_drop (tl : Timeline) :
    ∀ e ∈ tl.entries.drop (tl.cursor + 1), tl.here.id.index < e.id.index := by
  have hord : (tl.entries.drop tl.cursor).Pairwise Entry.Before :=
    tl.ordered.sublist (List.drop_sublist ..)
  rw [List.drop_eq_getElem_cons tl.cursor_lt] at hord
  exact (List.pairwise_cons.mp hord).1

/-- What the slots hold after a moment was made from the entry at the cursor: the new
one in a new slot, the origin with a new future, nothing where entries were dropped,
and what they held elsewhere. -/
theorem Holds.get?_pushAfter (hh : h.Holds tl) (values : Snapshot) (cause : TransitionId) :
    (h.pushAfter tl.here.id values cause).1 = ⟨tl.made⟩ ∧
    (h.pushAfter tl.here.id values cause).2.slots.size = tl.made + 1 ∧
    (h.pushAfter tl.here.id values cause).2.live = tl.cursor + 2 ∧
    ∀ id : MomentId, (h.pushAfter tl.here.id values cause).2.get? id =
      if id.index = tl.made then some ⟨values, some cause, some tl.here.id, none⟩
      else if id ∈ (tl.entries.drop (tl.cursor + 1)).map Entry.id then none
      else if id = tl.here.id then
        some { momentAt tl.entries tl.cursor tl.here with future := some ⟨tl.made⟩ }
      else h.get? id := by
  have hcur := tl.cursor_lt
  have hhere := hh.moment tl.getElem?_cursor
  have hhere_lt : tl.here.id.index < h.slots.size := lt_size_of_join hhere
  have hfuel : (tl.entries.drop (tl.cursor + 1)).length < tl.made + 1 := by
    have := tl.length_le_made
    rw [List.length_drop]
    omega
  -- The origin stands before the entries given up, so its new link does not touch theirs.
  have hlinked := linked_setIfInBounds (m := some
    { momentAt tl.entries tl.cursor tl.here with future := some ⟨tl.made⟩ })
    (here_before_drop tl) (hh.linked_drop (tl.cursor + 1))
  obtain ⟨hcount, hsize, hslots⟩ := discard_linked hfuel
    (tl.ordered.sublist (List.drop_sublist ..)) hlinked
  have hfuture : (momentAt tl.entries tl.cursor tl.here).future =
      (tl.entries.drop (tl.cursor + 1)).head?.map Entry.id := by
    rw [List.head?_drop]
    rfl
  rw [Array.size_setIfInBounds, hh.made] at hsize
  rw [pushAfter, hhere]
  simp only [hfuture, hh.made]
  refine ⟨trivial, by rw [Array.size_push, hsize], ?_, fun id => ?_⟩
  · rw [hcount, hh.live, List.length_drop]
    omega
  · rw [History.get?, join_push, hsize, hslots id]
    by_cases hid : id = tl.here.id
    · rw [hid, join_setIfInBounds_some hhere_lt, if_pos rfl, if_pos rfl]
    · have hne : tl.here.id.index ≠ id.index := fun e => hid (MomentId.eq_of_index_eq e.symm)
      rw [join_setIfInBounds_some hhere_lt, if_neg hne, if_neg hid]
      rfl

/-- Up to the cursor a timeline after a transition is the one before. -/
theorem getElem?_apply_of_le (tl : Timeline) (t : Transition) {i : Nat} (hi : i ≤ tl.cursor) :
    (tl.apply t).entries[i]? = tl.entries[i]? := by
  have hcur := tl.cursor_lt
  rw [Timeline.apply_entries, List.getElem?_append_left, List.getElem?_take_of_lt]
  · omega
  · rw [List.length_take]
    omega

theorem getElem?_apply_succ (tl : Timeline) (t : Transition) :
    (tl.apply t).entries[tl.cursor + 1]? = some (tl.nextEntry t) := by
  have h := (tl.apply t).getElem?_cursor
  rwa [Timeline.here_apply, Timeline.apply_cursor] at h

theorem pastAt_apply_of_le (tl : Timeline) (t : Transition) : ∀ {i : Nat}, i ≤ tl.cursor + 1 →
    pastAt (tl.apply t).entries i = pastAt tl.entries i
  | 0, _ => rfl
  | i + 1, hi => by rw [pastAt, pastAt, getElem?_apply_of_le tl t (Nat.le_of_succ_le_succ hi)]

theorem momentAt_apply_of_lt (tl : Timeline) (t : Transition) {i : Nat} (hi : i < tl.cursor)
    (e : Entry) : momentAt (tl.apply t).entries i e = momentAt tl.entries i e := by
  rw [momentAt, momentAt, pastAt_apply_of_le tl t (by omega), futureAt, futureAt,
    getElem?_apply_of_le tl t (by omega)]

theorem momentAt_apply_cursor (tl : Timeline) (t : Transition) (e : Entry) :
    momentAt (tl.apply t).entries tl.cursor e =
      { momentAt tl.entries tl.cursor e with future := some ⟨tl.made⟩ } := by
  rw [momentAt, pastAt_apply_of_le tl t (Nat.le_succ _), futureAt, getElem?_apply_succ]
  rfl

theorem momentAt_apply_succ (tl : Timeline) (t : Transition) (e : Entry) :
    momentAt (tl.apply t).entries (tl.cursor + 1) e =
      ⟨e.values, e.cause, some tl.here.id, none⟩ := by
  have hlen : (tl.apply t).entries.length = tl.cursor + 2 := tl.length_extended _
  rw [momentAt, pastAt_apply_of_le tl t (Nat.le_refl _), pastAt, tl.getElem?_cursor, futureAt,
    List.getElem?_eq_none (Nat.le_of_eq hlen)]
  rfl

/-- Letting a transition happen makes the history hold the timeline after it. -/
theorem Holds.pushAfter (hh : h.Holds tl) (t : Transition) :
    (h.pushAfter tl.here.id (tl.here.values.overlay t.effects) t.id).2.Holds (tl.apply t) := by
  obtain ⟨-, hsize, hlive, hget⟩ := hh.get?_pushAfter (tl.here.values.overlay t.effects) t.id
  have hlen : (tl.apply t).entries.length = tl.cursor + 2 := tl.length_extended _
  refine ⟨fun {i e} hi => ?_, fun {id m} hm => ?_, hlive.trans hlen.symm, hsize⟩
  · have hlt : i < tl.cursor + 2 := hlen ▸ (List.getElem?_eq_some_iff.mp hi).1
    rw [hget e.id]
    by_cases hnew : i = tl.cursor + 1
    · subst hnew
      rw [getElem?_apply_succ] at hi
      cases hi
      rw [if_pos (show (tl.nextEntry t).id.index = tl.made from rfl), momentAt_apply_succ]
      rfl
    · rw [getElem?_apply_of_le tl t (by omega)] at hi
      have hknown : e.id.index < tl.made := tl.known e (List.mem_of_getElem? hi)
      rw [if_neg (Nat.ne_of_lt hknown), if_neg (by rw [mem_ids_drop tl hi]; omega)]
      by_cases hhere : i = tl.cursor
      · subst hhere
        rw [tl.getElem?_cursor] at hi
        cases hi
        rw [if_pos rfl, momentAt_apply_cursor]
      · have hne : e.id ≠ tl.here.id := fun he =>
          hhere (tl.index_unique hi tl.getElem?_cursor he)
        rw [if_neg hne, hh.moment hi, momentAt_apply_of_lt tl t (by omega)]
  · rw [hget id] at hm
    split at hm
    · next hid =>
        have : id = (tl.nextEntry t).id := MomentId.eq_of_index_eq hid
        exact List.mem_map.mpr ⟨_, List.mem_append_right _ (List.mem_singleton_self _), this.symm⟩
    · split at hm
      · cases hm
      · next hdrop =>
          have hid : id ∈ tl.ids := by
            split at hm
            · next he => exact he ▸ List.mem_map_of_mem tl.here_mem
            · exact hh.entry hm
          obtain ⟨e, he, rfl⟩ := List.mem_map.mp hid
          obtain ⟨i, hi⟩ := List.mem_iff_getElem?.mp he
          rw [mem_ids_drop tl hi] at hdrop
          have := getElem?_apply_of_le tl t (i := i) (by omega)
          exact List.mem_map.mpr ⟨e, List.mem_of_getElem? (this.trans hi), rfl⟩

/-! ## Looking back -/

section Between

variable {entries : List Entry} {i j : Nat}

/-- Behind a place up to the same place there is nothing. -/
theorem drop_take_self : (entries.take (i + 1)).drop (i + 1) = [] :=
  List.drop_eq_nil_of_le (List.length_take_le ..)

/-- Behind a place up to a later one the last entry is the later one. -/
theorem drop_take_succ {e : Entry} (hi : entries[i + 1]? = some e) (hji : j ≤ i) :
    (entries.take (i + 1 + 1)).drop (j + 1) = (entries.take (i + 1)).drop (j + 1) ++ [e] := by
  have hlt := (List.getElem?_eq_some_iff.mp hi).1
  rw [List.take_add_one, hi, Option.toList_some,
    List.drop_append_of_le_length (by rw [List.length_take]; omega)]

end Between

theorem causesBack?_self (id : MomentId) (steps : Nat) (causes : List TransitionId) :
    h.causesBack? id steps id causes = some causes := by
  unfold History.causesBack?
  rw [if_pos rfl]

theorem causesBack?_step {since id past : MomentId} {values : Snapshot} {cause : TransitionId}
    {future : Option MomentId} {steps : Nat} {causes : List TransitionId} (hne : id ≠ since)
    (hm : h.get? id = some ⟨values, some cause, some past, future⟩) :
    h.causesBack? since (steps + 1) id causes =
      h.causesBack? since steps past (cause :: causes) := by
  conv => lhs; unfold History.causesBack?
  rw [if_neg hne, hm]

/-- Looking back from an entry to an earlier one gives the causes of the entries behind
the earlier one up to the later. -/
theorem Holds.causesBack? (hh : h.Holds tl) {j : Nat} {f : Entry}
    (hj : tl.entries[j]? = some f) : ∀ {i steps : Nat} {e : Entry} (causes : List TransitionId),
      tl.entries[i]? = some e → j ≤ i → i - j ≤ steps →
      h.causesBack? f.id steps e.id causes =
        some (((tl.entries.take (i + 1)).drop (j + 1)).filterMap Entry.cause ++ causes)
  | 0, steps, e, causes, hi, hji, _ => by
      obtain rfl : j = 0 := Nat.le_zero.mp hji
      cases hi.symm.trans hj
      rw [causesBack?_self, drop_take_self]
      rfl
  | i + 1, steps, e, causes, hi, hji, hsteps => by
      by_cases heq : i + 1 = j
      · subst heq
        cases hi.symm.trans hj
        rw [causesBack?_self, drop_take_self]
        rfl
      · have hne : e.id ≠ f.id := fun hid => heq (tl.index_unique hi hj hid)
        obtain ⟨t, ht⟩ := tl.exists_cause hi
        have hlt : i < tl.entries.length := by
          have := (List.getElem?_eq_some_iff.mp hi).1
          omega
        have hprev := List.getElem?_eq_getElem hlt
        cases steps with
        | zero => omega
        | succ steps =>
            have hmoment := hh.moment hi
            rw [momentAt, pastAt, ht, hprev] at hmoment
            rw [causesBack?_step hne hmoment,
              Holds.causesBack? hh hj (t :: causes) hprev (by omega) (by omega),
              drop_take_succ hi (by omega), List.filterMap_append]
            simp [ht]

end Holds

end History

end Storyworld
