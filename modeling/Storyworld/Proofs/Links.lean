import Mathlib.Data.List.Chain
import Mathlib.Data.List.Perm.Basic
import Storyworld.Proofs.Descent
import Storyworld.Proofs.Pass

/-!
# The links of a history

The links of a history make one line of its moments.  `History.WellLinked` says what
that takes, in terms of the slots alone: the root begins the line, past and future
are inverse to each other and lead to moments that are there, handles grow along the
line, nothing stands outside it, and the count of moments is that of the filled
slots.  A history that holds a timeline is well linked (`Holds.wellLinked`), so the
history of a session is after every run (`Session.after_wellLinked`).

Giving up a branch follows links while it empties slots, and the first link has been
turned elsewhere before.  `History.Empties` is that walk without a bound on its
length: it ends where there is no link, and every slot it comes to must be filled.
`Session.GivesUp` says that the walk from the moment where a session stands exists and
spares that moment and the root.  It also says that the bounded walk of `pushAfter` is
this one, so the bound cuts nothing off.
-/

namespace Storyworld

/-! ## Emptying slots -/

namespace History

/-- Following the futures from a moment and emptying the slot of each moment on the way.
Each slot is filled when it is come to.  Gives the moments on the way and the slots that
are left. -/
inductive Empties : Array (Option Moment) → Option MomentId → List MomentId →
    Array (Option Moment) → Prop where
  /-- There is no moment to go to. -/
  | done {slots : Array (Option Moment)} : Empties slots none [] slots
  /-- The slot of a moment is emptied before its future is looked at. -/
  | moment {slots kept : Array (Option Moment)} {id : MomentId} {m : Moment}
      {ids : List MomentId} : slots[id.index]?.join = some m →
      Empties (slots.setIfInBounds id.index none) m.future ids kept →
      Empties slots (some id) (id :: ids) kept

/-- Any bound that the way does not exceed is enough. -/
theorem Empties.discard {slots kept : Array (Option Moment)} {first : Option MomentId}
    {ids : List MomentId} (h : Empties slots first ids kept) {n : Nat} (hn : ids.length ≤ n) :
    History.discard n slots first = (kept, ids.length) := by
  induction h generalizing n with
  | done => cases n <;> rfl
  | moment hm _ ih =>
      cases n with
      | zero => exact absurd hn (Nat.not_succ_le_zero _)
      | succ n =>
          rw [History.discard, hm]
          simp only [Option.bind_some]
          rw [ih (Nat.le_of_succ_le_succ hn)]
          rfl

/-- The slots of linked entries can be emptied one after the other. -/
theorem empties_linked : ∀ {es : List Entry} {slots : Array (Option Moment)},
    es.Pairwise Entry.Before → Linked slots es →
      (∀ e ∈ es, ∃ m, slots[e.id.index]?.join = some m) →
      ∃ kept, Empties slots (es.head?.map Entry.id) (es.map Entry.id) kept
  | [], slots, _, _, _ => ⟨slots, .done⟩
  | e :: es, slots, ho, hl, hfilled => by
      obtain ⟨hbefore, ho'⟩ := List.pairwise_cons.mp ho
      obtain ⟨m, hm⟩ := hfilled e (List.mem_cons_self ..)
      have hfuture : m.future = es.head?.map Entry.id := by
        have hlink := hl.1
        rw [hm] at hlink
        exact hlink
      -- Emptying the slot of an entry leaves those of later entries as they are.
      have hlater : ∀ f ∈ es,
          (slots.setIfInBounds e.id.index none)[f.id.index]?.join = slots[f.id.index]?.join := by
        intro f hf
        rw [join_setIfInBounds_none, if_neg (Nat.ne_of_lt (hbefore f hf))]
      obtain ⟨kept, hkept⟩ := empties_linked ho' (linked_setIfInBounds hbefore hl.2)
        (fun f hf => hlater f hf ▸ hfilled f (List.mem_cons_of_mem e hf))
      exact ⟨kept, .moment hm (hfuture ▸ hkept)⟩

end History

/-! ## One line -/

/-- The links of a history make one line of its moments. -/
structure History.WellLinked (h : History) : Prop where
  /-- There is the root. -/
  root_live : h.contains History.root = true
  /-- Only the root has no past. -/
  past_none : ∀ {id : MomentId} {m : Moment}, h.get? id = some m →
    (m.past = none ↔ id = History.root)
  /-- Only the root has no cause. -/
  cause_none : ∀ {id : MomentId} {m : Moment}, h.get? id = some m →
    (m.cause = none ↔ id = History.root)
  /-- One moment is the future of another exactly if that is the past of the one. -/
  future_iff_past : ∀ {a b : MomentId} {m n : Moment}, h.get? a = some m → h.get? b = some n →
    (m.future = some b ↔ n.past = some a)
  /-- A past is there. -/
  past_live : ∀ {a b : MomentId} {m : Moment}, h.get? a = some m → m.past = some b →
    h.contains b = true
  /-- A future is there. -/
  future_live : ∀ {a b : MomentId} {m : Moment}, h.get? a = some m → m.future = some b →
    h.contains b = true
  /-- The handle of a future is larger. -/
  future_lt : ∀ {a b : MomentId} {m : Moment}, h.get? a = some m → m.future = some b →
    a.index < b.index
  /-- Following the futures from the root comes to every moment once, and ends at the only
  moment without a future. -/
  line : ∃ path : List MomentId, path.head? = some History.root ∧ path.IsChain h.Next ∧
    path.Nodup ∧ (∀ id, id ∈ path ↔ h.contains id = true) ∧
    ∀ {id : MomentId} {m : Moment}, h.get? id = some m →
      (m.future = none ↔ path.getLast? = some id)
  /-- The count of moments is that of the filled slots. -/
  live_eq : h.live = h.slots.countP Option.isSome
  /-- There is a moment. -/
  live_pos : 1 ≤ h.live

theorem Timeline.ids_nodup (tl : Timeline) : tl.ids.Nodup := by
  rw [ids, List.Nodup, List.pairwise_map]
  refine tl.ordered.imp fun hbefore heq => ?_
  exact Nat.ne_of_lt hbefore (congrArg MomentId.index heq)

namespace History

variable {h : History} {tl : Timeline}

section Places

variable {entries : List Entry} {i : Nat}

/-- The past of an entry is the one at the place before. -/
theorem pastAt_eq_some {id : MomentId} :
    pastAt entries i = some id ↔ ∃ k e, i = k + 1 ∧ entries[k]? = some e ∧ e.id = id := by
  cases i with
  | zero => exact ⟨nofun, fun ⟨_, _, hi, _⟩ => by omega⟩
  | succ i =>
      rw [pastAt, Option.map_eq_some_iff]
      constructor
      · intro given
        obtain ⟨e, he, hid⟩ := given
        exact ⟨i, e, rfl, he, hid⟩
      · intro given
        obtain ⟨k, e, hi, he, hid⟩ := given
        obtain rfl := Nat.succ.inj hi
        exact ⟨e, he, hid⟩

/-- The entry at a place has a past exactly if the place is not the first. -/
theorem pastAt_eq_none (hi : i < entries.length) : pastAt entries i = none ↔ i = 0 := by
  cases i with
  | zero => exact iff_of_true rfl rfl
  | succ i => simp [pastAt, List.getElem?_eq_getElem (Nat.lt_of_succ_lt hi)]

end Places

/-- The first entry is the one with the handle of the root. -/
theorem index_eq_zero_iff (tl : Timeline) {i : Nat} {e : Entry} (hi : tl.entries[i]? = some e) :
    i = 0 ↔ e.id = root := by
  obtain ⟨first, hfirst, hroot⟩ := Option.map_eq_some_iff.mp tl.first
  rw [List.head?_eq_getElem?] at hfirst
  constructor
  · rintro rfl
    cases hi.symm.trans hfirst
    exact hroot
  · intro hid
    exact tl.index_unique hi hfirst (hid.trans hroot.symm)

/-- Where the filled slots are. -/
theorem Holds.filled_perm (hh : h.Holds tl) :
    ((List.range h.slots.size).filter fun i => h.contains ⟨i⟩).Perm
      (tl.ids.map MomentId.index) := by
  have hnodup : (tl.ids.map MomentId.index).Nodup :=
    List.pairwise_map.mpr (tl.ids_nodup.imp fun hne heq => hne (MomentId.eq_of_index_eq heq))
  refine (List.perm_ext_iff_of_nodup (List.nodup_range.filter _) hnodup).mpr fun i => ?_
  rw [List.mem_filter, List.mem_range, hh.contains_iff, List.mem_map]
  constructor
  · intro given
    exact ⟨⟨i⟩, given.2, rfl⟩
  · intro given
    obtain ⟨id, hid, rfl⟩ := given
    obtain ⟨m, hm⟩ := Option.isSome_iff_exists.mp ((hh.contains_iff id).mpr hid)
    exact ⟨lt_size_of_join hm, hid⟩

/-- The filled slots are as many as the entries. -/
theorem Holds.countP_slots (hh : h.Holds tl) :
    h.slots.countP Option.isSome = tl.entries.length := by
  have hslots : h.slots.toList.map Option.isSome =
      (List.range h.slots.size).map fun i => h.contains ⟨i⟩ := by
    refine List.ext_getElem (by simp) fun i hi hi' => ?_
    simp only [List.length_map, Array.length_toList] at hi
    simp [contains, get?, hi]
  calc h.slots.countP Option.isSome
      = (h.slots.toList.map Option.isSome).countP id := by
        rw [List.countP_map, ← Array.countP_toList]
        rfl
    _ = ((List.range h.slots.size).filter fun i => h.contains ⟨i⟩).length := by
        rw [hslots, List.countP_map, List.countP_eq_length_filter]
        rfl
    _ = (tl.ids.map MomentId.index).length := hh.filled_perm.length_eq
    _ = tl.entries.length := by simp [Timeline.ids]

/-- The line of the entries. -/
theorem Holds.isChain_ids (hh : h.Holds tl) : tl.ids.IsChain h.Next := by
  rw [List.isChain_iff_getElem]
  intro i hi
  simp only [Timeline.ids, List.length_map] at hi
  have hprev := List.getElem?_eq_getElem (Nat.lt_of_succ_lt hi)
  simp only [Timeline.ids, List.getElem_map]
  rw [hh.next_iff hprev, List.getElem?_eq_getElem hi]
  rfl

/-- A history that holds a timeline is well linked. -/
theorem Holds.wellLinked (hh : h.Holds tl) : h.WellLinked where
  root_live := by
    rw [hh.contains_iff]
    obtain ⟨e, he, hid⟩ := Option.map_eq_some_iff.mp tl.first
    exact hid ▸ List.mem_map_of_mem (List.mem_of_head? he)
  past_none := by
    intro id m hm
    obtain ⟨i, e, hi, rfl, rfl⟩ := hh.exists_entry hm
    exact (pastAt_eq_none (List.getElem?_eq_some_iff.mp hi).1).trans (index_eq_zero_iff tl hi)
  cause_none := by
    intro id m hm
    obtain ⟨i, e, hi, rfl, rfl⟩ := hh.exists_entry hm
    exact tl.caused e (List.mem_of_getElem? hi)
  future_iff_past := by
    intro a b m n hm hn
    obtain ⟨i, e, hi, rfl, rfl⟩ := hh.exists_entry hm
    obtain ⟨j, f, hj, rfl, rfl⟩ := hh.exists_entry hn
    rw [momentAt, momentAt, futureAt, Option.map_eq_some_iff, pastAt_eq_some]
    constructor
    · intro given
      obtain ⟨f', hf', hid⟩ := given
      exact ⟨i, e, (tl.index_unique hf' hj hid).symm, hi, rfl⟩
    · intro given
      obtain ⟨k, e', rfl, he', hid⟩ := given
      obtain rfl := tl.index_unique he' hi hid
      exact ⟨f, hj, rfl⟩
  past_live := by
    intro a b m hm hpast
    obtain ⟨i, e, hi, rfl, rfl⟩ := hh.exists_entry hm
    obtain ⟨k, e', -, he', rfl⟩ := pastAt_eq_some.mp hpast
    exact (hh.contains_iff _).mpr (List.mem_map_of_mem (List.mem_of_getElem? he'))
  future_live := by
    intro a b m hm hfuture
    obtain ⟨i, e, hi, rfl, rfl⟩ := hh.exists_entry hm
    obtain ⟨f, hf, rfl⟩ := Option.map_eq_some_iff.mp hfuture
    exact (hh.contains_iff _).mpr (List.mem_map_of_mem (List.mem_of_getElem? hf))
  future_lt := by
    intro a b m hm hfuture
    obtain ⟨i, e, hi, rfl, rfl⟩ := hh.exists_entry hm
    obtain ⟨f, hf, rfl⟩ := Option.map_eq_some_iff.mp hfuture
    obtain ⟨hi', rfl⟩ := List.getElem?_eq_some_iff.mp hi
    obtain ⟨hf', rfl⟩ := List.getElem?_eq_some_iff.mp hf
    exact List.pairwise_iff_getElem.mp tl.ordered i (i + 1) hi' hf' (Nat.lt_succ_self i)
  line := by
    refine ⟨tl.ids, ?_, hh.isChain_ids, tl.ids_nodup, fun id => (hh.contains_iff id).symm, ?_⟩
    · rw [Timeline.ids, List.head?_map]
      exact tl.first
    · intro id m hm
      obtain ⟨i, e, hi, rfl, rfl⟩ := hh.exists_entry hm
      have hlt := (List.getElem?_eq_some_iff.mp hi).1
      rw [Timeline.ids, List.getLast?_map, List.getLast?_eq_getElem?, Option.map_eq_some_iff]
      constructor
      · intro hnone
        have hend := List.getElem?_eq_none_iff.mp (Option.map_eq_none_iff.mp hnone)
        obtain rfl : i = tl.entries.length - 1 := by omega
        exact ⟨e, hi, rfl⟩
      · intro given
        obtain ⟨f, hf, hid⟩ := given
        obtain rfl := tl.index_unique hf hi hid
        exact Option.map_eq_none_iff.mpr (List.getElem?_eq_none (by omega))
  live_eq := hh.live.trans hh.countP_slots.symm
  live_pos := by
    have := tl.cursor_lt
    rw [hh.live]
    omega

end History

/-! ## Giving up a branch -/

/-- What happens to the moments behind the one where a session stands when another takes
their place.  The session stands at a moment, which is linked to the new one first.  Then the
moments of the branch are given up, one after the other until there is no future; neither
the moment where the session stands nor the root is among them, and there are more
moments than these.  The new moment is put behind. -/
structure Session.GivesUp (s : Session) (branch : List MomentId) : Prop where
  /-- The walk along the branch, and the history behind it. -/
  walk : ∃ m kept, s.current? = some m ∧
    History.Empties (s.history.slots.setIfInBounds s.now.index
      (some { m with future := some ⟨s.history.slots.size⟩ })) m.future branch kept ∧
    ∀ values cause, s.history.pushAfter s.now values cause = (⟨s.history.slots.size⟩,
      ⟨kept.push (some ⟨values, some cause, some s.now, none⟩),
        s.history.live - branch.length + 1⟩)
  /-- The moment where the session stands is kept. -/
  now_not_mem : s.now ∉ branch
  /-- The root is kept. -/
  root_not_mem : History.root ∉ branch
  /-- Fewer moments are given up than there are. -/
  length_lt : branch.length < s.history.live

namespace Session

variable {u : Universe} {settings : Settings} {s : Session} {tl : Timeline}

/-- The branch that is given up is that of the entries behind the cursor. -/
theorem Follows.givesUp (h : s.Follows u settings tl) :
    s.GivesUp ((tl.entries.drop (tl.cursor + 1)).map Entry.id) := by
  have hcursor := tl.cursor_lt
  have hcurrent := h.current?
  have hget : s.history.get? s.now = some (momentAt tl.entries tl.cursor tl.here) := hcurrent
  have hbefore := History.here_before_drop tl
  rw [← h.now] at hbefore
  have hordered : (tl.entries.drop (tl.cursor + 1)).Pairwise Entry.Before :=
    tl.ordered.sublist (List.drop_sublist ..)
  have hlinked := History.linked_setIfInBounds (m := some
    { momentAt tl.entries tl.cursor tl.here with future := some ⟨s.history.slots.size⟩ })
    hbefore (h.holds.linked_drop (tl.cursor + 1))
  -- The new link of the origin lies outside the branch, whose slots are filled as before.
  have hfilled : ∀ e ∈ tl.entries.drop (tl.cursor + 1), ∃ m,
      (s.history.slots.setIfInBounds s.now.index (some { momentAt tl.entries tl.cursor tl.here with
        future := some ⟨s.history.slots.size⟩ }))[e.id.index]?.join = some m := by
    intro e he
    obtain ⟨i, hi⟩ := List.mem_iff_getElem?.mp (List.mem_of_mem_drop he)
    rw [join_setIfInBounds_some (lt_size_of_join hget), if_neg (Nat.ne_of_lt (hbefore e he))]
    exact ⟨_, h.holds.moment hi⟩
  obtain ⟨kept, hkept⟩ := History.empties_linked hordered hlinked hfilled
  have hfuture : (momentAt tl.entries tl.cursor tl.here).future =
      (tl.entries.drop (tl.cursor + 1)).head?.map Entry.id := by
    rw [List.head?_drop]
    rfl
  have hlength : (tl.entries.drop (tl.cursor + 1)).length < tl.entries.length := by
    rw [List.length_drop]
    omega
  have hmade : tl.entries.length ≤ s.history.slots.size := h.holds.made ▸ tl.length_le_made
  refine ⟨⟨_, kept, hcurrent, hfuture ▸ hkept, fun values cause => ?_⟩, ?_, ?_, ?_⟩
  · have hdiscard := hkept.discard (n := s.history.slots.size + 1)
      (by rw [List.length_map]; omega)
    rw [History.pushAfter, hget]
    simp only [hfuture]
    rw [hdiscard]
  · intro hmem
    obtain ⟨e, he, hid⟩ := List.mem_map.mp hmem
    have hlt := hbefore e he
    rw [hid] at hlt
    exact Nat.lt_irrefl _ hlt
  · intro hmem
    obtain ⟨e, he, hid⟩ := List.mem_map.mp hmem
    have hlt := hbefore e he
    rw [hid] at hlt
    exact Nat.not_lt_zero _ hlt
  · rw [List.length_map, h.holds.live]
    exact hlength

variable {G : Type} [Generator G]

/-- After every run the history of a session is one line of moments, the session stands at one
of them, and each holds one value for every factor.  A moment that is made from here, or from
where transitions that happen one after the other have led, gives up the moments behind,
after so many steps as there are of them, and no others. -/
theorem after_wellLinked (u : Universe) (settings : Settings) (ops : List (Operation G)) :
    (Session.after u settings ops).history.WellLinked ∧
    (Session.after u settings ops).current?.isSome = true ∧
    (∀ id m, (Session.after u settings ops).history.get? id = some m →
      m.values.size = u.factors.length) ∧
    ∀ ts, ∃ branch, ((Session.after u settings ops).applyAll ts).GivesUp branch := by
  have hfollows := ((follows_start u settings).run ops).2
  refine ⟨hfollows.holds.wellLinked, ?_, ?_, fun ts => ⟨_, (hfollows.applyAll ts).givesUp⟩⟩
  · rw [Session.after, hfollows.current?]
    rfl
  · refine after_always u settings (T := fun _ => True) (fun _ _ => trivial)
      (P := fun values => values.size = u.factors.length) ?_ ?_ ?_
    · intro op _
      cases op <;> trivial
    · exact List.length_map _
    · intro t values _ hsize
      rw [Snapshot.size_overlay, hsize]

end Session

end Storyworld
