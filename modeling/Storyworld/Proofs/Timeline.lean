import Storyworld.Session

/-!
# Timelines

A *timeline* is what the history of a session amounts to: a list of entries that
is not empty, and a cursor into it.  It has no slots, no links and no count of
its own.

* Applying a transition drops every entry behind the cursor, appends one and
  moves onto it.  It alone changes the list.
* Going back and forth moves the cursor by one, if there is an entry there.
* Going to a moment moves the cursor to the entry of that handle.

Handles are given out in order, so a timeline also counts the entries it ever
had.  The entries it has stand in the order of their handles, all below that
count (`ordered`, `known`).  No two of them share a handle (`index_unique`), and
there are no more of them than were made (`length_le_made`).  The first is the root,
and it is the only one without a cause (`first`, `caused`).
-/

namespace Storyworld

/-! ## Entries -/

/-- A moment without its links. -/
structure Entry where
  /-- The handle of the moment. -/
  id : MomentId
  /-- What the factors held. -/
  values : Snapshot
  /-- The transition that made the moment; the first has none. -/
  cause : Option TransitionId
deriving DecidableEq, Repr

/-- The order of entries is that of their handles. -/
def Entry.Before (e f : Entry) : Prop := e.id.index < f.id.index

/-- Entries in the order of their handles, with a cursor. -/
@[ext]
structure Timeline where
  /-- The entries, oldest first. -/
  entries : List Entry
  /-- The place of the entry where the timeline stands. -/
  cursor : Nat
  /-- The number of entries ever made. -/
  made : Nat
  /-- The cursor is the place of an entry. -/
  cursor_lt : cursor < entries.length
  /-- The entries stand in the order of their handles. -/
  ordered : entries.Pairwise Entry.Before
  /-- Every handle was given out. -/
  known : ∀ e ∈ entries, e.id.index < made
  /-- The first entry is the root. -/
  first : entries.head?.map Entry.id = some History.root
  /-- All entries but the root have a cause. -/
  caused : ∀ e ∈ entries, e.cause = none ↔ e.id = History.root

namespace Timeline

/-- The timeline that has only a first entry. -/
def start (values : Snapshot) : Timeline where
  entries := [⟨History.root, values, none⟩]
  cursor := 0
  made := 1
  cursor_lt := Nat.zero_lt_one
  ordered := List.pairwise_singleton _ _
  known := by simp [History.root]
  first := rfl
  caused := by simp

/-- The entry where the timeline stands. -/
def here (tl : Timeline) : Entry := getElem tl.entries tl.cursor tl.cursor_lt

/-- The handles of the entries. -/
def ids (tl : Timeline) : List MomentId := tl.entries.map Entry.id

/-! ## Moving -/

/-- The timeline with the cursor one entry earlier, if there is one. -/
def undo? (tl : Timeline) : Option Timeline :=
  if tl.cursor = 0 then none
  else some { tl with
    cursor := tl.cursor - 1
    cursor_lt := Nat.lt_of_le_of_lt (Nat.sub_le ..) tl.cursor_lt }

/-- The timeline with the cursor one entry later, if there is one. -/
def redo? (tl : Timeline) : Option Timeline :=
  if h : tl.cursor + 1 < tl.entries.length then
    some { tl with cursor := tl.cursor + 1, cursor_lt := h }
  else none

/-- The timeline with the cursor at the entry of a handle, if there is one. -/
def goto? (tl : Timeline) (id : MomentId) : Option Timeline :=
  (tl.entries.findFinIdx? fun e => e.id == id).map fun i =>
    { tl with cursor := i.val, cursor_lt := i.isLt }

section Moving

variable {tl tl' : Timeline}

theorem undo?_frame (h : tl.undo? = some tl') :
    tl'.entries = tl.entries ∧ tl'.made = tl.made ∧ tl.cursor = tl'.cursor + 1 := by
  rw [undo?] at h
  split at h
  · cases h
  · cases h
    exact ⟨rfl, rfl, by simp only; omega⟩

theorem undo?_eq_none_iff : tl.undo? = none ↔ tl.cursor = 0 := by
  rw [undo?]
  split <;> simp [*]

theorem redo?_frame (h : tl.redo? = some tl') :
    tl'.entries = tl.entries ∧ tl'.made = tl.made ∧ tl'.cursor = tl.cursor + 1 := by
  rw [redo?] at h
  split at h
  · cases h
    exact ⟨rfl, rfl, rfl⟩
  · cases h

theorem goto?_frame {id : MomentId} (h : tl.goto? id = some tl') :
    tl'.entries = tl.entries ∧ tl'.made = tl.made ∧ tl'.here.id = id := by
  obtain ⟨i, hi, rfl⟩ := Option.map_eq_some_iff.mp h
  have hid := (List.findFinIdx?_eq_some_iff.mp hi).1
  exact ⟨rfl, rfl, eq_of_beq hid⟩

/-- There is a way to a moment exactly if it is the moment of an entry. -/
theorem goto?_eq_none_iff {id : MomentId} : tl.goto? id = none ↔ id ∉ tl.ids := by
  rw [goto?, Option.map_eq_none_iff, ← Option.isNone_iff_eq_none, List.isNone_findFinIdx?]
  simp [ids]

/-- Going back and forth again leads to the same place. -/
theorem redo?_of_undo? (h : tl.undo? = some tl') : tl'.redo? = some tl := by
  obtain ⟨hentries, hmade, hcursor⟩ := undo?_frame h
  have hlt := tl.cursor_lt
  rw [redo?, dif_pos (by rw [hentries]; omega)]
  exact congrArg some (Timeline.ext hentries hcursor.symm hmade)

/-- Going forth and back again leads to the same place. -/
theorem undo?_of_redo? (h : tl.redo? = some tl') : tl'.undo? = some tl := by
  obtain ⟨hentries, hmade, hcursor⟩ := redo?_frame h
  rw [undo?, if_neg (by omega)]
  exact congrArg some (Timeline.ext hentries (by simp only; omega) hmade)

end Moving

/-! ## Making an entry -/

/-- The entry that a transition makes here. -/
def nextEntry (tl : Timeline) (t : Transition) : Entry :=
  ⟨⟨tl.made⟩, tl.here.values.overlay t.effects, some t.id⟩

/-- The entries up to the cursor, and one more. -/
def extended (tl : Timeline) (e : Entry) : List Entry := tl.entries.take (tl.cursor + 1) ++ [e]

theorem length_extended (tl : Timeline) (e : Entry) :
    (tl.extended e).length = tl.cursor + 2 := by
  have h := tl.cursor_lt
  simp only [extended, List.length_append, List.length_take, List.length_singleton]
  omega

theorem mem_extended {tl : Timeline} {e f : Entry} (h : f ∈ tl.extended e) :
    f ∈ tl.entries ∨ f = e := by
  rcases List.mem_append.mp h with hf | hf
  · exact Or.inl (List.mem_of_mem_take hf)
  · exact Or.inr (List.mem_singleton.mp hf)

theorem extended_ordered (tl : Timeline) {e : Entry} (he : e.id.index = tl.made) :
    (tl.extended e).Pairwise Entry.Before := by
  refine List.pairwise_append.mpr ⟨tl.ordered.sublist (List.take_sublist ..),
    List.pairwise_singleton _ _, ?_⟩
  intro f hf g hg
  rw [List.mem_singleton.mp hg, Entry.Before, he]
  exact tl.known f (List.mem_of_mem_take hf)

theorem extended_head? (tl : Timeline) (e : Entry) :
    (tl.extended e).head? = tl.entries.head? := by
  have h := tl.cursor_lt
  cases hes : tl.entries with
  | nil => simp [hes] at h
  | cons f es => simp [extended, hes]

/-- The root was made. -/
theorem made_pos (tl : Timeline) : 0 < tl.made := by
  cases hes : tl.entries with
  | nil =>
      have h := tl.cursor_lt
      simp [hes] at h
  | cons f es =>
      have hf := tl.known f (hes ▸ List.mem_cons_self ..)
      omega

/-- Let a transition happen: what was behind the cursor is dropped. -/
def apply (tl : Timeline) (t : Transition) : Timeline where
  entries := tl.extended (tl.nextEntry t)
  cursor := tl.cursor + 1
  made := tl.made + 1
  cursor_lt := by rw [length_extended]; exact Nat.lt_succ_self _
  ordered := tl.extended_ordered rfl
  known := by
    intro e he
    rcases mem_extended he with h | rfl
    · exact Nat.lt_succ_of_lt (tl.known e h)
    · exact Nat.lt_succ_self _
  first := by rw [extended_head?, tl.first]
  caused := by
    intro e he
    rcases mem_extended he with h | rfl
    · exact tl.caused e h
    · have hmade := tl.made_pos
      simp [nextEntry, History.root]
      omega

@[simp] theorem apply_entries (tl : Timeline) (t : Transition) :
    (tl.apply t).entries = tl.entries.take (tl.cursor + 1) ++ [tl.nextEntry t] := rfl

@[simp] theorem apply_cursor (tl : Timeline) (t : Transition) :
    (tl.apply t).cursor = tl.cursor + 1 := rfl

@[simp] theorem here_apply (tl : Timeline) (t : Transition) :
    (tl.apply t).here = tl.nextEntry t := by
  have h := tl.cursor_lt
  have hlen : (tl.entries.take (tl.cursor + 1)).length = tl.cursor + 1 := by
    rw [List.length_take]
    omega
  simp only [here, apply_entries, apply_cursor]
  rw [List.getElem_append_right (Nat.le_of_eq hlen)]
  simp

/-! ## What the order of handles gives -/

theorem getElem?_cursor (tl : Timeline) : tl.entries[tl.cursor]? = some tl.here :=
  List.getElem?_eq_getElem tl.cursor_lt

theorem here_mem (tl : Timeline) : tl.here ∈ tl.entries := List.getElem_mem _

/-- Entries at different places have different handles. -/
theorem index_unique (tl : Timeline) {i j : Nat} {e f : Entry} (hi : tl.entries[i]? = some e)
    (hj : tl.entries[j]? = some f) (h : e.id = f.id) : i = j := by
  obtain ⟨hi', rfl⟩ := List.getElem?_eq_some_iff.mp hi
  obtain ⟨hj', rfl⟩ := List.getElem?_eq_some_iff.mp hj
  have hlt := List.pairwise_iff_getElem.mp tl.ordered
  have hne : ∀ {a b : Nat}, a = b → ¬ a < b := fun hab => by omega
  have hidx := congrArg MomentId.index h
  rcases Nat.lt_trichotomy i j with hij | hij | hij
  · exact absurd (hlt i j hi' hj' hij) (hne hidx)
  · exact hij
  · exact absurd (hlt j i hj' hi' hij) (hne hidx.symm)

/-- An entry behind the first has a cause. -/
theorem exists_cause (tl : Timeline) {i : Nat} {e : Entry} (h : tl.entries[i + 1]? = some e) :
    ∃ t, e.cause = some t := by
  cases hc : e.cause with
  | some t => exact ⟨t, rfl⟩
  | none =>
      have hid := (tl.caused e (List.mem_of_getElem? h)).mp hc
      obtain ⟨root, hroot, hrootid⟩ := Option.map_eq_some_iff.mp tl.first
      rw [List.head?_eq_getElem?] at hroot
      have := tl.index_unique h hroot (hid.trans hrootid.symm)
      omega

/-- The entry at a place has a handle no smaller than the place. -/
theorem le_index (tl : Timeline) (i : Nat) (h : i < tl.entries.length) :
    i ≤ tl.entries[i].id.index := by
  induction i with
  | zero => exact Nat.zero_le _
  | succ i ih =>
      have hle := ih (Nat.lt_of_succ_lt h)
      have hlt : tl.entries[i].id.index < tl.entries[i + 1].id.index :=
        List.pairwise_iff_getElem.mp tl.ordered i (i + 1) (Nat.lt_of_succ_lt h) h
          (Nat.lt_succ_self i)
      omega

/-- There are no more entries than were ever made. -/
theorem length_le_made (tl : Timeline) : tl.entries.length ≤ tl.made := by
  have hpos : 0 < tl.entries.length := Nat.lt_of_le_of_lt (Nat.zero_le _) tl.cursor_lt
  have hlast := tl.le_index (tl.entries.length - 1) (by omega)
  have hknown := tl.known _ (List.getElem_mem (show tl.entries.length - 1 < _ by omega))
  omega

end Timeline

end Storyworld
