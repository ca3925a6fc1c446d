import Storyworld.Proofs.Ancestry

/-!
# Looking back

`Session.eventsSince` follows the past links from now until it meets a moment, with a bound on
their number.  `History.WalksBack` is that walk without the bound.  It ends at the moment looked
for or at one that has no past, and in a history that holds a timeline it always ends, no later
than at the first entry (`Holds.walksBack`).

`History.Leads` says which transitions made the moments from one up to another.  A walk that meets
its moment passes what leads from there (`WalksBack.leads`), and the other way round an ancestor
of now is met, since each entry has its own handle (`Holds.leads_entry`).  So the walk comes back
with what happened since exactly from the ancestors of now, and these are the moments that there
are and that do not come after now (`Session.after_eventsSince`).
-/

namespace Storyworld

namespace History

/-! ## Ways through a history -/

/-- The transitions that made the moments behind one up to another, oldest first. -/
inductive Leads (h : History) (a : MomentId) : List TransitionId → MomentId → Prop
  /-- Nothing leads from a moment to itself. -/
  | here : Leads h a [] a
  /-- What leads to a moment, and then the cause of one that has it for its past. -/
  | further {ts : List TransitionId} {t : TransitionId} {b c : MomentId} {m : Moment} :
      Leads h a ts b → h.get? c = some m → m.past = some b → m.cause = some t →
      Leads h a (ts ++ [t]) c

/-- The walk back along the past links from a moment, and what it comes back with: the causes of
the moments it has passed, oldest first, if it meets the moment looked for, and none if it comes
to one from which no link leads back. -/
inductive WalksBack (h : History) (since : MomentId) :
    MomentId → Option (List TransitionId) → Prop
  /-- The walk meets the moment looked for. -/
  | meets : WalksBack h since since (some [])
  /-- It passes another moment. -/
  | passes {id past : MomentId} {t : TransitionId} {m : Moment}
      {found : Option (List TransitionId)} : id ≠ since → h.get? id = some m →
      m.cause = some t → m.past = some past → WalksBack h since past found →
      WalksBack h since id (found.map (· ++ [t]))
  /-- It can not go on. -/
  | ends {id : MomentId} : id ≠ since →
      (∀ m, h.get? id = some m → m.cause = none ∨ m.past = none) → WalksBack h since id none

section Ways

variable {h : History} {a b c : MomentId} {ts us : List TransitionId}

theorem Leads.append (h₁ : h.Leads a ts b) (h₂ : h.Leads b us c) : h.Leads a (ts ++ us) c := by
  induction h₂ with
  | here => rwa [List.append_nil]
  | further _ hm hpast hcause ih =>
      rw [← List.append_assoc]
      exact ih.further hm hpast hcause

theorem Leads.ancestor (h₁ : h.Leads a ts b) : h.Ancestor a b := by
  induction h₁ with
  | here => exact .refl
  | further _ hm hpast _ ih =>
      refine ih.tail ?_
      rw [PastOf, hm]
      exact hpast

/-- A walk that meets its moment has passed what leads from there. -/
theorem WalksBack.leads {since id : MomentId} {found : Option (List TransitionId)}
    (hwalk : h.WalksBack since id found) : ∀ ts, found = some ts → h.Leads since ts id := by
  induction hwalk with
  | meets =>
      rintro ts ⟨⟩
      exact .here
  | passes _ hm hcause hpast _ ih =>
      intro ts hts
      obtain ⟨us, hus, rfl⟩ := Option.map_eq_some_iff.mp hts
      exact (ih us hus).further hm hpast hcause
  | ends => nofun

end Ways

/-! ## Ways through a timeline -/

section Holds

variable {h : History} {tl : Timeline}

/-- What leads to an entry are the causes of the entries behind an earlier one. -/
theorem Holds.leads_entry (hh : h.Holds tl) {a b : MomentId} {ts : List TransitionId}
    (hleads : h.Leads a ts b) {i : Nat} {e : Entry} (hi : tl.entries[i]? = some e) (hb : e.id = b) :
    ∃ j f, j ≤ i ∧ tl.entries[j]? = some f ∧ f.id = a ∧
      ts = ((tl.entries.take (i + 1)).drop (j + 1)).filterMap Entry.cause := by
  induction hleads generalizing i e with
  | here =>
      refine ⟨i, e, Nat.le_refl i, hi, hb, ?_⟩
      rw [drop_take_self]
      rfl
  | further _ hm hpast hcause ih =>
      subst hb
      obtain rfl := Option.some.inj ((hh.moment hi).symm.trans hm)
      obtain ⟨k, e', rfl, hk, hid⟩ := pastAt_eq_some.mp hpast
      obtain ⟨j, f, hjk, hj, hf, rfl⟩ := ih hk hid
      have hcause : e.cause = _ := hcause
      refine ⟨j, f, Nat.le_succ_of_le hjk, hj, hf, ?_⟩
      rw [drop_take_succ hi hjk, List.filterMap_append, List.filterMap_cons, hcause]
      rfl

/-- The entries before and at a place are the ancestors of the entry there. -/
theorem Holds.leads_of_le (hh : h.Holds tl) {j : Nat} {f : Entry} (hj : tl.entries[j]? = some f) :
    ∀ {i : Nat} {e : Entry}, tl.entries[i]? = some e → j ≤ i → ∃ ts, h.Leads f.id ts e.id
  | 0, e, hi, hle => by
      obtain rfl := Nat.le_zero.mp hle
      cases hi.symm.trans hj
      exact ⟨[], .here⟩
  | i + 1, e, hi, hle => by
      rcases Nat.lt_or_eq_of_le hle with hlt | rfl
      · have hprev := List.getElem?_eq_getElem
          (Nat.lt_of_succ_lt (List.getElem?_eq_some_iff.mp hi).1)
        obtain ⟨ts, hts⟩ := hh.leads_of_le hj hprev (Nat.le_of_lt_succ hlt)
        obtain ⟨t, ht⟩ := tl.exists_cause hi
        exact ⟨ts ++ [t],
          hts.further (hh.moment hi) (pastAt_eq_some.mpr ⟨i, _, rfl, hprev, rfl⟩) ht⟩
      · cases hi.symm.trans hj
        exact ⟨[], .here⟩

/-- The ancestors of an entry are the moments that there are and that do not come after it. -/
theorem Holds.ancestor_iff (hh : h.Holds tl) {i : Nat} {e : Entry} (hi : tl.entries[i]? = some e)
    (id : MomentId) : h.Ancestor id e.id ↔
      h.contains id = true ∧ ¬ Relation.TransGen h.Next e.id id := by
  constructor
  · intro hancestor
    obtain ⟨j, f, hle, hj, rfl⟩ := hh.ancestor_entry hi hancestor
    refine ⟨(hh.contains_iff _).mpr (List.mem_map_of_mem (List.mem_of_getElem? hj)), ?_⟩
    rw [hh.transGen_next_iff hi hj]
    exact Nat.not_lt_of_le hle
  · rintro ⟨hlive, hafter⟩
    obtain ⟨m, hm⟩ := Option.isSome_iff_exists.mp hlive
    obtain ⟨j, f, hj, rfl, -⟩ := hh.exists_entry hm
    rw [hh.transGen_next_iff hi hj, Nat.not_lt] at hafter
    obtain ⟨ts, hts⟩ := hh.leads_of_le hj hi hafter
    exact hts.ancestor

/-- From an ancestor to an entry there is one way. -/
theorem Holds.exists_leads_iff (hh : h.Holds tl) {i : Nat} {e : Entry}
    (hi : tl.entries[i]? = some e) {id : MomentId} (hid : h.Ancestor id e.id) :
    ∃ ts, ∀ ts', h.Leads id ts' e.id ↔ ts' = ts := by
  obtain ⟨j, f, hle, hj, rfl⟩ := hh.ancestor_entry hi hid
  obtain ⟨ts, hts⟩ := hh.leads_of_le hj hi hle
  have hcauses : ∀ {us : List TransitionId}, h.Leads f.id us e.id →
      us = ((tl.entries.take (i + 1)).drop (j + 1)).filterMap Entry.cause := by
    intro us hus
    obtain ⟨k, f', -, hk, hid, rfl⟩ := hh.leads_entry hus hi rfl
    rw [tl.index_unique hk hj hid]
  refine ⟨ts, fun ts' => ⟨fun hts' => (hcauses hts').trans (hcauses hts).symm, ?_⟩⟩
  rintro rfl
  exact hts

/-- From a moment without a past no step goes back. -/
theorem causesBack?_of_first {since id : MomentId} {m : Moment} (hne : id ≠ since)
    (hm : h.get? id = some m) (hpast : m.past = none) (steps : Nat)
    (causes : List TransitionId) : h.causesBack? since steps id causes = none := by
  unfold History.causesBack?
  rw [if_neg hne, hm]
  split
  · next heq =>
      cases heq
      cases hpast
  · rfl

/-- The walk back from an entry ends, and as many steps as there are entries before it are
enough to come back with the same. -/
theorem Holds.walksBack (hh : h.Holds tl) (since : MomentId) : ∀ {i steps : Nat} {e : Entry},
    tl.entries[i]? = some e → i ≤ steps → ∃ found, h.WalksBack since e.id found ∧
      ∀ causes, h.causesBack? since steps e.id causes = found.map (· ++ causes) := by
  intro i
  induction i with
  | zero =>
      intro steps e hi _
      by_cases heq : e.id = since
      · subst heq
        exact ⟨some [], .meets, causesBack?_self e.id steps⟩
      · refine ⟨none, .ends heq fun m hm => ?_, causesBack?_of_first heq (hh.moment hi) rfl steps⟩
        cases (hh.moment hi).symm.trans hm
        exact .inr rfl
  | succ i ih =>
      intro steps e hi hsteps
      by_cases heq : e.id = since
      · subst heq
        exact ⟨some [], .meets, causesBack?_self e.id steps⟩
      · obtain ⟨t, ht⟩ := tl.exists_cause hi
        have hprev := List.getElem?_eq_getElem
          (Nat.lt_of_succ_lt (List.getElem?_eq_some_iff.mp hi).1)
        obtain ⟨steps, rfl⟩ := Nat.exists_eq_add_of_le' hsteps
        obtain ⟨found, hwalk, hback⟩ := ih hprev (Nat.le_add_left i steps)
        have hmoment := hh.moment hi
        rw [momentAt, pastAt, ht, hprev] at hmoment
        refine ⟨_, .passes heq hmoment rfl rfl hwalk, fun causes => ?_⟩
        rw [← Nat.add_assoc, causesBack?_step heq hmoment, hback, Option.map_map]
        congr 1
        funext ts
        exact (List.append_cons ts t causes)

end Holds

end History

/-! ## What happened since -/

namespace Session

variable {u : Universe} {settings : Settings} {s : Session} {tl : Timeline}

/-- Looking back for any moment ends, and gives what the walk without a bound comes back with. -/
theorem Follows.walksBack (h : s.Follows u settings tl) (id : MomentId) :
    s.history.WalksBack id s.now (s.history.causesSince? id s.now) := by
  have hbound : tl.cursor ≤ s.history.slots.size := by
    have := tl.cursor_lt
    have := tl.length_le_made
    rw [h.holds.made]
    omega
  obtain ⟨found, hwalk, hback⟩ := h.holds.walksBack id tl.getElem?_cursor hbound
  rw [History.causesSince?, h.now, hback]
  cases found with
  | none => exact hwalk
  | some ts => rwa [Option.map_some, List.append_nil]

/-- What leads from a moment to now is what happened since. -/
theorem Follows.eventsSince_of_leads (h : s.Follows u settings tl) {id : MomentId}
    {ts : List TransitionId} (hleads : s.history.Leads id ts s.now) :
    s.eventsSince id = ts.filterMap u.transition? := by
  obtain ⟨j, f, hle, hj, rfl, rfl⟩ := h.holds.leads_entry hleads tl.getElem?_cursor h.now.symm
  rw [eventsSince, h.causesSince? hj hle, h.world]
  rfl

/-- Since a moment that is no ancestor of now nothing happened. -/
theorem Follows.eventsSince_of_not_ancestor (h : s.Follows u settings tl) {id : MomentId}
    (hid : ¬ s.history.Ancestor id s.now) : s.eventsSince id = [] := by
  have hnone : s.history.causesSince? id s.now = none := by
    cases hfound : s.history.causesSince? id s.now with
    | none => rfl
    | some ts => exact absurd ((h.walksBack id).leads ts hfound).ancestor hid
  rw [eventsSince, hnone]
  rfl

/-- From an ancestor of now to a later one there is one way. -/
theorem Follows.exists_leads_iff (h : s.Follows u settings tl) {a b : MomentId}
    (hab : s.history.Ancestor a b) (hb : s.history.Ancestor b s.now) :
    ∃ ts, ∀ ts', s.history.Leads a ts' b ↔ ts' = ts := by
  rw [h.now] at hb
  obtain ⟨i, e, -, hi, rfl⟩ := h.holds.ancestor_entry tl.getElem?_cursor hb
  exact h.holds.exists_leads_iff hi hab

/-- What happened since an ancestor of now is what led to a later one, and what happened since
that. -/
theorem Follows.eventsSince_append (h : s.Follows u settings tl) {a b : MomentId}
    {ts : List TransitionId} (hleads : s.history.Leads a ts b)
    (hb : s.history.Ancestor b s.now) :
    s.eventsSince a = ts.filterMap u.transition? ++ s.eventsSince b := by
  obtain ⟨us, hus⟩ := h.exists_leads_iff hb .refl
  have hrest : s.history.Leads b us s.now := (hus us).mpr rfl
  rw [h.eventsSince_of_leads (hleads.append hrest), h.eventsSince_of_leads hrest,
    List.filterMap_append]

variable {G : Type} [Generator G]

/-- Looking back always ends.  The ancestors of now are the moments that there are and that do not
come after it.  Since each of them the transitions happened, as far as the universe has them, that
led from there to now, and since any other moment none.  What happened since an ancestor is what
led from there to a later one and then what happened since that. -/
theorem after_eventsSince (u : Universe) (settings : Settings) (ops : List (Operation G)) :
    let s := Session.after u settings ops
    (∀ id, s.history.WalksBack id s.now (s.history.causesSince? id s.now)) ∧
    (∀ id, s.history.Ancestor id s.now ↔
      s.history.contains id = true ∧ ¬ Relation.TransGen s.history.Next s.now id) ∧
    (∀ id, s.history.Ancestor id s.now → ∃ ts, (∀ ts', s.history.Leads id ts' s.now ↔ ts' = ts) ∧
      s.eventsSince id = ts.filterMap u.transition?) ∧
    (∀ id, ¬ s.history.Ancestor id s.now → s.eventsSince id = []) ∧
    ∀ a b, s.history.Ancestor a b → s.history.Ancestor b s.now →
      ∃ ts, (∀ ts', s.history.Leads a ts' b ↔ ts' = ts) ∧
        s.eventsSince a = ts.filterMap u.transition? ++ s.eventsSince b := by
  intro s
  have hfollows := ((follows_start u settings).run ops).2
  refine ⟨hfollows.walksBack, fun id => ?_, fun id hid => ?_,
    fun id => hfollows.eventsSince_of_not_ancestor, fun a b hab hb => ?_⟩
  · rw [show s.now = _ from hfollows.now]
    exact hfollows.holds.ancestor_iff (Timeline.getElem?_cursor _) id
  · obtain ⟨ts, hts⟩ := hfollows.exists_leads_iff hid .refl
    exact ⟨ts, hts, hfollows.eventsSince_of_leads ((hts ts).mpr rfl)⟩
  · obtain ⟨ts, hts⟩ := hfollows.exists_leads_iff hab hb
    exact ⟨ts, hts, hfollows.eventsSince_append ((hts ts).mpr rfl) hb⟩

/-- Between two waits a transition of another story happened, which is no event of this one, and a
third wait was undone. -/
example : let s := Session.after dayAndNight {} ([.applyId ⟨1⟩,
      .apply ⟨⟨7⟩, "", .always, .chosen "", "", .empty⟩, .applyId ⟨1⟩, .applyId ⟨1⟩, .undo] :
      List (Operation Replay))
    (List.range 6).map (fun i => (s.eventsSince ⟨i⟩).map (·.id.index)) =
      [[1, 1], [1], [1], [], [], []] := by decide

end Session

end Storyworld
