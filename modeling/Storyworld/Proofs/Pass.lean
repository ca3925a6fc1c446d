import Mathlib.Data.List.Basic
import Mathlib.Logic.Relation
import Storyworld.Proofs.Built
import Storyworld.Proofs.Refinement
import Storyworld.Random.Replay

/-!
# What a pass does

A pass goes through its candidates once.  What can come of that, whatever is drawn,
is `Session.Passes`: each candidate in turn happens, and then it has a chance above
zero and its condition holds at the moment reached, or it does not, and then its
chance is below one or its condition fails at that moment.

`passOver_passes` says that the passes of a session are of this kind and no others, and
`Session.happenOver` is the list of the transitions that happen in one.  The rest is
about the relation alone.  What happened is a sublist of the candidates
(`Passes.sublist`), each held where it happened (`Passes.held`), and every candidate
had its turn (`Passes.turn`).  Read on the timeline, the transitions that happened
are the entries behind the old cursor (`Follows.applyAll`), so looking back to where
the pass began gives them again.

The candidates are fixed when the pass begins, in an order that is theirs up to
permutation.  Nothing else is asked of shuffling.
-/

namespace Storyworld

/-! ## Chances -/

namespace Schedule

/-- A transition happens by itself, if at all, and not never. -/
def CanFire (s : Schedule) : Prop := ∃ p, s = .spontaneous p ∧ p.isPositive = true

/-- A transition happens by itself in every pass where it can. -/
def Certain (s : Schedule) : Prop := ∃ p, s = .spontaneous p ∧ p.atLeast 1 0 = true

/-- A number of at least one is at least every draw. -/
theorem scaledLe_of_one_le {m k : Nat} {r : Int} (hk : k ≤ twoTo 53)
    (h : Binary64.scaledLe 1 0 m r = true) : Binary64.scaledLe k (-53) m r = true := by
  rw [Binary64.scaledLe, decide_eq_true_eq] at h ⊢
  have hpow : ∀ a b : Nat, twoTo (a + b) = twoTo a * twoTo b := fun a b => Nat.pow_add 2 a b
  rcases Int.le_total r (-53) with hr | hr
  · have hsplit : (0 - r).toNat = 53 + (-53 - r).toNat := by omega
    have hzero : (r - -53).toNat = 0 := by omega
    have hzero' : (r - 0).toNat = 0 := by omega
    rw [hsplit, hzero', hpow, Nat.one_mul] at h
    rw [hzero]
    exact Nat.le_trans (Nat.mul_le_mul_right _ hk) h
  · have hzero : (-53 - r).toNat = 0 := by omega
    rw [hzero]
    have hbig : twoTo 53 ≤ m * twoTo (r - -53).toNat := by
      rcases Int.le_total r 0 with hr' | hr'
      · have hsplit : 53 = (0 - r).toNat + (r - -53).toNat := by omega
        have hzero' : (r - 0).toNat = 0 := by omega
        rw [hzero', Nat.one_mul] at h
        rw [hsplit, hpow]
        exact Nat.mul_le_mul_right _ (by simpa [twoTo_zero] using h)
      · have hsplit : (r - -53).toNat = 53 + (r - 0).toNat := by omega
        have hzero' : (0 - r).toNat = 0 := by omega
        rw [hzero', twoTo_zero, Nat.one_mul] at h
        rw [hsplit, hpow, Nat.mul_left_comm]
        exact Nat.le_mul_of_pos_right _ h
    rw [twoTo_zero, Nat.mul_one]
    exact Nat.le_trans hk hbig

theorem hits_of_atLeast_one {p : Binary64} {k : Nat} (hk : k ≤ twoTo 53)
    (h : p.atLeast 1 0 = true) : hits p k = true := by
  rw [hits, Bool.and_eq_true]
  rw [Binary64.atLeast] at h
  rw [Binary64.isPositive, Binary64.atLeast]
  cases hp : p.parts with
  | notANumber => simp [hp] at h
  | infinite negative => simpa [hp] using h
  | finite negative m r =>
      rw [hp] at h
      cases negative with
      | true => simp at h
      | false =>
          have hle : Binary64.scaledLe 1 0 m r = true := by simpa using h
          refine ⟨?_, by simpa using scaledLe_of_one_le hk hle⟩
          have hpos : 0 < m := by
            rw [Binary64.scaledLe, decide_eq_true_eq] at hle
            refine Nat.pos_of_ne_zero fun hm => ?_
            have := Nat.pow_pos (n := (0 - r).toNat) (show 0 < 2 by omega)
            rw [hm, Nat.zero_mul, Nat.one_mul, twoTo, Nat.pow_eq] at hle
            omega
          simpa using hpos

theorem unit_lt {G : Type} [Generator G] (g : G) : (Random.unit g).1 < twoTo 53 := by
  have hword := (Generator.next64 g).1.toNat_lt
  show ((Generator.next64 g).1 >>> 11).toNat < twoTo 53
  rw [UInt64.toNat_shiftRight, Nat.shiftRight_eq_div_pow]
  exact Nat.div_lt_of_lt_mul hword

section Fires

variable {G : Type} [Generator G] {s : Schedule} {g : G}

theorem canFire_of_fires (h : (s.fires g).1 = true) : s.CanFire := by
  cases s with
  | spontaneous p => exact ⟨p, rfl, (Bool.and_eq_true_iff.mp h).1⟩
  | chosen offer => cases h

theorem Certain.fires (h : s.Certain) : (s.fires g).1 = true := by
  obtain ⟨p, rfl, hp⟩ := h
  exact hits_of_atLeast_one (Nat.le_of_lt (unit_lt g)) hp

end Fires

end Schedule

/-! ## What can come of a pass -/

namespace Session

/-- Let transitions happen one after the other. -/
def applyAll (s : Session) (ts : List Transition) : Session :=
  ts.foldl (fun s t => (s.apply t).2) s

theorem applyAll_append (s : Session) (ts us : List Transition) :
    s.applyAll (ts ++ us) = (s.applyAll ts).applyAll us := List.foldl_append ..

/-- What can come of giving candidates their chance: those that happen, in order. -/
inductive Passes : Session → List Transition → List Transition → Prop where
  /-- Without candidates nothing happens. -/
  | nil {s : Session} : Passes s [] []
  /-- The first candidate happens. -/
  | happens {s : Session} {t : Transition} {cs ts : List Transition} :
      t.schedule.CanFire → t.isPossible s.values = true → Passes (s.apply t).2 cs ts →
        Passes s (t :: cs) (t :: ts)
  /-- The first candidate does not happen. -/
  | stays {s : Session} {t : Transition} {cs ts : List Transition} :
      (t.schedule.Certain → t.isPossible s.values = false) → Passes s cs ts →
        Passes s (t :: cs) ts

section Happening

variable {G : Type} [Generator G]

/-- The transitions that happen when candidates are given their chance, in order. -/
def happenOver (s : Session) (g : G) : List Transition → List Transition
  | [] => []
  | t :: cs =>
      let (fires, g) := t.schedule.fires g
      if fires && t.isPossible s.values then t :: happenOver (s.apply t).2 g cs
      else happenOver s g cs

theorem happenOver_cons (s : Session) (g : G) (t : Transition) (cs : List Transition) :
    s.happenOver g (t :: cs) =
      if ((t.schedule.fires g).1 && t.isPossible s.values) = true then
        t :: (s.apply t).2.happenOver (t.schedule.fires g).2 cs
      else s.happenOver (t.schedule.fires g).2 cs := rfl

/-- A pass lets these transitions happen one after the other, and names them. -/
theorem passOver_eq (cs : List Transition) (s : Session) (g : G) :
    (s.passOver g cs).1 = (s.happenOver g cs).map Transition.id ∧
    (s.passOver g cs).2.1 = s.applyAll (s.happenOver g cs) := by
  induction cs generalizing s g with
  | nil => exact ⟨rfl, rfl⟩
  | cons t cs ih =>
      rw [passOver_cons, happenOver_cons]
      split
      · obtain ⟨hids, hstate⟩ := ih (s.apply t).2 (t.schedule.fires g).2
        exact ⟨congrArg (t.id :: ·) hids, hstate⟩
      · exact ih s (t.schedule.fires g).2

/-- What happens in a pass is something that can come of it. -/
theorem happenOver_passes (cs : List Transition) (s : Session) (g : G) :
    s.Passes cs (s.happenOver g cs) := by
  induction cs generalizing s g with
  | nil => exact .nil
  | cons t cs ih =>
      rw [happenOver_cons]
      split
      · next h =>
          obtain ⟨hfires, hpossible⟩ := Bool.and_eq_true_iff.mp h
          exact .happens (Schedule.canFire_of_fires hfires) hpossible
            (ih (s.apply t).2 (t.schedule.fires g).2)
      · next h =>
          refine .stays (fun hcertain => ?_) (ih s (t.schedule.fires g).2)
          rw [hcertain.fires, Bool.true_and] at h
          exact Bool.eq_false_iff.mpr h

/-- What comes of a pass is something that can come of it. -/
theorem passOver_passes (cs : List Transition) (s : Session) (g : G) :
    ∃ ts, s.Passes cs ts ∧ (s.passOver g cs).1 = ts.map Transition.id ∧
      (s.passOver g cs).2.1 = s.applyAll ts :=
  ⟨s.happenOver g cs, happenOver_passes cs s g, passOver_eq cs s g⟩

end Happening

namespace Passes

/-- What happens is among the candidates, in their order. -/
theorem sublist {s : Session} {cs ts : List Transition} (h : s.Passes cs ts) : ts.Sublist cs := by
  induction h with
  | nil => exact List.Sublist.refl _
  | happens _ _ _ ih => exact ih.cons_cons _
  | stays _ _ ih => exact ih.cons _

/-- Only what has a chance happens. -/
theorem canFire {s : Session} {cs ts : List Transition} (h : s.Passes cs ts) :
    ∀ t ∈ ts, t.schedule.CanFire := by
  induction h with
  | nil => exact fun t ht => absurd ht List.not_mem_nil
  | happens hfire _ _ ih =>
      intro t ht
      rcases List.mem_cons.mp ht with rfl | ht
      · exact hfire
      · exact ih t ht
  | stays _ _ ih => exact ih

/-- What happens could happen at the moment it was applied from. -/
theorem held {s : Session} {cs ts : List Transition} (h : s.Passes cs ts) :
    ∀ {before after : List Transition} {t : Transition}, ts = before ++ t :: after →
      t.isPossible (s.applyAll before).values = true := by
  induction h with
  | nil => intro before after t heq; simp at heq
  | happens _ hpossible _ ih =>
      intro before after t heq
      cases before with
      | nil =>
          obtain ⟨rfl, -⟩ := List.cons.inj heq
          exact hpossible
      | cons b before =>
          obtain ⟨rfl, htail⟩ := List.cons.inj heq
          exact ih htail
  | stays _ _ ih => exact ih

/-- Every candidate has its turn.  When it comes, some of those before it have happened.
Then the candidate happens, or it is not certain to, or its condition fails. -/
theorem turn {s : Session} {cs ts : List Transition} (h : s.Passes cs ts) :
    ∀ {before after : List Transition} {t : Transition}, cs = before ++ t :: after →
      ∃ earlier later, earlier.Sublist before ∧ later.Sublist after ∧
        (ts = earlier ++ t :: later ∨
          ts = earlier ++ later ∧
            (t.schedule.Certain → t.isPossible (s.applyAll earlier).values = false)) := by
  induction h with
  | nil => intro before after t heq; simp at heq
  | @happens s u cs ts hfire hpossible hrest ih =>
      intro before after t heq
      cases before with
      | nil =>
          obtain ⟨rfl, rfl⟩ := List.cons.inj heq
          exact ⟨[], ts, List.Sublist.refl _, hrest.sublist, Or.inl rfl⟩
      | cons b before =>
          obtain ⟨rfl, htail⟩ := List.cons.inj heq
          obtain ⟨earlier, later, hearlier, hlater, hturn⟩ := ih htail
          refine ⟨u :: earlier, later, hearlier.cons_cons _, hlater, ?_⟩
          rcases hturn with rfl | ⟨rfl, hmissed⟩
          · exact Or.inl rfl
          · exact Or.inr ⟨rfl, hmissed⟩
  | @stays s u cs ts hmissed hrest ih =>
      intro before after t heq
      cases before with
      | nil =>
          obtain ⟨rfl, rfl⟩ := List.cons.inj heq
          exact ⟨[], ts, List.Sublist.refl _, hrest.sublist, Or.inr ⟨rfl, hmissed⟩⟩
      | cons b before =>
          obtain ⟨rfl, htail⟩ := List.cons.inj heq
          obtain ⟨earlier, later, hearlier, hlater, hturn⟩ := ih htail
          exact ⟨earlier, later, hearlier.cons _, hlater, hturn⟩

end Passes

end Session

/-! ## A pass on the timeline -/

namespace Timeline

/-- Let transitions happen one after the other. -/
def applyAll (tl : Timeline) (ts : List Transition) : Timeline := ts.foldl apply tl

/-- Transitions that happen are entries behind the cursor, and the cursor moves over them. -/
theorem applyAll_entries (ts : List Transition) (tl : Timeline) : ∃ news : List Entry,
    (tl.applyAll ts).cursor = tl.cursor + ts.length ∧
    (tl.applyAll ts).entries.take ((tl.applyAll ts).cursor + 1) =
      tl.entries.take (tl.cursor + 1) ++ news ∧
    news.filterMap Entry.cause = ts.map Transition.id ∧
    ∀ e ∈ news, tl.made ≤ e.id.index := by
  induction ts generalizing tl with
  | nil =>
      refine ⟨[], rfl, (List.append_nil _).symm, rfl, ?_⟩
      intro e he
      exact absurd he List.not_mem_nil
  | cons t ts ih =>
      obtain ⟨news, hcursor, htake, hcauses, hmade⟩ := ih (tl.apply t)
      have hlen : (tl.apply t).entries.length = tl.cursor + 2 := tl.length_extended _
      refine ⟨tl.nextEntry t :: news, ?_, ?_, ?_, fun e he => ?_⟩
      · rw [List.length_cons, ← Nat.add_assoc, Nat.add_right_comm]
        exact hcursor
      · rw [apply_cursor, List.take_of_length_le (Nat.le_of_eq hlen), apply_entries,
          List.append_assoc] at htake
        exact htake
      · rw [List.filterMap_cons, List.map_cons, hcauses]
        rfl
      · rcases List.mem_cons.mp he with rfl | he
        · exact Nat.le_refl _
        · exact Nat.le_of_succ_le (hmade e he)

/-- The last transition that happened is the last entry. -/
theorem length_applyAll : ∀ {ts : List Transition} (tl : Timeline), ts ≠ [] →
    (tl.applyAll ts).entries.length = (tl.applyAll ts).cursor + 1
  | [], _, h => absurd rfl h
  | [_], tl, _ => tl.length_extended _
  | t :: u :: ts, tl, _ => by
      have hrest := length_applyAll (tl.apply t) (List.cons_ne_nil u ts)
      exact hrest

end Timeline

/-- One moment comes right after another. -/
def History.Next (h : History) (a b : MomentId) : Prop :=
  (h.get? a).bind Moment.future = some b

namespace History

variable {h : History} {tl : Timeline}

/-- What comes after an entry are the entries behind it. -/
theorem Holds.next_iff (hh : h.Holds tl) {i : Nat} {e : Entry} (hi : tl.entries[i]? = some e)
    {id : MomentId} : h.Next e.id id ↔ tl.entries[i + 1]?.map Entry.id = some id := by
  rw [Next, hh.moment hi]
  rfl

theorem Holds.transGen_next (hh : h.Holds tl) {i : Nat} {e : Entry}
    (hi : tl.entries[i]? = some e) {id : MomentId} (hid : Relation.TransGen h.Next e.id id) :
    ∃ j f, i < j ∧ tl.entries[j]? = some f ∧ f.id = id := by
  induction hid with
  | single hnext =>
      obtain ⟨f, hf, hfid⟩ := Option.map_eq_some_iff.mp ((hh.next_iff hi).mp hnext)
      exact ⟨i + 1, f, Nat.lt_succ_self i, hf, hfid⟩
  | tail _ hnext ih =>
      obtain ⟨j, f, hij, hf, rfl⟩ := ih
      obtain ⟨f', hf', hfid⟩ := Option.map_eq_some_iff.mp ((hh.next_iff hf).mp hnext)
      exact ⟨j + 1, f', Nat.lt_succ_of_lt hij, hf', hfid⟩

theorem Holds.transGen_next_of_lt (hh : h.Holds tl) {i : Nat} {e : Entry}
    (hi : tl.entries[i]? = some e) : ∀ {j : Nat} {f : Entry}, i < j → tl.entries[j]? = some f →
      Relation.TransGen h.Next e.id f.id
  | j + 1, f, hij, hj => by
      have hprev := List.getElem?_eq_getElem
        (Nat.lt_of_succ_lt (List.getElem?_eq_some_iff.mp hj).1)
      have hnext := (hh.next_iff hprev).mpr (by rw [hj]; rfl)
      rcases Nat.lt_or_eq_of_le (Nat.le_of_lt_succ hij) with hlt | rfl
      · exact (hh.transGen_next_of_lt hi hlt hprev).tail hnext
      · cases hi.symm.trans hprev
        exact .single hnext

/-- One entry comes after another exactly if it stands behind it. -/
theorem Holds.transGen_next_iff (hh : h.Holds tl) {i j : Nat} {e f : Entry}
    (hi : tl.entries[i]? = some e) (hj : tl.entries[j]? = some f) :
    Relation.TransGen h.Next e.id f.id ↔ i < j := by
  constructor
  · intro hafter
    obtain ⟨k, f', hik, hk, hid⟩ := hh.transGen_next hi hafter
    obtain rfl := tl.index_unique hk hj hid
    exact hik
  · intro hij
    exact hh.transGen_next_of_lt hi hij hj

end History

namespace Session

section Follows

variable {u : Universe} {settings : Settings}

variable {s : Session} {tl : Timeline}

theorem Follows.applyAll (ts : List Transition) (h : s.Follows u settings tl) :
    (s.applyAll ts).Follows u settings (tl.applyAll ts) := by
  induction ts generalizing s tl with
  | nil => exact h
  | cons t ts ih => exact ih (h.apply t).2

/-- Looking back to where transitions began to happen gives them again. -/
theorem Follows.eventsSince_applyAll (h : s.Follows u settings tl) {ts : List Transition}
    (hts : ∀ t ∈ ts, u.transition? t.id = some t) : (s.applyAll ts).eventsSince s.now = ts := by
  have h' := h.applyAll ts
  obtain ⟨news, hcursor, htake, hcauses, -⟩ := tl.applyAll_entries ts
  have hlen : (tl.entries.take (tl.cursor + 1)).length = tl.cursor + 1 := by
    have := tl.cursor_lt
    rw [List.length_take]
    omega
  have hhere := calc (tl.applyAll ts).entries[tl.cursor]?
      = ((tl.applyAll ts).entries.take ((tl.applyAll ts).cursor + 1))[tl.cursor]? :=
        (List.getElem?_take_of_lt (by omega)).symm
    _ = (tl.entries.take (tl.cursor + 1) ++ news)[tl.cursor]? := by rw [htake]
    _ = (tl.entries.take (tl.cursor + 1))[tl.cursor]? := List.getElem?_append_left (by omega)
    _ = tl.entries[tl.cursor]? := List.getElem?_take_of_lt (by omega)
    _ = some tl.here := tl.getElem?_cursor
  have hback : (s.applyAll ts).history.causesSince? s.now (s.applyAll ts).now =
      some (ts.map Transition.id) := by
    rw [h.now, h'.causesSince? hhere (by omega), htake, List.drop_left' hlen, hcauses]
  rw [Session.eventsSince, hback, h'.world, Option.getD_some, Universe.filterMap_transition? hts]

/-- Once something happened the session stands at the end of its history, and what came
after the moment where it stood is gone. -/
theorem Follows.end_applyAll (h : s.Follows u settings tl) {ts : List Transition} (hts : ts ≠ []) :
    (s.applyAll ts).canRedo = false ∧
    ∀ id, Relation.TransGen s.history.Next s.now id →
      (s.applyAll ts).history.contains id = false := by
  have h' := h.applyAll ts
  have hend := tl.length_applyAll hts
  obtain ⟨news, -, htake, -, hmade⟩ := tl.applyAll_entries ts
  refine ⟨?_, fun id hid => ?_⟩
  · rw [Bool.eq_false_iff, ne_eq, h'.agrees.canRedo]
    omega
  · rw [h.now] at hid
    obtain ⟨j, f, hj, hf, rfl⟩ := h.holds.transGen_next tl.getElem?_cursor hid
    rw [Bool.eq_false_iff, ne_eq, h'.agrees.contains, Timeline.ids]
    intro hmem
    obtain ⟨e, he, hid⟩ := List.mem_map.mp hmem
    rw [← List.take_of_length_le (Nat.le_of_eq hend), htake, List.mem_append] at he
    rcases he with he | he
    · obtain ⟨i, hi⟩ := List.mem_iff_getElem?.mp he
      have hlt := (List.getElem?_eq_some_iff.mp hi).1
      rw [List.length_take] at hlt
      rw [List.getElem?_take_of_lt (by omega)] at hi
      have := tl.index_unique hi hf hid
      omega
    · have hnew := hmade e he
      have hold := tl.known f (List.mem_of_getElem? hf)
      rw [hid] at hnew
      omega

end Follows

/-! ## The whole pass -/

/-- What a pass of a session is: the transitions that happened, in order, and the turns its
candidates took. -/
structure IsPass (s s' : Session) (fired : List TransitionId)
    (turns happened : List Transition) : Prop where
  /-- The candidates are the transitions possible when the pass begins, and each has a turn. -/
  turns_perm : turns.Perm s.possible
  /-- The turns come in the order of declaration, if the session is played so. -/
  turns_declared : s.settings.order = .declaration → turns = s.possible
  /-- The handles given are those of the transitions that happened. -/
  fired_eq : fired = happened.map Transition.id
  /-- Only candidates happen by themselves, and only those with a chance above zero. -/
  candidates : ∀ t ∈ happened, t ∈ s.possible ∧ t.schedule.CanFire
  /-- Nothing happens twice. -/
  nodup : fired.Nodup
  /-- In the order of declaration the handles increase. -/
  increasing : s.settings.order = .declaration → fired.Pairwise fun a b => a.index < b.index
  /-- The session afterwards is the one before with these transitions applied in order. -/
  state : s' = s.applyAll happened
  /-- Each could happen at the moment it was applied from. -/
  held : ∀ before t after, happened = before ++ t :: after →
    t.isPossible (s.applyAll before).values = true
  /-- Looking back to where the pass began gives exactly these transitions. -/
  events : s'.eventsSince s.now = happened
  /-- A candidate that is certain and did not happen could not at the moment reached when
  its turn came: after those that happened among the candidates before it. -/
  missed : ∀ t ∈ s.possible, t.schedule.Certain → t.id ∉ fired →
    ∃ before after earlier later, turns = before ++ t :: after ∧ happened = earlier ++ later ∧
      earlier.Sublist before ∧ later.Sublist after ∧
      t.isPossible (s.applyAll earlier).values = false
  /-- If nothing happened the session is as it was. -/
  unchanged : fired = [] → s' = s
  /-- If something happened the session stands at the end of its history, and all that came
  after the moment where it stood is gone. -/
  ending : fired ≠ [] → s'.canRedo = false ∧
    ∀ id, Relation.TransGen s.history.Next s.now id → s'.history.contains id = false

section IsPass

variable {G : Type} [Generator G]

theorem runPass_eq (s : Session) (g : G) :
    s.runPass g = s.passOver (s.candidates g).2 (s.candidates g).1 := rfl

theorem candidates_perm (s : Session) (g : G) : (s.candidates g).1.Perm s.possible := by
  rw [candidates]
  split
  · exact List.Perm.refl _
  · exact Random.shuffle_perm _ g

/-- What is possible stands in the order of declaration, as in the universe that is played. -/
theorem possible_ordered {s : Session} (hu : s.world.Built) :
    s.possible.Pairwise fun t t' => t.id.index < t'.id.index :=
  hu.transitions_ordered.sublist List.filter_sublist

theorem nodup_possible {s : Session} (hu : s.world.Built) :
    (s.possible.map Transition.id).Nodup := by
  rw [List.Nodup, List.pairwise_map]
  exact (possible_ordered hu).imp
    fun hlt heq => Nat.ne_of_lt hlt (congrArg TransitionId.index heq)

theorem Follows.isPass {u : Universe} (hu : u.Built) {settings : Settings} {s : Session}
    {tl : Timeline} (h : s.Follows u settings tl) (g : G) :
    ∃ turns happened, s.IsPass (s.runPass g).2.1 (s.runPass g).1 turns happened := by
  obtain ⟨ts, hpasses, hfired, hstate⟩ :=
    passOver_passes (s.candidates g).1 s (s.candidates g).2
  have hperm := s.candidates_perm g
  have hdeclared : s.settings.order = .declaration → (s.candidates g).1 = s.possible := by
    intro horder
    rw [Session.candidates, horder]
  have hpossible : ∀ t ∈ ts, t ∈ s.possible := fun t ht =>
    hperm.mem_iff.mp (hpasses.sublist.subset ht)
  have hpart : s.possible.Sublist u.transitions := by
    rw [Session.possible, h.world]
    exact List.filter_sublist
  have hids := possible_ordered (h.world ▸ hu)
  have hnodup := nodup_possible (h.world ▸ hu)
  rw [runPass_eq]
  refine ⟨(s.candidates g).1, ts, hperm, hdeclared, hfired,
    fun t ht => ⟨hpossible t ht, hpasses.canFire t ht⟩, ?_, fun horder => ?_, hstate,
    fun before t after => hpasses.held, ?_, fun t ht hcertain hnot => ?_, fun hnil => ?_,
    fun hne => ?_⟩
  · exact hfired ▸ ((hperm.map Transition.id).nodup_iff.mpr hnodup).sublist
      (hpasses.sublist.map Transition.id)
  · rw [hfired, List.pairwise_map]
    exact hids.sublist (hdeclared horder ▸ hpasses.sublist)
  · rw [hstate]
    exact h.eventsSince_applyAll fun t ht => hu.transition?_id (hpart.subset (hpossible t ht))
  · obtain ⟨before, after, hsplit⟩ := List.append_of_mem (hperm.mem_iff.mpr ht)
    obtain ⟨earlier, later, hearlier, hlater, hturn⟩ := hpasses.turn hsplit
    refine ⟨before, after, earlier, later, hsplit, ?_⟩
    rcases hturn with rfl | ⟨rfl, hmissed⟩
    · rw [hfired] at hnot
      exact absurd (List.mem_map_of_mem (by simp)) hnot
    · exact ⟨rfl, hearlier, hlater, hmissed hcertain⟩
  · have hts : ts = [] := List.map_eq_nil_iff.mp (hfired.symm.trans hnil)
    exact hstate.trans (hts ▸ rfl)
  · have hts : ts ≠ [] := fun hts => hne (hfired.trans (hts ▸ rfl))
    rw [hstate]
    exact h.end_applyAll hts

/-- Every pass of a session that was reached is what a pass should be, in either order and
with any generator. -/
theorem runPass_isPass {u : Universe} (hu : u.Built) (settings : Settings)
    (ops : List (Operation G)) (g : G) :
    ∃ turns happened, (Session.after u settings ops).IsPass
      ((Session.after u settings ops).runPass g).2.1 ((Session.after u settings ops).runPass g).1
      turns happened :=
  ((follows_start u settings).run ops).2.isPass hu g

end IsPass

/-- Day and night, each of which may turn into the other, and a choice that does nothing. -/
def dayAndNight : Universe where
  factors := [⟨⟨0⟩, "sun", ⟨"day"⟩, [⟨"night"⟩]⟩]
  transitions :=
    [⟨⟨0⟩, "", .holds ⟨0⟩ ⟨"day"⟩, .spontaneous (.ofNat 1), "", .ofList [(⟨0⟩, ⟨"night"⟩)]⟩,
     ⟨⟨1⟩, "", .always, .chosen "Wait.", "", .ofList []⟩,
     ⟨⟨2⟩, "", .always, .spontaneous (.ofRatio 1 2), "", .ofList [(⟨0⟩, ⟨"day"⟩)]⟩]

theorem built_dayAndNight : dayAndNight.Built := by
  let declared (n : Nat) : Universe :=
    ⟨dayAndNight.factors, dayAndNight.transitions.take n⟩
  have hsun : Universe.empty.addFactor "sun" [⟨"day"⟩, ⟨"night"⟩] = .ok (⟨0⟩, declared 0) := rfl
  have hdusk : (declared 0).addTransition "" (.holds ⟨0⟩ ⟨"day"⟩) (.spontaneous (.ofNat 1)) ""
      [(⟨0⟩, ⟨"night"⟩)] = .ok (⟨0⟩, declared 1) := rfl
  have hwait : (declared 1).addTransition "" .always (.chosen "Wait.") "" [] =
      .ok (⟨1⟩, declared 2) := rfl
  have hdawn : (declared 2).addTransition "" .always (.spontaneous (.ofRatio 1 2)) ""
      [(⟨0⟩, ⟨"day"⟩)] = .ok (⟨2⟩, dayAndNight) := rfl
  exact .transition (.transition (.transition (.factor .empty hsun) hdusk) hwait) hdawn

/-- A night that was undone and a pass in which nothing could change. -/
def dayPlayed : List (Operation Replay) := [.applyId ⟨0⟩, .undo, .pass ⟨#[], 0⟩]

theorem runPass_isPass_dayAndNight :
    dayAndNight.Built ∧ ∃ turns happened,
      (Session.after dayAndNight ⟨42, .shuffled⟩ dayPlayed).IsPass
        ((Session.after dayAndNight ⟨42, .shuffled⟩ dayPlayed).runPass
          (⟨#[7], 0⟩ : Replay)).2.1
        ((Session.after dayAndNight ⟨42, .shuffled⟩ dayPlayed).runPass
          (⟨#[7], 0⟩ : Replay)).1
        turns happened :=
  ⟨built_dayAndNight, runPass_isPass built_dayAndNight ⟨42, .shuffled⟩ dayPlayed ⟨#[7], 0⟩⟩

end Session

end Storyworld
