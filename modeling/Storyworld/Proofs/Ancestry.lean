import Storyworld.Proofs.Links
import Storyworld.Random.Replay

/-!
# Ancestors and what happened since

A moment is an ancestor of another if following the past links from the other comes to it;
every moment counts as an ancestor of itself.  The ancestors of an entry of a timeline are
the entries up to its place (`Holds.ancestor_entry`).

Sessions keep two accounts of the same thing, each moment with its values and the links
with the transitions that made the moments.  They agree: letting the transitions happen
again that are recorded since an ancestor gives what the factors hold now from what they
held then (`Session.after_replays`).  From the root on the record alone is enough, and no
branch that was given up leaves a trace in it.
-/

namespace Storyworld

/-! ## Ancestors -/

namespace History

/-- One moment is the past of another. -/
def PastOf (h : History) (a b : MomentId) : Prop := (h.get? b).bind Moment.past = some a

/-- One moment is another, or the other came from it. -/
def Ancestor (h : History) (a b : MomentId) : Prop := Relation.ReflTransGen h.PastOf a b

/-- The ancestors of an entry are the entries up to its place. -/
theorem Holds.ancestor_entry {h : History} {tl : Timeline} (hh : h.Holds tl) {i : Nat} {e : Entry}
    (hi : tl.entries[i]? = some e) {id : MomentId} (hid : h.Ancestor id e.id) :
    ∃ j f, j ≤ i ∧ tl.entries[j]? = some f ∧ f.id = id := by
  induction hid using Relation.ReflTransGen.head_induction_on with
  | refl => exact ⟨i, e, Nat.le_refl i, hi, rfl⟩
  | head hpast _ ih =>
      obtain ⟨j, f, hji, hj, rfl⟩ := ih
      rw [PastOf, hh.moment hj] at hpast
      obtain ⟨k, f', rfl, hk, hid⟩ := pastAt_eq_some.mp hpast
      exact ⟨k, f', Nat.le_of_succ_le hji, hk, hid⟩

end History

/-! ## Happening again -/

namespace Session

/-- The session stands at a moment, and its values are those of the moment. -/
theorem Follows.map_values {u : Universe} {settings : Settings} {s : Session} {tl : Timeline}
    (h : s.Follows u settings tl) : s.current?.map Moment.values = some s.values := by
  rw [h.values, h.current?]
  rfl

variable {G : Type} [Generator G]

/-- What the factors hold now is what they held at an ancestor of now, after the transitions
recorded since happened again in order.  From the root on it is what they hold at the
beginning, after all transitions recorded. -/
theorem after_replays {u : Universe} (hu : u.Built) (settings : Settings)
    {ops : List (Operation G)} (hops : ∀ op ∈ ops, op.Brings (· ∈ u.transitions)) :
    (∀ id m, (Session.after u settings ops).history.get? id = some m →
      (Session.after u settings ops).history.Ancestor id (Session.after u settings ops).now →
      (Session.after u settings ops).current?.map Moment.values =
        some (m.values.play ((Session.after u settings ops).eventsSince id))) ∧
    (Session.after u settings ops).current?.map Moment.values =
      some (u.initial.play ((Session.after u settings ops).eventsSince History.root)) := by
  obtain ⟨tl, hfollows, hdescends⟩ := after_descends u settings (fun _ ht => ht) hops
  refine ⟨fun id m hm hancestor => ?_, ?_⟩
  · rw [hfollows.now] at hancestor
    obtain ⟨j, f, hle, hj, rfl⟩ := hfollows.holds.ancestor_entry tl.getElem?_cursor hancestor
    cases hm.symm.trans (hfollows.holds.moment hj)
    rw [hfollows.map_values, (hfollows.values_eq_play_of_entry hu hdescends hj hle).1]
    rfl
  · rw [hfollows.map_values, (hfollows.values_eq_play hu hdescends).1]

/-- A night that was given up, a pass from the beginning instead, a wait, and a day that was
undone. -/
def nightPlayed : List (Operation Replay) :=
  [.applyId ⟨0⟩, .goto ⟨0⟩, .pass ⟨#[], 0⟩, .applyId ⟨1⟩, .applyId ⟨2⟩, .undo]

/-- What the sun is now is what came of it since any of the moments before. -/
theorem after_replays_nightPlayed :
    dayAndNight.Built ∧ (∀ op ∈ nightPlayed, op.Brings (· ∈ dayAndNight.transitions)) ∧
    (∀ id m, (Session.after dayAndNight {} nightPlayed).history.get? id = some m →
      (Session.after dayAndNight {} nightPlayed).history.Ancestor id
        (Session.after dayAndNight {} nightPlayed).now →
      (Session.after dayAndNight {} nightPlayed).current?.map Moment.values =
        some (m.values.play ((Session.after dayAndNight {} nightPlayed).eventsSince id))) ∧
    (Session.after dayAndNight {} nightPlayed).current?.map Moment.values =
      some (dayAndNight.initial.play
        ((Session.after dayAndNight {} nightPlayed).eventsSince History.root)) := by
  have hops : ∀ op ∈ nightPlayed, op.Brings (· ∈ dayAndNight.transitions) := by
    simp [nightPlayed, Operation.Brings]
  exact ⟨built_dayAndNight, hops, after_replays built_dayAndNight {} hops⟩

end Session

end Storyworld
