import Mathlib.Data.List.Perm.Basic
import Storyworld.Proofs.Happening
import Storyworld.Proofs.Visited
import Storyworld.Random.Replay

/-!
# Passes in any order

A pass asks for an order of its candidates and for a draw for each.  Neither matters in a
state where chance has nothing to decide and the transitions that happen do not meddle with
each other (`Session.Settled`).

An overlay that writes no tested factor leaves a condition alone (`Condition.evaluate_overlay`).
Overlays that write different factors commute (`Snapshot.overlay_comm`).  The first says that
a candidate whose turn comes finds its condition as it was when the pass began, so what happens
are the transitions that are due and no others (`Session.Passes.eq_filter`).  The second says
that they lead to the same values in every order (`Snapshot.play_perm`).
-/

namespace Storyworld

/-! ## Overlays of different factors -/

namespace Snapshot

theorem setAll_comm {ws us : List (FactorId × Value)}
    (h : ∀ f ∈ ws.map Prod.fst, f ∉ us.map Prod.fst) (s : Snapshot) :
    (s.setAll ws).setAll us = (s.setAll us).setAll ws := by
  induction ws generalizing s with
  | nil => rfl
  | cons w ws ih =>
      obtain ⟨hw, hws⟩ := List.forall_mem_cons.mp h
      rw [setAll_cons, setAll_cons, ih hws, set_setAll hw]

/-- Effects on different factors come to the same in either order. -/
theorem overlay_comm {e e' : Effects} (h : ∀ f ∈ e.factors, f ∉ e'.factors) (s : Snapshot) :
    (s.overlay e).overlay e' = (s.overlay e').overlay e := setAll_comm h s

end Snapshot

/-! ## Transitions that do not meddle -/

/-- A transition writes no factor that another tests or writes. -/
structure Transition.LeavesAlone (t t' : Transition) : Prop where
  /-- What the other tests. -/
  tests : ∀ p ∈ t'.condition.tests, p.1 ∉ t.effects.factors
  /-- What the other writes. -/
  effects : ∀ f ∈ t.effects.factors, f ∉ t'.effects.factors

instance (t t' : Transition) : Decidable (t.LeavesAlone t') :=
  decidable_of_iff
    ((∀ p ∈ t'.condition.tests, p.1 ∉ t.effects.factors) ∧
      ∀ f ∈ t.effects.factors, f ∉ t'.effects.factors)
    ⟨fun h => ⟨h.1, h.2⟩, fun h => ⟨h.tests, h.effects⟩⟩

theorem Transition.LeavesAlone.isPossible {t t' : Transition} (h : t.LeavesAlone t')
    (s : Snapshot) : t'.isPossible (s.overlay t.effects) = t'.isPossible s :=
  Condition.evaluate_overlay h.tests

/-- Transitions that leave each other alone lead to the same values in every order. -/
theorem Snapshot.play_perm {ts us : List Transition} (hperm : ts.Perm us)
    (h : ts.Pairwise Transition.LeavesAlone) (s : Snapshot) : s.play ts = s.play us := by
  have hcomm : ts.Pairwise fun t t' => ∀ s : Snapshot,
      (s.overlay t.effects).overlay t'.effects = (s.overlay t'.effects).overlay t.effects :=
    h.imp fun h => overlay_comm h.effects
  have hsymm : Std.Symm fun t t' : Transition => ∀ s : Snapshot,
      (s.overlay t.effects).overlay t'.effects = (s.overlay t'.effects).overlay t.effects :=
    ⟨fun _ _ h s => (h s).symm⟩
  refine hperm.foldl_eq' (fun t ht t' ht' s => ?_) s
  exact hcomm.forall_of_forall (fun _ _ _ => rfl) ht ht' s

/-! ## Settled states -/

namespace Schedule

instance (s : Schedule) : Decidable s.CanFire :=
  match s with
  | .spontaneous p => decidable_of_iff (p.isPositive = true)
      ⟨fun h => ⟨p, rfl, h⟩, fun ⟨_, heq, h⟩ => spontaneous.inj heq ▸ h⟩
  | .chosen _ => .isFalse fun ⟨_, heq, _⟩ => nomatch heq

instance (s : Schedule) : Decidable s.Certain :=
  match s with
  | .spontaneous p => decidable_of_iff (p.atLeast 1 0 = true)
      ⟨fun h => ⟨p, rfl, h⟩, fun ⟨_, heq, h⟩ => spontaneous.inj heq ▸ h⟩
  | .chosen _ => .isFalse fun ⟨_, heq, _⟩ => nomatch heq

end Schedule

namespace Session

/-- The transitions that are possible now and certain to happen, in the order of declaration. -/
def due (s : Session) : List Transition := s.possible.filter fun t => t.schedule.Certain

/-- Chance has nothing to decide now, and what is due does not meddle with what else is due. -/
structure Settled (s : Session) : Prop where
  /-- What is possible now is certain to happen, with a probability of one or more, or it can not
  happen by itself, with a probability of zero or less or because the player chooses it. -/
  decided : ∀ t ∈ s.possible, t.schedule.Certain ∨ ¬ t.schedule.CanFire
  /-- Of two transitions that are due none writes what the other tests or writes. -/
  apart : ∀ t ∈ s.due, ∀ t' ∈ s.due, t.id ≠ t'.id → t.LeavesAlone t'

/-- What happens in a pass that chance has nothing to decide in are the candidates that are
certain, if their conditions hold when it begins. -/
theorem Passes.eq_filter {s : Session} {cs ts : List Transition} (h : s.Passes cs ts)
    (hdecided : ∀ t ∈ cs, t.schedule.Certain ∨ ¬ t.schedule.CanFire)
    (hholds : ∀ t ∈ cs.filter (·.schedule.Certain), t.isPossible s.values = true)
    (hapart : (cs.filter (·.schedule.Certain)).Pairwise Transition.LeavesAlone) :
    ts = cs.filter (·.schedule.Certain) := by
  induction h with
  | nil => rfl
  | @happens s t cs ts hfire hpossible _ ih =>
      obtain ⟨hfirst, hdecided⟩ := List.forall_mem_cons.mp hdecided
      have hcertain := hfirst.resolve_right fun hnot => hnot hfire
      rw [List.filter_cons_of_pos (by simpa using hcertain)] at hholds hapart ⊢
      obtain ⟨halone, hapart⟩ := List.pairwise_cons.mp hapart
      -- what is left to happen was left alone by what happened
      have hleft : ∀ c ∈ cs.filter (·.schedule.Certain),
          c.isPossible (s.apply t).2.values = true := by
        intro c hc
        rw [values_apply, (halone c hc).isPossible]
        exact hholds c (List.mem_cons_of_mem t hc)
      rw [ih hdecided hleft hapart]
  | @stays s t cs ts hmissed _ ih =>
      have huncertain : ¬ t.schedule.Certain := by
        intro hcertain
        have hheld := hholds t (by simp [hcertain])
        rw [hmissed hcertain] at hheld
        cases hheld
      rw [List.filter_cons_of_neg (by simpa using huncertain)] at hholds hapart ⊢
      exact ih (List.forall_mem_cons.mp hdecided).2 hholds hapart

theorem values_applyAll (s : Session) (ts : List Transition) :
    (s.applyAll ts).values = s.values.play ts := by
  induction ts generalizing s with
  | nil => rfl
  | cons t ts ih =>
      have hrest := ih (s.apply t).2
      rwa [values_apply] at hrest

namespace Settled

variable {s : Session}

/-- What is due leaves each other alone, in whatever order. -/
theorem pairwise_due (h : s.Settled) (hu : s.world.Built) {ts : List Transition}
    (hts : ts.Perm s.due) : ts.Pairwise Transition.LeavesAlone := by
  have hnodup : (ts.map Transition.id).Nodup := by
    refine (hts.map Transition.id).nodup_iff.mpr ?_
    exact (nodup_possible hu).sublist (List.filter_sublist.map Transition.id)
  rw [List.Nodup, List.pairwise_map] at hnodup
  exact hnodup.imp_of_mem fun ht ht' hne =>
    h.apart _ (hts.mem_iff.mp ht) _ (hts.mem_iff.mp ht') hne

variable {G : Type} [Generator G]

/-- A pass lets happen what is due, and leads to the same values whatever the order of its
candidates and whatever is drawn. -/
theorem passOver (h : s.Settled) (hu : s.world.Built) {cs : List Transition}
    (hcs : cs.Perm s.possible) (g : G) :
    (s.passOver g cs).1.Perm (s.due.map Transition.id) ∧
      (s.passOver g cs).2.1.values = s.values.play s.due := by
  obtain ⟨ts, hpasses, hfired, hstate⟩ := passOver_passes cs s g
  have hdue : (cs.filter (·.schedule.Certain)).Perm s.due := hcs.filter _
  have hholds : ∀ t ∈ cs.filter (·.schedule.Certain), t.isPossible s.values = true := fun t ht =>
    (List.mem_filter.mp (hcs.mem_iff.mp (List.mem_of_mem_filter ht))).2
  have hts := hpasses.eq_filter (fun t ht => h.decided t (hcs.mem_iff.mp ht)) hholds
    (h.pairwise_due hu hdue)
  rw [← hts] at hdue
  rw [hfired, hstate, values_applyAll]
  exact ⟨hdue.map Transition.id, Snapshot.play_perm hdue (h.pairwise_due hu hdue) s.values⟩

end Settled

/-- The session with another order of its passes. -/
def inOrder (s : Session) (order : PassOrder) : Session :=
  { s with settings := { s.settings with order := order } }

/-- Any two passes of a session let the same happen and lead to the same values. -/
structure PassesAlike (G G' : Type) [Generator G] [Generator G'] (s : Session) : Prop where
  /-- From any two permutations of what is possible, whatever is drawn. -/
  candidates : ∀ cs cs' : List Transition, cs.Perm s.possible → cs'.Perm s.possible →
    ∀ (g : G) (g' : G'), (s.passOver g cs).1.Perm (s.passOver g' cs').1 ∧
      (s.passOver g cs).2.1.values = (s.passOver g' cs').2.1.values
  /-- In the order of declaration or shuffled, whatever is drawn. -/
  order : ∀ (order order' : PassOrder) (g : G) (g' : G'),
    ((s.inOrder order).runPass g).1.Perm ((s.inOrder order').runPass g').1 ∧
      ((s.inOrder order).runPass g).2.1.values = ((s.inOrder order').runPass g').2.1.values
  /-- What happens is what is due. -/
  due : ∀ (order : PassOrder) (g : G),
    ((s.inOrder order).runPass g).1.Perm (s.due.map Transition.id) ∧
      ((s.inOrder order).runPass g).2.1.values = s.values.play s.due

/-- A pass of a settled session lets the same happen in every order and with every generator. -/
theorem after_settled_passesAlike {G H H' : Type} [Generator G] [Generator H] [Generator H']
    {u : Universe} (hu : u.Built) (settings : Settings) (ops : List (Operation G))
    (h : (Session.after u settings ops).Settled) :
    (Session.after u settings ops).PassesAlike H H' := by
  have hworld : (Session.after u settings ops).world.Built :=
    ((follows_start u settings).run ops).2.world.symm ▸ hu
  generalize Session.after u settings ops = s at h hworld
  have hdue : ∀ {K : Type} [Generator K] (order : PassOrder) (g : K),
      ((s.inOrder order).runPass g).1.Perm (s.due.map Transition.id) ∧
        ((s.inOrder order).runPass g).2.1.values = s.values.play s.due := by
    intro K _ order g
    have hsettled : (s.inOrder order).Settled := ⟨h.decided, h.apart⟩
    rw [runPass_eq]
    exact hsettled.passOver hworld ((s.inOrder order).candidates_perm g) _
  refine ⟨fun cs cs' hcs hcs' g g' => ?_, fun order order' g g' => ?_, hdue⟩
  · obtain ⟨hfired, hvalues⟩ := h.passOver hworld hcs g
    obtain ⟨hfired', hvalues'⟩ := h.passOver hworld hcs' g'
    exact ⟨hfired.trans hfired'.symm, hvalues.trans hvalues'.symm⟩
  · obtain ⟨hfired, hvalues⟩ := hdue order g
    obtain ⟨hfired', hvalues'⟩ := hdue order' g'
    exact ⟨hfired.trans hfired'.symm, hvalues.trans hvalues'.symm⟩

/-- A lamp that goes out and a pond that freezes, a gust that never comes though it would meddle
with both, and a player who can light the lamp. -/
def winter : Universe where
  factors := [⟨⟨0⟩, "lamp", ⟨"lit"⟩, [⟨"out"⟩]⟩, ⟨⟨1⟩, "pond", ⟨"open"⟩, [⟨"frozen"⟩]⟩]
  transitions :=
    [⟨⟨0⟩, "", .holds ⟨0⟩ ⟨"lit"⟩, .spontaneous (.ofNat 1), "", .ofList [(⟨0⟩, ⟨"out"⟩)]⟩,
     ⟨⟨1⟩, "", .holds ⟨1⟩ ⟨"open"⟩, .spontaneous (.ofNat 2), "", .ofList [(⟨1⟩, ⟨"frozen"⟩)]⟩,
     ⟨⟨2⟩, "", .always, .spontaneous (.ofNat 0), "",
        .ofList [(⟨0⟩, ⟨"out"⟩), (⟨1⟩, ⟨"open"⟩)]⟩,
     ⟨⟨3⟩, "", .always, .chosen "Light the lamp.", "", .ofList [(⟨0⟩, ⟨"lit"⟩)]⟩]

theorem built_winter : winter.Built := by
  let lamp : Universe := ⟨winter.factors.take 1, []⟩
  let declared (n : Nat) : Universe := ⟨winter.factors, winter.transitions.take n⟩
  have hlamp : Universe.empty.addFactor "lamp" [⟨"lit"⟩, ⟨"out"⟩] = .ok (⟨0⟩, lamp) := rfl
  have hpond : lamp.addFactor "pond" [⟨"open"⟩, ⟨"frozen"⟩] = .ok (⟨1⟩, declared 0) := rfl
  have hout : (declared 0).addTransition "" (.holds ⟨0⟩ ⟨"lit"⟩) (.spontaneous (.ofNat 1)) ""
      [(⟨0⟩, ⟨"out"⟩)] = .ok (⟨0⟩, declared 1) := rfl
  have hfreeze : (declared 1).addTransition "" (.holds ⟨1⟩ ⟨"open"⟩) (.spontaneous (.ofNat 2)) ""
      [(⟨1⟩, ⟨"frozen"⟩)] = .ok (⟨1⟩, declared 2) := rfl
  have hgust : (declared 2).addTransition "" .always (.spontaneous (.ofNat 0)) ""
      [(⟨0⟩, ⟨"out"⟩), (⟨1⟩, ⟨"open"⟩)] = .ok (⟨2⟩, declared 3) := rfl
  have hlight : (declared 3).addTransition "" .always (.chosen "Light the lamp.") ""
      [(⟨0⟩, ⟨"lit"⟩)] = .ok (⟨3⟩, winter) := rfl
  exact .transition (.transition (.transition (.transition (.factor (.factor .empty hlamp)
    hpond) hout) hfreeze) hgust) hlight

/-- The lamp went out and was lit again. -/
def winterRun : List (Operation Replay) := [.applyId ⟨0⟩, .applyId ⟨3⟩]

/-- In the order of declaration the lamp goes out first, and shuffled the pond may freeze first. -/
theorem after_settled_passesAlike_winter :
    winter.Built ∧ (Session.after winter {} winterRun).Settled ∧
    (Session.after winter {} winterRun).PassesAlike Replay Replay ∧
    (((Session.after winter {} winterRun).inOrder .declaration).runPass (Replay.mk #[] 0)).1 =
      [⟨0⟩, ⟨1⟩] ∧
    (((Session.after winter {} winterRun).inOrder .shuffled).runPass
        (Replay.mk #[150000000] 0)).1 = [⟨1⟩, ⟨0⟩] := by
  have hsettled : (Session.after winter {} winterRun).Settled :=
    ⟨by decide +kernel, by decide +kernel⟩
  exact ⟨built_winter, hsettled, after_settled_passesAlike built_winter {} winterRun hsettled,
    by decide +kernel, by decide +kernel⟩

end Session

end Storyworld
