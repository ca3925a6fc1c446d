import Mathlib.Data.List.Forall2
import Mathlib.Logic.Function.Iterate
import Storyworld.Proofs.Pass
import Storyworld.Proofs.Descent

/-!
# Choices leave chance alone

A transition that the player chooses draws nothing in a pass and never happens in one, so a
pass goes over it without a trace (`Session.passOver_filter`).  What else there is to
choose therefore has no influence on what happens by itself.  In the order of declaration a
story and the same story with fewer choices run the same passes from the same values: the
same transitions happen, though their handles differ, the factors end up with the same
values, and the same words are drawn (`Session.InStep.runPass`).

The draw of a candidate is made before its condition is looked at again.  So a pass draws
one word for each candidate that is not the player's to choose, whatever becomes of it
(`Session.passOver_generator`), and the next pass begins with the same generator.
-/

namespace Storyworld

/-! ## Words -/

/-- The generator behind so many words of 64 bits. -/
def Random.skip {G : Type} [Generator G] (n : Nat) (g : G) : G :=
  (fun g => (Generator.next64 g).2)^[n] g

section Words

variable {G : Type} [Generator G]

/-- A transition that is not the player's to choose draws one word, and others draw none. -/
theorem Schedule.fires_generator (s : Schedule) (g : G) :
    (s.fires g).2 = if s.isOffered then g else (Generator.next64 g).2 := by
  cases s <;> rfl

theorem Schedule.fires_of_isOffered {s : Schedule} (h : s.isOffered = true) (g : G) :
    s.fires g = (false, g) := by
  cases s with
  | spontaneous p => cases h
  | chosen offer => rfl

/-- How many of some transitions draw a word when their turn comes in a pass. -/
def draws (ts : List Transition) : Nat := ts.countP fun t => !t.schedule.isOffered

theorem draws_filter (p : Transition → Bool) (ts : List Transition) :
    draws (ts.filter fun t => p t || !t.schedule.isOffered) = draws ts := by
  rw [draws, List.countP_filter]
  refine List.countP_congr fun t _ => ?_
  cases t.schedule.isOffered <;> simp

namespace Session

/-- A pass draws a word for each candidate that is not the player's to choose, whether it happens
or not. -/
theorem passOver_generator (ts : List Transition) (s : Session) (g : G) :
    (s.passOver g ts).2.2 = Random.skip (draws ts) g := by
  induction ts generalizing s g with
  | nil => rfl
  | cons t ts ih =>
      have hrest : Random.skip (draws ts) (t.schedule.fires g).2 =
          Random.skip (draws (t :: ts)) g := by
        rw [t.schedule.fires_generator, draws, draws, List.countP_cons]
        cases t.schedule.isOffered <;> rfl
      rw [passOver_cons]
      split
      · exact (ih _ _).trans hrest
      · exact (ih _ _).trans hrest

/-- Leaving out candidates that the player would have to choose changes nothing. -/
theorem passOver_filter {p : Transition → Bool} {ts : List Transition}
    (hp : ∀ t ∈ ts, p t = false → t.schedule.isOffered = true) (s : Session) (g : G) :
    s.passOver g (ts.filter p) = s.passOver g ts := by
  induction ts generalizing s g with
  | nil => rfl
  | cons t ts ih =>
      obtain ⟨ht, hts⟩ := List.forall_mem_cons.mp hp
      cases hpt : p t with
      | true =>
          rw [List.filter_cons_of_pos hpt, passOver_cons, passOver_cons, ih hts, ih hts]
      | false =>
          -- the turn of a choice passes without a draw
          have hsilent := Schedule.fires_of_isOffered (ht hpt) g
          rw [List.filter_cons_of_neg (by simp [hpt]), passOver_cons, hsilent, ih hts]
          rfl

end Session

end Words

/-! ## Fewer choices -/

namespace Universe

/-- The transitions that are not the player's to choose, and those choices that are to stay. -/
def kept (u : Universe) (keep : Transition → Bool) : List Transition :=
  u.transitions.filter fun t => keep t || !t.schedule.isOffered

/-- The universe with only those choices that are to stay.  The other transitions stay in their
order, and handles are given anew. -/
def withChoices (u : Universe) (keep : Transition → Bool) : Universe where
  factors := u.factors
  transitions := (u.kept keep).mapIdx fun i t => { t with id := ⟨i⟩ }

/-- The handle that a transition had before choices were left out. -/
def original (u : Universe) (keep : Transition → Bool) (id : TransitionId) : Option TransitionId :=
  (u.kept keep)[id.index]?.map Transition.id

/-- What is left when choices are left out could have been declared without them. -/
theorem Built.withChoices {u : Universe} (hu : u.Built) (keep : Transition → Bool) :
    (u.withChoices keep).Built := by
  induction hu with
  | empty => exact .empty
  | factor _ hadd ih =>
      obtain ⟨hnew, rfl, initial, others, hvalues, rfl⟩ := addFactor_eq_ok_iff.mp hadd
      exact .factor ih (addFactor_eq_ok_iff.mpr ⟨hnew, rfl, initial, others, hvalues, rfl⟩)
  | @transition u u' label c s text ps id _ hadd ih =>
      obtain ⟨hknown, rfl, rfl⟩ := addTransition_eq_ok_iff.mp hadd
      generalize ht : (⟨⟨u.transitions.length⟩, label, c, s, text, .ofList ps⟩ : Transition) = t
      -- what is kept is declared once more, and otherwise nothing is added
      by_cases hkeep : (keep t || !t.schedule.isOffered) = true
      · have hadd' : (u.withChoices keep).addTransition label c s text ps =
            .ok (⟨(u.withChoices keep).transitions.length⟩,
              (⟨u.factors, u.transitions ++ [t]⟩ : Universe).withChoices keep) := by
          refine addTransition_eq_ok_iff.mpr ⟨hknown, rfl, ?_⟩
          subst ht
          simp only [Universe.withChoices, kept, List.filter_append, List.filter_singleton, hkeep,
            cond_true, List.mapIdx_append, List.length_mapIdx, List.mapIdx_cons, List.mapIdx_nil,
            Nat.zero_add]
        exact .transition ih hadd'
      · have hsame : (⟨u.factors, u.transitions ++ [t]⟩ : Universe).withChoices keep =
            u.withChoices keep := by
          rw [Bool.not_eq_true] at hkeep
          simp only [Universe.withChoices, kept, List.filter_append, List.filter_singleton, hkeep,
            cond_false, List.append_nil]
        rw [hsame]
        exact ih

end Universe

/-! ## Passes in step -/

/-- One transition is another under another handle. -/
structure Transition.Renumbers (original : TransitionId → Option TransitionId)
    (t t' : Transition) : Prop where
  /-- The handle that it had. -/
  id : original t'.id = some t.id
  /-- Its condition. -/
  condition : t.condition = t'.condition
  /-- Its schedule. -/
  schedule : t.schedule = t'.schedule
  /-- Its effects. -/
  effects : t.effects = t'.effects

theorem Transition.draws_eq {original : TransitionId → Option TransitionId}
    {ts ts' : List Transition} (h : List.Forall₂ (Transition.Renumbers original) ts ts') :
    draws ts = draws ts' := by
  induction h with
  | nil => rfl
  | cons ht _ ih =>
      rw [draws, draws, List.countP_cons, List.countP_cons, ht.schedule]
      exact congrArg (· + _) ih

theorem Universe.kept_renumbers (u : Universe) (keep : Transition → Bool) :
    List.Forall₂ (Transition.Renumbers (u.original keep)) (u.kept keep)
      (u.withChoices keep).transitions := by
  refine List.forall₂_iff_get.mpr ⟨List.length_mapIdx.symm, fun i hi hi' => ?_⟩
  simp only [withChoices, List.get_eq_getElem, List.getElem_mapIdx]
  refine ⟨?_, rfl, rfl, rfl⟩
  rw [original, List.getElem?_eq_getElem hi]
  rfl

namespace Session

variable {G : Type} [Generator G]

/-- Where the same values are held, candidates that differ in their handles alone are passed over
in the same way. -/
theorem passOver_renumbers {original : TransitionId → Option TransitionId}
    {ts ts' : List Transition} (hts : List.Forall₂ (Transition.Renumbers original) ts ts')
    {s s' : Session} (h : s.values = s'.values) (g : G) :
    (s.passOver g ts).1.map some = (s'.passOver g ts').1.map original ∧
      (s.passOver g ts).2.1.values = (s'.passOver g ts').2.1.values := by
  induction hts generalizing s s' g with
  | nil => exact ⟨rfl, h⟩
  | @cons t t' ts ts' ht _ ih =>
      have hpossible : t.isPossible s.values = t'.isPossible s'.values := by
        rw [Transition.isPossible, Transition.isPossible, h, ht.condition]
      rw [passOver_cons, passOver_cons, hpossible, ht.schedule]
      split
      · have hnext : (s.apply t).2.values = (s'.apply t').2.values := by
          rw [values_apply, values_apply, h, ht.effects]
        obtain ⟨hfired, hrest⟩ := ih hnext (t'.schedule.fires g).2
        refine ⟨?_, hrest⟩
        rw [List.map_cons, List.map_cons, hfired, ht.id]
      · exact ih h (t'.schedule.fires g).2

/-- A session, and one that has fewer of its choices and holds the same values.  The passes of both
are in the order of declaration. -/
structure InStep (keep : Transition → Bool) (s s' : Session) : Prop where
  /-- What they play. -/
  world : s'.world = s.world.withChoices keep
  /-- What their factors hold. -/
  values : s.values = s'.values
  /-- The order of the passes of one. -/
  order : s.settings.order = .declaration
  /-- The order of the passes of the other. -/
  order' : s'.settings.order = .declaration

theorem runPass_of_declaration {s : Session} (h : s.settings.order = .declaration) (g : G) :
    s.runPass g = s.passOver g s.possible := by
  rw [runPass_eq, candidates, h]

theorem applyAll_same (s : Session) (ts : List Transition) :
    (s.applyAll ts).world = s.world ∧ (s.applyAll ts).settings = s.settings := by
  induction ts generalizing s with
  | nil => exact ⟨rfl, rfl⟩
  | cons t ts ih => exact ih (s.apply t).2

namespace InStep

variable {keep : Transition → Bool} {s s' : Session}

/-- What is possible in a session and not left out is possible in the other. -/
theorem kept_possible (h : s.InStep keep s') :
    List.Forall₂ (Transition.Renumbers (s.world.original keep))
      (s.possible.filter fun t => keep t || !t.schedule.isOffered) s'.possible := by
  rw [possible, List.filter_comm, possible, h.world]
  refine List.rel_filter (fun t t' ht => ?_) (s.world.kept_renumbers keep)
  simp only [Transition.isPossible, h.values, ht.condition]

/-- As many words are drawn. -/
theorem draws_possible (h : s.InStep keep s') : draws s.possible = draws s'.possible := by
  rw [← draws_filter keep, Transition.draws_eq h.kept_possible]

/-- In a pass with the same generator the same happens, and the sessions are in step again. -/
theorem runPass (h : s.InStep keep s') (g : G) :
    (s.runPass g).1.map some = (s'.runPass g).1.map (s.world.original keep) ∧
      (s.runPass g).2.1.InStep keep (s'.runPass g).2.1 ∧
      (s.runPass g).2.1.world = s.world ∧
      (s.runPass g).2.2 = Random.skip (draws s.possible) g ∧
      (s'.runPass g).2.2 = Random.skip (draws s'.possible) g := by
  rw [runPass_of_declaration h.order, runPass_of_declaration h.order']
  have hchosen : ∀ t ∈ s.possible, (keep t || !t.schedule.isOffered) = false →
      t.schedule.isOffered = true := fun t _ ht => by
    rw [Bool.or_eq_false_iff, Bool.not_eq_false'] at ht
    exact ht.2
  obtain ⟨hfired, hvalues⟩ := passOver_renumbers h.kept_possible h.values g
  rw [passOver_filter hchosen] at hfired hvalues
  have hsame (s : Session) : (s.passOver g s.possible).2.1.world = s.world ∧
      (s.passOver g s.possible).2.1.settings = s.settings := by
    rw [(passOver_eq s.possible s g).2]
    exact applyAll_same s _
  obtain ⟨hworld, hsettings⟩ := hsame s
  obtain ⟨hworld', hsettings'⟩ := hsame s'
  refine ⟨hfired, ⟨?_, hvalues, hsettings ▸ h.order, hsettings' ▸ h.order'⟩, hworld,
    passOver_generator _ _ _, passOver_generator _ _ _⟩
  rw [hworld, hworld', h.world]

end InStep

/-- A session and its generator after so many passes. -/
def afterPasses (n : Nat) (s : Session) (g : G) : Session × G :=
  (fun p : Session × G => (p.1.runPass p.2).2)^[n] (s, g)

theorem afterPasses_succ (n : Nat) (s : Session) (g : G) :
    s.afterPasses (n + 1) g = ((s.afterPasses n g).1.runPass (s.afterPasses n g).2).2 :=
  Function.iterate_succ_apply' ..

/-- Passes with the same generator keep sessions in step, and their generators the same. -/
theorem InStep.afterPasses {keep : Transition → Bool} {s s' : Session} (h : s.InStep keep s')
    (g : G) (n : Nat) :
    (s.afterPasses n g).1.world = s.world ∧
      (s.afterPasses n g).1.InStep keep (s'.afterPasses n g).1 ∧
      (s.afterPasses n g).2 = (s'.afterPasses n g).2 := by
  induction n with
  | zero => exact ⟨rfl, h, rfl⟩
  | succ n ih =>
      obtain ⟨hworld, hstep, hgenerator⟩ := ih
      obtain ⟨-, hnext, hworld', hskip, hskip'⟩ := hstep.runPass (s.afterPasses n g).2
      rw [afterPasses_succ, afterPasses_succ, ← hgenerator]
      exact ⟨hworld'.trans hworld, hnext, by rw [hskip, hskip', hstep.draws_possible]⟩

/-- What two sessions have in common in their next passes with a generator. -/
structure PassesInStep (keep : Transition → Bool) (s s' : Session) (g : G) : Prop where
  /-- The same happens, in the same order. -/
  fired : (s.runPass g).1.map some = (s'.runPass g).1.map (s.world.original keep)
  /-- The factors of both hold the same then. -/
  values : (s.runPass g).2.1.values = (s'.runPass g).2.1.values
  /-- One draws a word for each transition that is possible and not the player's to choose. -/
  words : (s.runPass g).2.2 = Random.skip (draws s.possible) g
  /-- So does the other. -/
  words' : (s'.runPass g).2.2 = Random.skip (draws s'.possible) g
  /-- These are as many. -/
  same : draws s.possible = draws s'.possible

/-- From the same values and with the same generator a story passes as it does with fewer
choices, for as many passes as one likes. -/
theorem afterPasses_passesInStep {s s' : Session} {keep : Transition → Bool}
    (hu : s.world.Built) (h : s.InStep keep s') (g : G) (n : Nat) :
    (s.world.withChoices keep).Built ∧ (s.afterPasses n g).1.world = s.world ∧
      (s.afterPasses n g).1.values = (s'.afterPasses n g).1.values ∧
      (s.afterPasses n g).2 = (s'.afterPasses n g).2 ∧
      (s.afterPasses n g).1.PassesInStep keep (s'.afterPasses n g).1 (s.afterPasses n g).2 := by
  obtain ⟨hworld, hstep, hgenerator⟩ := h.afterPasses g n
  obtain ⟨hfired, hnext, -, hskip, hskip'⟩ := hstep.runPass (s.afterPasses n g).2
  exact ⟨hu.withChoices keep, hworld, hstep.values, hgenerator, hfired, hnext.values, hskip, hskip',
    hstep.draws_possible⟩

/-- Nights with a player who waited, and nights without choices. -/
theorem afterPasses_passesInStep_dayAndNight :
    let s := Session.after dayAndNight {} ([.applyId ⟨0⟩, .applyId ⟨1⟩] : List (Operation Replay))
    let s' := Session.after (dayAndNight.withChoices fun _ => false) ⟨7, .declaration⟩
      ([.applyId ⟨0⟩] : List (Operation Replay))
    let g : Replay := ⟨#[7], 0⟩
    s.world.Built ∧ s.InStep (fun _ => false) s' ∧
      s.PassesInStep (fun _ => false) s' g ∧
      (s.runPass g).1 = [⟨2⟩] ∧ (s'.runPass g).1 = [⟨1⟩] ∧
      (s.afterPasses 2 g).1.PassesInStep (fun _ => false) (s'.afterPasses 2 g).1
        (s.afterPasses 2 g).2 := by
  intro s s' g
  have hu : s.world.Built := built_dayAndNight
  have hstep : s.InStep (fun _ => false) s' := ⟨rfl, by decide +kernel, rfl, rfl⟩
  obtain ⟨-, -, -, -, hnow⟩ := afterPasses_passesInStep hu hstep g 0
  obtain ⟨-, -, -, -, hlater⟩ := afterPasses_passesInStep hu hstep g 2
  exact ⟨hu, hstep, hnow, by decide +kernel, by decide +kernel, hlater⟩

end Session

end Storyworld
