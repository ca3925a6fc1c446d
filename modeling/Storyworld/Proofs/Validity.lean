import Storyworld.Proofs.Given
import Storyworld.Random.Replay

/-!
# Declared and undeclared values

A factor is free to hold what it was not declared to hold.  That begins with an effect,
and it is found when the effect is read.  So in a story where no such effect is found every
factor holds one of its declared values, at every moment of every session
(`Session.after_admitted`), and no test that was said never to hold holds anywhere.

With such effects a test that was said never to hold can hold.  It does so exactly while
the last transition that changed the factor is one that gave it the undeclared value, and
every effect of the story that gives it was found too, where it stands
(`Session.after_holds_iff`).  `Session.strayStory` is such a story.
-/

namespace Storyworld

/-! ## Snapshots -/

namespace Snapshot

/-- Every factor holds one of its declared values. -/
def Admitted (u : Universe) (s : Snapshot) : Prop :=
  ∀ f ∈ u.factors, ∃ v ∈ f.values, s.get? f.id = some v

variable {u : Universe}

/-- At the beginning factors hold the first of their values. -/
theorem get?_initial (hu : u.Built) {f : Factor} (hf : f ∈ u.factors) :
    u.initial.get? f.id = some f.initial := by
  obtain ⟨i, hi⟩ := List.mem_iff_getElem?.mp hf
  rw [get?, Universe.initial, hu.factor_id hi, List.getElem?_map, hi]
  rfl

theorem admitted_initial (hu : u.Built) : u.initial.Admitted u := fun f hf =>
  ⟨f.initial, (f.admits_iff _).mp f.admits_initial, get?_initial hu hf⟩

/-- Effects that give declared values only leave factors with declared values. -/
theorem Admitted.overlay (hu : u.Built) {s : Snapshot} (h : s.Admitted u) {e : Effects}
    (he : ∀ p ∈ e.entries, ∃ f, u.factor? p.1 = some f ∧ p.2 ∈ f.values) :
    (s.overlay e).Admitted u := by
  intro f hf
  obtain ⟨v, hv, hget⟩ := h f hf
  obtain ⟨v', hget', heq | hmem⟩ := get?_setAll e.entries hget
  · exact ⟨v', heq ▸ hv, hget'⟩
  · obtain ⟨g, hg, hv'⟩ := he _ hmem
    cases hg.symm.trans (hu.factor?_id hf)
    exact ⟨v', hv', hget'⟩

/-- A test for a value that is not declared fails where factors hold declared values. -/
theorem Admitted.evaluate_holds {s : Snapshot} (h : s.Admitted u) {f : Factor}
    (hf : f ∈ u.factors) {v : Value} (hv : v ∉ f.values) :
    (Condition.holds f.id v).evaluate s = false := by
  obtain ⟨v', hv', hget⟩ := h f hf
  rw [Condition.evaluate, hget, beq_eq_false_iff_ne]
  rintro heq
  exact hv (Option.some.inj heq ▸ hv')

end Snapshot

/-! ## Sessions -/

/-- At every moment of a session every factor holds one of its declared values. -/
structure Session.Admitted (u : Universe) (s : Session) : Prop where
  /-- The session stands at a moment. -/
  current : ∃ m, s.current? = some m ∧ s.values = m.values
  /-- The values now are declared. -/
  now : s.values.Admitted u
  /-- The values of every moment are declared. -/
  live : ∀ id m, s.history.get? id = some m → m.values.Admitted u
  /-- No factor is invalid. -/
  invalid : s.invalidFactors = []
  /-- Every factor is valid. -/
  valid : ∀ f ∈ u.factors, s.isValid f.id = true

namespace Session

section Admitted

variable {s : Session} {u : Universe}

/-- A factor that holds a declared value is valid. -/
theorem isValid_of_admitted (hworld : s.world = u) (hu : u.Built) (h : s.values.Admitted u)
    {f : Factor} (hf : f ∈ u.factors) : s.isValid f.id = true := by
  obtain ⟨v, hv, hget⟩ := h f hf
  rw [isValid, hworld, hu.factor?_id hf, Session.get?, hget]
  exact (f.admits_iff v).mpr hv

theorem invalidFactors_of_admitted (hworld : s.world = u) (hu : u.Built)
    (h : s.values.Admitted u) : s.invalidFactors = [] := by
  rw [invalidFactors, hworld, List.filter_eq_nil_iff]
  intro id hid
  obtain ⟨f, hf, rfl⟩ := List.mem_map.mp hid
  rw [isValid_of_admitted hworld hu h hf]
  exact Bool.false_ne_true

/-- It is enough that the values of every moment are declared. -/
theorem Follows.admitted {settings : Settings} {tl : Timeline} (hs : s.Follows u settings tl)
    (hu : u.Built) (h : ∀ id m, s.history.get? id = some m → m.values.Admitted u) :
    s.Admitted u := by
  have hnow : s.values.Admitted u := hs.values ▸ h _ _ hs.current?
  exact ⟨⟨_, hs.current?, hs.values⟩, hnow, h, invalidFactors_of_admitted hs.world hu hnow,
    fun f hf => isValid_of_admitted hs.world hu hnow hf⟩

end Admitted

variable {G : Type} [Generator G] {source : String} {c : Compilation}

/-- In a story in which no effect with an undeclared value is found, every factor holds one of
its declared values at every moment of every session.  No test that was said never to hold
holds at any of these moments. -/
theorem after_admitted (hc : compile source = .ok c)
    (hclean : ∀ v name place, ⟨.undeclaredValue v name, place⟩ ∉ c.findings)
    (settings : Settings) {ops : List (Operation G)}
    (hops : ∀ op ∈ ops, op.Brings (· ∈ c.world.transitions)) :
    (Session.after c.world settings ops).Admitted c.world ∧
    ∀ name v place, ⟨.neverHolds name v, place⟩ ∈ c.findings →
      ∃ f, c.world.findFactor? name = some f ∧
        (Condition.holds f.id v).evaluate (Session.after c.world settings ops).values = false ∧
        ∀ id m, (Session.after c.world settings ops).history.get? id = some m →
          (Condition.holds f.id v).evaluate m.values = false := by
  have hu := compile_built hc
  have hdeclared : ∀ t ∈ c.world.transitions, ∀ p ∈ t.effects.entries,
      ∃ f, c.world.factor? p.1 = some f ∧ p.2 ∈ f.values := by
    intro t ht p hp
    obtain ⟨f, hf, hv | ⟨place, hw⟩⟩ := compile_vetted hc t ht p hp
    · exact ⟨f, hf, hv⟩
    · exact absurd hw (hclean _ _ _)
  have halways : ∀ id m, (Session.after c.world settings ops).history.get? id = some m →
      m.values.Admitted c.world :=
    after_always c.world settings (fun _ ht => ht) hops (Snapshot.admitted_initial hu)
      fun t s ht h => h.overlay hu (hdeclared t ht)
  obtain ⟨tl, hfollows, -⟩ := after_descends c.world settings (fun _ ht => ht) hops
  have hadmitted := hfollows.admitted hu halways
  refine ⟨hadmitted, fun name v place hw => ?_⟩
  obtain ⟨f, hf, hv⟩ := compile_grounded hc _ hw
  have hmem := (Universe.mem_of_findFactor? hf).1
  exact ⟨f, hf, hadmitted.now.evaluate_holds hmem hv,
    fun id m hm => (halways id m hm).evaluate_holds hmem hv⟩

/-- A story that tests for an undeclared value and gives declared ones only. -/
def lampStory : String :=
  "factor lamp : (off, on)\n" ++
  "transition : (lamp = dim | lamp = off, spontaneous 1, lamp -> on)"

/-- Switching the lamp on, going back and forth, and switching it on again. -/
def lampRun : List (Operation Replay) :=
  [.pass ⟨#[], 0⟩, .undo, .redo, .applyId ⟨0⟩, .goto ⟨1⟩]

/-- The lamp is never dim, wherever the player goes. -/
theorem after_admitted_lamp : ∃ c, compile lampStory = .ok c ∧
    (∀ v name place, ⟨.undeclaredValue v name, place⟩ ∉ c.findings) ∧
    ⟨.neverHolds "lamp" ⟨"dim"⟩, ⟨38, 48⟩⟩ ∈ c.findings ∧
    (Session.after c.world {} lampRun).Admitted c.world ∧
    ∀ name v place, ⟨.neverHolds name v, place⟩ ∈ c.findings →
      ∃ f, c.world.findFactor? name = some f ∧
        (Condition.holds f.id v).evaluate (Session.after c.world {} lampRun).values = false ∧
        ∀ id m, (Session.after c.world {} lampRun).history.get? id = some m →
          (Condition.holds f.id v).evaluate m.values = false := by
  have hfindings : (compile lampStory).toOption.map Compilation.findings =
      some [⟨.neverHolds "lamp" ⟨"dim"⟩, ⟨38, 48⟩⟩] := by
    decide +kernel
  obtain ⟨c, hc, hsingle⟩ := exists_compilation hfindings
  have hclean : ∀ v name place, ⟨.undeclaredValue v name, place⟩ ∉ c.findings := by
    intro v name place hmem
    rw [hsingle] at hmem
    cases List.mem_singleton.mp hmem
  refine ⟨c, hc, hclean, hsingle ▸ List.mem_singleton_self _, ?_⟩
  refine after_admitted hc hclean {} ?_
  simp [lampRun, Operation.Brings]

/-- A test that was said never to hold holds now exactly if the last transition that changed
the factor gave it the value.  Every effect of the story that gives it is found where it stands,
also if another one of its list replaces it. -/
theorem after_holds_iff (hc : compile source = .ok c) {name : String} {v : Value} {place : Span}
    (hw : ⟨.neverHolds name v, place⟩ ∈ c.findings)
    (settings : Settings) {ops : List (Operation G)}
    (hops : ∀ op ∈ ops, op.Brings (· ∈ c.world.transitions)) :
    ∃ f ts bs, c.world.findFactor? name = some f ∧ c.FindsGiving source ts bs name v ∧
      (∀ t ∈ (Session.after c.world settings ops).eventsSince History.root,
        t ∈ c.world.transitions) ∧
      ((Condition.holds f.id v).evaluate (Session.after c.world settings ops).values = true ↔
        Snapshot.LastGives f.id v
          ((Session.after c.world settings ops).eventsSince History.root)) := by
  have hu := compile_built hc
  obtain ⟨f, hf, hv⟩ := compile_grounded hc _ hw
  obtain ⟨ts, bs, hfinds⟩ := compile_findsGiving hc hf hv
  obtain ⟨tl, hfollows, hdescends⟩ := after_descends c.world settings (fun _ ht => ht) hops
  obtain ⟨hvalues, hevents⟩ := hfollows.values_eq_play hu hdescends
  refine ⟨f, ts, bs, hf, hfinds, hevents, ?_⟩
  have hinitial : f.initial ≠ v := by
    rintro rfl
    exact hv ((f.admits_iff _).mp f.admits_initial)
  rw [Condition.evaluate, beq_iff_eq, hvalues, Snapshot.get?_play_iff
    (fun t ht => hu.ordered_effects t (hevents t ht))
    (Snapshot.get?_initial hu (Universe.mem_of_findFactor? hf).1)]
  exact or_iff_left fun h => hinitial h.1

/-- A story that gives a factor a value that it was not declared to hold: twice in the list of one
transition, and in that of another, where an effect behind it replaces it. -/
def restlessStory : String :=
  "factor a : (x)\n" ++
  "transition : (a = x, spontaneous 1, (a -> z, a -> x, a -> z))\n" ++
  "transition : (a = z, choice : \"Leave.\", (a -> z, a -> x))"

/-- The value is found three times.  After one pass the first transition is the last to have changed
the factor, and the factor holds the value. -/
theorem after_holds_iff_restless : ∃ c, compile restlessStory = .ok c ∧
    ⟨.neverHolds "a" ⟨"z"⟩, ⟨91, 96⟩⟩ ∈ c.findings ∧
    c.placesOf (.undeclaredValue ⟨"z"⟩ "a") = [⟨57, 58⟩, ⟨73, 74⟩, ⟨123, 124⟩] ∧
    (Session.after c.world {} [.pass (Replay.mk #[] 0)]).values = ⟨[⟨"z"⟩]⟩ ∧
    ∃ f ts bs, c.world.findFactor? "a" = some f ∧
      c.FindsGiving restlessStory ts bs "a" ⟨"z"⟩ ∧
      (∀ t ∈ (Session.after c.world {} [.pass (Replay.mk #[] 0)]).eventsSince History.root,
        t ∈ c.world.transitions) ∧
      ((Condition.holds f.id ⟨"z"⟩).evaluate
          (Session.after c.world {} [.pass (Replay.mk #[] 0)]).values = true ↔
        Snapshot.LastGives f.id ⟨"z"⟩
          ((Session.after c.world {} [.pass (Replay.mk #[] 0)]).eventsSince History.root)) := by
  have hall : (compile restlessStory).toOption.map (fun c => (c.findings,
      c.placesOf (.undeclaredValue ⟨"z"⟩ "a"),
      (Session.after c.world {} [.pass (Replay.mk #[] 0)]).values)) =
      some ([⟨.undeclaredValue ⟨"z"⟩ "a", ⟨57, 58⟩⟩, ⟨.undeclaredValue ⟨"z"⟩ "a", ⟨73, 74⟩⟩,
        ⟨.neverHolds "a" ⟨"z"⟩, ⟨91, 96⟩⟩, ⟨.undeclaredValue ⟨"z"⟩ "a", ⟨123, 124⟩⟩],
        [⟨57, 58⟩, ⟨73, 74⟩, ⟨123, 124⟩], ⟨[⟨"z"⟩]⟩) := by
    decide +kernel
  obtain ⟨c, hc, hparts⟩ := exists_compilation hall
  obtain ⟨hfindings, hrest⟩ := Prod.mk.inj hparts
  obtain ⟨hplaces, hvalues⟩ := Prod.mk.inj hrest
  have hfound : ⟨.neverHolds "a" ⟨"z"⟩, ⟨91, 96⟩⟩ ∈ c.findings := hfindings ▸ by simp
  refine ⟨c, hc, hfound, hplaces, hvalues, after_holds_iff hc hfound {} ?_⟩
  simp [Operation.Brings]

/-- A story whose transition gives a factor a value that it was not declared to hold, and that
asks for the value. -/
def strayStory : String :=
  "factor a : (x)\n" ++
  "transition : (a = x, spontaneous 1, a -> z)\n" ++
  "transition : (a = z, choice : \"Leave.\", a -> x)"

/-- The test of the story that was said never to hold holds after one pass. -/
theorem holds_of_neverHolds : ∃ c f, compile strayStory = .ok c ∧
    ⟨.neverHolds "a" ⟨"z"⟩, ⟨73, 78⟩⟩ ∈ c.findings ∧ c.world.findFactor? "a" = some f ∧
    (Condition.holds f.id ⟨"z"⟩).evaluate
      (Session.after c.world {} [.pass (Replay.mk #[] 0)]).values = true := by
  have hall : (compile strayStory).toOption.map (fun c => (c.findings, c.world.findFactor? "a",
      (Session.after c.world {} [.pass (Replay.mk #[] 0)]).values)) =
      some ([⟨.undeclaredValue ⟨"z"⟩ "a", ⟨56, 57⟩⟩, ⟨.neverHolds "a" ⟨"z"⟩, ⟨73, 78⟩⟩],
        some ⟨⟨0⟩, "a", ⟨"x"⟩, []⟩, ⟨[⟨"z"⟩]⟩) := by
    decide +kernel
  obtain ⟨c, hc, hparts⟩ := exists_compilation hall
  obtain ⟨hfindings, hrest⟩ := Prod.mk.inj hparts
  obtain ⟨hfactor, hvalues⟩ := Prod.mk.inj hrest
  refine ⟨c, _, hc, hfindings ▸ by simp, hfactor, ?_⟩
  rw [hvalues]
  rfl

end Session

end Storyworld
