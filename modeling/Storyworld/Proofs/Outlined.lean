import Storyworld.Outline
import Storyworld.Proofs.Declaring
import Storyworld.Proofs.Lockstep
import Storyworld.Proofs.RoundTrip
import Storyworld.Proofs.Warnings
import Storyworld.Random.Replay

/-!
# An outline loses nothing

An outline names factors instead of giving their handles, keeps effects under these names,
and has conditions as texts.  Nothing is lost by that for a story that compiles.

* *Factors.*  The handle of a factor is its place among all (`factors_of_outline`).
* *Effects.*  No two factors share a name, so no two effects fall together under one
  (`mem_effects_outline_iff`), and the entries stand in the order of their factors
  (`effects_of_outline`).
* *Conditions.*  The text of a condition spells the tokens of a tree, and no other tree has
  these tokens.  What the tree means holds where the condition does
  (`evaluate_of_write`).

So stories with one outline have universes that match, and sessions of them can not be told
apart (`compile_outline_faithful`).
-/

namespace Storyworld

/-! ## Factors -/

theorem value_text_injective : Function.Injective Value.text := by
  rintro ⟨text⟩ ⟨text'⟩ h
  exact congrArg Value.mk h

theorem Factor.eq_of_outline {f g : Factor} (hid : f.id = g.id) (h : f.outline = g.outline) :
    f = g := by
  obtain ⟨hlabel, htext, hvalues⟩ := (FactorOutline.mk.injEq ..).mp h
  have hinitial : f.initial = g.initial := value_text_injective htext
  have hothers : f.others = g.others := (List.cons.inj (value_text_injective.list_map hvalues)).2
  cases f
  cases g
  cases hid
  cases hlabel
  cases hinitial
  cases hothers
  rfl

/-- Universes with the same outlines of their factors have the same factors. -/
theorem Universe.factors_of_outline {u u' : Universe} (hu : u.Built) (hu' : u'.Built)
    (h : u.factors.map Factor.outline = u'.factors.map Factor.outline) :
    u.factors = u'.factors := by
  have hlength : u.factors.length = u'.factors.length := by
    simpa only [List.length_map] using congrArg List.length h
  refine List.ext_getElem hlength fun i hi hi' => Factor.eq_of_outline ?_ ?_
  · rw [hu.factor_id (List.getElem?_eq_getElem hi), hu'.factor_id (List.getElem?_eq_getElem hi')]
  · have hboth := congrArg (·[i]?) h
    simpa only [List.getElem?_map, List.getElem?_eq_getElem hi, List.getElem?_eq_getElem hi',
      Option.map_some, Option.some.injEq] using hboth

/-! ## Effects -/

/-- Where no name stands twice nothing is left out. -/
theorem lastOfEach_of_nodup {es : List (String × String)} (h : (es.map Prod.fst).Nodup) :
    lastOfEach es = es := by
  fun_induction lastOfEach es with
  | case1 => rfl
  | case2 e => rfl
  | case3 e e' es hname ih =>
      exact absurd hname fun heq => (List.nodup_cons.mp h).1 (heq ▸ List.mem_cons_self)
  | case4 e e' es hname ih => rw [ih (List.nodup_cons.mp h).2]

namespace Universe

variable {u u' : Universe}

/-- A declared factor is known by its name. -/
theorem labelOf_injective (hu : u.Built) {f g : FactorId} (hf : u.Declares f) (hg : u.Declares g)
    (h : u.labelOf f = u.labelOf g) : f = g := by
  obtain ⟨x, hx⟩ := Option.isSome_iff_exists.mp hf
  obtain ⟨y, hy⟩ := Option.isSome_iff_exists.mp hg
  obtain rfl : x.id = f := hu.factor_id hx
  obtain rfl : y.id = g := hu.factor_id hy
  have hfound := hu.findFactor?_label (List.mem_of_getElem? hx)
  have hfound' := hu.findFactor?_label (List.mem_of_getElem? hy)
  rw [Tree.labelOf_of_findFactor? hu hfound, Tree.labelOf_of_findFactor? hu hfound'] at h
  rw [h, hfound'] at hfound
  exact congrArg Factor.id (Option.some.inj hfound).symm

variable {t t' : Transition}

/-- The names of the factors that effects speak of are different, so an outline of the effects
has them all. -/
theorem effects_outline_eq (hu : u.Built) (ht : t ∈ u.transitions) :
    t.effects.outline u = (t.effects.entries.map fun (f, v) => (u.labelOf f, v.text)).mergeSort
      fun a b => decide (a.1 ≤ b.1) := by
  have hnames : ((t.effects.entries.map fun (f, v) => (u.labelOf f, v.text)).map
      Prod.fst).Nodup := by
    rw [List.map_map]
    refine List.pairwise_map.mpr ((hu.ordered_effects t ht).imp_of_mem ?_)
    intro p q hp hq hlt hname
    have hboth := (hu.declares t ht).2
    rw [labelOf_injective hu (hboth p hp) (hboth q hq) hname] at hlt
    exact Nat.lt_irrefl _ hlt
  exact lastOfEach_of_nodup (((List.mergeSort_perm _ _).map Prod.fst).nodup_iff.mpr hnames)

/-- What a declared factor is given stands under its name in the outline. -/
theorem mem_effects_outline_iff (hu : u.Built) (ht : t ∈ u.transitions) {f : FactorId}
    (hf : u.Declares f) {v : Value} :
    (u.labelOf f, v.text) ∈ t.effects.outline u ↔ (f, v) ∈ t.effects.entries := by
  rw [effects_outline_eq hu ht, List.mem_mergeSort, List.mem_map]
  constructor
  · intro given
    obtain ⟨⟨g, w⟩, hmem, heq⟩ := given
    obtain ⟨hname, htext⟩ := Prod.mk.inj heq
    obtain rfl := labelOf_injective hu ((hu.declares t ht).2 _ hmem) hf hname
    obtain rfl := value_text_injective htext
    exact hmem
  · intro hmem
    exact ⟨(f, v), hmem, rfl⟩

/-- Transitions with the same outlines of their effects have the same effects. -/
theorem effects_of_outline (hu : u.Built) (hu' : u'.Built) (hfactors : u.factors = u'.factors)
    (ht : t ∈ u.transitions) (ht' : t' ∈ u'.transitions)
    (h : t.effects.outline u = t'.effects.outline u') : t.effects = t'.effects := by
  have hlabel : ∀ f, u.labelOf f = u'.labelOf f := fun f => by
    rw [labelOf, labelOf, factor?, factor?, hfactors]
  have hdeclares : ∀ f, u.Declares f ↔ u'.Declares f := fun f => by
    rw [Declares, Declares, factor?, factor?, hfactors]
  have hmem : ∀ p, p ∈ t.effects.entries ↔ p ∈ t'.effects.entries := by
    rintro ⟨f, v⟩
    constructor
    · intro hp
      have hf := (hu.declares t ht).2 _ hp
      have hnamed := (mem_effects_outline_iff hu ht hf).mpr hp
      rw [h, hlabel] at hnamed
      exact (mem_effects_outline_iff hu' ht' ((hdeclares f).mp hf)).mp hnamed
    · intro hp
      have hf := (hu'.declares t' ht').2 _ hp
      have hnamed := (mem_effects_outline_iff hu' ht' hf).mpr hp
      rw [← h, ← hlabel] at hnamed
      exact (mem_effects_outline_iff hu ht ((hdeclares f).mpr hf)).mp hnamed
  have hentries : t.effects.entries = t'.effects.entries := by
    have hordered := hu.ordered_effects t ht
    have hordered' := hu'.ordered_effects t' ht'
    have hdistinct : ∀ {es : List (FactorId × Value)}, Effects.Ordered es → es.Nodup := by
      intro es hes
      refine List.Pairwise.imp (fun {p q} hlt heq => ?_) hes
      exact Nat.lt_irrefl _ (heq ▸ hlt)
    refine List.Perm.eq_of_pairwise (fun p q _ _ hlt hgt => absurd hgt (Nat.lt_asymm hlt))
      hordered hordered' ?_
    exact (List.perm_ext_iff_of_nodup (hdistinct hordered) (hdistinct hordered')).mpr hmem
  exact congrArg Effects.mk hentries

end Universe

/-! ## Conditions -/

/-- A text spells one list of tokens. -/
theorem spells_unique {text : String} {ts us : List Token} (hts : Spells text ts)
    (hus : Spells text us) : ts = us := by
  have hends : Ends [] := fun c hc => by cases hc
  have hboth := (hts [] hends).symm.trans (hus [] hends)
  exact List.map_injective_iff.mpr (fun _ _ => Reading.token.inj) (List.append_cancel_right hboth)

/-- Conditions of stories with the same factors hold in the same snapshots if they are
written alike. -/
theorem evaluate_of_write {source source' : String} {c c' : Compilation}
    (hc : compile source = .ok c) (hc' : compile source' = .ok c')
    (hfactors : c.world.factors = c'.world.factors) {x x' : Condition} (hx : x ∈ c.conditions)
    (hx' : x' ∈ c'.conditions) (h : x.write c.world = x'.write c'.world) (s : Snapshot) :
    x.evaluate s = x'.evaluate s := by
  obtain ⟨bs, ps, hcompile, hlegible⟩ := exists_blocks_of_compile hc
  obtain ⟨bs', ps', hcompile', hlegible'⟩ := exists_blocks_of_compile hc'
  obtain ⟨d, hd, hdx⟩ := Tree.exists_conjunction hcompile hlegible x hx
  obtain ⟨d', hd', hdx'⟩ := Tree.exists_conjunction hcompile' hlegible' x' hx'
  -- both texts are that of one tree, with the parentheses it needs
  have htext : d.simplify.text = d'.simplify.text := by
    rw [← Tree.Conjunction.write_condition? (compile_built hc) hdx, h,
      Tree.Conjunction.write_condition? (compile_built hc') hdx']
  have hspells := d.simplify.spells_text fun t ht => hd t (d.mem_tokens_of_simplify ht)
  have hspells' := d'.simplify.spells_text fun t ht => hd' t (d'.mem_tokens_of_simplify ht)
  have htokens : d.simplify.tokens = d'.simplify.tokens :=
    spells_unique hspells (htext ▸ hspells')
  have hstops : ∀ m, Tree.Stops m [] := fun m hm => by cases hm
  obtain ⟨htree, -⟩ := Tree.Conjunction.tokens_unique d.simplify d'.simplify (hstops _) (hstops _)
    (hstops _) (hstops _) (congrArg (· ++ []) htokens)
  obtain ⟨y, hy, heval⟩ := Tree.Conjunction.condition?_simplify hdx
  obtain ⟨y', hy', heval'⟩ := Tree.Conjunction.condition?_simplify hdx'
  have hextends : c'.world.Extends c.world := ⟨[], by rw [List.append_nil, hfactors]⟩
  have hsame := Tree.Conjunction.condition?_extends hextends hy
  rw [htree, hy'] at hsame
  rw [← heval, ← heval', Option.some.inj hsame]

/-! ## Stories -/

theorem transitions_of_outline {source source' : String} {c c' : Compilation}
    (hc : compile source = .ok c) (hc' : compile source' = .ok c')
    (hfactors : c.world.factors = c'.world.factors)
    (h : c.world.transitions.map (Transition.outline c.world) =
      c'.world.transitions.map (Transition.outline c'.world)) :
    List.Forall₂ Transition.Matches c.world.transitions c'.world.transitions := by
  have hu := compile_built hc
  have hu' := compile_built hc'
  have hlength : c.world.transitions.length = c'.world.transitions.length := by
    simpa only [List.length_map] using congrArg List.length h
  refine List.forall₂_iff_get.mpr ⟨hlength, fun i hi hi' => ?_⟩
  have hsome := List.getElem?_eq_getElem hi
  have hsome' := List.getElem?_eq_getElem hi'
  have ht := List.getElem_mem hi
  have ht' := List.getElem_mem hi'
  have hboth := congrArg (·[i]?) h
  simp only [List.getElem?_map, hsome, hsome', Option.map_some, Option.some.injEq] at hboth
  obtain ⟨hlabel, hcondition, hschedule, heffects, htext⟩ :=
    (TransitionOutline.mk.injEq ..).mp hboth
  have hmem : c.world.transitions[i].condition ∈ c.conditions :=
    List.mem_append_left _ (List.mem_map_of_mem ht)
  have hmem' : c'.world.transitions[i].condition ∈ c'.conditions :=
    List.mem_append_left _ (List.mem_map_of_mem ht')
  exact {
    id := by
      simp only [List.get_eq_getElem]
      rw [hu.transition_id hsome, hu'.transition_id hsome']
    label := hlabel
    condition := evaluate_of_write hc hc' hfactors hmem hmem' hcondition
    schedule := hschedule
    text := htext
    effects := Universe.effects_of_outline hu hu' hfactors ht ht' heffects }

/-- Stories with one outline declare the same factors, and transitions that are the same but
for how their conditions are put together.  Sessions of them that are played alike answer
alike and stand at the same moment of the same history.  The same is possible there and the
same can be chosen.  A pass lets the same happen and draws the same numbers. -/
theorem compile_outline_faithful {source source' : String} {c c' : Compilation}
    (hc : compile source = .ok c) (hc' : compile source' = .ok c')
    (h : c.outline = c'.outline) :
    c.world.Matches c'.world ∧
    ∀ {G : Type} [Generator G] (settings : Settings) (ops : List (Operation G)),
      let run := (Session.start c.world settings).run ops
      let run' := (Session.start c'.world settings).run ops
      run.1 = run'.1 ∧ run.2.history = run'.2.history ∧ run.2.now = run'.2.now ∧
        run.2.values = run'.2.values ∧
        run.2.possible.map Transition.id = run'.2.possible.map Transition.id ∧
        run.2.choices.map Transition.id = run'.2.choices.map Transition.id ∧
        ∀ g : G, (run.2.runPass g).1 = (run'.2.runPass g).1 ∧
          (run.2.runPass g).2.2 = (run'.2.runPass g).2.2 := by
  have hfactors := Universe.factors_of_outline (compile_built hc) (compile_built hc')
    (congrArg Outline.factors h)
  have hworld : c.world.Matches c'.world :=
    ⟨hfactors, transitions_of_outline hc hc' hfactors (congrArg Outline.transitions h)⟩
  refine ⟨hworld, fun settings ops => ?_⟩
  obtain ⟨hanswers, hrun⟩ := (Session.start_matches hworld settings).run ops
  refine ⟨hanswers, hrun.history, hrun.now, hrun.values, Transition.ids_eq hrun.possible,
    Transition.ids_eq hrun.choices, fun g => ?_⟩
  obtain ⟨hfired, -, hg⟩ := hrun.runPass g
  exact ⟨hfired, hg⟩

/-- A story, and one that says the same with more words. -/
def briefStory : String :=
  "factor a : (x, y)\n" ++
  "transition : (a = x, spontaneous 1, a -> y)\n"

@[inherit_doc briefStory]
def wordyStory : String :=
  "factor a : (x, y, x) % again\n" ++
  "transition : ((a = x), spontaneous 1.0, (a -> x, a -> y))\n"

/-- The longer story finds something, and its condition is put together from more parts.  It is
played like the shorter one. -/
theorem compile_outline_faithful_wordy : ∃ c c',
    compile briefStory = .ok c ∧ compile wordyStory = .ok c' ∧ c.outline = c'.outline ∧
    c.findings.length ≠ c'.findings.length ∧ c.world.Matches c'.world ∧
    ((Session.start c.world {}).run [.pass (Replay.mk #[] 0), .undo, .applyId ⟨0⟩]).1 =
      ((Session.start c'.world {}).run [.pass (Replay.mk #[] 0), .undo, .applyId ⟨0⟩]).1 := by
  have hboth : (compile briefStory).toOption.map (fun c => (c.outline, c.findings.length)) =
      some (⟨[⟨"a", "x", ["x", "y"]⟩], [⟨"", "a = x", .spontaneous (.ofNat 1), [("a", "y")], ""⟩],
        []⟩, 0) ∧
      (compile wordyStory).toOption.map (fun c => (c.outline, c.findings.length)) =
      some (⟨[⟨"a", "x", ["x", "y"]⟩], [⟨"", "a = x", .spontaneous (.ofNat 1), [("a", "y")], ""⟩],
        []⟩, 1) := by
    decide +kernel
  obtain ⟨c, hc, hparts⟩ := exists_compilation hboth.1
  obtain ⟨c', hc', hparts'⟩ := exists_compilation hboth.2
  obtain ⟨houtline, hfindings⟩ := Prod.mk.inj hparts
  obtain ⟨houtline', hfindings'⟩ := Prod.mk.inj hparts'
  obtain ⟨hworld, hplayed⟩ := compile_outline_faithful hc hc' (houtline.trans houtline'.symm)
  refine ⟨c, c', hc, hc', houtline.trans houtline'.symm, ?_, hworld, (hplayed {} _).1⟩
  rw [hfindings, hfindings']
  decide

end Storyworld
