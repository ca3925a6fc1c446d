import Storyworld.Proofs.Sequel
import Storyworld.Proofs.Shifted
import Storyworld.Proofs.Suspects

/-!
# Stories behind one another

Two stories that compile, and have no name of a factor in common, compile one behind the other,
to what the first compiles to and behind it what the second does (`Compilation.followedBy`).

Behind a line break a story has the tokens that it has alone, further on in the text.  Each block
of it is read as before, and it means the same: the names that it uses are declared in its own
story, so they are not looked up among those of the first.  So what a block adds behind the first
story is what it adds alone, shifted (`Tree.Block.compile?_followedBy`).  What is found in a
block is found at its sites, and sites are where their tokens are (`Tree.placed_shift`).
-/

namespace Storyworld

/-! ## One compilation behind another -/

/-- A description block behind so many factors and so many bytes. -/
def Description.shift (factors offset : Nat) (d : Description) : Description where
  condition := d.condition.shift factors
  text := d.text
  span := d.span.shift offset

/-- A warning behind so many bytes. -/
def Diagnostic.shift (offset : Nat) (d : Diagnostic) : Diagnostic :=
  { d with span := d.span.shift offset }

/-- A compilation, and behind it another one of a text that stands further on. -/
def Compilation.followedBy (c : Compilation) (offset : Nat) (c' : Compilation) : Compilation where
  world := c.world.followedBy c'.world
  findings := c.findings ++ c'.findings.map (Spanned.shift offset)
  descriptions := c.descriptions ++
    c'.descriptions.map (Description.shift c.world.factors.length offset)

theorem Compilation.followedBy_nothing (c : Compilation) (offset : Nat) :
    c.followedBy offset .nothing = c := by
  simp [followedBy, nothing, Universe.followedBy_empty]

/-- The warnings are those of one and of the other. -/
theorem Compilation.warnings_followedBy (c c' : Compilation) (offset : Nat) :
    (c.followedBy offset c').warnings =
      c.warnings ++ c'.warnings.map (Diagnostic.shift offset) := by
  rw [warnings, warnings, warnings, followedBy, List.map_append, List.map_map, List.map_map]
  rfl

namespace Tree

open Universe

/-! ## Names that only the second story has -/

section Names

variable {u u' : Universe}

mutual

theorem Conjunction.clauses?_followedBy : ∀ c : Conjunction, (∀ p ∈ c.tests, p.1 ∉ u.names) →
    c.clauses? (u.followedBy u') = (c.clauses? u').map (Condition.shiftAll u.factors.length)
  | .one d, h => by
      rw [Conjunction.tests] at h
      rw [Conjunction.clauses?, Conjunction.clauses?, Disjunction.terms?_followedBy d h,
        Option.map_map, Option.map_map]
      rfl
  | .and d c, h => by
      rw [Conjunction.tests, List.forall_mem_append] at h
      rw [Conjunction.clauses?, Conjunction.clauses?, Disjunction.terms?_followedBy d h.1,
        Conjunction.clauses?_followedBy c h.2]
      cases d.terms? u' <;> cases c.clauses? u' <;> rfl

theorem Disjunction.terms?_followedBy : ∀ d : Disjunction, (∀ p ∈ d.tests, p.1 ∉ u.names) →
    d.terms? (u.followedBy u') = (d.terms? u').map (Condition.shiftAll u.factors.length)
  | .one t, h => by
      rw [Disjunction.tests] at h
      rw [Disjunction.terms?, Disjunction.terms?, Term.condition?_followedBy t h,
        Option.map_map, Option.map_map]
      rfl
  | .or t d, h => by
      rw [Disjunction.tests, List.forall_mem_append] at h
      rw [Disjunction.terms?, Disjunction.terms?, Term.condition?_followedBy t h.1,
        Disjunction.terms?_followedBy d h.2]
      cases t.condition? u' <;> cases d.terms? u' <;> rfl

theorem Term.condition?_followedBy : ∀ t : Term, (∀ p ∈ t.tests, p.1 ∉ u.names) →
    t.condition? (u.followedBy u') = (t.condition? u').map (Condition.shift u.factors.length)
  | .test name a, h => by
      rw [Term.tests, List.forall_mem_singleton] at h
      rw [Term.condition?, Term.condition?, findFactor?_followedBy h, Option.map_map,
        Option.map_map]
      rfl
  | .group c, h => by
      rw [Term.tests] at h
      rw [Term.condition?, Term.condition?, Conjunction.clauses?_followedBy c h,
        Option.map_map, Option.map_map]
      rfl

end

/-- A condition is read as in the second universe, and shifted. -/
theorem Conjunction.condition?_followedBy {c : Conjunction} (h : ∀ name ∈ c.names, name ∉ u.names) :
    c.condition? (u.followedBy u') =
      (c.condition? u').map (Condition.shift u.factors.length) := by
  have htests : ∀ p ∈ c.tests, p.1 ∉ u.names := fun p hp => h p.1 (List.mem_map_of_mem hp)
  rw [condition?, condition?, c.clauses?_followedBy htests, Option.map_map, Option.map_map]
  rfl

theorem Change.pair?_followedBy {e : Change} (h : e.factor ∉ u.names) :
    e.pair? (u.followedBy u') = (e.pair? u').map (shiftPair u.factors.length) := by
  rw [pair?, pair?, findFactor?_followedBy h, Option.map_map, Option.map_map]
  rfl

theorem Change.pairs?_followedBy {es : Several Change} (h : ∀ e ∈ es.toList, e.factor ∉ u.names) :
    pairs? (u.followedBy u') es = (pairs? u' es).map (List.map (shiftPair u.factors.length)) := by
  induction es with
  | one e =>
      rw [pairs?, pairs?, e.pair?_followedBy (h e (List.mem_singleton_self _)), Option.map_map,
        Option.map_map]
      rfl
  | more e es ih =>
      rw [Several.toList, List.forall_mem_cons] at h
      rw [pairs?, pairs?, e.pair?_followedBy h.1, ih h.2]
      cases e.pair? u' <;> cases pairs? u' es <;> rfl

/-- Effects are read as in the second universe, and shifted. -/
theorem Changes.pairs?_followedBy {es : Changes} (h : ∀ e ∈ es.toList, e.factor ∉ u.names) :
    es.pairs? (u.followedBy u') =
      (es.pairs? u').map (List.map (shiftPair u.factors.length)) := by
  cases es with
  | bare e =>
      rw [pairs?, pairs?, e.pair?_followedBy (h e (List.mem_singleton_self _)), Option.map_map,
        Option.map_map]
      rfl
  | listed es => exact Change.pairs?_followedBy h

/-! ## What is found -/

/-- What is found at a factor depends on its values alone. -/
theorem found_followedBy {name : String} (h : name ∉ u.names) (v : Value)
    (w : List (Spanned Finding)) :
    (match (u.followedBy u').findFactor? name with
      | some f => if f.admits v then [] else w
      | none => []) =
    match u'.findFactor? name with
      | some f => if f.admits v then [] else w
      | none => [] := by
  rw [findFactor?_followedBy h]
  cases u'.findFactor? name <;> rfl

mutual

theorem Conjunction.found_followedBy : ∀ (c : Conjunction) (ps : List Span),
    (∀ p ∈ c.tests, p.1 ∉ u.names) → c.found (u.followedBy u') ps = c.found u' ps
  | .one d, ps, h => by
      rw [Conjunction.tests] at h
      rw [Conjunction.found, Conjunction.found, Disjunction.found_followedBy d ps h]
  | .and d c, ps, h => by
      rw [Conjunction.tests, List.forall_mem_append] at h
      rw [Conjunction.found, Conjunction.found, Disjunction.found_followedBy d _ h.1,
        Conjunction.found_followedBy c _ h.2]

theorem Disjunction.found_followedBy : ∀ (d : Disjunction) (ps : List Span),
    (∀ p ∈ d.tests, p.1 ∉ u.names) → d.found (u.followedBy u') ps = d.found u' ps
  | .one t, ps, h => by
      rw [Disjunction.tests] at h
      rw [Disjunction.found, Disjunction.found, Term.found_followedBy t ps h]
  | .or t d, ps, h => by
      rw [Disjunction.tests, List.forall_mem_append] at h
      rw [Disjunction.found, Disjunction.found, Term.found_followedBy t _ h.1,
        Disjunction.found_followedBy d _ h.2]

theorem Term.found_followedBy : ∀ (t : Term) (ps : List Span),
    (∀ p ∈ t.tests, p.1 ∉ u.names) → t.found (u.followedBy u') ps = t.found u' ps
  | .test name a, ps, h => by
      rw [Term.tests, List.forall_mem_singleton] at h
      rw [Term.found, Term.found]
      exact Tree.found_followedBy h a.value _
  | .group c, ps, h => by
      rw [Term.tests] at h
      rw [Term.found, Term.found, Conjunction.found_followedBy c _ h]

end

theorem Change.foundIn_followedBy (es : Several Change) (ps : List Span)
    (h : ∀ e ∈ es.toList, e.factor ∉ u.names) :
    foundIn (u.followedBy u') es ps = foundIn u' es ps := by
  induction es generalizing ps with
  | one e => exact Tree.found_followedBy (h e (List.mem_singleton_self _)) _ _
  | more e es ih =>
      rw [Several.toList, List.forall_mem_cons] at h
      rw [foundIn, foundIn, ih _ h.2]
      exact congrArg (· ++ _) (Tree.found_followedBy h.1 _ _)

theorem Changes.found_followedBy (es : Changes) (ps : List Span)
    (h : ∀ e ∈ es.toList, e.factor ∉ u.names) :
    es.found (u.followedBy u') ps = es.found u' ps := by
  cases es with
  | bare e => exact Tree.found_followedBy (h e (List.mem_singleton_self _)) _ _
  | listed es => exact Change.foundIn_followedBy es _ h

theorem Conjunction.found_of_names {c : Conjunction} (h : ∀ name ∈ c.names, name ∉ u.names)
    (ps : List Span) : c.found (u.followedBy u') ps = c.found u' ps :=
  c.found_followedBy ps fun p hp => h p.1 (List.mem_map_of_mem hp)

/-- In a block the same is found as in the second universe. -/
theorem Block.found_followedBy (b : Block) (ps : List Span) (h : ∀ name ∈ b.uses, name ∉ u.names) :
    b.found (u.followedBy u') ps = b.found u' ps := by
  cases b with
  | factor name values => rfl
  | transition name condition timing changes told =>
      rw [uses, List.forall_mem_append] at h
      have hchanges : ∀ e ∈ changes.toList, e.factor ∉ u.names :=
        fun e he => h.2 e.factor (List.mem_map_of_mem he)
      rw [found, found, Conjunction.found_of_names h.1, changes.found_followedBy _ hchanges]
  | description condition told => exact Conjunction.found_of_names h _

end Names

/-! ## Places further on -/

/-- The place around some places moves with them. -/
theorem around_shift (offset : Nat) {ps : List Span} (h : ps ≠ []) :
    around (ps.map (Span.shift offset)) = (around ps).shift offset := by
  obtain ⟨p, rest, rfl⟩ := List.exists_cons_of_ne_nil h
  rw [around, around, List.getLast?_map, List.getLast?_eq_some_getLast h]
  rfl

/-- Sites are where their tokens are. -/
theorem placed_shift (offset : Nat) (xs : List Piece) {ps : List Span}
    (h : ps.length = (written xs).length) :
    placed xs (ps.map (Span.shift offset)) = (placed xs ps).map (Spanned.shift offset) := by
  induction xs generalizing ps with
  | nil => rfl
  | cons x xs ih =>
      cases x with
      | plain t =>
          have hrest : (ps.drop 1).length = (written xs).length := by
            rw [List.length_drop, h]
            rfl
          rw [placed, placed, ← List.map_drop, ih hrest]
      | site s =>
          obtain ⟨hne, hrest⟩ := length_split_site h
          rw [placed, placed, List.map_cons, ← List.map_drop, ih hrest, ← List.map_take,
            around_shift offset hne]
          rfl

theorem Site.foundAt_shift (offset : Nat) (declared : String → List Value)
    (sites : List (Spanned Site)) :
    foundAt declared (sites.map (Spanned.shift offset)) =
      (foundAt declared sites).map (Spanned.shift offset) := by
  rw [foundAt, foundAt, List.filter_map, List.map_map, List.map_map]
  rfl

/-- In a block further on the same is found, further on. -/
theorem Block.found_shift {u : Universe} (b : Block) (hnames : ∀ name ∈ b.uses, name ∈ u.names)
    (offset : Nat) {ps : List Span} (hps : ps.length = b.tokens.length) :
    b.found u (ps.map (Span.shift offset)) = (b.found u ps).map (Spanned.shift offset) := by
  have hwritten : ps.length = (written b.pieces).length := by rw [hps, b.written_pieces]
  have hshifted : (ps.map (Span.shift offset)).length = b.tokens.length := by
    rw [List.length_map, hps]
  -- The sites decide what is found.
  rw [b.found_eq (known_values u) hnames hps, b.found_eq (known_values u) hnames hshifted,
    placed_shift offset _ hwritten, Site.foundAt_shift]

/-! ## Blocks behind a story -/

theorem Block.world?_followedBy {u u' u'' : Universe} {b : Block} (h : b.world? u' = some u'')
    (huses : ∀ name ∈ b.uses, name ∉ u.names) (hdeclares : ∀ name ∈ b.declares, name ∉ u.names) :
    b.world? (u.followedBy u') = some (u.followedBy u'') := by
  cases b with
  | factor name as =>
      obtain ⟨id, hadd⟩ := world?_factor.mp h
      exact world?_factor.mpr
        ⟨_, addFactor_followedBy (hdeclares name (List.mem_singleton_self _)) hadd⟩
  | transition name c t es told =>
      rw [uses, List.forall_mem_append] at huses
      obtain ⟨x, ps, id, hx, hps, hadd⟩ := world?_transition.mp h
      refine world?_transition.mpr ⟨_, _, _, ?_, ?_, addTransition_followedBy hadd⟩
      · rw [Conjunction.condition?_followedBy huses.1, hx]
        rfl
      · have hchanges : ∀ e ∈ es.toList, e.factor ∉ u.names :=
          fun e he => huses.2 e.factor (List.mem_map_of_mem he)
        rw [Changes.pairs?_followedBy hchanges, hps]
        rfl
  | description c told =>
      obtain ⟨⟨x, hx⟩, rfl⟩ := world?_description.mp h
      refine world?_description.mpr ⟨⟨x.shift u.factors.length, ?_⟩, rfl⟩
      rw [Conjunction.condition?_followedBy huses, hx]
      rfl

theorem Block.described_followedBy {u u' : Universe} {b : Block}
    (huses : ∀ name ∈ b.uses, name ∉ u.names) (offset : Nat) {ps : List Span} (hps : ps ≠ []) :
    b.described (u.followedBy u') (ps.map (Span.shift offset)) =
      (b.described u' ps).map (Description.shift u.factors.length offset) := by
  cases b with
  | factor name as => rfl
  | transition name c t es told => rfl
  | description c told =>
      rw [described, described, Conjunction.condition?_followedBy huses, around_shift offset hps]
      cases c.condition? u' <;> rfl

/-- What a block adds behind a story is what it adds alone, shifted. -/
theorem Block.compile?_followedBy {c c₁ c₂ : Compilation} {b : Block} {ps : List Span}
    (h : b.compile? c₁ ps = some c₂) (hu : c₁.world.Built)
    (hnames : c.world.names.Disjoint c₂.world.names) (hps : ps.length = b.tokens.length)
    (offset : Nat) :
    b.compile? (c.followedBy offset c₁) (ps.map (Span.shift offset)) =
      some (c.followedBy offset c₂) := by
  obtain ⟨w, hw, rfl⟩ := Block.compile?_eq_some.mp h
  obtain ⟨hknown, -⟩ := (b.world?_isSome_iff hu).mp (by rw [hw]; rfl)
  have hdeclared : w.names = c₁.world.names ++ b.declares := (Block.world?_eq_some hu hw).2
  -- whatever the block names belongs to the second story
  have hout : ∀ name ∈ c₁.world.names ++ b.declares, name ∉ c.world.names :=
    fun name hname hmem => hnames hmem (hdeclared ▸ hname)
  have huses : ∀ name ∈ b.uses, name ∉ c.world.names :=
    fun name hname => hout name (List.mem_append_left _ (hknown name hname))
  have hne : ps ≠ [] := List.ne_nil_of_length_pos
    (hps ▸ List.length_pos_of_ne_nil b.tokens_ne_nil)
  refine Block.compile?_eq_some.mpr ⟨c.world.followedBy w, ?_, ?_⟩
  · exact Block.world?_followedBy hw huses
      fun name hname => hout name (List.mem_append_right _ hname)
  · simp only [Compilation.followedBy, b.found_followedBy _ huses,
      b.found_shift hknown offset hps, Block.described_followedBy huses offset hne,
      List.map_append, List.append_assoc]

/-- Blocks add behind a story what they add alone, shifted. -/
theorem compile?_followedBy {c c₁ c₂ : Compilation} {bs : List Block} {ps : List Span}
    (h : compile? c₁ bs ps = some c₂) (hu : c₁.world.Built)
    (hnames : c.world.names.Disjoint c₂.world.names) (hps : ps.length = (tokens bs).length)
    (offset : Nat) :
    compile? (c.followedBy offset c₁) bs (ps.map (Span.shift offset)) =
      some (c.followedBy offset c₂) := by
  induction bs generalizing c₁ ps with
  | nil =>
      cases h
      rfl
  | cons b bs ih =>
      obtain ⟨c', hb, hrest⟩ := Option.bind_eq_some_iff.mp h
      obtain ⟨hfirst, hothers⟩ := length_split_blocks hps
      -- what is declared up to here is declared in the end, so it does not clash either
      have hless : c.world.names.Disjoint c'.world.names :=
        List.disjoint_of_subset_right ((compile?_extends hrest).map Factor.label).subset hnames
      obtain ⟨w, hw, hc'⟩ := Block.compile?_eq_some.mp hb
      have hbuilt : c'.world.Built := hc' ▸ (Block.world?_eq_some hu hw).1
      rw [compile?, ← List.map_take, Block.compile?_followedBy hb hu hless hfirst offset,
        ← List.map_drop]
      exact ih hrest hbuilt hothers

end Tree

/-! ## Stories behind one another -/

/-- Behind a line break a story has its tokens further on. -/
theorem HasTokens.append_line {story behind : String} {ts us : List (Spanned Token)}
    (hts : HasTokens story ts) (hus : HasTokens behind us) :
    HasTokens (story ++ "\n" ++ behind)
      (ts ++ us.map (Spanned.shift (byteLength story.toList + 1))) := by
  obtain ⟨stop, hts⟩ := hts
  obtain ⟨stop', hus⟩ := hus
  refine ⟨stop'.shift (byteLength story.toList + 1), ?_⟩
  rw [tokens_append_line hts, hus, List.append_assoc]
  exact congrArg (fun us => Except.ok (ts ++ us)) List.map_append

/-- Two stories that compile and have no name of a factor in common compile one behind the other.
The result is that of the first, and behind it that of the second, shifted. -/
theorem compile_append_followedBy {story behind : String} {c c' : Compilation}
    (h : compile story = .ok c) (h' : compile behind = .ok c')
    (hnames : c.world.names.Disjoint c'.world.names) :
    compile (story ++ "\n" ++ behind) = .ok (c.followedBy (byteLength story.toList + 1) c') ∧
      (c.followedBy (byteLength story.toList + 1) c').warnings =
        c.warnings ++ c'.warnings.map (Diagnostic.shift (byteLength story.toList + 1)) := by
  refine ⟨?_, Compilation.warnings_followedBy ..⟩
  obtain ⟨ts, bs, hts, hnodes, hdone⟩ := compile_eq_ok.mp h
  obtain ⟨us, bs', hus, hnodes', hdone'⟩ := compile_eq_ok.mp h'
  have hlength := Tree.length_places hnodes
  have hlength' := Tree.length_places hnodes'
  have hplaces : Tree.places
      (ts ++ us.map (Spanned.shift (byteLength story.toList + 1))) =
      Tree.places ts ++ (Tree.places us).map (Span.shift (byteLength story.toList + 1)) := by
    rw [Tree.places, List.map_append, List.map_map, Tree.places, Tree.places, List.map_map]
    rfl
  refine compile_eq_ok.mpr ⟨_, bs ++ bs', hts.append_line hus, ?_, ?_⟩
  · rw [List.map_append, List.map_map, Tree.tokens, List.flatMap_append, hnodes]
    exact congrArg _ hnodes'
  · have hsecond := Tree.compile?_followedBy (c := c) hdone' .empty hnames hlength'
      (byteLength story.toList + 1)
    rw [Compilation.followedBy_nothing] at hsecond
    rw [hplaces, Tree.compile?_append, Tree.compile?_append_places hlength, hdone,
      Option.bind_some, List.drop_left' hlength, hsecond]

/-- A lamp that goes out, and more certainly than it can. -/
def lampStory : String :=
  "factor lamp : (lit, out)\n" ++
  "transition : (lamp = lit, spontaneous 2, lamp -> out)"

/-- A pond with a value listed twice, which the player can break, and a description. -/
def pondStory : String :=
  "factor pond : (x, y, y)\n" ++
  "transition : (pond = x, choice : \"!\", pond -> y)\n" ++
  "description : (pond = y, \"\")"

/-- The pond is the second factor, it is broken by the second transition, and its warning stands
behind that of the lamp. -/
theorem compile_append_followedBy_pond : ∃ c c',
    compile lampStory = .ok c ∧ compile pondStory = .ok c' ∧
    c.world.names.Disjoint c'.world.names ∧
    compile (lampStory ++ "\n" ++ pondStory) =
      .ok (c.followedBy (byteLength lampStory.toList + 1) c') ∧
    (c.followedBy (byteLength lampStory.toList + 1) c').warnings =
      c.warnings ++ c'.warnings.map (Diagnostic.shift (byteLength lampStory.toList + 1)) ∧
    (compile (lampStory ++ "\n" ++ pondStory)).toOption.map (fun joined =>
        (joined.world.transitions.map fun t => (t.id, t.effects),
          joined.warnings.map Diagnostic.span, joined.descriptions.map Description.span)) =
      some ([(⟨0⟩, ⟨[(⟨0⟩, ⟨"out"⟩)]⟩), (⟨1⟩, ⟨[(⟨1⟩, ⟨"y"⟩)]⟩)], [⟨63, 64⟩, ⟨100, 101⟩],
        [⟨152, 180⟩]) := by
  have hlamp : (compile lampStory).toOption.map (fun c => c.world.names) = some ["lamp"] := by
    decide +kernel
  have hpond : (compile pondStory).toOption.map (fun c => c.world.names) = some ["pond"] := by
    decide +kernel
  obtain ⟨c, hc, hnames⟩ := exists_compilation hlamp
  obtain ⟨c', hc', hnames'⟩ := exists_compilation hpond
  have hdisjoint : c.world.names.Disjoint c'.world.names := by
    rw [hnames, hnames']
    simp
  obtain ⟨hjoined, hwarnings⟩ := compile_append_followedBy hc hc' hdisjoint
  exact ⟨c, c', hc, hc', hdisjoint, hjoined, hwarnings, by decide +kernel⟩

end Storyworld
