import Storyworld.Proofs.Listed
import Storyworld.Proofs.Suspects

/-!
# Where values are given

The effects of a story stand in lists, one for each transition.  In `Tree.effectLists` each of
them has the place of its value.  A transition gives a factor what the last effect for it in the
list says (`Transition.Carries`), so an effect in front of another for the same factor gives
nothing.

What is found does not depend on that.  A value that is not declared for a factor is found where
effects of the story name it for the factor, once at each of these effects, and nowhere else
(`Tree.places_undeclared`).  A story that compiles has both together (`compile_findsGiving`).
-/

namespace Storyworld

/-- A transition gives each factor what the last of some effects for it says, if there is one, and
nothing otherwise. -/
def Transition.Carries (u : Universe) (t : Transition) (es : List Tree.Change) : Prop :=
  ∀ f ∈ u.factors, ∀ v, (f.id, v) ∈ t.effects.entries ↔
    ∃ e, (es.filter fun e => e.factor = f.label).getLast? = some e ∧ e.value.value = v

/-- Where a finding was made. -/
def Compilation.placesOf (c : Compilation) (w : Finding) : List Span :=
  (c.findings.filter fun x => x.node = w).map Spanned.span

namespace Tree

/-! ## Effects among sites -/

/-- The effect that stands at a site, if one does. -/
def Site.change? : Site → Option Change
  | .given factor a => some ⟨factor, a⟩
  | _ => none

/-- The effects that stand at sites, each at the place of its value. -/
def Site.changes (sites : List (Spanned Site)) : List (Spanned Change) :=
  sites.filterMap fun s => s.node.change?.map (⟨·, s.span⟩)

/-- The effect lists of the transitions among blocks whose tokens stand at these places. -/
def effectLists : List Block → List Span → List (List (Spanned Change))
  | [], _ => []
  | b :: bs, ps =>
      let lists := effectLists bs (ps.drop b.tokens.length)
      match b.changes? with
      | some _ => Site.changes (placed b.pieces (ps.take b.tokens.length)) :: lists
      | none => lists

/-- Where effects give a value to the factor of a name. -/
def placesGiving (name : String) (v : Value) (es : List (Spanned Change)) : List Span :=
  (es.filter fun e => e.node.factor = name ∧ e.node.value.value = v).map Spanned.span

def Piece.change? : Piece → Option Change
  | .plain _ => none
  | .site s => s.change?

theorem Site.changes_append (sites more : List (Spanned Site)) :
    changes (sites ++ more) = changes sites ++ changes more := List.filterMap_append

/-- Which effects stand at the sites of pieces does not depend on their places. -/
theorem map_node_changes (xs : List Piece) (ps : List Span) :
    (Site.changes (placed xs ps)).map Spanned.node = xs.filterMap Piece.change? := by
  induction xs generalizing ps with
  | nil => rfl
  | cons x xs ih =>
      cases x with
      | plain t => exact ih _
      | site s =>
          cases s with
          | given factor a => exact congrArg (⟨factor, a⟩ :: ·) (ih _)
          | listed factor earlier a | tested factor a | chance p => exact ih _

/-! ## The effects among pieces -/

theorem changes_plains (ts : List Token) : (plains ts).filterMap Piece.change? = [] := by
  rw [plains, List.filterMap_map]
  exact List.filterMap_eq_nil_iff.mpr fun t _ => rfl

theorem changes_listedPieces (factor : String) (earlier : List Value) (as : Several Atom) :
    (listedPieces factor earlier as).filterMap Piece.change? = [] := by
  induction as generalizing earlier with
  | one a => rfl
  | more a as ih => exact ih _

mutual

theorem Conjunction.changes_pieces : ∀ c : Conjunction, c.pieces.filterMap Piece.change? = []
  | .one d => by
      rw [Conjunction.pieces]
      exact Disjunction.changes_pieces d
  | .and d c => by
      rw [Conjunction.pieces, List.filterMap_append, Disjunction.changes_pieces d]
      exact Conjunction.changes_pieces c

theorem Disjunction.changes_pieces : ∀ d : Disjunction, d.pieces.filterMap Piece.change? = []
  | .one t => by
      rw [Disjunction.pieces]
      exact Term.changes_pieces t
  | .or t d => by
      rw [Disjunction.pieces, List.filterMap_append, Term.changes_pieces t]
      exact Disjunction.changes_pieces d

theorem Term.changes_pieces : ∀ t : Term, t.pieces.filterMap Piece.change? = []
  | .test factor value => by
      rw [Term.pieces]
      rfl
  | .group c => by
      rw [Term.pieces]
      show (c.pieces ++ plains [.mark .closeParen]).filterMap Piece.change? = []
      rw [List.filterMap_append, Conjunction.changes_pieces c, changes_plains, List.append_nil]

end

theorem Timing.changes_pieces (t : Timing) : t.pieces.filterMap Piece.change? = [] := by
  cases t with
  | spontaneous p => rfl
  | choice offer => exact changes_plains _

theorem Change.changes_piecesIn (es : Several Change) :
    (piecesIn es).filterMap Piece.change? = es.toList := by
  induction es with
  | one e => rfl
  | more e es ih => exact congrArg (e :: ·) ih

theorem Changes.changes_pieces (es : Changes) : es.pieces.filterMap Piece.change? = es.toList := by
  cases es with
  | bare e => rfl
  | listed es =>
      show (Change.piecesIn es ++ plains [.mark .closeParen]).filterMap Piece.change? = es.toList
      rw [List.filterMap_append, Change.changes_piecesIn, changes_plains, List.append_nil]

/-- The effects among the pieces of a block are those of its effect list, if it has one. -/
theorem Block.changes_pieces (b : Block) :
    b.pieces.filterMap Piece.change? = (b.changes?.map Changes.toList).getD [] := by
  cases b with
  | factor name values =>
      rw [pieces, List.filterMap_append, List.filterMap_append, changes_plains, changes_plains,
        changes_listedPieces]
      rfl
  | transition name condition timing changes told =>
      simp only [pieces, List.filterMap_append, changes_plains, condition.changes_pieces,
        timing.changes_pieces, changes.changes_pieces, List.nil_append, List.append_nil]
      rfl
  | description condition told =>
      rw [pieces, List.filterMap_append, List.filterMap_append, changes_plains, changes_plains,
        condition.changes_pieces]
      rfl

/-! ## Effect lists -/

/-- The effect lists of blocks are those of their transitions. -/
theorem map_node_effectLists (bs : List Block) (ps : List Span) :
    (effectLists bs ps).map (List.map Spanned.node) =
      (bs.filterMap Block.changes?).map Changes.toList := by
  induction bs generalizing ps with
  | nil => rfl
  | cons b bs ih =>
      have hfirst := map_node_changes b.pieces (ps.take b.tokens.length)
      rw [b.changes_pieces] at hfirst
      rw [effectLists, List.filterMap_cons]
      cases hchanges : b.changes? with
      | none => exact ih _
      | some es =>
          rw [hchanges] at hfirst
          exact congrArg₂ List.cons hfirst (ih _)

/-- All effects of blocks stand in their effect lists. -/
theorem flatten_effectLists (bs : List Block) (ps : List Span) :
    (effectLists bs ps).flatten = Site.changes (placed (pieces bs) ps) := by
  induction bs generalizing ps with
  | nil => rfl
  | cons b bs ih =>
      have hfirst := map_node_changes b.pieces (ps.take b.tokens.length)
      rw [b.changes_pieces] at hfirst
      rw [effectLists, pieces_cons, placed_append, b.written_pieces, Site.changes_append]
      cases hchanges : b.changes? with
      | none =>
          rw [hchanges] at hfirst
          rw [List.map_eq_nil_iff.mp hfirst]
          exact ih _
      | some es => exact congrArg _ (ih _)

/-- An effect is read as one for a factor if it names the factor. -/
theorem Change.map_fst_pair?_iff {u : Universe} (hu : u.Built) {f : Factor} (hf : f ∈ u.factors)
    (e : Change) : (e.pair? u).map Prod.fst = some f.id ↔ e.factor = f.label := by
  constructor
  · intro hid
    obtain ⟨p, hp, hpf⟩ := Option.map_eq_some_iff.mp hid
    obtain ⟨g, hg, rfl⟩ := Option.map_eq_some_iff.mp hp
    obtain ⟨hmem, hlabel⟩ := Universe.mem_of_findFactor? hg
    have hsame : some g = some f := by
      rw [← hu.factor?_id hmem, ← hu.factor?_id hf]
      exact congrArg _ hpf
    rw [← hlabel, Option.some.inj hsame]
  · intro hlabel
    rw [Change.pair?, hlabel, hu.findFactor?_label hf]
    rfl

/-- The pairs for a factor are what the effects that name it are read as. -/
theorem Changes.filter_pairs {u : Universe} (hu : u.Built) {f : Factor} (hf : f ∈ u.factors)
    {es : Changes} {ps : List (FactorId × Value)} (h : es.pairs? u = some ps) :
    (ps.filter fun p => p.1 = f.id).map some =
      (es.toList.filter fun e => e.factor = f.label).map (Change.pair? u) := by
  have hpairs : (ps.filter fun p => p.1 = f.id).map some =
      (ps.map some).filter fun o => o.map Prod.fst = some f.id := by
    rw [List.filter_map]
    simp [Function.comp_def]
  rw [hpairs, ← pairs?_eq_some_iff.mp h, List.filter_map]
  simp only [Function.comp_def, Change.map_fst_pair?_iff hu hf]

/-- A transition carries the effects that it is made of. -/
theorem MadeOf.carries {u : Universe} (hu : u.Built) {t : Transition} {es : Changes}
    (h : MadeOf u t es) : t.Carries u es.toList := by
  obtain ⟨ps, hps, heffects⟩ := h
  intro f hf v
  have hlast := congrArg List.getLast? (Changes.filter_pairs hu hf hps)
  rw [List.getLast?_map, List.getLast?_map] at hlast
  rw [heffects, Effects.mem_ofList_iff]
  cases he : (es.toList.filter fun e => e.factor = f.label).getLast? with
  | none =>
      rw [he, Option.map_none, Option.map_eq_none_iff] at hlast
      rw [hlast]
      exact ⟨nofun, nofun⟩
  | some e =>
      have hname : e.factor = f.label :=
        of_decide_eq_true (List.mem_filter.mp (List.mem_of_getLast? he)).2
      have hpair : e.pair? u = some (f.id, e.value.value) := by
        rw [Change.pair?, hname, hu.findFactor?_label hf]
        rfl
      rw [he, Option.map_some, hpair] at hlast
      obtain ⟨p, hp, heq⟩ := Option.map_eq_some_iff.mp hlast
      rw [hp, Option.some.inj heq]
      simp

/-! ## Where values are found -/

/-- An undeclared value is found at a site exactly if an effect gives it there. -/
theorem Site.gives_iff {declared : String → List Value} {name : String} {v : Value}
    (hv : v ∉ declared name) (s : Site) :
    s.finding = .undeclaredValue v name ∧ s.Suspect declared ↔
      ∃ e, s.change? = some e ∧ e.factor = name ∧ e.value.value = v := by
  cases s with
  | given factor a =>
      simp only [finding, change?, Finding.undeclaredValue.injEq, Option.some.injEq,
        exists_eq_left', Suspect]
      constructor
      · rintro ⟨⟨rfl, rfl⟩, -⟩
        exact ⟨rfl, rfl⟩
      · rintro ⟨rfl, rfl⟩
        exact ⟨⟨rfl, rfl⟩, hv⟩
  | listed factor earlier a | tested factor a | chance p => simp [finding, change?]

theorem Site.places_foundAt {declared : String → List Value} {name : String} {v : Value}
    (hv : v ∉ declared name) (sites : List (Spanned Site)) :
    ((foundAt declared sites).filter fun w => w.node = .undeclaredValue v name).map Spanned.span =
      placesGiving name v (changes sites) := by
  rw [foundAt, List.filter_map, List.map_map, List.filter_filter, placesGiving, changes,
    List.filter_filterMap, List.map_filterMap, ← List.filterMap_eq_map, List.filterMap_filter]
  refine List.filterMap_congr fun s _ => ?_
  have hgives := gives_iff hv s.node
  by_cases hfound : s.node.finding = .undeclaredValue v name ∧ s.node.Suspect declared
  · obtain ⟨e, he, hname, hvalue⟩ := hgives.mp hfound
    simp [he, hname, hvalue, hfound]
  · have hnot := mt hgives.mpr hfound
    cases he : s.node.change? with
    | none => simp [hfound]
    | some e => simpa [hfound] using fun hname hvalue => hnot ⟨e, he, hname, hvalue⟩

section Compiled

variable {bs : List Block} {c : Compilation} {ps : List Span}

/-- The transitions of a story carry their effect lists. -/
theorem compile?_carries (h : compile? .nothing bs ps = some c) :
    List.Forall₂ (fun t es => t.Carries c.world (es.map Spanned.node)) c.world.transitions
      (effectLists bs ps) := by
  have hu := compile?_built h .empty
  obtain ⟨added, hadded, hmade⟩ := compile?_transitions h
  obtain rfl : c.world.transitions = added := hadded
  have hcarries : List.Forall₂ (fun t es => t.Carries c.world es.toList) c.world.transitions
      (bs.filterMap Block.changes?) := hmade.imp fun t es => MadeOf.carries hu
  rwa [← List.forall₂_map_right_iff (f := Changes.toList), ← map_node_effectLists bs ps,
    List.forall₂_map_right_iff] at hcarries

/-- An undeclared value is found where effects give it to the factor. -/
theorem places_undeclared (h : compile? .nothing bs ps = some c)
    (hps : ps.length = (tokens bs).length) {name : String} {v : Value} {f : Factor}
    (hf : c.world.findFactor? name = some f) (hv : v ∉ f.values) :
    c.placesOf (.undeclaredValue v name) = placesGiving name v (effectLists bs ps).flatten := by
  have hnot : v ∉ declaredValues bs name := by
    rw [compile?_declared h name v]
    rintro ⟨g, hg, hmem⟩
    cases hf.symm.trans hg
    exact hv hmem
  rw [Compilation.placesOf, compile?_findings h hps, Site.places_foundAt hnot,
    flatten_effectLists]

end Compiled

end Tree

/-! ## Stories -/

/-- How a story gives a value to the factor of a name, and where it is found to do so. -/
structure Compilation.FindsGiving (c : Compilation) (source : String)
    (ts : List (Spanned Token)) (bs : List Tree.Block) (name : String) (v : Value) : Prop where
  /-- The tokens of the story are those of the blocks. -/
  tokens : HasTokens source ts ∧ ts.map Spanned.node = Tree.tokens bs
  /-- The transitions carry the effect lists of the blocks, in order. -/
  carried : List.Forall₂ (fun t es => t.Carries c.world (es.map Spanned.node))
    c.world.transitions (Tree.effectLists bs (Tree.places ts))
  /-- The value is found to be undeclared at each effect that gives it, and nowhere else. -/
  found : c.placesOf (.undeclaredValue v name) =
    Tree.placesGiving name v (Tree.effectLists bs (Tree.places ts)).flatten
  /-- No two effects stand at one place. -/
  apart : Tree.InOrder (c.placesOf (.undeclaredValue v name))

/-- A story that compiles is found to give an undeclared value wherever it does. -/
theorem compile_findsGiving {source : String} {c : Compilation} (h : compile source = .ok c)
    {name : String} {v : Value} {f : Factor} (hf : c.world.findFactor? name = some f)
    (hv : v ∉ f.values) : ∃ ts bs, c.FindsGiving source ts bs name v := by
  obtain ⟨ts, bs, hts, htokens, hcompile⟩ := compile_eq_ok.mp h
  have hlength := Tree.length_places htokens
  have hordered := Tree.findings_inOrder hcompile hlength hts.inOrder.1
  exact ⟨ts, bs, ⟨hts, htokens⟩, Tree.compile?_carries hcompile,
    Tree.places_undeclared hcompile hlength hf hv,
    hordered.sublist (List.filter_sublist.map Spanned.span)⟩

end Storyworld
