import Storyworld.Proofs.Accepts
import Storyworld.Proofs.Spelling

/-!
# Conditions that are written and read again

A story can be made of the factors of another and a single description, whose
condition is the text of one of the other story's conditions.  That story
compiles, and the condition that is read holds where the one that was written
does (`compile_storyOf_write`).

The factors are declared again in the same order, so they have the same handles
(`exists_blocks_declaring`), and what a tree means depends on nothing else.
-/

namespace Storyworld

/-! ## The story of a condition -/

/-- The declaration of a factor as a story has it, on a line of its own. -/
def Factor.declaration (f : Factor) : String :=
  "factor" ++ " " ++ f.label ++ " : (" ++ ", ".intercalate (f.values.map Value.text) ++ ")" ++ "\n"

/-- The declarations of factors one after the other. -/
def declarations : List Factor → String
  | [] => ""
  | f :: fs => f.declaration ++ declarations fs

/-- A story that declares factors and has one description, with a condition and no text. -/
def storyOf (fs : List Factor) (condition : String) : String :=
  declarations fs ++ ("description" ++ " : (" ++ condition ++ ", \"\")")

example : storyOf [⟨⟨0⟩, "a", ⟨"x"⟩, [⟨"7"⟩]⟩, ⟨⟨1⟩, "b", ⟨"y"⟩, []⟩] "a = x | b = y" =
    "factor a : (x, 7)\nfactor b : (y)\ndescription : (a = x | b = y, \"\")" := by decide +kernel

/-! ## Tokens of legible texts -/

theorem exists_map_ofToken {ls : List Lexeme} {toks : List Token}
    (h : ls.map Spanned.node = toks.map .token) :
    ∃ ts : List (Spanned Token), ls = ts.map Lexeme.ofToken ∧ ts.map Spanned.node = toks := by
  induction ls generalizing toks with
  | nil =>
      cases toks with
      | nil => exact ⟨[], rfl, rfl⟩
      | cons tok toks => cases h
  | cons l ls ih =>
      cases toks with
      | nil => cases h
      | cons tok toks =>
          obtain ⟨hl, hls⟩ := List.cons.inj h
          obtain ⟨ts, rfl, rfl⟩ := ih hls
          refine ⟨⟨tok, l.span⟩ :: ts, ?_, rfl⟩
          rw [List.map_cons, Lexeme.ofToken, ← hl]

/-- A text that says tokens, and nothing else, has them. -/
theorem Delimits.hasTokens {source : String} {toks : List Token} (h : Delimits source toks) :
    ∃ ts, HasTokens source ts ∧ ts.map Spanned.node = toks := by
  have hread : (lexemes source).map Spanned.node = (toks ++ [Token.finish]).map .token := by
    have hnil := h []
    rw [List.append_nil, readings_nil] at hnil
    rw [lexemes, map_node_lexemesFrom, hnil, List.map_append]
    rfl
  obtain ⟨us, hls, hus⟩ := exists_map_ofToken hread
  obtain ⟨ts, last, rfl, hts, hlast⟩ := List.map_eq_append_iff.mp hus
  obtain ⟨⟨tok, stop⟩, rfl, hstop⟩ := List.map_eq_singleton_iff.mp hlast
  obtain rfl : tok = .finish := hstop
  exact ⟨ts, ⟨stop, tokens_eq_ok.mpr hls⟩, hts⟩

theorem HasTokens.legible {source : String} {ts : List (Spanned Token)}
    (h : HasTokens source ts) : ∀ t ∈ ts, t.node.Legible := by
  obtain ⟨stop, h⟩ := h
  intro t ht
  have hmem : Lexeme.ofToken t ∈ lexemes source := by
    rw [tokens_eq_ok.mp h]
    exact List.mem_map_of_mem (List.mem_append_left _ ht)
  exact legible_of_mem_lexemesFrom hmem rfl

/-! ## Factors that can be declared -/

/-- A factor that a story can declare, with the values it has. -/
structure Factor.Declarable (f : Factor) : Prop where
  name : (Token.word f.label).Legible
  values : ∃ as : Tree.Several Tree.Atom, as.toList.map Tree.Atom.value = f.values ∧
    ∀ a ∈ as.toList, a.token.Legible
  distinct : f.values.Nodup

theorem distinct_of_nodup {vs : List Value} (h : vs.Nodup) : distinct vs = vs := by
  induction vs with
  | nil => rfl
  | cons v vs ih =>
      obtain ⟨hv, hvs⟩ := List.nodup_cons.mp h
      rw [distinct, ih hvs, List.filter_eq_self.mpr]
      intro w hw
      exact bne_iff_ne.mpr fun heq => hv (heq ▸ hw)

namespace Tree

theorem exists_several : ∀ {vs : List Value}, vs ≠ [] →
    (∀ v ∈ vs, ∃ a : Atom, a.value = v ∧ a.token.Legible) →
      ∃ as : Several Atom, as.toList.map Atom.value = vs ∧ ∀ a ∈ as.toList, a.token.Legible
  | [], hne, _ => absurd rfl hne
  | [v], _, h => by
      obtain ⟨a, rfl, ha⟩ := h v (List.mem_singleton_self v)
      exact ⟨.one a, rfl, by simpa [Several.toList] using ha⟩
  | v :: w :: vs, _, h => by
      obtain ⟨a, rfl, ha⟩ := h v (List.mem_cons_self ..)
      obtain ⟨as, has, hlegible⟩ := exists_several (List.cons_ne_nil w vs)
        fun v' hv' => h v' (List.mem_cons_of_mem _ hv')
      refine ⟨.more a as, ?_, ?_⟩
      · rw [Several.toList, List.map_cons, has]
      · exact List.forall_mem_cons.mpr ⟨ha, hlegible⟩

theorem Several.mem_tokens {T : Type} {tokensOf : T → List Token} {m : Mark} {t : T} {tok : Token}
    {ts : Several T} (ht : t ∈ ts.toList) (htok : tok ∈ tokensOf t) :
    tok ∈ ts.tokens m tokensOf := by
  induction ts with
  | one t' =>
      obtain rfl := List.mem_singleton.mp ht
      exact htok
  | more t' ts ih =>
      rw [tokens]
      rcases List.mem_cons.mp ht with rfl | ht
      · exact List.mem_append_left _ htok
      · exact List.mem_append_right _ (List.mem_cons_of_mem _ (ih ht))

/-- All factors are declared by blocks. -/
def FactorsOf (bs : List Block) (u : Universe) : Prop :=
  ∀ f ∈ u.factors, ∃ as : Several Atom, .factor f.label as ∈ bs ∧
    f.values = Storyworld.distinct (as.toList.map Atom.value)

theorem Block.world?_factorsOf {bs : List Block} {b : Block} (hb : b ∈ bs) {u u' : Universe}
    (h : b.world? u = some u') (hu : FactorsOf bs u) : FactorsOf bs u' := by
  cases b with
  | factor name as =>
      obtain ⟨id, hadd⟩ := world?_factor.mp h
      obtain ⟨-, -, initial, others, hvalues, rfl⟩ := Universe.addFactor_eq_ok_iff.mp hadd
      intro f hf
      rcases List.mem_append.mp hf with hf | hf
      · exact hu f hf
      · obtain rfl := List.mem_singleton.mp hf
        exact ⟨as, hb, hvalues.symm⟩
  | transition name c t es told =>
      obtain ⟨x, ps, id, -, -, hadd⟩ := world?_transition.mp h
      obtain ⟨-, -, rfl⟩ := Universe.addTransition_eq_ok_iff.mp hadd
      exact hu
  | description c told =>
      obtain ⟨-, rfl⟩ := world?_description.mp h
      exact hu

theorem compile?_factorsOf {bs : List Block} {c c' : Compilation} {ps : List Span}
    (h : compile? c bs ps = some c') (hc : FactorsOf bs c.world) : FactorsOf bs c'.world := by
  refine compile?_keeps (P := fun c => FactorsOf bs c.world) ?_ h hc
  intro b hb c c' ps h hc
  obtain ⟨w, hw, rfl⟩ := Block.compile?_eq_some.mp h
  exact Block.world?_factorsOf hb hw hc

theorem mem_tokens_of_block {bs : List Block} {b : Block} (hb : b ∈ bs) {t : Token}
    (ht : t ∈ b.tokens) : t ∈ tokens bs := List.mem_flatMap.mpr ⟨b, hb, ht⟩

/-- The factors of a story can be declared. -/
theorem declarable_of_compile? {bs : List Block} {c : Compilation} {ps : List Span}
    (h : compile? .nothing bs ps = some c) (hlegible : ∀ t ∈ tokens bs, t.Legible) :
    ∀ f ∈ c.world.factors, f.Declarable := by
  intro f hf
  have hnothing : FactorsOf bs Compilation.nothing.world := by
    intro g hg
    exact absurd hg List.not_mem_nil
  obtain ⟨as, has, hvalues⟩ := compile?_factorsOf h hnothing f hf
  have hatom : ∀ a ∈ as.toList, a.token.Legible := by
    intro a ha
    refine hlegible _ (mem_tokens_of_block has ?_)
    have hmem : a.token ∈ as.tokens .comma fun a => [a.token] := by
      apply Several.mem_tokens ha
      exact List.mem_singleton_self _
    simp [Block.tokens, hmem]
  refine ⟨hlegible _ (mem_tokens_of_block has (by simp [Block.tokens])), ?_, ?_⟩
  · have hne : f.values ≠ [] := List.cons_ne_nil _ _
    refine exists_several hne fun v hv => ?_
    rw [hvalues, mem_distinct] at hv
    obtain ⟨a, ha, rfl⟩ := List.mem_map.mp hv
    exact ⟨a, rfl, hatom a ha⟩
  · rw [hvalues]
    exact nodup_distinct _

/-! ## Declaring factors again -/

theorem Block.delimits_declaration {f : Factor} {as : Several Atom}
    (hname : (Token.word f.label).Legible) (hvalues : as.toList.map Atom.value = f.values)
    (hlegible : ∀ a ∈ as.toList, a.token.Legible) :
    Delimits f.declaration (Block.factor f.label as).tokens := by
  have hspells : Spells (", ".intercalate (f.values.map Value.text))
      (as.tokens .comma fun a => [a.token]) := by
    rw [← hvalues, List.map_map]
    exact Several.spells_values hlegible
  have hkeyword : Delimits ("factor" ++ " ") [.keyword .factor] :=
    (spells_keyword .factor).append separates_space
  have hhead := (hkeyword.append_spells (spells_name hname)).append separates_opening
  have hall := ((hhead.append_spells hspells).append separates_closeParen).append delimits_newline
  rw [List.append_nil] at hall
  exact hall

theorem Block.world?_declaration {u : Universe} (hu : u.Built) {before after : List Factor}
    {f : Factor} (heq : u.factors = before ++ f :: after) {as : Several Atom}
    (hvalues : as.toList.map Atom.value = f.values) (hdistinct : f.values.Nodup) :
    (Block.factor f.label as).world? ⟨before, []⟩ = some ⟨before ++ [f], []⟩ := by
  have hnew : f.label ∉ before.map Factor.label := by
    have hnodup := hu.labels_nodup
    rw [heq, List.map_append, List.map_cons] at hnodup
    intro hmem
    exact (List.nodup_append.mp hnodup).2.2 f.label hmem f.label (List.mem_cons_self ..) rfl
  have hid : f.id = ⟨before.length⟩ := hu.factor_id (by simp [heq])
  have hall : distinct (as.toList.map Atom.value) = f.initial :: f.others := by
    rw [hvalues]
    exact distinct_of_nodup hdistinct
  exact world?_factor.mpr
    ⟨f.id, Universe.addFactor_eq_ok_iff.mpr ⟨hnew, hid, f.initial, f.others, hall, rfl⟩⟩

/-- Blocks can declare the factors of a universe again, in their order. -/
theorem exists_blocks_declaring {u : Universe} (hu : u.Built) (fs before : List Factor)
    (heq : u.factors = before ++ fs) (hfs : ∀ f ∈ fs, f.Declarable) :
    ∃ bs, Delimits (declarations fs) (tokens bs) ∧
      ∀ c ps, c.world = ⟨before, []⟩ → ∃ c', compile? c bs ps = some c' ∧
        c'.world = ⟨u.factors, []⟩ ∧ c'.descriptions = c.descriptions := by
  induction fs generalizing before with
  | nil =>
      refine ⟨[], fun rest => rfl, fun c ps hc => ⟨c, rfl, ?_, rfl⟩⟩
      rw [hc, heq, List.append_nil]
  | cons f fs ih =>
      obtain ⟨hname, ⟨as, hvalues, hlegible⟩, hdistinct⟩ := hfs f (List.mem_cons_self ..)
      have heq' : u.factors = (before ++ [f]) ++ fs := by rw [heq, List.append_cons]
      obtain ⟨bs, hbs, hcompile⟩ := ih (before ++ [f]) heq'
        fun g hg => hfs g (List.mem_cons_of_mem f hg)
      refine ⟨.factor f.label as :: bs, ?_, fun c ps hc => ?_⟩
      · exact (Block.delimits_declaration hname hvalues hlegible).append hbs
      · have hworld : (Block.factor f.label as).world? c.world = some ⟨before ++ [f], []⟩ := by
          rw [hc]
          exact Block.world?_declaration hu heq hvalues hdistinct
        obtain ⟨c', hc', hw, hd⟩ := hcompile
          ⟨⟨before ++ [f], []⟩, c.findings ++ _, c.descriptions ++ []⟩ _ rfl
        refine ⟨c', ?_, hw, hd.trans (List.append_nil _)⟩
        rw [compile?, Block.compile?, hworld]
        exact hc'

/-! ## The round trip -/

theorem Block.mem_tokens_of_condition? {b : Block} {d : Conjunction} (hd : b.condition? = some d)
    {t : Token} (ht : t ∈ d.tokens) : t ∈ b.tokens := by
  cases b with
  | factor name as => cases hd
  | transition name d' timing changes told =>
      cases hd
      simp [Block.tokens, ht]
  | description d' told =>
      cases hd
      simp [Block.tokens, ht]

/-- A description of a legible condition and no text. -/
theorem Block.delimits_description {d : Conjunction} (hd : ∀ t ∈ d.tokens, t.Legible) :
    Delimits ("description" ++ " : (" ++ d.text ++ ", \"\")") (Block.description d "").tokens := by
  have hhead := (spells_keyword .description).append separates_opening
  have hall := (hhead.append_spells (d.spells_text hd)).append separates_closing
  exact hall

/-- Behind the declarations of all factors, the text of a tree is read as what the tree
means. -/
theorem compile_storyOf {u : Universe} (hu : u.Built) (hfs : ∀ f ∈ u.factors, f.Declarable)
    {d : Conjunction} (hd : ∀ t ∈ d.tokens, t.Legible) {x : Condition}
    (hx : d.condition? ⟨u.factors, []⟩ = some x) :
    ∃ c place, compile (storyOf u.factors d.text) = .ok c ∧ c.world = ⟨u.factors, []⟩ ∧
      c.world.Built ∧ c.descriptions = [⟨x, "", place⟩] := by
  obtain ⟨bs, hbs, hcompile⟩ := exists_blocks_declaring hu u.factors [] rfl hfs
  obtain ⟨ts, hts, htokens⟩ := (hbs.append (Block.delimits_description hd)).hasTokens
  obtain ⟨c, hc, hworld, hdescriptions⟩ := hcompile .nothing (places ts) rfl
  have hwhole : ts.map Spanned.node = tokens (bs ++ [.description d ""]) := by
    rw [htokens, tokens, tokens, List.flatMap_append, List.flatMap_singleton]
  obtain ⟨c', hc', hworld', hdescriptions'⟩ : ∃ c', compile? .nothing (bs ++ [.description d ""])
      (places ts) = some c' ∧ c'.world = c.world ∧
        ∃ place, c'.descriptions = c.descriptions ++ [⟨x, "", place⟩] := by
    have hx' : d.condition? c.world = some x := hworld ▸ hx
    rw [compile?_append, hc]
    simp only [Option.bind_some, compile?, Block.compile?, Block.world?, Block.described, hx',
      Option.map_some, Option.toList_some, List.map_singleton]
    exact ⟨_, rfl, rfl, _, rfl⟩
  obtain ⟨place, hdescriptions'⟩ := hdescriptions'
  refine ⟨c', place, compile_eq_ok.mpr ⟨ts, _, hts, hwhole, hc'⟩, hworld'.trans hworld,
    compile?_built hc' .empty, ?_⟩
  rw [hdescriptions', hdescriptions]
  rfl

end Tree

/-- All tokens of a story are legible, so those of its blocks are. -/
theorem exists_blocks_of_compile {source : String} {c : Compilation}
    (hc : compile source = .ok c) :
    ∃ bs ps, Tree.compile? .nothing bs ps = some c ∧ ∀ t ∈ Tree.tokens bs, t.Legible := by
  obtain ⟨ts, bs, hts, htokens, hcompile⟩ := compile_eq_ok.mp hc
  refine ⟨bs, Tree.places ts, hcompile, fun t ht => ?_⟩
  rw [← htokens] at ht
  obtain ⟨t', ht', rfl⟩ := List.mem_map.mp ht
  exact hts.legible t' ht'

/-- Every condition of a story is what a legible tree means. -/
theorem Tree.exists_conjunction {bs : List Block} {c : Compilation} {ps : List Span}
    (h : compile? .nothing bs ps = some c) (hlegible : ∀ t ∈ tokens bs, t.Legible) :
    ∀ x ∈ c.conditions, ∃ d : Conjunction, (∀ t ∈ d.tokens, t.Legible) ∧
      d.condition? c.world = some x := by
  intro x hx
  have hnothing : ConditionsOf bs .nothing := by
    intro y hy
    exact absurd hy List.not_mem_nil
  obtain ⟨b, hb, d, hd, hdx⟩ := compile?_conditions h hnothing x hx
  refine ⟨d, fun t ht => ?_, hdx⟩
  exact hlegible t (mem_tokens_of_block hb (Block.mem_tokens_of_condition? hd ht))

/-- The text of a condition of a story never stands for a truth value and names all factors.
Behind the declarations of these factors it compiles, to a condition that holds in the same
snapshots and has the same text. -/
theorem compile_storyOf_write {source : String} {c : Compilation} (hc : compile source = .ok c)
    {x : Condition} (hx : x ∈ c.conditions) :
    x.Conjunctive (fun f _ => c.world.Declares f) ∧
    ∃ c' y place, compile (storyOf c.world.factors (x.write c.world)) = .ok c' ∧
      c'.world = ⟨c.world.factors, []⟩ ∧ c'.descriptions = [⟨y, "", place⟩] ∧
      (∀ s, y.evaluate s = x.evaluate s) ∧ y.write c'.world = x.write c.world := by
  obtain ⟨bs, ps, hcompile, hlegible⟩ := exists_blocks_of_compile hc
  have hu : c.world.Built := Tree.compile?_built hcompile .empty
  obtain ⟨d, hd, hdx⟩ := Tree.exists_conjunction hcompile hlegible x hx
  have hsimple : ∀ t ∈ d.simplify.tokens, t.Legible := by
    intro t ht
    exact hd t (d.mem_tokens_of_simplify ht)
  obtain ⟨y, hy, heval⟩ := Tree.Conjunction.condition?_simplify hdx
  have hextends : Universe.Extends ⟨c.world.factors, []⟩ c.world := List.prefix_refl _
  have hy' : d.simplify.condition? ⟨c.world.factors, []⟩ = some y :=
    Tree.Conjunction.condition?_extends hextends hy
  obtain ⟨c', place, hc', hworld, hbuilt, hdescriptions⟩ :=
    Tree.compile_storyOf hu (Tree.declarable_of_compile? hcompile hlegible) hsimple hy'
  have htext : x.write c.world = d.simplify.text := Tree.Conjunction.write_condition? hu hdx
  have htext' : y.write c'.world = d.simplify.text := by
    rw [Tree.Conjunction.write_condition? hbuilt (hworld ▸ hy'), d.simplify_simplify]
  refine ⟨Tree.compile?_conjunctive hcompile x hx, ?_⟩
  rw [htext]
  exact ⟨c', y, place, hc', hworld, hdescriptions, heval, htext'⟩

/-- Parentheses around one clause are not written again, and those around two are. -/
theorem compile_storyOf_write_parens : ∃ c x,
    compile ("factor a : (x, 07)\n" ++
      "description : ((a = x | a = 7) | (a = x & a = 7), \"t\")") = .ok c ∧
    x ∈ c.conditions ∧ x.write c.world = "a = x | a = 7 | (a = x & a = 7)" ∧
    x.Conjunctive (fun f _ => c.world.Declares f) ∧
    ∃ c' y place, compile (storyOf c.world.factors (x.write c.world)) = .ok c' ∧
      c'.world = ⟨c.world.factors, []⟩ ∧ c'.descriptions = [⟨y, "", place⟩] ∧
      (∀ s, y.evaluate s = x.evaluate s) ∧ y.write c'.world = x.write c.world := by
  have htexts : (compile ("factor a : (x, 07)\n" ++
      "description : ((a = x | a = 7) | (a = x & a = 7), \"t\")")).toOption.map
        (fun c => c.conditions.map fun x => x.write c.world) =
      some ["a = x | a = 7 | (a = x & a = 7)"] := by decide +kernel
  cases hc : compile ("factor a : (x, 07)\n" ++
      "description : ((a = x | a = 7) | (a = x & a = 7), \"t\")") with
  | error e =>
      rw [hc] at htexts
      cases htexts
  | ok c =>
      rw [hc] at htexts
      obtain ⟨x, hx, htext⟩ := List.map_eq_singleton_iff.mp (Option.some.inj htexts)
      have hmem : x ∈ c.conditions := hx ▸ List.mem_singleton_self x
      exact ⟨c, x, rfl, hmem, htext, compile_storyOf_write hc hmem⟩

end Storyworld
