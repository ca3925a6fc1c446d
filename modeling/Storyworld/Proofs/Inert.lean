import Storyworld.Proofs.Overwritten
import Storyworld.Proofs.Suspects

/-!
# Descriptions leave no trace

A description declares nothing, so the blocks behind it mean the same without it.  The place of a
description goes from the beginning of its first token to the end of its last.  So a story in which
any descriptions are overwritten with spaces has the tokens of the other blocks, where they were,
and compiles to what it did `without` what stands at these places (`compile_overwrite`).

What a list of blocks adds does not depend on what was found and described before
(`Tree.compile?_adding`).  It stands between the tokens of the blocks (`Tree.Between`), which are in
order.  So what the description adds is all that stands at its place, and its warnings go with it.
-/

namespace Storyworld

/-! ## Outside of places -/

namespace Span

/-- A place is part of another. -/
def Within (s p : Span) : Prop := p.start ≤ s.start ∧ s.stop ≤ p.stop

/-- A place is part of none of some places. -/
def Outside (s : Span) (places : List Span) : Prop := ∀ p ∈ places, ¬ s.Within p

variable {s p : Span}

instance : Decidable (s.Within p) := inferInstanceAs (Decidable (_ ∧ _))

instance (places : List Span) : Decidable (s.Outside places) :=
  inferInstanceAs (Decidable (∀ p ∈ places, ¬ s.Within p))

theorem outside_cons {places : List Span} :
    s.Outside (p :: places) ↔ ¬ s.Within p ∧ s.Outside places :=
  List.forall_mem_cons

theorem outside_singleton : s.Outside [p] ↔ ¬ s.Within p :=
  List.forall_mem_singleton

theorem Within.refl (s : Span) : s.Within s := ⟨Nat.le_refl _, Nat.le_refl _⟩

/-- What ends where the other begins, or before, is no part of it. -/
theorem not_within_of_le (hs : s.start < s.stop) (h : s.stop ≤ p.start) : ¬ s.Within p := by
  rintro ⟨hstart, -⟩
  omega

/-- What begins where the other ends, or behind, is no part of it. -/
theorem not_within_of_ge (hs : s.start < s.stop) (h : p.stop ≤ s.start) : ¬ s.Within p := by
  rintro ⟨-, hstop⟩
  omega

end Span

namespace Compilation

/-- A compilation without what was found and described at some places. -/
def without (c : Compilation) (places : List Span) : Compilation where
  world := c.world
  findings := c.findings.filter fun w => decide (w.span.Outside places)
  descriptions := c.descriptions.filter fun d => decide (d.span.Outside places)

/-- A compilation, and what was compiled behind it alone. -/
def adding (c more : Compilation) : Compilation where
  world := more.world
  findings := c.findings ++ more.findings
  descriptions := c.descriptions ++ more.descriptions

theorem without_nil (c : Compilation) : c.without [] = c := by
  simp [without, Span.Outside]

theorem without_cons (c : Compilation) (p : Span) (places : List Span) :
    c.without (p :: places) = (c.without places).without [p] := by
  have hcons : ∀ s : Span, decide (s.Outside (p :: places)) =
      (decide (s.Outside [p]) && decide (s.Outside places)) := by
    intro s
    rw [← Bool.decide_and, decide_eq_decide, Span.outside_cons, Span.outside_singleton]
  simp only [without, hcons, List.filter_filter]

theorem warnings_without (c : Compilation) (places : List Span) :
    (c.without places).warnings =
      c.warnings.filter fun w => decide (w.span.Outside places) := by
  rw [warnings, warnings, without, List.filter_map]
  rfl

end Compilation

namespace Tree

/-! ## Between tokens -/

/-- A place from the beginning of one of some places to the end of one. -/
def Between (ps : List Span) (s : Span) : Prop :=
  ∃ p ∈ ps, ∃ q ∈ ps, s = ⟨p.start, q.stop⟩ ∧ p.start < q.stop

section Between

variable {ps qs rs : List Span} {s t : Span}

theorem Between.mono (h : Between ps s) (hps : ps ⊆ qs) : Between qs s := by
  obtain ⟨p, hp, q, hq, hs⟩ := h
  exact ⟨p, hps hp, q, hps hq, hs⟩

theorem Between.start_lt (h : Between ps s) : s.start < s.stop := by
  obtain ⟨p, -, q, -, rfl, hlt⟩ := h
  exact hlt

theorem Between.before (h : InOrder (ps ++ qs)) (hs : Between ps s) (ht : Between qs t) :
    s.stop ≤ t.start := by
  obtain ⟨-, -, p, hp, rfl, -⟩ := hs
  obtain ⟨q, hq, -, -, rfl, -⟩ := ht
  exact (List.pairwise_append.mp h.disjoint).2.2 p hp q hq

/-- Places of tokens are part of the place around them. -/
theorem InOrder.within_around (h : InOrder ps) {p : Span} (hp : p ∈ ps) :
    p.Within (Tree.around ps) := by
  have hne : ps ≠ [] := List.ne_nil_of_mem hp
  have hlast : ps.getLast?.getD default = ps.getLast hne := by
    rw [List.getLast?_eq_some_getLast hne, Option.getD_some]
  constructor
  · obtain ⟨first, rest, rfl⟩ := List.exists_cons_of_ne_nil hne
    show first.start ≤ p.start
    rcases List.mem_cons.mp hp with rfl | hrest
    · exact Nat.le_refl _
    · have hfirst := h.nonempty first List.mem_cons_self
      have hbehind := (List.pairwise_cons.mp h.disjoint).1 p hrest
      omega
  · show p.stop ≤ (ps.getLast?.getD default).stop
    have hdisjoint := h.disjoint
    rw [← List.dropLast_append_getLast hne] at hdisjoint hp
    rw [hlast]
    rcases List.mem_append.mp hp with hfront | hend
    · have hlater := (List.pairwise_append.mp hdisjoint).2.2 p hfront _ (List.mem_singleton_self _)
      have hnonempty := h.nonempty _ (List.getLast_mem hne)
      omega
    · rw [List.mem_singleton.mp hend]

theorem Between.within_around (h : InOrder ps) (hs : Between ps s) : s.Within (around ps) := by
  obtain ⟨p, hp, q, hq, rfl, -⟩ := hs
  exact ⟨(h.within_around hp).1, (h.within_around hq).2⟩

/-- What stands between some tokens is outside of the place around others, and what stands between
those is not. -/
theorem filter_outside {α : Type} {span : α → Span} {xs ys zs : List α}
    (h : InOrder (ps ++ (qs ++ rs))) (hqs : qs ≠ []) (hxs : ∀ x ∈ xs, Between ps (span x))
    (hys : ∀ y ∈ ys, Between qs (span y)) (hzs : ∀ z ∈ zs, Between rs (span z)) :
    (xs ++ (ys ++ zs)).filter (fun x => decide ((span x).Outside [around qs])) = xs ++ zs := by
  have hbehind : InOrder (qs ++ rs) := h.sublist (List.sublist_append_right ps _)
  have hmiddle : InOrder qs := hbehind.sublist (List.sublist_append_left qs rs)
  have haround : Between qs (around qs) := hmiddle.around hqs
  have hx : ∀ x ∈ xs, (span x).Outside [around qs] := fun x hx => by
    exact Span.outside_singleton.mpr (Span.not_within_of_le (hxs x hx).start_lt
      ((hxs x hx).before h (haround.mono (List.subset_append_left qs rs))))
  have hy : ∀ y ∈ ys, ¬ (span y).Outside [around qs] := fun y hy houtside =>
    Span.outside_singleton.mp houtside ((hys y hy).within_around hmiddle)
  have hz : ∀ z ∈ zs, (span z).Outside [around qs] := fun z hz => by
    exact Span.outside_singleton.mpr
      (Span.not_within_of_ge (hzs z hz).start_lt (haround.before hbehind (hzs z hz)))
  rw [List.filter_append, List.filter_append,
    List.filter_eq_self.mpr fun x hmem => decide_eq_true (hx x hmem),
    List.filter_eq_nil_iff.mpr fun y hmem => by simpa using hy y hmem,
    List.filter_eq_self.mpr fun z hmem => decide_eq_true (hz z hmem), List.nil_append]

end Between

/-! ## What blocks add -/

/-- What blocks add depends only on what has been declared. -/
theorem compile?_adding (c : Compilation) (bs : List Block) (ps : List Span) :
    compile? c bs ps = (compile? ⟨c.world, [], []⟩ bs ps).map c.adding := by
  induction bs generalizing c ps with
  | nil => simp [compile?, Compilation.adding]
  | cons b bs ih =>
      rw [compile?, compile?, Block.compile?, Block.compile?]
      cases b.world? c.world with
      | none => rfl
      | some w =>
          simp only [Option.map_some, Option.bind_eq_bind, Option.bind_some]
          rw [ih, ih ⟨w, [] ++ _, [] ++ _⟩, Option.map_map]
          refine congrArg (Option.map · _) (funext fun more => ?_)
          simp [Compilation.adding]

section Adds

variable {w : Universe} {b : Block} {bs : List Block} {ps : List Span} {c : Compilation}

/-- What blocks compile to is what the first adds, and behind it what the others do. -/
theorem compile?_cons (h : compile? ⟨w, [], []⟩ (b :: bs) ps = some c) :
    ∃ u more, b.world? w = some u ∧
      compile? ⟨u, [], []⟩ bs (ps.drop b.tokens.length) = some more ∧
      c = (⟨u, b.found w (ps.take b.tokens.length),
        b.described w (ps.take b.tokens.length)⟩ : Compilation).adding more := by
  obtain ⟨c₁, hb, hrest⟩ := Option.bind_eq_some_iff.mp h
  obtain ⟨u, hu, rfl⟩ := Block.compile?_eq_some.mp hb
  rw [compile?_adding] at hrest
  obtain ⟨more, hmore, rfl⟩ := Option.map_eq_some_iff.mp hrest
  exact ⟨u, more, hu, hmore, rfl⟩

/-- A block is a description, at its place, or none. -/
theorem Block.described_cases (u : Universe) (b : Block) (ps : List Span) :
    b.described u ps = [] ∨ ∃ d, b.described u ps = [d] ∧ d.span = around ps := by
  cases b with
  | factor name values => exact .inl rfl
  | transition name x timing changes told => exact .inl rfl
  | description x told =>
      rw [described]
      cases x.condition? u with
      | none => exact .inl rfl
      | some y => exact .inr ⟨_, rfl, rfl⟩

/-- What a block adds stands between its tokens. -/
theorem Block.adds_between {u : Universe} (h : b.world? w = some u) (hw : w.Built)
    (hps : ps.length = b.tokens.length) (hordered : InOrder ps) :
    (∀ f ∈ b.found w ps, Between ps f.span) ∧ ∀ d ∈ b.described w ps, Between ps d.span := by
  have hne : ps ≠ [] :=
    List.ne_nil_of_length_pos (hps ▸ List.length_pos_of_ne_nil b.tokens_ne_nil)
  have hwritten : ps.length = (written b.pieces).length := by rw [hps, b.written_pieces]
  have hnames := ((b.world?_isSome_iff hw).mp (by rw [h]; rfl)).1
  constructor
  · rw [b.found_eq (known_values w) hnames hps]
    intro f hf
    obtain ⟨s, hs, rfl⟩ := List.mem_map.mp hf
    exact (placed_inOrder _ hwritten hordered).2 s (List.mem_of_mem_filter hs)
  · rcases b.described_cases w ps with hnone | ⟨d, hone, hspan⟩
    · rw [hnone]
      exact List.forall_mem_nil _
    · rw [hone, List.forall_mem_singleton, hspan]
      exact hordered.around hne

/-- What blocks add stands between their tokens. -/
theorem compile?_between (h : compile? ⟨w, [], []⟩ bs ps = some c) (hw : w.Built)
    (hps : ps.length = (tokens bs).length) (hordered : InOrder ps) :
    (∀ f ∈ c.findings, Between ps f.span) ∧ ∀ d ∈ c.descriptions, Between ps d.span := by
  induction bs generalizing w ps c with
  | nil =>
      cases h
      exact ⟨List.forall_mem_nil _, List.forall_mem_nil _⟩
  | cons b bs ih =>
      obtain ⟨hfirst, hothers⟩ := length_split_blocks hps
      obtain ⟨u, more, hu, hmore, rfl⟩ := compile?_cons h
      have htake := List.take_sublist b.tokens.length ps
      have hdrop := List.drop_sublist b.tokens.length ps
      obtain ⟨hfound, hdescribed⟩ := b.adds_between hu hw hfirst (hordered.sublist htake)
      obtain ⟨hfindings, hdescriptions⟩ :=
        ih hmore (Block.world?_eq_some hw hu).1 hothers (hordered.sublist hdrop)
      exact ⟨List.forall_mem_append.mpr ⟨fun f hf => (hfound f hf).mono htake.subset,
          fun f hf => (hfindings f hf).mono hdrop.subset⟩,
        List.forall_mem_append.mpr ⟨fun d hd => (hdescribed d hd).mono htake.subset,
          fun d hd => (hdescriptions d hd).mono hdrop.subset⟩⟩

/-- Each description stands behind the ones before it. -/
theorem compile?_descriptions_inOrder (h : compile? ⟨w, [], []⟩ bs ps = some c) (hw : w.Built)
    (hps : ps.length = (tokens bs).length) (hordered : InOrder ps) :
    InOrder (c.descriptions.map Description.span) := by
  refine ⟨List.forall_mem_map.mpr fun d hd =>
    ((compile?_between h hw hps hordered).2 d hd).start_lt, List.pairwise_map.mpr ?_⟩
  induction bs generalizing w ps c with
  | nil =>
      cases h
      exact .nil
  | cons b bs ih =>
      obtain ⟨hfirst, hothers⟩ := length_split_blocks hps
      obtain ⟨u, more, hu, hmore, rfl⟩ := compile?_cons h
      have htake := hordered.sublist (List.take_sublist b.tokens.length ps)
      have hdrop := hordered.sublist (List.drop_sublist b.tokens.length ps)
      have hbuilt := (Block.world?_eq_some hw hu).1
      have hsplit : InOrder (ps.take b.tokens.length ++ ps.drop b.tokens.length) := by
        rwa [List.take_append_drop]
      have hone : (b.described w (ps.take b.tokens.length)).Pairwise
          fun d d' => d.span.stop ≤ d'.span.start := by
        rcases b.described_cases w (ps.take b.tokens.length) with hnone | ⟨d, hsome, -⟩
        · rw [hnone]
          exact .nil
        · rw [hsome]
          exact List.pairwise_singleton ..
      refine List.pairwise_append.mpr ⟨hone, ih hmore hbuilt hothers hdrop, fun d hd d' hd' => ?_⟩
      exact ((b.adds_between hu hw hfirst htake).2 d hd).before hsplit
        ((compile?_between hmore hbuilt hothers hdrop).2 d' hd')

end Adds

/-! ## Taking out a description -/

/-- A description among blocks, and its tokens among theirs. -/
structure Amid (bs : List Block) (ts : List (Spanned Token)) where
  /-- The blocks before it. -/
  front : List Block
  /-- When it applies. -/
  condition : Conjunction
  /-- What it says. -/
  told : String
  /-- The blocks behind it. -/
  back : List Block
  /-- The tokens before it. -/
  before : List (Spanned Token)
  /-- Its own tokens. -/
  own : List (Spanned Token)
  /-- The tokens behind it. -/
  behind : List (Spanned Token)
  blocks : bs = front ++ .description condition told :: back
  text : ts = before ++ (own ++ behind)
  nodes_before : before.map Spanned.node = tokens front
  nodes_own : own.map Spanned.node = (Block.description condition told).tokens
  nodes_behind : behind.map Spanned.node = tokens back

section Amid

variable {w : Universe} {bs : List Block} {ts : List (Spanned Token)} {c : Compilation}

theorem Amid.own_ne_nil (a : Amid bs ts) : a.own ≠ [] := by
  intro hnil
  have hnodes := a.nodes_own
  rw [hnil] at hnodes
  exact Block.tokens_ne_nil _ hnodes.symm

/-- A description that is compiled stands among the blocks, at its place. -/
theorem exists_amid (h : compile? ⟨w, [], []⟩ bs (places ts) = some c)
    (hnodes : ts.map Spanned.node = tokens bs) {d : Description} (hd : d ∈ c.descriptions) :
    ∃ a : Amid bs ts, d.span = around (places a.own) := by
  induction bs generalizing w ts c with
  | nil =>
      cases h
      cases hd
  | cons b bs ih =>
      obtain ⟨us, vs, rfl, hus, hvs⟩ := List.map_eq_append_iff.mp hnodes
      obtain ⟨u, more, -, hmore, rfl⟩ := compile?_cons h
      rw [take_places hus] at hd
      rw [drop_places hus] at hmore
      rcases List.mem_append.mp hd with hd | hd
      · cases b with
        | factor name values => cases hd
        | transition name x timing changes told => cases hd
        | description x told =>
            obtain ⟨y, -, rfl⟩ := List.mem_map.mp hd
            exact ⟨⟨[], x, told, bs, [], us, vs, rfl, rfl, rfl, hus, hvs⟩, rfl⟩
      · obtain ⟨a, ha⟩ := ih hmore hvs hd
        refine ⟨⟨b :: a.front, a.condition, a.told, a.back, us ++ a.before, a.own, a.behind,
          ?_, ?_, ?_, a.nodes_own, a.nodes_behind⟩, ha⟩
        · rw [List.cons_append, ← a.blocks]
        · rw [List.append_assoc, ← a.text]
        · rw [List.map_append, hus, a.nodes_before, tokens, tokens, List.flatMap_cons]

/-- Without a description blocks compile to what they do, without what stands at its place. -/
theorem Amid.compile?_without (a : Amid bs ts) (h : compile? .nothing bs (places ts) = some c)
    (hordered : InOrder (places ts)) :
    compile? .nothing (a.front ++ a.back) (places (a.before ++ a.behind)) =
      some (c.without [around (places a.own)]) := by
  have hne : places a.own ≠ [] := fun hnil => a.own_ne_nil (List.map_eq_nil_iff.mp hnil)
  obtain ⟨front, x, told, back, before, own, behind, rfl, rfl, hbefore, hown, hbehind⟩ := a
  rw [places, List.map_append, List.map_append] at hordered
  have hboth := hordered.sublist (List.sublist_append_right (places before) _)
  -- What is compiled in front, in the description and behind it.
  rw [compile?_append, drop_places hbefore] at h
  rw [places, List.map_append, compile?_append_places (length_places hbefore)] at h
  obtain ⟨c₁, hfront, h⟩ := Option.bind_eq_some_iff.mp h
  rw [compile?_adding] at h
  obtain ⟨rest, hrest, rfl⟩ := Option.map_eq_some_iff.mp h
  obtain ⟨u, more, hu, hmore, rfl⟩ := compile?_cons hrest
  obtain ⟨-, rfl⟩ := Block.world?_description.mp hu
  rw [drop_places hown] at hmore
  rw [take_places hown]
  have hbuilt := compile?_built hfront .empty
  obtain ⟨hfindings, hdescriptions⟩ := compile?_between hfront .empty (length_places hbefore)
    (hordered.sublist (List.sublist_append_left (places before) _))
  obtain ⟨hfound, hdescribed⟩ := Block.adds_between hu hbuilt (length_places hown)
    (hboth.sublist (List.sublist_append_left (places own) _))
  obtain ⟨hmoreFindings, hmoreDescriptions⟩ := compile?_between hmore hbuilt
    (length_places hbehind) (hboth.sublist (List.sublist_append_right (places own) _))
  rw [compile?_append, drop_places hbefore, places, List.map_append,
    compile?_append_places (length_places hbefore), hfront, Option.bind_some, compile?_adding,
    hmore]
  refine congrArg some ?_
  simp only [Compilation.without, Compilation.adding,
    filter_outside hordered hne hfindings hfound hmoreFindings,
    filter_outside hordered hne hdescriptions hdescribed hmoreDescriptions]

end Amid

end Tree

/-! ## Stories -/

section Stories

variable {story : String} {c : Compilation}

/-- The descriptions of a story stand one behind the other. -/
theorem compile_descriptions_inOrder (h : compile story = .ok c) :
    Tree.InOrder (c.descriptions.map Description.span) := by
  obtain ⟨ts, bs, hts, hnodes, hcompile⟩ := compile_eq_ok.mp h
  exact Tree.compile?_descriptions_inOrder hcompile .empty (Tree.length_places hnodes) hts.inOrder.1

/-- A story in which a description is overwritten compiles to what it did, without what stands at
the place of the description. -/
theorem compile_overwrite_one (h : compile story = .ok c) {d : Description}
    (hd : d ∈ c.descriptions) :
    ∃ blanked, encodeText blanked = overwrite [d.span] (encodeText story) ∧
      compile blanked = .ok (c.without [d.span]) := by
  obtain ⟨ts, bs, hts, hnodes, hcompile⟩ := compile_eq_ok.mp h
  obtain ⟨a, ha⟩ := Tree.exists_amid hcompile hnodes hd
  have hwithout := a.compile?_without hcompile hts.inOrder.1
  obtain ⟨stop, htokens⟩ := hts
  rw [a.text] at htokens
  let after := (a.behind ++ [(⟨.finish, stop⟩ : Spanned Token)]).map Lexeme.ofToken
  have hlexemes : lexemesFrom 0 story.toList =
      a.before.map Lexeme.ofToken ++ (a.own.map Lexeme.ofToken ++ after) := by
    rw [← lexemes, tokens_eq_ok.mp htokens]
    simp only [after, List.map_append, List.append_assoc]
  have hquote : ∀ l ∈ a.before.map Lexeme.ofToken, l.node ≠ .fault .unclosed :=
    List.forall_mem_map.mpr fun t _ => by simp [Lexeme.ofToken]
  obtain ⟨pre, text, post, hsplit, hspan, hblanked⟩ := lexemesFrom_overwritten hlexemes
    (fun hnil => a.own_ne_nil (List.map_eq_nil_iff.mp hnil)) (by simp [after]) hquote
  have hplaces : (a.own.map Lexeme.ofToken).map Spanned.span = Tree.places a.own := by
    rw [List.map_map]
    rfl
  rw [hplaces, ← ha] at hspan
  refine ⟨_, hspan ▸ (overwrite_encodeText hsplit).symm, compile_eq_ok.mpr
    ⟨a.before ++ a.behind, a.front ++ a.back, ⟨stop, tokens_eq_ok.mpr ?_⟩, ?_, ?_⟩⟩
  · rw [lexemes, String.toList_ofList, hblanked]
    simp only [after, List.map_append, List.append_assoc]
  · rw [List.map_append, a.nodes_before, a.nodes_behind, Tree.tokens, Tree.tokens, Tree.tokens,
      List.flatMap_append]
  · rw [ha]
    exact hwithout

/-- A story in which descriptions are overwritten compiles to what it did, without what stands at
their places. -/
theorem compile_overwrite_sublist (h : compile story = .ok c) {places : List Span}
    (hplaces : places.Sublist (c.descriptions.map Description.span)) :
    ∃ blanked, encodeText blanked = overwrite places (encodeText story) ∧
      compile blanked = .ok (c.without places) := by
  have hordered := (compile_descriptions_inOrder h).sublist hplaces
  induction places with
  | nil =>
      rw [overwrite_nil, Compilation.without_nil]
      exact ⟨story, rfl, h⟩
  | cons p places ih =>
      obtain ⟨first, hbytes, hfirst⟩ := ih ((List.sublist_cons_self p places).trans hplaces)
        (hordered.sublist (List.sublist_cons_self p places))
      obtain ⟨d, hd, rfl⟩ := List.mem_map.mp (hplaces.subset List.mem_cons_self)
      have hnonempty := hordered.nonempty _ List.mem_cons_self
      have houtside : d.span.Outside places := fun q hq =>
        Span.not_within_of_le hnonempty ((List.pairwise_cons.mp hordered.disjoint).1 q hq)
      have hkept : d ∈ (c.without places).descriptions :=
        List.mem_filter.mpr ⟨hd, decide_eq_true houtside⟩
      rw [overwrite_cons, Compilation.without_cons, ← hbytes]
      exact compile_overwrite_one hfirst hkept

/-- The places of some of the descriptions. -/
def Compilation.places (c : Compilation) (chosen : Description → Bool) : List Span :=
  (c.descriptions.filter chosen).map Description.span

/-- A description is outside of the places of those that are chosen exactly if it is not. -/
theorem outside_places_iff (h : compile story = .ok c) (chosen : Description → Bool)
    {d : Description} (hd : d ∈ c.descriptions) :
    d.span.Outside (c.places chosen) ↔ chosen d = false := by
  have hordered := compile_descriptions_inOrder h
  constructor
  · intro houtside
    rw [Bool.eq_false_iff]
    exact fun hd' => houtside _ (List.mem_map_of_mem (List.mem_filter.mpr ⟨hd, hd'⟩)) (.refl _)
  · intro hnot p hp
    obtain ⟨d', hd', rfl⟩ := List.mem_map.mp hp
    obtain ⟨hd', hchosen⟩ := List.mem_filter.mp hd'
    have hnonempty := hordered.nonempty _ (List.mem_map_of_mem hd)
    have hbehind := List.pairwise_iff_getElem.mp (List.pairwise_map.mp hordered.disjoint)
    obtain ⟨i, hi, rfl⟩ := List.getElem_of_mem hd
    obtain ⟨j, hj, rfl⟩ := List.getElem_of_mem hd'
    rcases Nat.lt_trichotomy i j with hlt | rfl | hlt
    · exact Span.not_within_of_le hnonempty (hbehind i j hi hj hlt)
    · rw [hnot] at hchosen
      cases hchosen
    · exact Span.not_within_of_ge hnonempty (hbehind j i hj hi hlt)

/-- Overwriting any descriptions of a story with spaces leaves a story that compiles.  It declares
the same, the other descriptions are where they were, and the warnings are those that stand outside
of the descriptions overwritten. -/
theorem compile_overwrite (h : compile story = .ok c) (chosen : Description → Bool) :
    Tree.InOrder (c.descriptions.map Description.span) ∧
    ∃ c', compileRead (decodeText (overwrite (c.places chosen) (encodeText story))) = .ok c' ∧
      c'.world = c.world ∧
      c'.descriptions = c.descriptions.filter (fun d => !chosen d) ∧
      c'.warnings = c.warnings.filter fun w => decide (w.span.Outside (c.places chosen)) := by
  refine ⟨compile_descriptions_inOrder h, c.without (c.places chosen), ?_, rfl, ?_,
    c.warnings_without _⟩
  · obtain ⟨blanked, hbytes, hblanked⟩ :=
      compile_overwrite_sublist h (List.filter_sublist.map Description.span)
    rw [Compilation.places, ← hbytes, decodeText_encodeText]
    exact hblanked
  · refine List.filter_congr fun d hd => ?_
    rw [Bool.eq_iff_iff, decide_eq_true_iff, outside_places_iff h chosen hd, Bool.not_eq_true']

end Stories

/-- A story with a description that touches its neighbours.  In it there are a comment, a text of
two lines and a test that can not hold, and there is such a test behind it as well. -/
def crowdedStory : String :=
  "factor a:(x)description:(a=y,% )\n\"two\nlines\")" ++
  "description:(a=x,\"\")transition:(a=z,choice:\"c\",a->x)"

/-- The description is overwritten, and the warning in it is gone. -/
theorem compile_overwrite_crowded : ∃ c c', compile crowdedStory = .ok c ∧
    Tree.InOrder (c.descriptions.map Description.span) ∧
    c.places (fun d => d.text == "two\nlines") = [⟨12, 45⟩] ∧
    compileRead (decodeText (overwrite (c.places fun d => d.text == "two\nlines")
      (encodeText crowdedStory))) = .ok c' ∧
    c'.world = c.world ∧
    c'.descriptions = c.descriptions.filter (fun d => !(d.text == "two\nlines")) ∧
    c.warnings.map (·.span) = [⟨25, 28⟩, ⟨77, 80⟩] ∧ c'.warnings.map (·.span) = [⟨77, 80⟩] := by
  have hcrowded : (compile crowdedStory).toOption.map (fun c =>
      (c.places (fun d => d.text == "two\nlines"), c.warnings.map (·.span))) =
      some ([⟨12, 45⟩], [⟨25, 28⟩, ⟨77, 80⟩]) := by
    decide +kernel
  obtain ⟨c, hc, hread⟩ := exists_compilation hcrowded
  obtain ⟨hplaces, hwarnings⟩ := Prod.mk.inj hread
  obtain ⟨hordered, c', hc', hworld, hdescriptions, hfewer⟩ :=
    compile_overwrite hc fun d => d.text == "two\nlines"
  refine ⟨c, c', hc, hordered, hplaces, hc', hworld, hdescriptions, hwarnings, ?_⟩
  have hkept : (c.warnings.map (·.span)).filter (fun s => decide (s.Outside [⟨12, 45⟩])) =
      [⟨77, 80⟩] := by
    rw [hwarnings]
    decide
  rw [hfewer, hplaces, ← hkept, List.filter_map]
  rfl

end Storyworld
