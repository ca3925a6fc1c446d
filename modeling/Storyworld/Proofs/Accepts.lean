import Storyworld.Proofs.Blocks
import Storyworld.Proofs.Conditions
import Storyworld.Proofs.Unique

/-!
# Which stories compile, and to what

A story compiles exactly if its tokens are those of well scoped blocks.  The
blocks are then the only ones, and the compilation is what they mean.
-/

namespace Storyworld

/-! ## The lexemes of a story -/

theorem wordToken_ne_finish (letters : List Char) : wordToken letters ≠ .finish := by
  rw [wordToken]
  cases Keyword.ofText? (String.ofList letters) <;> simp

theorem wholeToken_ne_finish (digits : List Char) : wholeToken digits ≠ .token .finish := by
  rw [wholeToken]
  split <;> simp

/-- The end of a story is not among the characters. -/
theorem scan_ne_finish (c : Char) (cs : List Char) : (scan c cs).1 ≠ some (.token .finish) := by
  unfold scan
  split
  · simp
  split
  · simp
  split
  · rw [scanText]
    split <;> simp
  split
  · rw [scanNumber]
    split
    · simp
    · simpa using wholeToken_ne_finish _
  split
  · rw [scanPoint]
    split <;> simp
  split
  · simpa using wordToken_ne_finish _
  split <;> simp

theorem closed_cons {l : Lexeme} {ls : List Lexeme} (hl : l.node ≠ .token .finish)
    (h : Closed ls) : Closed (l :: ls) := by
  obtain ⟨init, stop, rfl, hinit⟩ := h
  exact ⟨l :: init, stop, rfl, List.forall_mem_cons.mpr ⟨hl, hinit⟩⟩

theorem closed_lexemesFrom (offset : Nat) (cs : List Char) : Closed (lexemesFrom offset cs) := by
  fun_induction lexemesFrom offset cs with
  | case1 offset => exact ⟨[], _, rfl, by simp⟩
  | case2 offset c cs more stop node hscan ih =>
      refine closed_cons (fun hnode => scan_ne_finish c cs ?_) ih
      rw [hscan]
      exact congrArg some hnode
  | case3 offset c cs more stop hscan ih => exact ih

/-- The lexemes of a story end with its end, which stands nowhere before. -/
theorem closed_lexemes (source : String) : Closed (lexemes source) :=
  closed_lexemesFrom 0 source.toList

theorem Lexeme.token_eq_ok {l : Lexeme} {t : Spanned Token} :
    l.token = .ok t ↔ l = .ofToken t := by
  obtain ⟨node, span⟩ := l
  obtain ⟨t, place⟩ := t
  cases node <;> simp [Lexeme.token, Lexeme.ofToken]

theorem mapM_token_map (ts : List (Spanned Token)) :
    (ts.map Lexeme.ofToken).mapM Lexeme.token = .ok ts := by
  induction ts with
  | nil => rfl
  | cons t ts ih =>
      rw [List.map_cons, List.mapM_cons, ih]
      rfl

theorem eq_map_of_mapM_token {ls : List Lexeme} {ts : List (Spanned Token)}
    (h : ls.mapM Lexeme.token = .ok ts) : ls = ts.map Lexeme.ofToken := by
  induction ls generalizing ts with
  | nil =>
      cases h
      rfl
  | cons l ls ih =>
      rw [List.mapM_cons] at h
      cases hl : l.token with
      | error e =>
          rw [hl] at h
          cases h
      | ok t =>
          cases hls : ls.mapM Lexeme.token with
          | error e =>
              rw [hl, hls] at h
              cases h
          | ok us =>
              rw [hl, hls] at h
              cases h
              rw [List.map_cons, ← ih hls, Lexeme.token_eq_ok.mp hl]

/-- A story has tokens exactly if all its lexemes are. -/
theorem tokens_eq_ok {source : String} {ts : List (Spanned Token)} :
    tokens source = .ok ts ↔ lexemes source = ts.map Lexeme.ofToken := by
  constructor
  · intro h
    exact eq_map_of_mapM_token h
  · intro h
    rw [tokens, h]
    exact mapM_token_map ts

/-! ## Compiling lexemes -/

namespace Reading

theorem start_eq_ok {ls : List Lexeme} {r : Reader} (hls : ls ≠ []) :
    Reader.start ls = .ok r ↔ r.lexemes = ls ∧ r.done = ⟨.empty, [], []⟩ := by
  cases ls with
  | nil => exact absurd rfl hls
  | cons l ls =>
      obtain ⟨node, span⟩ := l
      cases node with
      | token t =>
          constructor
          · intro h
            cases h
            exact ⟨rfl, rfl⟩
          · intro given
            obtain ⟨hlexemes, hdone⟩ := given
            exact congrArg Except.ok (reader_ext hlexemes.symm hdone.symm)
      | fault f =>
          constructor
          · intro h
            cases h
          · intro given
            obtain ⟨hlexemes, -⟩ := given
            cases (List.cons.inj hlexemes).1

theorem start_readerAt (ts : List (Spanned Token)) (t : Spanned Token) (ls : List Lexeme)
    (c : Compilation) : Reader.start (ts.map Lexeme.ofToken ++ .ofToken t :: ls) =
      .ok (readerAt ⟨.empty, [], []⟩ ts ⟨t, ls, c.world, c.findings, c.descriptions⟩) :=
  (start_eq_ok (List.append_ne_nil_of_right_ne_nil _ (List.cons_ne_nil _ _))).mpr
    ⟨readerAt_lexemes .., readerAt_done ..⟩

theorem compileLexemes_of_start {ls : List Lexeme} {r : Reader} (h : Reader.start ls = .ok r) :
    compileLexemes ls = ((blocks ls.length).run r).map fun x => x.2.done := by
  rw [compileLexemes, h]
  simp only [bind, Except.bind]
  cases (blocks ls.length).run r <;> rfl

/-- Lexemes of which the first is a token. -/
theorem compileLexemes_ofToken_cons (t : Spanned Token) (ls : List Lexeme) :
    compileLexemes (.ofToken t :: ls) =
      ((blocks (ls.length + 1)).run ⟨t, ls, .empty, [], []⟩).map fun x => x.2.done :=
  compileLexemes_of_start rfl

theorem compileLexemes_eq_ok_iff_run {ls : List Lexeme} {c : Compilation} :
    compileLexemes ls = .ok c ↔ ∃ r r', Reader.start ls = .ok r ∧
      (blocks ls.length).run r = .ok ((), r') ∧ r'.done = c := by
  cases hstart : Reader.start ls with
  | error e =>
      constructor
      · intro h
        rw [compileLexemes, hstart] at h
        cases h
      · intro given
        obtain ⟨r, r', h, -⟩ := given
        cases h
  | ok r =>
      rw [compileLexemes_of_start hstart]
      constructor
      · intro h
        cases hblocks : (blocks ls.length).run r with
        | error e =>
            rw [hblocks] at h
            cases h
        | ok x =>
            rw [hblocks] at h
            cases h
            exact ⟨r, x.2, rfl, hblocks, rfl⟩
      · intro given
        obtain ⟨r, r', h, hblocks, rfl⟩ := given
        cases h
        rw [hblocks]
        rfl

/-- Lexemes compile to what the blocks mean that they are the tokens of, and otherwise not
at all. -/
theorem compileLexemes_eq_ok {ls : List Lexeme} (hls : Closed ls) {c : Compilation} :
    compileLexemes ls = .ok c ↔ ∃ ts stop bs,
      ls = ts.map Lexeme.ofToken ++ [⟨.token .finish, stop⟩] ∧
        ts.map Spanned.node = Tree.tokens bs ∧
        Tree.compile? ⟨.empty, [], []⟩ bs (Tree.places ts) = some c := by
  have hne : ls ≠ [] := by
    obtain ⟨init, stop, rfl, -⟩ := hls
    simp
  rw [compileLexemes_eq_ok_iff_run]
  constructor
  · intro given
    obtain ⟨r, r', hstart, hrun, rfl⟩ := given
    obtain ⟨rfl, hdone⟩ := (start_eq_ok hne).mp hstart
    obtain ⟨ts, hts, bs, htokens, hcompile, hnext⟩ :=
      (reads_blocks r.lexemes.length r hls (Nat.le_succ _) () r').mp hrun
    have hahead : r'.ahead = [] :=
      (closed_suffix hls hts).finish (congrArg Reading.token hnext)
    refine ⟨ts, r'.current.span, bs, ?_, htokens, hdone ▸ hcompile⟩
    rw [hts, Reader.lexemes, hahead, Lexeme.ofToken, hnext]
  · intro given
    obtain ⟨ts, stop, bs, rfl, htokens, hcompile⟩ := given
    have hstart := start_readerAt ts ⟨.finish, stop⟩ [] ⟨.empty, [], []⟩
    refine ⟨_, readerAt c [] ⟨⟨.finish, stop⟩, [], .empty, [], []⟩, hstart, ?_, readerAt_done ..⟩
    refine (reads_blocks _ _ (readerAt_lexemes .. ▸ hls) ?_ _ _).mpr
      ⟨ts, ?_, bs, htokens, ?_, rfl⟩
    · have hlen := congrArg List.length (readerAt_lexemes ⟨.empty, [], []⟩ ts
        ⟨⟨.finish, stop⟩, [], .empty, [], []⟩)
      simp only [Reader.lexemes, List.length_cons, List.length_append, List.length_nil] at hlen ⊢
      omega
    · rw [readerAt_lexemes, readerAt_lexemes]
      rfl
    · rw [readerAt_done, readerAt_done]
      exact hcompile

end Reading

/-! ## Compiling a story -/

/-- What is compiled before anything is read. -/
def Compilation.nothing : Compilation := ⟨.empty, [], []⟩

/-- The tokens of a story are these and the end. -/
def HasTokens (source : String) (ts : List (Spanned Token)) : Prop :=
  ∃ stop, tokens source = .ok (ts ++ [⟨.finish, stop⟩])

theorem compile_eq_ok {source : String} {c : Compilation} :
    compile source = .ok c ↔ ∃ ts bs, HasTokens source ts ∧
      ts.map Spanned.node = Tree.tokens bs ∧
      Tree.compile? .nothing bs (Tree.places ts) = some c := by
  have hmap : compile source = .ok c ↔ compileLexemes (lexemes source) = .ok c := by
    rw [compile]
    cases compileLexemes (lexemes source) <;> simp [Except.mapError]
  rw [hmap, Reading.compileLexemes_eq_ok (closed_lexemes source)]
  constructor
  · intro given
    obtain ⟨ts, stop, bs, hls, htokens, hcompile⟩ := given
    refine ⟨ts, bs, ⟨stop, tokens_eq_ok.mpr ?_⟩, htokens, hcompile⟩
    rw [hls, List.map_append]
    rfl
  · intro given
    obtain ⟨ts, bs, ⟨stop, hts⟩, htokens, hcompile⟩ := given
    refine ⟨ts, stop, bs, ?_, htokens, hcompile⟩
    rw [tokens_eq_ok.mp hts, List.map_append]
    rfl

/-- A story compiles exactly if its tokens are those of well scoped blocks.  They are then
those of no other blocks, the compilation is what the blocks mean, and every condition in it
is a conjunction of disjunctions, none of them empty. -/
theorem compile_reads_grammar (source : String) :
    ((∃ c, compile source = .ok c) ↔ ∃ ts bs, HasTokens source ts ∧
      ts.map Spanned.node = Tree.tokens bs ∧ Tree.Scoped [] bs) ∧
    ∀ c, compile source = .ok c → ∃ ts bs, HasTokens source ts ∧
      (∀ bs', ts.map Spanned.node = Tree.tokens bs' ↔ bs' = bs) ∧
      Tree.compile? .nothing bs (Tree.places ts) = some c ∧
      ∀ x ∈ c.conditions, x.Conjunctive fun f _ => c.world.Declares f := by
  constructor
  · constructor
    · intro given
      obtain ⟨c, hc⟩ := given
      obtain ⟨ts, bs, hts, htokens, hcompile⟩ := compile_eq_ok.mp hc
      refine ⟨ts, bs, hts, htokens, ?_⟩
      exact (Tree.compile?_isSome_iff bs .nothing _ .empty).mp (by rw [hcompile]; rfl)
    · intro given
      obtain ⟨ts, bs, hts, htokens, hscoped⟩ := given
      obtain ⟨c, hcompile⟩ := Option.isSome_iff_exists.mp
        ((Tree.compile?_isSome_iff bs .nothing (Tree.places ts) .empty).mpr hscoped)
      exact ⟨c, compile_eq_ok.mpr ⟨ts, bs, hts, htokens, hcompile⟩⟩
  · intro c hc
    obtain ⟨ts, bs, hts, htokens, hcompile⟩ := compile_eq_ok.mp hc
    refine ⟨ts, bs, hts, fun bs' => ?_, hcompile, Tree.compile?_conjunctive hcompile⟩
    constructor
    · intro h
      exact Tree.tokens_injective (h.symm.trans htokens)
    · rintro rfl
      exact htokens

end Storyworld
