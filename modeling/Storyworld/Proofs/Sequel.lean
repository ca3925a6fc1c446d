import Storyworld.Proofs.Alongside
import Storyworld.Proofs.LineBreak
import Storyworld.Proofs.Warnings

/-!
# A story with more behind it

A story that compiles goes on behind a line break.  Its lexemes are the same as before
(`lexemesFrom_line`), so its blocks are read as before (`run_blocks`), whatever the next
lexeme says, as long as it is a token.  If it is none, the last block is not finished.
To see that this is all that happens, the reading is held against another one, in which
a token stands there instead, one that begins no block (`run_blocks_fault`).  So nothing
that was compiled is lost, and a refusal blames what was added (`compile_append_line`).
-/

namespace Storyworld

namespace Reading

open Storyworld.Tree

/-! ## Reading the blocks in front -/

/-- Blocks are read whatever token stands behind them, and then reading goes on there. -/
theorem run_blocks {bs : List Tree.Block} {c : Compilation} {ts : List (Spanned Token)}
    {r : Reader} {n : Nat} (hts : ts.map Spanned.node = Tree.tokens bs)
    (hdone : Tree.compile? c bs (places ts) = some r.done)
    (hclosed : Closed (ts.map Lexeme.ofToken ++ r.lexemes))
    (hn : ts.length + r.ahead.length ≤ n) :
    ∃ m, r.ahead.length ≤ m ∧ (blocks n).run (readerAt c ts r) = (blocks m).run r := by
  induction bs generalizing c ts n with
  | nil =>
      obtain rfl := List.map_eq_nil_iff.mp hts
      obtain rfl : c = r.done := Option.some.inj hdone
      exact ⟨n, by simpa using hn, rfl⟩
  | cons b bs ih =>
      obtain ⟨us, vs, rfl, hus, hvs⟩ := List.map_eq_append_iff.mp hts
      rw [Tree.compile?, take_places hus, drop_places hus] at hdone
      obtain ⟨c₁, hb, hrest⟩ := Option.bind_eq_some_iff.mp hdone
      obtain ⟨toks, htoks⟩ := block_tokens_eq b
      obtain ⟨span, us', rfl, -⟩ := map_node_cons_iff.mp (hus.trans htoks)
      have hblock : (block b.keyword).run
          (readerAt c (⟨.keyword b.keyword, span⟩ :: us' ++ vs) r) =
            .ok ((), readerAt c₁ vs r) := by
        refine (reads_block _ b.keyword _ (readerAt_lexemes .. ▸ hclosed) (Nat.le_refl _) _ _).mpr
          ⟨_, ?_, b, rfl, hus, ?_⟩
        · rw [readerAt_lexemes, readerAt_lexemes, List.map_append, List.append_assoc]
        · rw [readerAt_done, readerAt_done, hb]
      obtain ⟨n, rfl⟩ : ∃ k, n = k + 1 := Nat.exists_eq_succ_of_ne_zero (by
        rintro rfl
        simp at hn)
      have hclosed' : Closed (vs.map Lexeme.ofToken ++ r.lexemes) := by
        rw [List.map_append, List.append_assoc] at hclosed
        exact hclosed.of_append (List.append_ne_nil_of_right_ne_nil _ (List.cons_ne_nil _ _))
      have hlength : vs.length + r.ahead.length ≤ n := by
        simp only [List.length_append, List.length_cons] at hn
        omega
      obtain ⟨m, hm, hrun⟩ := ih hvs hrest hclosed' hlength
      refine ⟨m, hm, ?_⟩
      calc (blocks (n + 1)).run (readerAt c (⟨.keyword b.keyword, span⟩ :: us' ++ vs) r)
          = (do block b.keyword; blocks n : Step Unit).run
              (readerAt c (⟨.keyword b.keyword, span⟩ :: us' ++ vs) r) := run_blocks_succ ..
        _ = (blocks n).run (readerAt c₁ vs r) := by
          rw [StateT.run_bind, hblock]
          rfl
        _ = (blocks m).run r := hrun

/-- Lexemes that differ in one, which is a fault in the second list. -/
theorem pairs_apart (ts : List (Spanned Token)) (l : Lexeme) (f : LexicalFault) (span : Span)
    (ls : List Lexeme) :
    Lexeme.Pairs Eq (· = ⟨f.fault, span⟩) (ts.map Lexeme.ofToken ++ l :: ls)
      (ts.map Lexeme.ofToken ++ ⟨.fault f, span⟩ :: ls) := by
  induction ts with
  | nil => exact .apart rfl rfl
  | cons t ts ih => exact .token ⟨rfl, rfl, rfl⟩ ih

theorem closed_tail {l : Lexeme} {ls : List Lexeme} (h : Closed (l :: ls)) (hls : ls ≠ []) :
    Closed ls := by
  have hsplit : Closed ([l] ++ ls) := h
  exact hsplit.of_append hls

theorem closed_replace {us ls : List Lexeme} {l l' : Lexeme} (h : Closed (us ++ l :: ls))
    (hl : l.node ≠ .token .finish) (hl' : l'.node ≠ .token .finish) :
    Closed (us ++ l' :: ls) := by
  induction us with
  | nil => exact closed_cons hl' (closed_tail h (h.ne_nil hl))
  | cons u us ih =>
      have hne : us ++ l :: ls ≠ [] := List.append_ne_nil_of_right_ne_nil us (List.cons_ne_nil l ls)
      exact closed_cons (fun hu => hne (h.finish hu)) (ih (closed_tail h hne))

/-- Blocks with a lexeme behind them that is no token are refused there. -/
theorem run_blocks_fault {bs : List Tree.Block} {t : Spanned Token} {ts : List (Spanned Token)}
    {c c' : Compilation} {f : LexicalFault} {span : Span} {ls : List Lexeme} {n : Nat}
    (hts : (t :: ts).map Spanned.node = Tree.tokens bs)
    (hdone : Tree.compile? c bs (places (t :: ts)) = some c')
    (hclosed : Closed ((t :: ts).map Lexeme.ofToken ++ ⟨.fault f, span⟩ :: ls))
    (hn : ts.length + 1 + ls.length ≤ n) :
    ∃ expected found, (blocks n).run ⟨t, ts.map Lexeme.ofToken ++ ⟨.fault f, span⟩ :: ls, c.world,
      c.findings, c.descriptions⟩ = .error (.fault ⟨.unexpected expected found, span⟩) := by
  -- a comma instead of the fault begins no block, and it is refused at the same place
  let r : Reader := ⟨⟨.mark .comma, span⟩, ls, c'.world, c'.findings, c'.descriptions⟩
  have hcomma : Closed ((t :: ts).map Lexeme.ofToken ++ r.lexemes) :=
    closed_replace hclosed (by simp) (by simp [Lexeme.ofToken, r])
  obtain ⟨m, hm, hrun⟩ := run_blocks (r := r) hts hdone hcomma hn
  have hne : ls ≠ [] :=
    (hcomma.of_append (List.cons_ne_nil _ _)).ne_nil (by simp [Lexeme.ofToken, r])
  obtain ⟨k, rfl⟩ : ∃ k, m = k + 1 := Nat.exists_eq_succ_of_ne_zero (by
    rintro rfl
    exact hne (List.eq_nil_of_length_eq_zero (Nat.le_zero.mp hm)))
  have herror : (blocks n).run (readerAt c (t :: ts) r) = .error (.fault
      ⟨.unexpected "`factor`, `transition` or `description`" (Token.mark .comma).display, span⟩) :=
    hrun.trans (run_blocks_succ k r)
  have hpairs : (readerAt c (t :: ts) r).Pairs Eq (· = ⟨f.fault, span⟩)
      ⟨t, ts.map Lexeme.ofToken ++ ⟨.fault f, span⟩ :: ls, c.world, c.findings,
        c.descriptions⟩ :=
    ⟨⟨rfl, rfl, rfl⟩, pairs_apart .., rfl, List.forall₂_same.mpr fun _ _ => ⟨rfl, rfl, rfl⟩,
      List.forall₂_same.mpr fun _ _ => ⟨rfl, rfl, rfl, rfl⟩⟩
  have hboth := alongside_blocks n _ _ hpairs
  rw [herror] at hboth
  generalize (blocks n).run ⟨t, ts.map Lexeme.ofToken ++ ⟨.fault f, span⟩ :: ls, c.world,
    c.findings, c.descriptions⟩ = x at hboth ⊢
  cases hboth with
  | error he =>
      cases he with
      | @fault _ g hfault =>
          obtain ⟨node, place⟩ := g
          obtain rfl := hfault.node
          obtain rfl := Span.Pairs.eq hfault.span
          exact ⟨_, _, rfl⟩
  | apart hA =>
      cases hA
      exact ⟨_, _, rfl⟩

/-! ## Lexemes that go on -/

/-- Lexemes are refused at one that is no token if only blocks stand in front of it. -/
theorem compileLexemes_fault {bs : List Tree.Block} {ts : List (Spanned Token)} {c : Compilation}
    {f : LexicalFault} {span : Span} {more : List Lexeme}
    (hts : ts.map Spanned.node = Tree.tokens bs)
    (hdone : Tree.compile? .nothing bs (places ts) = some c)
    (hclosed : Closed (ts.map Lexeme.ofToken ++ ⟨.fault f, span⟩ :: more)) :
    ∃ expected found, compileLexemes (ts.map Lexeme.ofToken ++ ⟨.fault f, span⟩ :: more) =
      .error (.fault ⟨.unexpected expected found, span⟩) := by
  cases ts with
  | nil => exact ⟨_, _, rfl⟩
  | cons t ts =>
      have hlength : ts.length + 1 + more.length ≤
          ((t :: ts).map Lexeme.ofToken ++ ⟨.fault f, span⟩ :: more).length := by
        simp only [List.length_append, List.length_map, List.length_cons]
        omega
      obtain ⟨expected, found, hrun⟩ := run_blocks_fault hts hdone hclosed hlength
      have hstart : Reader.start ((t :: ts).map Lexeme.ofToken ++ ⟨.fault f, span⟩ :: more) =
          .ok ⟨t, ts.map Lexeme.ofToken ++ ⟨.fault f, span⟩ :: more, .empty, [], []⟩ := rfl
      exact ⟨expected, found,
        (compileLexemes_of_start hstart).trans (congrArg (Except.map _) hrun)⟩

/-- What the blocks in front compile to is kept.  A refusal blames a lexeme behind them, and it
accords with what they declare and perhaps more. -/
theorem compileLexemes_behind {bs : List Tree.Block} {ts : List (Spanned Token)} {c : Compilation}
    {next : Lexeme} {more : List Lexeme} (hts : ts.map Spanned.node = Tree.tokens bs)
    (hdone : Tree.compile? .nothing bs (places ts) = some c)
    (hclosed : Closed (ts.map Lexeme.ofToken ++ next :: more)) :
    (∀ c', compileLexemes (ts.map Lexeme.ofToken ++ next :: more) = .ok c' → c.Grows c') ∧
      ∀ e, compileLexemes (ts.map Lexeme.ofToken ++ next :: more) = .error e →
        ∃ f u, e = .fault f ∧ c.world.Grows u ∧ f.node.Accords u ∧
          ∃ l ∈ next :: more, f.span = l.span := by
  obtain ⟨node, span⟩ := next
  cases node with
  | token t =>
      let r : Reader := ⟨⟨t, span⟩, more, c.world, c.findings, c.descriptions⟩
      have hlength : ts.length + r.ahead.length ≤ (ts.map Lexeme.ofToken ++ r.lexemes).length := by
        simp only [r, Reader.lexemes, List.length_append, List.length_map, List.length_cons]
        omega
      obtain ⟨m, -, hrun⟩ := run_blocks (r := r) hts hdone hclosed hlength
      have hcompile : compileLexemes (ts.map Lexeme.ofToken ++ ⟨.token t, span⟩ :: more) =
          ((blocks m).run r).map fun x => x.2.done :=
        (compileLexemes_of_start (start_readerAt ts ⟨t, span⟩ more c)).trans (congrArg _ hrun)
      obtain ⟨hgrows, hblames⟩ :=
        blocks_grow m r (List.Subset.refl _) (Tree.compile?_built hdone .empty)
      rw [hcompile]
      cases hm : (blocks m).run r with
      | ok x =>
          refine ⟨fun c' hc' => ?_, fun e he => ?_⟩
          · cases hc'
            exact hgrows x.2 hm
          · cases he
      | error e' =>
          refine ⟨fun c' hc' => ?_, fun e he => ?_⟩
          · cases hc'
          · cases he
            obtain ⟨u, hu, f, rfl, haccords, l, hl, hspan, -⟩ := hblames e' hm
            exact ⟨f, u, rfl, hu, haccords, l, hl, hspan⟩
  | fault f =>
      obtain ⟨expected, found, hcompile⟩ := compileLexemes_fault hts hdone hclosed
      rw [hcompile]
      refine ⟨fun c' hc' => ?_, fun e he => ?_⟩
      · cases hc'
      · cases he
        exact ⟨_, c.world, rfl, .refl _, trivial, _, List.mem_cons_self, rfl⟩

/-- What the blocks in front compile to is kept, and a refusal blames a lexeme behind them. -/
theorem compileLexemes_append {bs : List Tree.Block} {ts : List (Spanned Token)} {c : Compilation}
    {next : Lexeme} {more : List Lexeme} (hts : ts.map Spanned.node = Tree.tokens bs)
    (hdone : Tree.compile? .nothing bs (places ts) = some c)
    (hclosed : Closed (ts.map Lexeme.ofToken ++ next :: more)) :
    (∀ c', compileLexemes (ts.map Lexeme.ofToken ++ next :: more) = .ok c' → c.Grows c') ∧
      ∀ e, compileLexemes (ts.map Lexeme.ofToken ++ next :: more) = .error e →
        ∃ f, e = .fault f ∧ ∃ l ∈ next :: more, f.span = l.span := by
  obtain ⟨hgrows, hblames⟩ := compileLexemes_behind hts hdone hclosed
  refine ⟨hgrows, fun e he => ?_⟩
  obtain ⟨f, -, rfl, -, -, hspan⟩ := hblames e he
  exact ⟨f, rfl, hspan⟩

end Reading

/-! ## Stories that go on -/

theorem le_start_of_mem_lexemesFrom {offset : Nat} {cs : List Char} {l : Lexeme}
    (hl : l ∈ lexemesFrom offset cs) : offset ≤ l.span.start := by
  fun_induction lexemesFrom offset cs with
  | case1 offset =>
      cases List.mem_singleton.mp hl
      exact Nat.le_refl _
  | case2 offset c cs more stop node hscan ih =>
      rcases List.mem_cons.mp hl with rfl | hl
      · exact Nat.le_refl _
      · exact Nat.le_trans (Nat.le_add_right ..) (ih hl)
  | case3 offset c cs more stop hscan ih =>
      exact Nat.le_trans (Nat.le_add_right ..) (ih hl)

theorem lexemesFrom_ne_nil (offset : Nat) (cs : List Char) : lexemesFrom offset cs ≠ [] := by
  obtain ⟨init, stop, h, -⟩ := closed_lexemesFrom offset cs
  rw [h]
  exact List.append_ne_nil_of_right_ne_nil init (List.cons_ne_nil _ [])

/-- A story that compiles may be followed by any text behind a line break.  Then it either
compiles with all it had, in the same places and with the same warnings, or it is refused
for a fault in the text behind. -/
theorem compile_append_line {story : String} {c : Compilation} (h : compile story = .ok c)
    (behind : String) :
    (∃ c', compile (story ++ "\n" ++ behind) = .ok c' ∧
      c.world.factors <+: c'.world.factors ∧ c.world.transitions <+: c'.world.transitions ∧
      c.warnings <+: c'.warnings ∧ c.descriptions <+: c'.descriptions) ∨
    ∃ e span, compile (story ++ "\n" ++ behind) = .error e ∧ e.span? = some span ∧
      byteLength story.toList + 1 ≤ span.start := by
  obtain ⟨ts, bs, ⟨stop, htokens⟩, hts, hdone⟩ := compile_eq_ok.mp h
  have hlexemes := lexemes_append_line htokens behind
  have hclosed := hlexemes ▸ closed_lexemes (story ++ "\n" ++ behind)
  have hstart : ∀ l ∈ lexemesFrom (byteLength story.toList + 1) behind.toList,
      byteLength story.toList + 1 ≤ l.span.start := fun l hl => le_start_of_mem_lexemesFrom hl
  obtain ⟨next, more, hmore⟩ :=
    List.exists_cons_of_ne_nil (lexemesFrom_ne_nil (byteLength story.toList + 1) behind.toList)
  rw [hmore] at hlexemes hclosed hstart
  obtain ⟨hgrows, hblames⟩ := Reading.compileLexemes_append hts hdone hclosed
  rw [compile, hlexemes]
  cases hcompile : compileLexemes (ts.map Lexeme.ofToken ++ next :: more) with
  | ok c' =>
      have hc' := hgrows c' hcompile
      exact .inl ⟨c', rfl, hc'.world.factors, hc'.world.transitions,
        hc'.findings.map Finding.diagnostic, hc'.descriptions⟩
  | error e =>
      obtain ⟨f, rfl, l, hl, hspan⟩ := hblames e hcompile
      exact .inr ⟨_, f.span, rfl, rfl, hspan ▸ hstart l hl⟩

/-- A story with a warning and a description. -/
def doubledStory : String := "factor a: (x, x)\ndescription: (a = x, \"x\")"

/-- Behind the story stands a factor that ends too early. -/
theorem compile_append_line_doubled : ∃ c, compile doubledStory = .ok c ∧ c.warnings.length = 1 ∧
    ((∃ c', compile (doubledStory ++ "\n" ++ "factor b: (y") = .ok c' ∧
        c.world.factors <+: c'.world.factors ∧ c.world.transitions <+: c'.world.transitions ∧
        c.warnings <+: c'.warnings ∧ c.descriptions <+: c'.descriptions) ∨
      ∃ e span, compile (doubledStory ++ "\n" ++ "factor b: (y") = .error e ∧
        e.span? = some span ∧ byteLength doubledStory.toList + 1 ≤ span.start) := by
  have hone : (compile doubledStory).toOption.map (·.warnings.length) = some 1 := by
    decide +kernel
  obtain ⟨c, hc, hwarnings⟩ := exists_compilation hone
  exact ⟨c, hc, hwarnings, compile_append_line hc "factor b: (y"⟩

end Storyworld
