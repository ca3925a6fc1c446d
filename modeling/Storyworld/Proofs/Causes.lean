import Storyworld.Proofs.Partition
import Storyworld.Proofs.Sequel

/-!
# The causes of errors

A story that does not compile is refused for a fault, and `Fault.Caused` says what that fault has
to do with the text.  When blocks end early, the ones before the one that was refused have been
compiled, and the refusal accords with what these declare (`run_blocks_error`).  So a name that is
declared again is declared by a block that was compiled, and so is a name that is suggested.  That
an undefined name is declared by none takes the other direction: whatever blocks stand in front, a
refusal accords with them (`compileLexemes_behind`).

A lexeme that is blamed stands in the text, the end of the story included (`covers_of_mem`), and a
word stands there letter for letter.

The token that was looked at is the one that is passed.  So a reader that looks at the token
passed once more, to pick a word or a text from it, finds what it saw before
(`Picks.run_takeAgain`).
-/

namespace Storyworld

/-! ## The blocks before an error -/

namespace Universe

/-- A name that is suggested is declared. -/
theorem mem_names_of_closest? {u : Universe} {name s : String} (h : u.closest? name = some s) :
    s ∈ u.names := by
  have hfold : ∀ (ps : List (String × Float)) (best : Option (String × Float)),
      (∀ b, best = some b → b.1 ∈ u.names) → (∀ p ∈ ps, p.1 ∈ u.names) →
        ∀ b, ps.foldl betterScored best = some b → b.1 ∈ u.names := by
    intro ps
    induction ps with
    | nil => exact fun best hbest _ => hbest
    | cons p ps ih =>
        intro best hbest hps
        rw [List.forall_mem_cons] at hps
        refine ih _ (fun b hb => ?_) hps.2
        cases best with
        | none =>
            cases hb
            exact hps.1
        | some b' =>
            rw [betterScored] at hb
            split at hb
            · exact hbest b hb
            · cases hb
              exact hps.1
  obtain ⟨b, hb, rfl⟩ := Option.map_eq_some_iff.mp h
  refine hfold _ none nofun (fun p hp => ?_) b hb
  obtain ⟨f, hf, rfl⟩ := List.mem_map.mp (List.mem_of_mem_filter hp)
  exact List.mem_map_of_mem hf

end Universe

namespace Tree

/-- The names of the factors behind blocks. -/
theorem compile?_names {bs : List Block} {c c' : Compilation} {ps : List Span}
    (h : compile? c bs ps = some c') (hu : c.world.Built) :
    c'.world.names = c.world.names ++ declares bs := by
  induction bs generalizing c ps with
  | nil =>
      cases h
      exact (List.append_nil _).symm
  | cons b bs ih =>
      obtain ⟨c₁, hb, hrest⟩ := Option.bind_eq_some_iff.mp h
      obtain ⟨w, hw, rfl⟩ := Block.compile?_eq_some.mp hb
      obtain ⟨hbuilt, hnames⟩ := Block.world?_eq_some hu hw
      rw [ih hrest hbuilt, hnames, List.append_assoc, declares, declares, List.flatMap_cons]

end Tree

namespace Reading

open Storyworld.Tree

variable {α : Type}

/-- When blocks end early, some have been compiled, and what was refused behind them accords with
what they declare. -/
theorem run_blocks_error (n : Nat) : ∀ {r : Reader} {e : Refusal}, Closed r.lexemes →
    r.world.Built → (blocks n).run r = .error e →
      ∃ ts bs more c, r.lexemes = ts.map Lexeme.ofToken ++ more ∧
        ts.map Spanned.node = Tree.tokens bs ∧ Tree.compile? r.done bs (places ts) = some c ∧
        e.Blames c.world more := by
  induction n with
  | zero =>
      intro r e _ _ hrun
      cases hrun
  | succ n ih =>
      intro r e hclosed hbuilt hrun
      have hstarts : Starts r.lexemes r.world r := ⟨List.Subset.refl _, rfl⟩
      have hnone : e.Blames r.world r.lexemes → ∃ ts bs more c,
          r.lexemes = ts.map Lexeme.ofToken ++ more ∧ ts.map Spanned.node = Tree.tokens bs ∧
            Tree.compile? r.done bs (places ts) = some c ∧ e.Blames c.world more :=
        fun hblames => ⟨[], [], r.lexemes, r.done, rfl, rfl, rfl, hblames⟩
      rw [run_blocks_succ] at hrun
      cases hcur : r.current.node with
      | keyword k =>
          rw [hcur] at hrun
          rcases run_bind_eq_error.mp hrun with he | ⟨⟨⟩, r', hk, he⟩
          · exact hnone ((declares_block hbuilt k).error r e hstarts he)
          · obtain ⟨us, hlexemes, b, -, hus, hb⟩ :=
              (reads_block _ k r hclosed (Nat.le_refl _) () r').mp hk
            obtain ⟨-, hbuilt', -⟩ := (declares_block hbuilt k).ok r r' hstarts hk
            have hclosed' : Closed r'.lexemes :=
              closed_suffix hclosed hlexemes
            obtain ⟨ts, bs, more, c, hmore, hts, hdone, hblames⟩ := ih hclosed' hbuilt' he
            refine ⟨us ++ ts, b :: bs, more, c, ?_, ?_, ?_, hblames⟩
            · rw [hlexemes, hmore, List.map_append, List.append_assoc]
            · rw [List.map_append, hus, hts, Tree.tokens, Tree.tokens, List.flatMap_cons]
            · rw [Tree.compile?, take_places hus, drop_places hus, hb]
              exact hdone
      | finish =>
          rw [hcur] at hrun
          cases hrun
      | _ =>
          rw [hcur] at hrun
          exact hnone ((steps_unexpected _ (Q := fun _ => True)).error r e hstarts hrun)

/-- Lexemes that do not compile begin with blocks that do, and what was refused behind them accords
with what they declare. -/
theorem compileLexemes_eq_error {ls : List Lexeme} {e : Refusal} (hls : Closed ls)
    (h : compileLexemes ls = .error e) :
    ∃ ts bs more c, ls = ts.map Lexeme.ofToken ++ more ∧
      ts.map Spanned.node = Tree.tokens bs ∧
      Tree.compile? .nothing bs (places ts) = some c ∧ e.Blames c.world more := by
  cases ls with
  | nil =>
      obtain ⟨init, stop, hnil, -⟩ := hls
      exact absurd hnil.symm (List.append_ne_nil_of_right_ne_nil init (List.cons_ne_nil _ _))
  | cons l ls =>
      obtain ⟨node, span⟩ := l
      cases node with
      | fault f =>
          cases h
          exact ⟨[], [], _, .nothing, rfl, rfl, rfl,
            ⟨_, rfl, trivial, _, List.mem_cons_self, rfl, rfl, rfl⟩⟩
      | token t =>
          let r : Reader := ⟨⟨t, span⟩, ls, .empty, [], []⟩
          have hcompile : compileLexemes (⟨.token t, span⟩ :: ls) =
              ((blocks (ls.length + 1)).run r).map fun x => x.2.done :=
            compileLexemes_ofToken_cons ⟨t, span⟩ ls
          rw [hcompile] at h
          cases hrun : (blocks (ls.length + 1)).run r with
          | ok x =>
              rw [hrun] at h
              cases h
          | error e' =>
              rw [hrun] at h
              cases h
              exact run_blocks_error (ls.length + 1) (r := r) hls .empty hrun

/-! ## Looking again at the token passed -/

/-- Pass the token that is looked at, and give it. -/
def advance : Step (Spanned Token) := do
  let r ← get
  set (← r.next)
  return r.current

/-- Pass a token that something can be picked from, and pick it from the token passed.  There is
nothing if it can not be picked after all. -/
def takeAgain (pick : Spanned Token → Option α) (expected : String) : Step (Option α) := do
  if (pick (← get).current).isSome then
    let t ← advance
    return pick t
  else unexpected expected

/-- What a step picks can be picked from the token passed just as well. -/
theorem Picks.run_takeAgain {p : Step α} {pick : Spanned Token → Option α} {expected : String}
    (h : Picks p pick expected) (r : Reader) :
    (takeAgain pick expected).run r = (p.run r).map fun x => (some x.1, x.2) := by
  rw [h, takeAgain, StateT.run_bind, StateT.run_get]
  simp only [pure_bind]
  cases hpick : pick r.current with
  | none => rfl
  | some a =>
      simp only [Option.isSome_some, if_true, advance, StateT.run_bind, StateT.run_get, pure_bind,
        run_pass]
      cases r.next with
      | error e => rfl
      | ok r' => exact congrArg (fun b => Except.ok (b, r')) hpick

end Reading

/-! ## Where lexemes stand -/

section Lexemes

variable {source : String} {l : Lexeme}

/-- The lexemes of a story are in order, its end included. -/
theorem lexemes_ordered (source : String) :
    (lexemes source).Pairwise fun l l' => l.span.stop ≤ l'.span.start := by
  obtain ⟨pieces, hpieces, hordered⟩ := ordered_lexemes source
  rw [hpieces]
  refine List.pairwise_append.mpr ⟨hordered.disjoint, List.pairwise_singleton .., ?_⟩
  intro l hl l' hl'
  obtain rfl := List.mem_singleton.mp hl'
  obtain ⟨text, -, pre, post, hsplit, hspan⟩ := (hordered.stands l hl).covers
  show l.span.stop ≤ byteLength source.toList
  have hsource : source.toList = pre ++ text ++ post := hsplit
  rw [hspan, hsource, byteLength_append (pre ++ text)]
  exact Nat.le_add_right ..

/-- A lexeme that is not the end is a piece of the story. -/
theorem stands_of_mem (hl : l ∈ lexemes source) (hne : l.node ≠ .token .finish) :
    l.StandsIn source.toList := by
  obtain ⟨pieces, hpieces, hordered⟩ := ordered_lexemes source
  rw [hpieces] at hl
  rcases List.mem_append.mp hl with hl | hl
  · exact hordered.stands l hl
  · obtain rfl := List.mem_singleton.mp hl
    exact absurd rfl hne

/-- Every lexeme stands in the story, between two characters.  Nothing stands at the end. -/
theorem covers_of_mem (hl : l ∈ lexemes source) : ∃ text, l.span.Covers source.toList text := by
  obtain ⟨pieces, hpieces, hordered⟩ := ordered_lexemes source
  rw [hpieces] at hl
  rcases List.mem_append.mp hl with hl | hl
  · obtain ⟨text, -, hcovers⟩ := (hordered.stands l hl).covers
    exact ⟨text, hcovers⟩
  · obtain rfl := List.mem_singleton.mp hl
    exact ⟨[], source.toList, [], by simp, by simp [Lexeme.closing]⟩

/-- A word stands in the story letter for letter. -/
theorem covers_word {name : String} (hl : l ∈ lexemes source)
    (hnode : l.node = .token (.word name)) : l.span.Covers source.toList name.toList := by
  have hne : l.node ≠ .token .finish := by
    rw [hnode]
    simp
  obtain ⟨pre, text, post, hsplit, hspan, hpiece⟩ := stands_of_mem hl hne
  have hspelled := hpiece.spelled
  rw [hnode] at hspelled
  obtain ⟨rfl, -⟩ := hspelled
  exact ⟨pre, post, hsplit, hspan⟩

end Lexemes

/-! ## Stories -/

/-- Blocks that a story begins with are completed before a place, and they compile to something. -/
def CompiledBefore (source : String) (place : Nat) (bs : List Tree.Block) (c : Compilation) :
    Prop :=
  ∃ ts next more, lexemes source = ts.map Lexeme.ofToken ++ next :: more ∧
    ts.map Spanned.node = Tree.tokens bs ∧
    Tree.compile? .nothing bs (Tree.places ts) = some c ∧ ∀ t ∈ ts, t.span.stop ≤ place

/-- What a fault at a place says has its cause in the story. -/
inductive Fault.Caused (source : String) (place : Span) : Fault → Prop
  /-- The story does not follow the grammar. -/
  | unexpected (expected found : String) : Caused source place (.unexpected expected found)
  /-- The name stands there, and no block completed before declares it.  A name that is suggested
  is declared by one. -/
  | undefinedFactor {name : String} {suggestion : Option String} :
      place.Covers source.toList name.toList →
      (∀ bs c, CompiledBefore source place.start bs c → name ∉ Tree.declares bs) →
      (∀ s, suggestion = some s →
        ∃ bs c, CompiledBefore source place.start bs c ∧ s ∈ Tree.declares bs) →
      Caused source place (.undefinedFactor name suggestion)
  /-- The name stands there, and a block completed before declares it. -/
  | duplicateFactor {name : String} :
      place.Covers source.toList name.toList →
      (∃ bs c, CompiledBefore source place.start bs c ∧ name ∈ Tree.declares bs) →
      Caused source place (.duplicateFactor name)

/-- An error is a fault of the story.  It gives a place between two characters and the position of
that place, the diagnostic gives the place too, and the fault has its cause. -/
def CompileError.PointsAtCause (source : String) (e : CompileError) : Prop :=
  ∃ fault place, e = .story ⟨fault, place⟩ (.locate source place.start) ∧
    e.diagnostic.span = place ∧ (∃ text, place.Covers source.toList text) ∧
    fault.Caused source place

section Stories

variable {source : String}

/-- The names behind blocks that are compiled first. -/
theorem names_of_compile? {bs : List Tree.Block} {c : Compilation} {ps : List Span}
    (h : Tree.compile? .nothing bs ps = some c) : c.world.names = Tree.declares bs :=
  Tree.compile?_names h .empty

/-- An undefined name is declared by no blocks in front. -/
theorem not_declared_of_undefined {name : String} {suggestion : Option String} {place : Span}
    (h : compileLexemes (lexemes source) =
      .error (.fault ⟨.undefinedFactor name suggestion, place⟩)) {stop : Nat}
    {bs : List Tree.Block} {c : Compilation} (hbefore : CompiledBefore source stop bs c) :
    name ∉ Tree.declares bs := by
  obtain ⟨ts, next, more, hlexemes, hts, hdone, -⟩ := hbefore
  have hclosed := closed_lexemes source
  rw [hlexemes] at h hclosed
  obtain ⟨f, u, hf, hgrows, haccords, -⟩ :=
    (Reading.compileLexemes_behind hts hdone hclosed).2 _ h
  cases hf
  intro hmem
  rw [← names_of_compile? hdone] at hmem
  exact haccords.1 ((hgrows.factors.map Factor.label).subset hmem)

theorem compileLexemes_error_caused {e : Refusal} (h : compileLexemes (lexemes source) = .error e) :
    ∃ f, e = .fault f ∧ (∃ text, f.span.Covers source.toList text) ∧
      f.node.Caused source f.span := by
  obtain ⟨ts, bs, more, c, hlexemes, hts, hdone, f, rfl, haccords, l, hl, hspan, hfits⟩ :=
    Reading.compileLexemes_eq_error (closed_lexemes source) h
  have hmem : l ∈ lexemes source := by
    rw [hlexemes]
    exact List.mem_append_right _ hl
  -- The blocks that were compiled end where the lexeme begins, or before.
  have hbefore : CompiledBefore source f.span.start bs c := by
    obtain ⟨next, rest, rfl⟩ := List.exists_cons_of_ne_nil (List.ne_nil_of_mem hl)
    refine ⟨ts, next, rest, hlexemes, hts, hdone, fun t ht => ?_⟩
    have hordered := lexemes_ordered source
    rw [hlexemes, List.pairwise_append] at hordered
    rw [hspan]
    exact hordered.2.2 _ (List.mem_map_of_mem ht) l hl
  have hnames := names_of_compile? hdone
  refine ⟨f, rfl, hspan ▸ covers_of_mem hmem, ?_⟩
  obtain ⟨fault, place⟩ := f
  obtain rfl : place = l.span := hspan
  cases fault with
  | unexpected expected found => exact .unexpected expected found
  | undefinedFactor name suggestion =>
      refine .undefinedFactor (covers_word hmem hfits)
        (fun _ _ hbs => not_declared_of_undefined h hbs) fun s hs => ?_
      rw [haccords.2] at hs
      exact ⟨bs, c, hbefore, hnames ▸ Universe.mem_names_of_closest? hs⟩
  | duplicateFactor name =>
      have hdeclared : name ∈ c.world.names := haccords
      exact .duplicateFactor (covers_word hmem hfits) ⟨bs, c, hbefore, hnames ▸ hdeclared⟩
  | emptyFactor name => exact hfits.elim

/-- A story that does not compile is refused for a fault, and that is its error. -/
theorem fault_of_compile_error {e : CompileError} (h : compile source = .error e) :
    ∃ f, compileLexemes (lexemes source) = .error (.fault f) ∧ e = .ofFault source f ∧
      (∃ text, f.span.Covers source.toList text) ∧ f.node.Caused source f.span := by
  rw [compile] at h
  cases hrefused : compileLexemes (lexemes source) with
  | ok c =>
      rw [hrefused] at h
      cases h
  | error refusal =>
      rw [hrefused] at h
      cases h
      obtain ⟨f, rfl, hcovers, hcaused⟩ := compileLexemes_error_caused hrefused
      exact ⟨f, rfl, rfl, hcovers, hcaused⟩

/-- Every error points at its cause.  A word or a quoted text that was looked at is there when the
token passed is looked at again. -/
theorem compile_errors_caused (source : String) :
    (∀ e, compile source = .error e → e.PointsAtCause source) ∧
    ∀ expected r,
      (Reading.takeAgain Reading.pickWord expected).run r =
        ((Reading.word expected).run r).map (fun x => (some x.1, x.2)) ∧
      (Reading.takeAgain Reading.pickText expected).run r =
        ((Reading.text expected).run r).map (fun x => (some x.1, x.2)) := by
  refine ⟨fun e h => ?_, fun expected r => ⟨(Reading.picks_word expected).run_takeAgain r,
    (Reading.picks_text expected).run_takeAgain r⟩⟩
  obtain ⟨f, -, rfl, hcovers, hcaused⟩ := fault_of_compile_error h
  exact ⟨f.node, f.span, rfl, rfl, hcovers, hcaused⟩

end Stories

/-- A story that misspells the name of a factor. -/
def misspelledStory : String := "factor moon: (full)\ndescription: (moo = full, \"\")"

/-- The error points at the name and suggests the factor before it. -/
theorem compile_errors_caused_misspelled : ∃ e, compile misspelledStory = .error e ∧
    e = .story ⟨.undefinedFactor "moo" (some "moon"), ⟨34, 37⟩⟩ ⟨2, 15⟩ ∧
    e.PointsAtCause misspelledStory := by
  have herror : (compile misspelledStory).map (fun _ => ()) =
      .error (.story ⟨.undefinedFactor "moo" (some "moon"), ⟨34, 37⟩⟩ ⟨2, 15⟩) := by
    decide +kernel
  have hcompile := compile_eq_error_of_map herror
  exact ⟨_, hcompile, rfl, (compile_errors_caused misspelledStory).1 _ hcompile⟩

end Storyworld
