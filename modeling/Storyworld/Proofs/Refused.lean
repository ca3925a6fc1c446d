import Storyworld.Proofs.Causes
import Storyworld.Proofs.GoesOn

/-!
# A refused story with more behind it

A story that is refused is not rescued by what is written behind it, on a new line.  Its
lexemes go on there (`goOn_lexemesFrom_line`), and so the longer story is refused for the
same (`compile_error_append_line`), at the same position, since the position of a place
depends on what stands before it alone.

Two things are left out.  A story that is refused for the end of input may go on well.  And
a name is judged after the token behind it was looked at: where the story ends with the name,
that is the first lexeme of the text behind it, and if this is no token it is what the longer
story is refused for.
-/

namespace Storyworld

/-! ## Lexemes -/

/-- The lexemes of a text go on behind a line break. -/
theorem goOn_lexemesFrom_line {offset : Nat} {cs rest : List Char} {next : Lexeme}
    {more : List Lexeme} (hrest : lexemesFrom (offset + byteLength cs + 1) rest = next :: more) :
    Lexeme.GoOn next more (lexemesFrom offset cs) (lexemesFrom offset (cs ++ '\n' :: rest)) := by
  fun_induction lexemesFrom offset cs with
  | case1 offset =>
      have hscan : scan '\n' rest = (none, 0) := rfl
      rw [List.nil_append, lexemesFrom, hscan]
      show Lexeme.GoOn next more _ (lexemesFrom (offset + byteLength [] + 1) rest)
      rw [hrest]
      exact .finish _
  | case2 offset c cs more' stop node hscan ih =>
      by_cases hquote : node = .fault .unclosed
      · obtain ⟨m, ms, hms⟩ :=
          List.exists_cons_of_ne_nil (lexemesFrom_ne_nil offset (c :: cs ++ '\n' :: rest))
        rw [hquote, hms]
        exact .unclosed
      · have hgoes := ih (by rw [stop_add]; exact hrest)
        rw [lexemesFrom_before_line hscan (fun h => hquote (Option.some.inj h))]
        exact .same _ hgoes
  | case3 offset c cs more' stop hscan ih =>
      have hgoes := ih (by rw [stop_add]; exact hrest)
      rw [lexemesFrom_before_line hscan (by simp)]
      exact hgoes

/-- Lexemes that are refused and go on are refused for the same, if it is not the end of input.
If what follows is no token, it may be refused instead of a name before it. -/
theorem compileLexemes_goOn {next : Lexeme} {more ls ms : List Lexeme}
    (h : Lexeme.GoOn next more ls ms) {e : Refusal} (he : compileLexemes ls = .error e)
    (hend : ¬ e.AtEnd) :
    compileLexemes ms = .error e ∨ e.Late ∧ ∃ f span, next = ⟨.fault f, span⟩ ∧
      compileLexemes ms = .error (.fault ⟨f.fault, span⟩) := by
  cases h with
  | finish span => cases he
  | unclosed =>
      cases he
      exact absurd ⟨_, _, rfl⟩ hend
  | @same l ls ms h =>
      obtain ⟨node, span⟩ := l
      cases node with
      | fault f =>
          cases he
          exact .inl rfl
      | token t =>
          let r (ahead : List Lexeme) : Reader := ⟨⟨t, span⟩, ahead, .empty, [], []⟩
          have hcompile (ls : List Lexeme) : compileLexemes (⟨.token t, span⟩ :: ls) =
              ((Reading.blocks (ls.length + 1)).run (r ls)).map fun x => x.2.done :=
            Reading.compileLexemes_ofToken_cons ⟨t, span⟩ ls
          have hr : (r ls).GoOn next more (r ms) := ⟨rfl, h, rfl⟩
          have hfate := (Reading.goesOn_blocks (ls.length + 1) (ms.length + 1)).longer _ _ hr
            (Nat.le_succ _) (Nat.le_succ _)
          rw [hcompile] at he ⊢
          cases hrun : (Reading.blocks (ls.length + 1)).run (r ls) with
          | ok x =>
              rw [hrun] at he
              cases he
          | error e' =>
              rw [hrun] at he hfate
              cases he
              rcases hfate.of_error hend with hsame | ⟨hlate, f, place, hnext, hlater⟩
              · rw [hsame]
                exact .inl rfl
              · rw [hlater]
                exact .inr ⟨hlate, f, place, hnext, rfl⟩

/-! ## Stories -/

/-- The position of a place is the same whatever stands behind the text. -/
theorem Span.Covers.locate_append {source : String} {span : Span} {text : List Char}
    (h : span.Covers source.toList text) (behind : String) :
    Position.locate (source ++ behind) span.start = Position.locate source span.start := by
  obtain ⟨pre, post, hsplit, rfl⟩ := h
  have halone := charsBefore_byteLength_append pre (text ++ post)
  have hmore := charsBefore_byteLength_append pre (text ++ (post ++ behind.toList))
  simp only [← List.append_assoc] at halone hmore
  rw [Position.locate, Position.locate, String.toList_append, hsplit, hmore, halone]

/-- An error for the name of a factor. -/
inductive CompileError.OfName : CompileError → Prop
  | undefinedFactor (name : String) (suggestion : Option String) (place : Span)
      (position : Position) : OfName (.story ⟨.undefinedFactor name suggestion, place⟩ position)
  | duplicateFactor (name : String) (place : Span) (position : Position) :
      OfName (.story ⟨.duplicateFactor name, place⟩ position)

/-- A story that is refused, and not for the end of input, is refused for the same with any text
behind it on a new line.  If it is refused for the name of a factor it may be refused for the
lexeme that the text behind begins with instead, if that is no token. -/
theorem compile_error_append_line {story : String} {e : CompileError} (h : compile story = .error e)
    (hend : ∀ expected span position,
      e ≠ .story ⟨.unexpected expected "end of input", span⟩ position) (behind : String) :
    compile (story ++ "\n" ++ behind) = .error e ∨
    e.OfName ∧ ∃ f span more,
      lexemesFrom (byteLength story.toList + 1) behind.toList = ⟨.fault f, span⟩ :: more ∧
      byteLength story.toList + 1 ≤ span.start ∧
      compile (story ++ "\n" ++ behind) =
        .error (.ofFault (story ++ "\n" ++ behind) ⟨f.fault, span⟩) := by
  obtain ⟨next, more, hbehind⟩ :=
    List.exists_cons_of_ne_nil (lexemesFrom_ne_nil (byteLength story.toList + 1) behind.toList)
  have hgoes : Lexeme.GoOn next more (lexemes story) (lexemes (story ++ "\n" ++ behind)) := by
    rw [lexemes, lexemes, String.toList_append, String.toList_append, List.append_assoc]
    exact goOn_lexemesFrom_line ((Nat.zero_add (byteLength story.toList)).symm ▸ hbehind)
  obtain ⟨f, hrefused, rfl, ⟨text, hcovers⟩, hcaused⟩ := fault_of_compile_error h
  have hnotEnd : ¬ (Refusal.fault f).AtEnd := by
    rintro ⟨expected, span, hf⟩
    cases hf
    exact hend _ _ _ rfl
  rcases compileLexemes_goOn hgoes hrefused hnotEnd with hsame | ⟨hlate, g, span, rfl, hlater⟩
  · have hposition := hcovers.locate_append ("\n" ++ behind)
    rw [← String.append_assoc] at hposition
    rw [compile, hsame]
    exact .inl (congrArg (fun p => Except.error (CompileError.story f p)) hposition)
  · refine .inr ⟨?_, g, span, more, hbehind, ?_, ?_⟩
    · obtain ⟨fault, place⟩ := f
      cases fault with
      | unexpected expected found => exact absurd rfl (hlate expected found place)
      | undefinedFactor name suggestion => exact .undefinedFactor ..
      | duplicateFactor name => exact .duplicateFactor ..
      | emptyFactor name => cases hcaused
    · exact le_start_of_mem_lexemesFrom (hbehind ▸ List.mem_cons_self)
    · rw [compile, hlater]
      rfl

/-- A story that ends with the name of a factor that is not declared. -/
def namingStory : String := "factor a: (x)\ndescription: (b"

/-- A character that is no token stands behind the name, and the longer story is refused for it. -/
theorem compile_error_append_line_naming : ∃ e, compile namingStory = .error e ∧
    (∀ expected span position,
      e ≠ .story ⟨.unexpected expected "end of input", span⟩ position) ∧
    (compile (namingStory ++ "\n" ++ "é") = .error e ∨
      e.OfName ∧ ∃ f span more,
        lexemesFrom (byteLength namingStory.toList + 1) "é".toList = ⟨.fault f, span⟩ :: more ∧
        byteLength namingStory.toList + 1 ≤ span.start ∧
        compile (namingStory ++ "\n" ++ "é") =
          .error (.ofFault (namingStory ++ "\n" ++ "é") ⟨f.fault, span⟩)) ∧
    compile (namingStory ++ "\n" ++ "é") ≠ .error e := by
  have herror : (compile namingStory).map (fun _ => ()) =
      .error (.story ⟨.undefinedFactor "b" none, ⟨28, 29⟩⟩ ⟨2, 15⟩) := by
    decide +kernel
  have hlonger : (compile (namingStory ++ "\n" ++ "é")).map (fun _ => ()) =
      .error (.story ⟨.unexpected "a token" "\"é\"", ⟨30, 32⟩⟩ ⟨3, 1⟩) := by
    decide +kernel
  have hcompile := compile_eq_error_of_map herror
  refine ⟨_, hcompile, nofun, compile_error_append_line hcompile nofun "é", ?_⟩
  rw [compile_eq_error_of_map hlonger]
  exact nofun

end Storyworld
