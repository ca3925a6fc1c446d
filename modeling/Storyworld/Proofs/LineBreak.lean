import Storyworld.Proofs.Accepts
import Storyworld.Proofs.Boundaries
import Storyworld.Proofs.Partition
import Storyworld.Proofs.Shifted

/-!
# Across a line break

A line break ends every word, number and comment, and it is passed over by itself.
So what stands before it has the lexemes it has alone (`lexemesFrom_before_line`), and what
stands behind it is read from its own beginning (`lexemesFrom_line`).  The exception is a
quote that is not closed before the line break: characters behind it may close it.

A story that has tokens has no such quote.  Its tokens stand in front of those of any
text behind a line break, which are its own, further on, and if it has none its fault
is its own, further on (`tokens_append_line`).  The place of a fault is further on by
the bytes of the story, and its position by the lines of the story, in the same column
(`Position.locate_append_line`).
-/

namespace Storyworld

/-! ## Lexemes -/

theorem replaces_line (c : Char) (behind rest : List Char) :
    Replaces c behind (behind ++ '\n' :: rest) := by
  cases behind with
  | nil => exact .inr (.inl rfl)
  | cons d behind => exact .inl rfl

/-- What is read first of a text does not see a line break behind it, or anything behind that. -/
theorem lexemesFrom_before_line {c : Char} {cs : List Char} {found : Option Reading} {more : Nat}
    (h : scan c cs = (found, more)) (hquote : found ≠ some (.fault .unclosed)) (offset : Nat)
    (rest : List Char) :
    lexemesFrom offset (c :: cs ++ '\n' :: rest) =
      found.toList.map (⟨·, ⟨offset, offset + byteLength (c :: cs.take more)⟩⟩) ++
        lexemesFrom (offset + byteLength (c :: cs.take more)) (cs.drop more ++ '\n' :: rest) := by
  have hbefore := lexemesFrom_before h hquote (replaces_line c (cs.drop more) rest) offset
  rwa [← List.append_assoc, List.cons_append, List.take_append_drop] at hbefore

/-- The lexemes of a text with a line break behind it are those of the text, but for the
end, and then those of what follows the line break. -/
theorem lexemesFrom_line {offset : Nat} {cs : List Char}
    (hquote : ∀ l ∈ lexemesFrom offset cs, l.node ≠ .fault .unclosed) (rest : List Char) :
    ∃ pieces, lexemesFrom offset cs = pieces ++ [.closing (offset + byteLength cs)] ∧
      lexemesFrom offset (cs ++ '\n' :: rest) =
        pieces ++ lexemesFrom (offset + byteLength cs + 1) rest := by
  fun_induction lexemesFrom offset cs with
  | case1 offset =>
      refine ⟨[], rfl, ?_⟩
      have hscan : scan '\n' rest = (none, 0) := rfl
      rw [List.nil_append, lexemesFrom, hscan]
      rfl
  | case2 offset c cs more stop node hscan ih =>
      obtain ⟨hnode, hrest⟩ := List.forall_mem_cons.mp hquote
      obtain ⟨pieces, hpieces, hboth⟩ := ih hrest
      rw [stop_add] at hpieces hboth
      refine ⟨⟨node, ⟨offset, stop⟩⟩ :: pieces, congrArg (_ :: ·) hpieces, ?_⟩
      rw [lexemesFrom_before_line hscan (fun h => hnode (Option.some.inj h)), hboth]
      rfl
  | case3 offset c cs more stop hscan ih =>
      obtain ⟨pieces, hpieces, hboth⟩ := ih hquote
      rw [stop_add] at hpieces hboth
      refine ⟨pieces, hpieces, ?_⟩
      rw [lexemesFrom_before_line hscan (by simp), hboth]
      rfl

/-- The tokens of a story stand in front of the lexemes of a text behind a line break. -/
theorem lexemes_append_line {story : String} {ts : List (Spanned Token)} {stop : Span}
    (h : tokens story = .ok (ts ++ [⟨.finish, stop⟩])) (behind : String) :
    lexemes (story ++ "\n" ++ behind) = ts.map Lexeme.ofToken ++
      lexemesFrom (byteLength story.toList + 1) behind.toList := by
  have hstory : lexemesFrom 0 story.toList =
      ts.map Lexeme.ofToken ++ [.ofToken ⟨.finish, stop⟩] := by
    rw [← lexemes, tokens_eq_ok.mp h, List.map_append]
    rfl
  have hquote : ∀ l ∈ lexemesFrom 0 story.toList, l.node ≠ .fault .unclosed := by
    intro l hl
    rw [← lexemes, tokens_eq_ok.mp h] at hl
    obtain ⟨t, -, rfl⟩ := List.mem_map.mp hl
    intro hfault
    cases hfault
  obtain ⟨pieces, hpieces, hline⟩ := lexemesFrom_line hquote behind.toList
  obtain ⟨rfl, -⟩ := List.append_inj' (hpieces.symm.trans hstory) rfl
  rw [lexemes, String.toList_append, String.toList_append, List.append_assoc,
    ← Nat.zero_add (byteLength story.toList), ← hline]
  rfl

/-! ## Tokens -/

/-- What a lexeme is does not depend on where it stands. -/
theorem Lexeme.token_shift (offset : Nat) (l : Lexeme) :
    Lexeme.token (l.shift offset) =
      (l.token.map (Spanned.shift offset)).mapError (Spanned.shift offset) := by
  obtain ⟨node, span⟩ := l
  cases node <;> rfl

theorem mapM_token_shift (offset : Nat) (ls : List Lexeme) :
    (ls.map (Spanned.shift offset)).mapM Lexeme.token =
      ((ls.mapM Lexeme.token).map (List.map (Spanned.shift offset))).mapError
        (Spanned.shift offset) := by
  induction ls with
  | nil => rfl
  | cons l ls ih =>
      rw [List.map_cons, List.mapM_cons, List.mapM_cons, ih, Lexeme.token_shift]
      cases l.token with
      | error f => rfl
      | ok t => cases ls.mapM Lexeme.token <;> rfl

/-- Behind a line break the tokens of a text, or its first fault, are what they are alone,
further on. -/
theorem tokens_append_line {story : String} {ts : List (Spanned Token)} {stop : Span}
    (h : tokens story = .ok (ts ++ [⟨.finish, stop⟩])) (behind : String) :
    tokens (story ++ "\n" ++ behind) =
      ((tokens behind).map fun us =>
        ts ++ us.map (Spanned.shift (byteLength story.toList + 1))).mapError
          (Spanned.shift (byteLength story.toList + 1)) := by
  have hbehind : lexemesFrom (byteLength story.toList + 1) behind.toList =
      (lexemes behind).map (Spanned.shift (byteLength story.toList + 1)) :=
    lexemesFrom_shift (byteLength story.toList + 1) 0 behind.toList
  rw [tokens, lexemes_append_line h, hbehind, List.mapM_append, mapM_token_map, mapM_token_shift,
    tokens]
  cases (lexemes behind).mapM Lexeme.token <;> rfl

/-- The last token of a story is its end, and no other is. -/
theorem tokens_finish {story : String} {ts : List (Spanned Token)} (h : tokens story = .ok ts) :
    ∃ front, ts = front ++ [⟨.finish, ⟨byteLength story.toList, byteLength story.toList⟩⟩] ∧
      ∀ t ∈ front, t.node ≠ .finish := by
  obtain ⟨init, stop, hinit, hnone⟩ := closed_lexemes story
  obtain ⟨pieces, hpieces, -⟩ := ordered_lexemes story
  obtain ⟨rfl, -⟩ := List.append_inj' (hinit.symm.trans hpieces) rfl
  rw [tokens_eq_ok.mp h] at hpieces
  obtain ⟨front, last, rfl, hfront, hlast⟩ := List.map_eq_append_iff.mp hpieces
  obtain ⟨⟨node, place⟩, rfl, heq⟩ := List.map_eq_singleton_iff.mp hlast
  cases heq
  refine ⟨front, rfl, fun t ht hnode => ?_⟩
  exact hnone (.ofToken t) (hfront ▸ List.mem_map_of_mem ht) (congrArg Reading.token hnode)

/-! ## Positions -/

namespace Position

/-- A position so many lines further down. -/
def below (lines : Nat) (p : Position) : Position := ⟨lines + p.line, p.column⟩

theorem foldl_after_below (lines : Nat) (cs : List Char) (p : Position) :
    cs.foldl after (p.below lines) = (cs.foldl after p).below lines := by
  induction cs generalizing p with
  | nil => rfl
  | cons c cs ih =>
      have hstep : (p.below lines).after c = (p.after c).below lines := by
        rw [after, after]
        split <;> rfl
      rw [List.foldl_cons, List.foldl_cons, hstep, ih]

/-- Behind a line break positions are further down by the lines of the text before it. -/
theorem locate_append_line (story behind : String) (offset : Nat) :
    locate (story ++ "\n" ++ behind) (byteLength story.toList + 1 + offset) =
      (locate behind offset).below (story.toList.count '\n' + 1) := by
  have hline : byteLength (story.toList ++ ['\n']) = byteLength story.toList + 1 := by
    rw [byteLength_append]
    rfl
  have hfront : (story.toList ++ ['\n']).foldl after first =
      first.below (story.toList.count '\n' + 1) := by
    rw [List.foldl_append, foldl_after_first]
    rfl
  have htext : (story ++ "\n" ++ behind).toList = (story.toList ++ ['\n']) ++ behind.toList := by
    rw [String.toList_append, String.toList_append]
    rfl
  rw [locate, locate, htext, ← hline, charsBefore_append, List.foldl_append, hfront,
    foldl_after_below]

end Position

/-! ## Stories -/

theorem tokenize_eq_ok {source : String} {ts : List (Spanned Token)} :
    tokenize source = .ok ts ↔ tokens source = .ok ts := by
  rw [tokenize]
  cases tokens source <;> simp [Except.mapError]

theorem tokenize_eq_error {source : String} {e : CompileError} :
    tokenize source = .error e ↔
      ∃ f, tokens source = .error f ∧ e = .ofFault source (f.map LexicalFault.fault) := by
  rw [tokenize]
  cases tokens source <;> simp [Except.mapError, eq_comm]

/-- A story that has tokens may have any text behind it on a new line.  Its tokens but the end
are followed by those of the text, further on by the bytes of the story and the line break.  If
the text has none, its error is that of both, further on as well: it says the same, and its
position is further down by the lines of the story. -/
theorem tokenize_append_line {story : String} {ts : List (Spanned Token)}
    (h : tokenize story = .ok ts) (behind : String) :
    ∃ front, ts = front ++ [⟨.finish, ⟨byteLength story.toList, byteLength story.toList⟩⟩] ∧
      (∀ t ∈ front, t.node ≠ .finish) ∧
      (∀ us, tokenize behind = .ok us → tokenize (story ++ "\n" ++ behind) =
        .ok (front ++ us.map (Spanned.shift (byteLength story.toList + 1)))) ∧
      ∀ e, tokenize behind = .error e → ∃ expected found span,
        e = .story ⟨.unexpected expected found, span⟩ (.locate behind span.start) ∧
        tokenize (story ++ "\n" ++ behind) =
          .error (.story ⟨.unexpected expected found, span.shift (byteLength story.toList + 1)⟩
            (.locate (story ++ "\n" ++ behind) (byteLength story.toList + 1 + span.start))) ∧
        Position.locate (story ++ "\n" ++ behind) (byteLength story.toList + 1 + span.start) =
          (Position.locate behind span.start).below (story.toList.count '\n' + 1) := by
  have htokens := tokenize_eq_ok.mp h
  obtain ⟨front, rfl, hfront⟩ := tokens_finish htokens
  have hline := tokens_append_line htokens behind
  refine ⟨front, rfl, hfront, fun us hus => ?_, fun e he => ?_⟩
  · rw [tokenize_eq_ok.mp hus] at hline
    exact tokenize_eq_ok.mpr hline
  · obtain ⟨f, hf, rfl⟩ := tokenize_eq_error.mp he
    rw [hf] at hline
    refine ⟨f.node.expected, f.node.found, f.span, rfl, ?_, Position.locate_append_line ..⟩
    exact tokenize_eq_error.mpr ⟨_, hline, rfl⟩

/-- A number with a bare point, and a comment with a quote in it that goes on to the end. -/
def commentedStory : String := "a 1. % \"é"

/-- A digit behind does not go on with the number, and the quote in the comment opens no text that
one on the second line behind would close. -/
theorem tokenize_append_line_commented : ∃ ts, tokenize commentedStory = .ok ts ∧
    (∃ us, tokenize ".5" = .ok us ∧ tokenize (commentedStory ++ "\n" ++ ".5") =
      .ok (ts.dropLast ++ us.map (Spanned.shift 11))) ∧
    tokenize ".5\n\"x" =
      .error (.story ⟨.unexpected "closing `\"`" "end of input", ⟨3, 4⟩⟩ ⟨2, 1⟩) ∧
    tokenize (commentedStory ++ "\n" ++ ".5\n\"x") =
      .error (.story ⟨.unexpected "closing `\"`" "end of input", ⟨14, 15⟩⟩ ⟨3, 1⟩) := by
  have hstory : tokenize commentedStory = .ok [⟨.word "a", ⟨0, 1⟩⟩, ⟨.decimal (.ofNat 1), ⟨2, 4⟩⟩,
      ⟨.finish, ⟨10, 10⟩⟩] := tokenize_eq_ok.mpr (tokens_eq_ok.mpr (by decide +kernel))
  have hdigit : tokenize ".5" = .ok [⟨.decimal (.ofRatio 1 2), ⟨0, 2⟩⟩, ⟨.finish, ⟨2, 2⟩⟩] :=
    tokenize_eq_ok.mpr (tokens_eq_ok.mpr (by decide +kernel))
  have hquote : tokenize ".5\n\"x" =
      .error (.story ⟨.unexpected "closing `\"`" "end of input", ⟨3, 4⟩⟩ ⟨2, 1⟩) :=
    tokenize_eq_error.mpr ⟨⟨.unclosed, ⟨3, 4⟩⟩, by decide +kernel, by decide +kernel⟩
  obtain ⟨front, hfront, -, hok, -⟩ := tokenize_append_line hstory ".5"
  obtain ⟨-, -, -, -, herror⟩ := tokenize_append_line hstory ".5\n\"x"
  obtain ⟨expected, found, span, heq, hboth, hposition⟩ := herror _ hquote
  cases heq
  refine ⟨_, hstory, ⟨_, hdigit, ?_⟩, hquote, ?_⟩
  · rw [hfront, List.dropLast_concat]
    exact hok _ hdigit
  · rw [hboth, hposition]
    decide +kernel

end Storyworld
