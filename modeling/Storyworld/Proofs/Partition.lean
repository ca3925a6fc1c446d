import Storyworld.Proofs.Munch
import Storyworld.Story.Cursor

/-!
# A story cut into pieces

The lexemes of a story cut its text into pieces with gaps between them (`Cut`).  A gap
has blanks and comments only, and a piece is what `Spelled` says of its reading.

That a word or a number is not part of a longer one is not seen from what stands
behind it alone.  It needs that none goes over the border at which the piece begins
(`Parted`).  Every piece and every gap leaves such a border behind, so all borders of
a story are (`Parted.append`).

A cursor gives the lexemes one after the other and then the last of them for ever
(`Cursor.answers_eq`).
-/

namespace Storyworld

/-! ## Borders -/

/-- No word and no run of digits goes over the border between two texts. -/
def Parted (pre rest : List Char) : Prop :=
  ∀ before after, before <:+ pre → after <+: rest → before ≠ [] → after ≠ [] →
    ¬ Pattern.word.Matches (before ++ after) ∧ ¬ Pattern.whole.Matches (before ++ after)

theorem parted_nil (rest : List Char) : Parted [] rest :=
  fun _ _ hbefore _ hne => absurd (List.suffix_nil.mp hbefore) hne

/-- What goes over a border behind a text begins in the text or goes over the one before. -/
theorem Parted.append {pre text rest : List Char} (h : Parted pre (text ++ rest))
    (htext : Parted text rest) : Parted (pre ++ text) rest := by
  intro before after hbefore hafter hne hne'
  rcases List.suffix_or_suffix_of_suffix hbefore (List.suffix_append pre text) with hin | hover
  · exact htext before after hin hafter hne hne'
  · obtain ⟨start, rfl⟩ := hover
    cases start with
    | nil => exact htext text after (List.suffix_refl text) hafter hne hne'
    | cons c start =>
        have hstart : c :: start <:+ pre := by
          obtain ⟨front, hfront⟩ := hbefore
          rw [← List.append_assoc] at hfront
          exact ⟨front, List.append_cancel_right hfront⟩
        have hmore : text ++ after <+: text ++ rest :=
          (List.prefix_append_right_inj text).mpr hafter
        have hparted := h (c :: start) (text ++ after) hstart hmore (List.cons_ne_nil _ _)
          (List.append_ne_nil_of_right_ne_nil text hne')
        rwa [← List.append_assoc] at hparted

/-- Characters of a word or a number are word characters. -/
theorem isWordChar_of_matches {text : List Char}
    (h : Pattern.word.Matches text ∨ Pattern.whole.Matches text) :
    ∀ c ∈ text, isWordChar c = true := by
  rcases h with hword | hwhole
  · exact isWordChar_of_isWord hword
  · exact fun c hc => isWordChar_of_isDigit (hwhole.2 c hc)

theorem parted_of_crossing {pre rest : List Char}
    (h : ∀ before after, before <:+ pre → after <+: rest → before ≠ [] → after ≠ [] →
      ¬ ∀ c ∈ before ++ after, isWordChar c = true) : Parted pre rest := by
  intro before after hbefore hafter hne hne'
  have hnot := h before after hbefore hafter hne hne'
  exact ⟨fun hword => hnot (isWordChar_of_matches (.inl hword)),
    fun hwhole => hnot (isWordChar_of_matches (.inr hwhole))⟩

theorem parted_of_bars {rest : List Char} (hrest : Bars isWordChar rest) (text : List Char) :
    Parted text rest := by
  refine parted_of_crossing fun before after _ hafter _ hne hall => ?_
  obtain ⟨c, after, rfl⟩ := List.exists_cons_of_ne_nil hne
  obtain ⟨behind, rfl⟩ := hafter
  have hc : isWordChar c = true := hall c (List.mem_append_right before List.mem_cons_self)
  exact absurd (hrest c rfl) (ne_false_of_eq_true hc)

theorem parted_of_last {c : Char} (hc : isWordChar c = false) (text rest : List Char) :
    Parted (text ++ [c]) rest := by
  refine parted_of_crossing fun before after hbefore _ hne _ hall => ?_
  have hlast : [c] <:+ before := List.suffix_of_suffix_length_le (List.suffix_append text [c])
    hbefore (List.length_pos_iff.mpr hne)
  have hmem : c ∈ before ++ after := List.mem_append_left after (hlast.subset List.mem_cons_self)
  exact absurd hc (ne_false_of_eq_true (hall c hmem))

/-- A number ends where no digit follows, and a word does not begin within it. -/
theorem parted_of_number {text rest : List Char} (htext : ∀ c ∈ text, isNumberChar c = true)
    (hrest : Bars Char.isDigit rest) : Parted text rest := by
  intro before after hbefore hafter hne hne'
  constructor
  · intro hword
    obtain ⟨c, before, rfl⟩ := List.exists_cons_of_ne_nil hne
    obtain ⟨d, run, heq, hd, -⟩ := isWord_ofList.mp hword
    obtain rfl : c = d := (List.cons.inj heq).1
    rcases Bool.or_eq_true_iff.mp (htext c (hbefore.subset List.mem_cons_self)) with hdigit | hpoint
    · exact absurd (isDigit_of_isWordStart hd) (ne_false_of_eq_true hdigit)
    · rw [eq_of_beq hpoint] at hd
      cases hd
  · intro hwhole
    obtain ⟨c, after, rfl⟩ := List.exists_cons_of_ne_nil hne'
    obtain ⟨behind, rfl⟩ := hafter
    have hc : c.isDigit = true := hwhole.2 c (List.mem_append_right before List.mem_cons_self)
    exact absurd (hrest c rfl) (ne_false_of_eq_true hc)

/-- Nothing goes over the border behind what is read. -/
theorem Spelled.parted {text post : List Char} {node : Reading} (h : Spelled text post node) :
    Parted text post := by
  have hdigit : ∀ c, c.isDigit = true → isNumberChar c = true := fun c hc => by
    rw [isNumberChar, hc, Bool.true_or]
  have hwhole : Digits text → Bars isNumberChar post → Parted text post := fun hdigits hpost =>
    parted_of_number (fun c hc => hdigit c (hdigits c hc)) (hpost.mono hdigit)
  cases node with
  | token t =>
      cases t with
      | mark m =>
          obtain rfl : text = [m.char] := h
          exact parted_of_last (isWordChar_char m) [] post
      | keyword k => exact parted_of_bars h.2 text
      | word name => exact parted_of_bars h.2.2.2 text
      | whole n => exact hwhole h.2.1 h.2.2.1
      | decimal x =>
          obtain ⟨whole, fraction, rfl, hwhole, hfraction, hne, hpost, -⟩ := h
          have hmatched : Pattern.decimal.Matches (whole ++ '.' :: fraction) :=
            ⟨whole, fraction, rfl, hwhole, hfraction, hne⟩
          exact parted_of_number (isNumberChar_of_matches hmatched (.inl rfl)) hpost
      | text content =>
          obtain ⟨rfl, -⟩ := h
          exact parted_of_last rfl ('"' :: content.toList) post
      | finish => exact h.elim
  | fault f =>
      cases f with
      | unknown c =>
          obtain ⟨rfl, hunmatched⟩ := h
          refine parted_of_last (Bool.eq_false_iff.mpr fun hc => ?_) [] post
          have hfront : [c] <+: c :: post := List.prefix_append [c] post
          rcases Bool.or_eq_true_iff.mp hc with hstart | hdigit
          · have hword : IsWord (.ofList [c]) :=
              isWord_ofList.mpr ⟨c, [], rfl, hstart, List.forall_mem_nil _⟩
            exact hunmatched .word [c] hword hfront
          · exact hunmatched .whole [c]
              ⟨List.cons_ne_nil _ _, List.forall_mem_singleton.mpr hdigit⟩ hfront
      | unclosed =>
          obtain ⟨rfl, -⟩ := h
          exact parted_of_last rfl [] post
      | tooLarge digits => exact hwhole h.2.2.1 h.2.2.2.1

/-! ## Pieces -/

/-- A text is no part of a longer one that a pattern matches where it stands. -/
structure Maximal (p : Pattern) (pre text post : List Char) : Prop where
  /-- The pattern matches the text. -/
  matched : p.Matches text
  /-- It matches no more around the text. -/
  only : ∀ before after, before <:+ pre → after <+: post →
    p.Matches (before ++ text ++ after) → before = [] ∧ after = []

/-- A piece of a story: what is read of it, which pattern won there, and that words and
whole numbers are no parts of longer ones. -/
structure Excerpt (pre text post : List Char) (node : Reading) : Prop where
  /-- What the text is. -/
  spelled : Spelled text post node
  /-- Which pattern matches the most. -/
  munched : Munched text post node
  /-- Words and keywords go as far as they can on both sides. -/
  word : (node.pattern? = some .word ∨ ∃ k, node.pattern? = some (.keyword k)) →
    Maximal .word pre text post
  /-- Numbers without a point go as far as they can on both sides. -/
  whole : node.pattern? = some .whole → Maximal .whole pre text post

theorem maximal_of_parted {p : Pattern} {pre text post : List Char}
    (hp : p = .word ∨ p = .whole) (htext : p.Matches text) (hpre : Parted pre (text ++ post))
    (hpost : Parted text post) : Maximal p pre text post := by
  have hne : text ≠ [] := by
    obtain ⟨c, rest, rfl, -⟩ := htext.begins
    exact List.cons_ne_nil c rest
  have hnot : ∀ {x y : List Char}, ¬ Pattern.word.Matches (x ++ y) ∧
      ¬ Pattern.whole.Matches (x ++ y) → ¬ p.Matches (x ++ y) := by
    intro x y given
    rcases hp with rfl | rfl
    · exact given.1
    · exact given.2
  refine ⟨htext, fun before after hbefore hafter hmatches => ?_⟩
  have hnil : before = [] := by
    by_contra hsome
    rw [List.append_assoc] at hmatches
    exact hnot (hpre before (text ++ after) hbefore
      ((List.prefix_append_right_inj text).mpr hafter) hsome
      (List.append_ne_nil_of_left_ne_nil hne after)) hmatches
  subst hnil
  refine ⟨rfl, ?_⟩
  by_contra hsome
  exact hnot (hpost text after (List.suffix_refl text) hafter hne hsome) hmatches

theorem Spelled.excerpt {pre text post : List Char} {node : Reading} (h : Spelled text post node)
    (hpre : Parted pre (text ++ post)) : Excerpt pre text post node where
  spelled := h
  munched := h.munched
  word hpattern := by
    refine maximal_of_parted (.inl rfl) ?_ hpre h.parted
    match node, h, hpattern with
    | .token (.keyword k), h, _ =>
        obtain ⟨rfl, -⟩ := h
        exact isWord_keyword_ofList k
    | .token (.word name), h, _ =>
        obtain ⟨rfl, hword, -⟩ := h
        rwa [← String.ofList_toList (s := name)] at hword
  whole hpattern := by
    refine maximal_of_parted (.inr rfl) ?_ hpre h.parted
    match node, h, hpattern with
    | .token (.whole n), h, _ => exact ⟨h.1, h.2.1⟩
    | .fault (.tooLarge digits), h, _ => exact ⟨h.2.1, h.2.2.1⟩

/-! ## Gaps -/

/-- What may stand between two pieces, where other characters follow it: blanks, and
comments that go up to a line feed or to the end. -/
inductive Gap : List Char → List Char → Prop
  /-- Nothing. -/
  | none (behind : List Char) : Gap [] behind
  /-- A blank. -/
  | blank {c : Char} {gap behind : List Char} : isSpace c = true → Gap gap behind →
      Gap (c :: gap) behind
  /-- A comment. -/
  | comment {line gap behind : List Char} : '\n' ∉ line →
      (gap ++ behind = [] ∨ (gap ++ behind).head? = some '\n') → Gap gap behind →
      Gap ('%' :: line ++ gap) behind

/-- The lexemes that stand in a text behind another, and nothing but gaps between them.
The last of them is the end. -/
inductive Cut : List Char → List Char → List Lexeme → Prop
  /-- Only the end is left. -/
  | finish {pre gap : List Char} : Gap gap [] → Cut pre gap [.closing (byteLength (pre ++ gap))]
  /-- A piece, and what stands behind it. -/
  | piece {pre gap text post : List Char} {node : Reading} {lexemes : List Lexeme} :
      Gap gap (text ++ post) → Excerpt (pre ++ gap) text post node →
      Cut (pre ++ gap ++ text) post lexemes →
      Cut pre (gap ++ text ++ post)
        (⟨node, ⟨byteLength (pre ++ gap), byteLength (pre ++ gap ++ text)⟩⟩ :: lexemes)

/-- What is passed over becomes part of the gap before the next piece. -/
theorem Cut.over {pre skipped rest : List Char} {ls : List Lexeme}
    (h : Cut (pre ++ skipped) rest ls)
    (hskip : ∀ gap behind, gap ++ behind = rest → Gap gap behind → Gap (skipped ++ gap) behind) :
    Cut pre (skipped ++ rest) ls := by
  cases h with
  | finish hgap =>
      rw [List.append_assoc]
      exact .finish (hskip rest [] (List.append_nil rest) hgap)
  | @piece _ gap text post node ls hgap hpiece hcut =>
      have hgap := hskip gap (text ++ post) (List.append_assoc gap text post).symm hgap
      simp only [List.append_assoc pre] at hpiece hcut ⊢
      rw [← List.append_assoc] at hcut
      have hall := Cut.piece hgap hpiece hcut
      simpa only [List.append_assoc] using hall

/-- The lexemes of a text cut it. -/
theorem cut_lexemesFrom {offset : Nat} {pre cs : List Char} (hoffset : offset = byteLength pre)
    (hpre : Parted pre cs) : Cut pre cs (lexemesFrom offset cs) := by
  fun_induction lexemesFrom offset cs generalizing pre with
  | case1 offset =>
      subst hoffset
      have hfinish : Cut pre [] [.closing (byteLength (pre ++ []))] := .finish (.none [])
      rwa [List.append_nil] at hfinish
  | case2 offset c cs more stop node hscan =>
      rename_i ih
      subst hoffset
      have hspelled := spelled_of_scan hscan
      have hsplit : c :: cs = c :: cs.take more ++ cs.drop more := by
        rw [List.cons_append, List.take_append_drop]
      rw [hsplit] at hpre ⊢
      have hpost := ih (byteLength_append pre _).symm (hpre.append hspelled.parted)
      have hpiece := hspelled.excerpt hpre
      rw [← List.append_nil pre] at hpiece hpost
      have hcut := Cut.piece (Gap.none _) hpiece hpost
      simpa only [List.append_nil, List.nil_append, byteLength_append] using hcut
  | case3 offset c cs more stop hscan =>
      rename_i ih
      subst hoffset
      rcases skipped_of_scan hscan with ⟨hblank, rfl⟩ | ⟨rfl, rfl⟩
      · have hword : isWordChar c = false := by
          rw [Bool.eq_false_iff]
          exact fun hc => absurd (isSpace_of_isWordChar hc) (ne_false_of_eq_true hblank)
        have hborder : Parted (pre ++ [c]) cs :=
          Parted.append hpre (parted_of_last hword [] cs)
        have hcut := ih (byteLength_append pre [c]).symm hborder
        exact hcut.over fun gap behind _ hgap => .blank hblank hgap
      · obtain ⟨line, rest, rfl, htake, hline, hrest⟩ := exists_run (· != '\n') cs
        have hbars : Bars isWordChar rest := hrest.mono fun c hc =>
          bne_iff_ne.mpr (ne_of_isWordChar hc rfl)
        have hborder : Parted (pre ++ '%' :: line) rest :=
          Parted.append hpre (parted_of_bars hbars ('%' :: line))
        simp only [stop, htake, List.take_left, List.drop_left] at ih ⊢
        have hcut := ih (byteLength_append pre ('%' :: line)).symm hborder
        refine hcut.over fun gap behind hsplit hgap => ?_
        refine .comment (not_mem_of_takeWhile hline) ?_ hgap
        rw [hsplit]
        cases rest with
        | nil => exact .inl rfl
        | cons d rest => exact .inr (congrArg some (by simpa using hrest d rfl))

/-! ## Spans -/

/-- Where a lexeme stands, and the piece it was read from. -/
def Lexeme.StandsIn (l : Lexeme) (source : List Char) : Prop :=
  ∃ pre text post, source = pre ++ text ++ post ∧
    l.span = ⟨byteLength pre, byteLength (pre ++ text)⟩ ∧ Excerpt pre text post l.node

/-- The lexemes of a cut before the last: every one has its piece, they are in order and do
not overlap, and they are no more than the bytes. -/
structure Ordered (pre cs : List Char) (ls : List Lexeme) : Prop where
  /-- Each stands in the text. -/
  stands : ∀ l ∈ ls, l.StandsIn (pre ++ cs)
  /-- None stands before the text begins, and none is empty. -/
  nonempty : ∀ l ∈ ls, byteLength pre ≤ l.span.start ∧ l.span.start < l.span.stop
  /-- Each ends before the next begins. -/
  disjoint : ls.Pairwise fun l l' => l.span.stop ≤ l'.span.start
  /-- There are no more of them than bytes. -/
  length_le : ls.length ≤ byteLength cs

theorem byteLength_pos {text : List Char} (h : text ≠ []) : 0 < byteLength text := by
  obtain ⟨c, rest, rfl⟩ := List.exists_cons_of_ne_nil h
  exact Nat.lt_of_lt_of_le (Char.utf8Size_pos c) (Nat.le_add_right ..)

theorem Spelled.ne_nil {text post : List Char} {node : Reading} (h : Spelled text post node) :
    text ≠ [] := by
  obtain ⟨c, cs, rfl, -⟩ := h.scan_alone
  exact List.cons_ne_nil c cs

theorem Cut.ordered {pre cs : List Char} {ls : List Lexeme} (h : Cut pre cs ls) :
    ∃ pieces, ls = pieces ++ [.closing (byteLength (pre ++ cs))] ∧ Ordered pre cs pieces := by
  induction h with
  | @finish pre gap hgap =>
      exact ⟨[], rfl, ⟨List.forall_mem_nil _, List.forall_mem_nil _, .nil, Nat.zero_le _⟩⟩
  | @piece pre gap text post node ls hgap hpiece hcut ih =>
      obtain ⟨pieces, rfl, hordered⟩ := ih
      have hassoc : pre ++ (gap ++ text ++ post) = pre ++ gap ++ text ++ post := by
        simp only [List.append_assoc]
      have hpos : 0 < byteLength text := byteLength_pos hpiece.spelled.ne_nil
      have hlength := hordered.length_le
      refine ⟨⟨node, ⟨byteLength (pre ++ gap), byteLength (pre ++ gap ++ text)⟩⟩ :: pieces, ?_,
        ⟨?_, ?_, ?_, ?_⟩⟩
      · rw [hassoc, List.cons_append]
      · rw [hassoc]
        exact List.forall_mem_cons.mpr ⟨⟨pre ++ gap, text, post, rfl, rfl, hpiece⟩, hordered.stands⟩
      · refine List.forall_mem_cons.mpr ⟨⟨?_, ?_⟩, fun l hl => ?_⟩
        · simp only [byteLength_append]
          omega
        · simp only [byteLength_append]
          omega
        · have hstart := hordered.nonempty l hl
          simp only [byteLength_append] at hstart
          omega
      · exact List.pairwise_cons.mpr ⟨fun l hl => (hordered.nonempty l hl).1, hordered.disjoint⟩
      · simp only [byteLength_append, List.length_cons]
        omega

/-- The lexemes of a story before its end are in order. -/
theorem ordered_lexemes (source : String) :
    ∃ pieces, lexemes source = pieces ++ [.closing (byteLength source.toList)] ∧
      Ordered [] source.toList pieces :=
  (cut_lexemesFrom rfl (parted_nil _)).ordered

/-! ## The text at a place -/

/-- A text stands at a place of a source, between two of its characters. -/
def Span.Covers (source : List Char) (span : Span) (text : List Char) : Prop :=
  ∃ pre post, source = pre ++ text ++ post ∧
    span = ⟨byteLength pre, byteLength (pre ++ text)⟩

theorem Lexeme.StandsIn.covers {l : Lexeme} {source : List Char} (h : l.StandsIn source) :
    ∃ text, text ≠ [] ∧ l.span.Covers source text := by
  obtain ⟨pre, text, post, hsplit, hspan, hpiece⟩ := h
  exact ⟨text, hpiece.spelled.ne_nil, pre, post, hsplit, hspan⟩

/-- From where one text begins to where another ends there stands a text again. -/
theorem Span.Covers.between {source text text' : List Char} {p q : Span}
    (hp : p.Covers source text) (hq : q.Covers source text') (hlt : p.start < q.stop) :
    ∃ between, between ≠ [] ∧ Span.Covers source ⟨p.start, q.stop⟩ between := by
  obtain ⟨pre, post, hsplit, rfl⟩ := hp
  obtain ⟨pre', post', hsplit', rfl⟩ := hq
  rw [hsplit, List.append_assoc] at hsplit'
  obtain ⟨between, hpre, hbetween⟩ | ⟨rest, rfl, -⟩ := List.append_eq_append_iff.mp hsplit'
  · refine ⟨between, ?_, pre, post', ?_, ?_⟩
    · rintro rfl
      rw [hpre, List.append_nil] at hlt
      exact absurd hlt (Nat.lt_irrefl _)
    · rw [hsplit, List.append_assoc, hbetween, List.append_assoc]
    · rw [hpre]
  · have hle : byteLength (pre' ++ text') ≤ byteLength (pre' ++ text' ++ rest) := by
      rw [byteLength_append (pre' ++ text')]
      exact Nat.le_add_right ..
    exact absurd hlt (Nat.not_lt_of_le hle)

/-! ## One lexeme at a time -/

/-- The end of a text is that of what is left behind its first characters. -/
theorem stop_add (offset more : Nat) (c : Char) (cs : List Char) :
    offset + byteLength (c :: cs.take more) + byteLength (cs.drop more) =
      offset + byteLength (c :: cs) := by
  rw [Nat.add_assoc, ← byteLength_append, List.cons_append, List.take_append_drop]

namespace Cursor

/-- A call gives the first lexeme and leaves the others, or it gives the end and the cursor
stays there. -/
theorem nextFrom_cases (offset : Nat) (cs : List Char) :
    (∃ l k, nextFrom offset cs = (l, k) ∧
      lexemesFrom offset cs = l :: lexemesFrom k.offset k.rest ∧
      k.offset + byteLength k.rest = offset + byteLength cs) ∨
    nextFrom offset cs = (.closing (offset + byteLength cs), ⟨offset + byteLength cs, []⟩) ∧
      lexemesFrom offset cs = [.closing (offset + byteLength cs)] := by
  fun_induction lexemesFrom offset cs with
  | case1 offset =>
      rw [nextFrom]
      exact .inr ⟨rfl, rfl⟩
  | case2 offset c cs more stop node hscan ih =>
      rw [nextFrom, hscan]
      exact .inl ⟨_, _, rfl, rfl, stop_add offset more c cs⟩
  | case3 offset c cs more stop hscan ih =>
      rw [nextFrom, hscan, ← stop_add offset more c cs]
      exact ih

/-- The answers of a cursor are the lexemes, and then the end again and again. -/
theorem answers_eq (n : Nat) (k : Cursor) :
    k.answers n = (lexemesFrom k.offset k.rest ++
      List.replicate n (Lexeme.closing (k.offset + byteLength k.rest))).take n := by
  induction n generalizing k with
  | zero => rfl
  | succ n ih =>
      have hmore : ∀ (ls : List Lexeme) (l : Lexeme), (ls ++ List.replicate (n + 1) l).take n =
          (ls ++ List.replicate n l).take n := by
        intro ls l
        rw [List.replicate_succ', ← List.append_assoc]
        exact List.take_append_of_le_length (by simp)
      rw [answers, next]
      rcases nextFrom_cases k.offset k.rest with ⟨l, k', hnext, hlexemes, hstop⟩ | ⟨hnext, hlexemes⟩
      · simp only [hnext, hlexemes, ih, hstop, List.cons_append, List.take_succ_cons, hmore]
      · have hend : lexemesFrom (k.offset + byteLength k.rest) [] =
            [.closing (k.offset + byteLength k.rest)] := by
          rw [lexemesFrom]
          rfl
        simp only [hnext, hlexemes, ih, hend, byteLength_nil, Nat.add_zero, List.cons_append,
          List.nil_append, ← List.replicate_succ]
        rw [← List.take_succ_cons, ← List.replicate_succ]

end Cursor

/-! ## Every story -/

/-- A text that is read somewhere has, by itself, that reading and no other. -/
theorem Spelled.lexemesFrom_alone {text post : List Char} {node : Reading}
    (h : Spelled text post node) :
    lexemesFrom 0 text = [⟨node, ⟨0, byteLength text⟩⟩, .closing (byteLength text)] := by
  obtain ⟨c, cs, rfl, hscan⟩ := h.scan_alone
  rw [lexemesFrom, hscan]
  simp only [List.take_length, List.drop_length, Nat.zero_add]
  rw [lexemesFrom]
  rfl

/-- A span has no more than one text. -/
theorem text_unique {pre text post pre' text' post' : List Char}
    (h : pre ++ text ++ post = pre' ++ text' ++ post') (hstart : byteLength pre = byteLength pre')
    (hstop : byteLength (pre ++ text) = byteLength (pre' ++ text')) : text = text' := by
  have hboth := charsBefore_byteLength_append (pre ++ text) post
  rw [h, hstop, charsBefore_byteLength_append] at hboth
  have hpre := charsBefore_byteLength_append pre (text ++ post)
  rw [← List.append_assoc, h, hstart, List.append_assoc, charsBefore_byteLength_append] at hpre
  rw [hpre] at hboth
  exact (List.append_cancel_left hboth).symm

/-- The lexemes of a story cut it into pieces, each as long as a pattern allows, with
nothing but blanks and comments between them.  Their spans are in order, none is empty, and
behind them stands the end.  A cursor gives them one after the other, and then the end
again and again.  What is read of a piece is what its text says by itself. -/
theorem lexemes_partition (source : String) :
    Cut [] source.toList (lexemes source) ∧
    ∃ pieces, lexemes source = pieces ++ [.closing (byteLength source.toList)] ∧
      Ordered [] source.toList pieces ∧
      (∀ n, (Cursor.start source).answers n =
        (lexemes source ++ List.replicate n (Lexeme.closing (byteLength source.toList))).take n) ∧
      ∀ l ∈ pieces, ∀ pre text post, source.toList = pre ++ text ++ post →
        l.span = ⟨byteLength pre, byteLength (pre ++ text)⟩ →
        lexemesFrom 0 text = [⟨l.node, ⟨0, byteLength text⟩⟩, .closing (byteLength text)] := by
  have hcut : Cut [] source.toList (lexemes source) := cut_lexemesFrom rfl (parted_nil _)
  obtain ⟨pieces, hpieces, hordered⟩ := hcut.ordered
  refine ⟨hcut, pieces, hpieces, hordered, fun n => ?_, fun l hl pre text post hsplit hspan => ?_⟩
  · have hanswers := Cursor.answers_eq n (.start source)
    simpa only [Cursor.start, lexemes, Nat.zero_add] using hanswers
  · obtain ⟨pre', text', post', hsplit', hspan', hpiece⟩ := hordered.stands l hl
    have hspans := hspan.symm.trans hspan'
    have htext : text = text' := text_unique (hsplit.symm.trans hsplit')
      (congrArg Span.start hspans) (congrArg Span.stop hspans)
    subst htext
    exact hpiece.spelled.lexemesFrom_alone

end Storyworld
