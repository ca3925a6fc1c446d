import Storyworld.Proofs.Simplify

/-!
# How texts are spelled

A text *spells* tokens if these are read where it stands, whatever stands behind
it (`Spells`).  A text that ends with a word or a number needs something behind
it that does not go on with them, and one that ends with a mark does not
(`Delimits`).

Every token that is read is legible (`scan_legible`): a word is none of the
keywords and a number fits in 64 bits.  The text of a condition whose tokens are
legible spells them (`Conjunction.spells_text`).
-/

namespace Storyworld

/-! ## Reading without places -/

/-- What the characters of a text say, without the places. -/
def readings (cs : List Char) : List Reading := (lexemesFrom 0 cs).map Spanned.node

theorem map_node_lexemesFrom (offset : Nat) (cs : List Char) :
    (lexemesFrom offset cs).map Spanned.node = readings cs := by
  have h : ∀ o, (lexemesFrom offset cs).map Spanned.node = (lexemesFrom o cs).map Spanned.node := by
    fun_induction lexemesFrom offset cs with
    | case1 offset =>
        intro o
        rw [lexemesFrom]
        rfl
    | case2 offset c cs more stop node hscan ih =>
        intro o
        rw [lexemesFrom, hscan]
        exact congrArg (List.cons node) (ih _)
    | case3 offset c cs more stop hscan ih =>
        intro o
        rw [lexemesFrom, hscan]
        exact ih _
  exact h 0

theorem readings_nil : readings [] = [.token .finish] := by
  rw [readings, lexemesFrom]
  rfl

theorem readings_of_scan {c : Char} {cs : List Char} {r : Reading} {more : Nat}
    (h : scan c cs = (some r, more)) : readings (c :: cs) = r :: readings (cs.drop more) := by
  rw [readings, lexemesFrom, h]
  simp [map_node_lexemesFrom]

theorem readings_of_skip {c : Char} {cs : List Char} {more : Nat}
    (h : scan c cs = (none, more)) : readings (c :: cs) = readings (cs.drop more) := by
  rw [readings, lexemesFrom, h]
  simp [map_node_lexemesFrom]

theorem readings_space {c : Char} (hc : isSpace c = true) (cs : List Char) :
    readings (c :: cs) = readings cs := by
  have hscan : scan c cs = (none, 0) := by
    rw [scan, hc]
    rfl
  exact readings_of_skip hscan

theorem scan_mark (m : Mark) (cs : List Char) :
    scan m.char cs = (some (.token (.mark m)), 0) := by
  cases m <;> rfl

theorem readings_mark (m : Mark) (cs : List Char) :
    readings (m.char :: cs) = .token (.mark m) :: readings cs :=
  readings_of_scan (scan_mark m cs)

/-! ## Legible tokens -/

/-- A word begins with a letter or an underscore, and digits may follow. -/
def IsWord (word : String) : Prop :=
  ∃ c run, word.toList = c :: run ∧ isWordStart c = true ∧ ∀ d ∈ run, isWordChar d = true

/-- A token that a text can have. -/
def Token.Legible : Token → Prop
  | .word name => IsWord name ∧ Keyword.ofText? name = none
  | .whole n => n < twoTo 64
  | _ => True

theorem wordToken_legible {c : Char} {run : List Char} (hc : isWordStart c = true)
    (hrun : ∀ d ∈ run, isWordChar d = true) : (wordToken (c :: run)).Legible := by
  rw [wordToken]
  cases hk : Keyword.ofText? (String.ofList (c :: run)) with
  | some k => trivial
  | none => exact ⟨⟨c, run, String.toList_ofList, hc, hrun⟩, hk⟩

theorem wholeToken_legible {digits : List Char} {t : Token}
    (h : wholeToken digits = .token t) : t.Legible := by
  rw [wholeToken] at h
  split at h
  · cases h
    assumption
  · cases h

/-- Every token that is read is legible. -/
theorem scan_legible {c : Char} {cs : List Char} {t : Token} {more : Nat}
    (h : scan c cs = (some (.token t), more)) : t.Legible := by
  unfold scan at h
  split at h
  · cases h
  split at h
  · cases h
  split at h
  · rw [scanText] at h
    split at h
    · cases h
      trivial
    · cases h
  split at h
  · rw [scanNumber] at h
    split at h
    · cases h
      trivial
    · exact wholeToken_legible (Option.some.inj (congrArg Prod.fst h))
  split at h
  · rw [scanPoint] at h
    split at h
    · cases h
    · cases h
      trivial
  split at h
  · cases h
    exact wordToken_legible ‹_› (List.all_eq_true.mp List.all_takeWhile)
  split at h
  · cases h
    trivial
  · cases h

theorem legible_of_mem_lexemesFrom {offset : Nat} {cs : List Char} {l : Lexeme} {t : Token}
    (hl : l ∈ lexemesFrom offset cs) (ht : l.node = .token t) : t.Legible := by
  fun_induction lexemesFrom offset cs with
  | case1 offset =>
      obtain rfl := List.mem_singleton.mp hl
      cases ht
      trivial
  | case2 offset c cs more stop node hscan ih =>
      rcases List.mem_cons.mp hl with rfl | hl
      · obtain rfl : node = .token t := ht
        exact scan_legible hscan
      · exact ih hl
  | case3 offset c cs more stop hscan ih => exact ih hl

/-! ## The front of a word or a number -/

theorem ne_of_isWordChar {c d : Char} (hc : isWordChar c = true) (hd : isWordChar d = false) :
    c ≠ d := by
  intro heq
  rw [heq, hd] at hc
  cases hc

theorem isSpace_of_isWordChar {c : Char} (hc : isWordChar c = true) : isSpace c = false := by
  have hspace : c ≠ ' ' := ne_of_isWordChar hc rfl
  have htab : c ≠ '\t' := ne_of_isWordChar hc rfl
  have hreturn : c ≠ '\r' := ne_of_isWordChar hc rfl
  have hline : c ≠ '\n' := ne_of_isWordChar hc rfl
  simp [isSpace, hspace, htab, hreturn, hline]

/-- No letter is a digit. -/
theorem isDigit_of_isWordStart {c : Char} (hc : isWordStart c = true) : c.isDigit = false := by
  have hclasses : ((decide ('A'.val ≤ c.val ∧ c.val ≤ 'Z'.val) ||
      (decide ('a'.val ≤ c.val) && decide (c.val ≤ 'z'.val))) || c == '_') = true := hc
  simp only [Bool.or_eq_true, Bool.and_eq_true, decide_eq_true_eq, beq_iff_eq] at hclasses
  cases hdigit : c.isDigit with
  | false => rfl
  | true =>
      have hdigit : '0'.toNat ≤ c.toNat ∧ c.toNat ≤ '9'.toNat := Char.isDigit_iff_toNat.mp hdigit
      rcases hclasses with (hupper | hlower) | rfl
      · have hstart : 'A'.toNat ≤ c.toNat := UInt32.le_iff_toNat_le.mp hupper.1
        exact absurd (Nat.le_trans hstart hdigit.2) (by decide)
      · have hstart : 'a'.toNat ≤ c.toNat := UInt32.le_iff_toNat_le.mp hlower.1
        exact absurd (Nat.le_trans hstart hdigit.2) (by decide)
      · exact absurd hdigit.2 (by decide)

theorem scan_digit {c : Char} (hc : c.isDigit = true) (cs : List Char) :
    scan c cs = (scanNumber c cs).map some id := by
  have hword : isWordChar c = true := by simp [isWordChar, hc]
  have hspace : isSpace c = false := isSpace_of_isWordChar hword
  have hcomment : c ≠ '%' := ne_of_isWordChar hword rfl
  have hquote : c ≠ '"' := ne_of_isWordChar hword rfl
  simp [scan, hspace, hcomment, hquote, hc]

theorem scan_word {c : Char} (hc : isWordStart c = true) (cs : List Char) :
    scan c cs = (some (.token (wordToken (c :: cs.takeWhile isWordChar))),
      (cs.takeWhile isWordChar).length) := by
  have hword : isWordChar c = true := by simp [isWordChar, hc]
  have hspace : isSpace c = false := isSpace_of_isWordChar hword
  have hcomment : c ≠ '%' := ne_of_isWordChar hword rfl
  have hquote : c ≠ '"' := ne_of_isWordChar hword rfl
  have hpoint : c ≠ '.' := ne_of_isWordChar hword rfl
  simp [scan, hspace, hcomment, hquote, isDigit_of_isWordStart hc, hpoint, hc]

/-! ## Spelling -/

/-- Characters that go on with neither a word nor a number. -/
def Ends (rest : List Char) : Prop := ∀ c ∈ rest.head?, isWordChar c = false ∧ c ≠ '.'

/-- The text says these tokens, if no word or number goes on behind it. -/
def Spells (text : String) (ts : List Token) : Prop :=
  ∀ rest, Ends rest → readings (text.toList ++ rest) = ts.map .token ++ readings rest

/-- The text says these tokens, whatever stands behind it. -/
def Delimits (text : String) (ts : List Token) : Prop :=
  ∀ rest, readings (text.toList ++ rest) = ts.map .token ++ readings rest

/-- The text says these tokens, whatever stands behind it, and ends what stands before. -/
structure Separates (text : String) (ts : List Token) : Prop where
  ends : ∀ rest, Ends (text.toList ++ rest)
  delimits : Delimits text ts

section Compose

variable {text text' : String} {ts us : List Token}

theorem Delimits.spells (h : Delimits text ts) : Spells text ts := fun rest _ => h rest

theorem Delimits.append (h : Delimits text ts) (h' : Delimits text' us) :
    Delimits (text ++ text') (ts ++ us) := by
  intro rest
  rw [String.toList_append, List.append_assoc, h, h', List.map_append, List.append_assoc]

theorem Delimits.append_spells (h : Delimits text ts) (h' : Spells text' us) :
    Spells (text ++ text') (ts ++ us) := by
  intro rest hrest
  rw [String.toList_append, List.append_assoc, h, h' rest hrest, List.map_append,
    List.append_assoc]

theorem Spells.append (h : Spells text ts) (h' : Separates text' us) :
    Delimits (text ++ text') (ts ++ us) := by
  intro rest
  rw [String.toList_append, List.append_assoc, h _ (h'.ends rest), h'.delimits rest,
    List.map_append, List.append_assoc]

/-- A text ends what stands before if its first character does. -/
theorem Delimits.separates (h : Delimits text ts) {c : Char} {cs : List Char}
    (htext : text.toList = c :: cs) (hc : isWordChar c = false ∧ c ≠ '.') :
    Separates text ts := by
  refine ⟨?_, h⟩
  intro rest d hd
  rw [htext] at hd
  cases hd
  exact hc

end Compose

/-! ## Marks and spaces -/

theorem delimits_space : Delimits " " [] := readings_space rfl

theorem delimits_newline : Delimits "\n" [] := readings_space rfl

theorem delimits_mark (m : Mark) : Delimits (String.singleton m.char) [.mark m] := by
  intro rest
  rw [String.toList_singleton]
  exact readings_mark m rest

/-- The text of no characters. -/
theorem delimits_noText : Delimits "\"\"" [.text ""] := by
  intro rest
  have hscan : scan '"' ('"' :: rest) = (some (.token (.text "")), 1) := by
    simp [scan, isSpace, scanText]
  exact readings_of_scan hscan

theorem separates_space : Separates " " [] := delimits_space.separates rfl (by decide)

/-- A mark between spaces separates what it stands between. -/
theorem separates_mark (m : Mark) :
    Separates (" " ++ String.singleton m.char ++ " ") [.mark m] := by
  have htext : (" " ++ String.singleton m.char ++ " ").toList = [' ', m.char, ' '] := by simp
  have hdelimits := (delimits_space.append (delimits_mark m)).append delimits_space
  exact hdelimits.separates htext (by decide)

theorem separates_comma : Separates ", " [.mark .comma] := by
  have hdelimits := (delimits_mark .comma).append delimits_space
  exact hdelimits.separates rfl (by decide)

theorem separates_closeParen : Separates ")" [.mark .closeParen] :=
  (delimits_mark .closeParen).separates rfl (by decide)

/-- What stands between the keyword or the name of a block and its contents. -/
theorem separates_opening : Separates " : (" [.mark .colon, .mark .openParen] := by
  have hcolon := (delimits_space.append (delimits_mark .colon)).append delimits_space
  exact (hcolon.append (delimits_mark .openParen)).separates rfl (by decide)

/-- What stands behind the condition of a description without text. -/
theorem separates_closing :
    Separates ", \"\")" [.mark .comma, .text "", .mark .closeParen] := by
  have htext := (separates_comma.delimits).append delimits_noText
  exact (htext.append (delimits_mark .closeParen)).separates rfl (by decide)

/-! ## Words and numbers -/

theorem takeWhile_append_of_ends {p : Char → Bool} {run rest : List Char}
    (hp : ∀ c, p c = true → isWordChar c = true) (hrun : ∀ d ∈ run, p d = true)
    (hrest : Ends rest) : (run ++ rest).takeWhile p = run := by
  rw [List.takeWhile_append_of_pos hrun]
  cases rest with
  | nil => simp
  | cons c rest =>
      have hc : isWordChar c = false := (hrest c rfl).1
      have hpc : p c ≠ true := fun h => by rw [hp c h] at hc; cases hc
      rw [List.takeWhile_cons_of_neg hpc, List.append_nil]

theorem spells_word {word : String} (hword : IsWord word) :
    Spells word [wordToken word.toList] := by
  obtain ⟨c, run, hword, hc, hrun⟩ := hword
  intro rest hrest
  have htake : (run ++ rest).takeWhile isWordChar = run :=
    takeWhile_append_of_ends (fun _ h => h) hrun hrest
  have hscan := scan_word hc (run ++ rest)
  rw [htake] at hscan
  rw [hword, List.cons_append, readings_of_scan hscan, List.drop_left]
  rfl

theorem spells_name {name : String} (h : (Token.word name).Legible) :
    Spells name [.word name] := by
  have htoken : wordToken name.toList = .word name := by
    rw [wordToken, String.ofList_toList, h.2]
  rw [← htoken]
  exact spells_word h.1

theorem isWord_keyword (k : Keyword) : IsWord k.text := by
  have hrun : (k.text.toList.drop 1).all isWordChar = true := by
    cases k <;> rfl
  cases k
  all_goals exact ⟨_, _, rfl, rfl, List.all_eq_true.mp hrun⟩

theorem spells_keyword (k : Keyword) : Spells k.text [.keyword k] := by
  have htoken : wordToken k.text.toList = .keyword k := by
    rw [wordToken, String.ofList_toList, Keyword.ofText?_text]
  rw [← htoken]
  exact spells_word (isWord_keyword k)

theorem spells_whole {n : Nat} (h : n < twoTo 64) : Spells (toString n) [.whole n] := by
  intro rest hrest
  cases hdigits : Nat.toDigits 10 n with
  | nil => exact absurd hdigits Nat.toDigits_ne_nil
  | cons c run =>
      have hall : ∀ d ∈ c :: run, d.isDigit = true := fun d hd =>
        Nat.isDigit_of_mem_toDigits (by decide) (by decide) (hdigits ▸ hd)
      have htake : (run ++ rest).takeWhile Char.isDigit = run :=
        takeWhile_append_of_ends (fun d hd => by simp [isWordChar, hd])
          (fun d hd => hall d (List.mem_cons_of_mem c hd)) hrest
      have hwhole : wholeToken (c :: run) = .token (.whole n) := by
        rw [wholeToken, ← hdigits, Nat.ofDigitChars_ten_toDigits]
        exact if_pos h
      have hscan : scan c (run ++ rest) = (some (.token (.whole n)), run.length) := by
        rw [scan_digit (hall c (List.mem_cons_self ..)), scanNumber, htake, List.drop_left,
          hwhole]
        split
        · exact absurd rfl (hrest '.' rfl).2
        · rfl
      have htext : (toString n).toList = c :: run := by simpa using hdigits
      rw [htext, List.cons_append, readings_of_scan hscan, List.drop_left]
      rfl

/-- What a legible value is called spells it. -/
theorem spells_value {a : Tree.Atom} (h : a.token.Legible) : Spells a.value.text [a.token] := by
  cases a with
  | word name => exact spells_name h
  | whole n => exact spells_whole h

/-! ## Trees -/

namespace Tree

mutual

/-- The text of a conjunction spells it. -/
theorem Conjunction.spells_text : ∀ c : Conjunction, (∀ t ∈ c.tokens, t.Legible) →
    Spells c.text c.tokens
  | .one d, h => Disjunction.spells_text d h
  | .and d c, h => by
      rw [Conjunction.tokens, List.forall_mem_append, List.forall_mem_cons] at h
      have hd := (Disjunction.spells_text d h.1).append (separates_mark .ampersand)
      have hc := hd.append_spells (Conjunction.spells_text c h.2.2)
      rw [List.append_assoc] at hc
      exact hc

theorem Disjunction.spells_text : ∀ d : Disjunction, (∀ t ∈ d.tokens, t.Legible) →
    Spells d.text d.tokens
  | .one t, h => Term.spells_text t h
  | .or t d, h => by
      rw [Disjunction.tokens, List.forall_mem_append, List.forall_mem_cons] at h
      have ht := (Term.spells_text t h.1).append (separates_mark .pipe)
      have hd := ht.append_spells (Disjunction.spells_text d h.2.2)
      rw [List.append_assoc] at hd
      exact hd

theorem Term.spells_text : ∀ t : Term, (∀ t' ∈ t.tokens, t'.Legible) → Spells t.text t.tokens
  | .test name a, h => by
      have hname : Spells name [.word name] := spells_name (h _ (by simp [Term.tokens]))
      have hvalue : Spells a.value.text [a.token] := spells_value (h _ (by simp [Term.tokens]))
      exact (hname.append (separates_mark .equals)).append_spells hvalue
  | .group c, h => by
      rw [Term.tokens, List.forall_mem_cons, List.forall_mem_append] at h
      have hc := Conjunction.spells_text c h.2.1
      have hopen := (delimits_mark .openParen).append_spells hc
      exact (hopen.append separates_closeParen).spells

end

/-- Values between commas spell them. -/
theorem Several.spells_values {as : Several Atom} (h : ∀ a ∈ as.toList, a.token.Legible) :
    Spells (", ".intercalate (as.toList.map fun a => a.value.text))
      (as.tokens .comma fun a => [a.token]) := by
  induction as with
  | one a =>
      rw [toList, List.map_singleton, String.intercalate_singleton]
      exact spells_value (h a (List.mem_singleton_self a))
  | more a as ih =>
      have ha := (spells_value (h a (List.mem_cons_self ..))).append separates_comma
      have has := ha.append_spells (ih fun b hb => h b (List.mem_cons_of_mem a hb))
      have hne : (as.toList.map fun a => a.value.text) ≠ [] := by cases as <;> simp [toList]
      rw [toList, List.map_cons, String.intercalate_cons_of_ne_nil hne]
      exact has

end Tree

end Storyworld
