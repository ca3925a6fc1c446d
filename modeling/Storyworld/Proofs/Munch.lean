import Storyworld.Proofs.Spelling

/-!
# The longest match

What can stand in a story is given by patterns (`Pattern.Matches`).  Where several
match, the one that matches the most characters wins, and of a keyword and a word of
the same length the keyword (`Wins`).  The first character of a text leaves at most
two patterns (`Pattern.begins`), so the others need not be tried, and a winner is
known from what stands behind its text.

`Spelled` says for every reading what its text is and what may not stand behind it.
What is scanned is spelled (`spelled_of_scan`), and what is spelled is scanned
(`Spelled.scan`), so the scanner need not be opened again: the pattern that wins
(`Spelled.munched`) and what other characters may follow (`Spelled.before`) are known
from what `Spelled` says.  With blanks and comments it is the same (`scan_before`).
-/

namespace Storyworld

/-! ## Patterns -/

/-- Digits, or no characters. -/
def Digits (text : List Char) : Prop := ∀ c ∈ text, c.isDigit = true

/-- The patterns of a story. -/
inductive Pattern where
  /-- Spaces, tabs and the ends of lines. -/
  | blanks
  /-- From a percent sign to the end of the line. -/
  | comment
  /-- A mark. -/
  | mark (m : Mark)
  /-- A keyword. -/
  | keyword (k : Keyword)
  /-- The quote that opens a text. -/
  | quote
  /-- Digits with a point before, between or behind them. -/
  | decimal
  /-- Digits. -/
  | whole
  /-- A letter or an underscore, and letters, digits and underscores. -/
  | word
deriving DecidableEq, Repr

/-- The texts of a pattern. -/
def Pattern.Matches : Pattern → List Char → Prop
  | .blanks, text => text ≠ [] ∧ ∀ c ∈ text, isSpace c = true
  | .comment, text => ∃ line, text = '%' :: line ∧ '\n' ∉ line
  | .mark m, text => text = [m.char]
  | .keyword k, text => text = k.text.toList
  | .quote, text => text = ['"']
  | .decimal, text => ∃ whole fraction, text = whole ++ '.' :: fraction ∧ Digits whole ∧
      Digits fraction ∧ (whole ≠ [] ∨ fraction ≠ [])
  | .whole, text => text ≠ [] ∧ Digits text
  | .word, text => IsWord (.ofList text)

/-- Whether the texts of a pattern can begin with a character. -/
def Pattern.begins : Pattern → Char → Bool
  | .blanks, c => isSpace c
  | .comment, c => c == '%'
  | .mark m, c => c == m.char
  | .quote, c => c == '"'
  | .decimal, c => c.isDigit || c == '.'
  | .whole, c => c.isDigit
  | .keyword _, c | .word, c => isWordStart c

theorem isWord_ofList {text : List Char} : IsWord (.ofList text) ↔
    ∃ c run, text = c :: run ∧ isWordStart c = true ∧ ∀ d ∈ run, isWordChar d = true := by
  rw [IsWord, String.toList_ofList]

theorem isWord_keyword_ofList (k : Keyword) : IsWord (.ofList k.text.toList) := by
  rw [String.ofList_toList]
  exact isWord_keyword k

/-- All characters of a word are word characters. -/
theorem isWordChar_of_isWord {text : List Char} (h : IsWord (.ofList text)) :
    ∀ d ∈ text, isWordChar d = true := by
  obtain ⟨c, run, rfl, hc, hrun⟩ := isWord_ofList.mp h
  refine List.forall_mem_cons.mpr ⟨?_, hrun⟩
  rw [isWordChar, hc, Bool.true_or]

theorem Pattern.Matches.begins {q : Pattern} {text : List Char} (h : q.Matches text) :
    ∃ c rest, text = c :: rest ∧ q.begins c = true := by
  cases q with
  | blanks =>
      obtain ⟨hne, hall⟩ := h
      obtain ⟨c, rest, rfl⟩ := List.exists_cons_of_ne_nil hne
      exact ⟨c, rest, rfl, hall c List.mem_cons_self⟩
  | comment =>
      obtain ⟨line, rfl, -⟩ := h
      exact ⟨'%', line, rfl, rfl⟩
  | mark m => exact ⟨m.char, [], h, beq_self_eq_true m.char⟩
  | keyword k =>
      obtain ⟨c, rest, htext, hc, -⟩ := isWord_keyword k
      exact ⟨c, rest, h.trans htext, hc⟩
  | quote => exact ⟨'"', [], h, rfl⟩
  | decimal =>
      obtain ⟨whole, fraction, rfl, hwhole, -, -⟩ := h
      cases whole with
      | nil => exact ⟨'.', fraction, rfl, rfl⟩
      | cons c whole =>
          have hc : c.isDigit = true := hwhole c List.mem_cons_self
          exact ⟨c, _, rfl, by rw [Pattern.begins, hc, Bool.true_or]⟩
  | whole =>
      obtain ⟨hne, hall⟩ := h
      obtain ⟨c, rest, rfl⟩ := List.exists_cons_of_ne_nil hne
      exact ⟨c, rest, rfl, hall c List.mem_cons_self⟩
  | word =>
      obtain ⟨c, rest, rfl, hc, -⟩ := isWord_ofList.mp h
      exact ⟨c, rest, rfl, hc⟩

/-! ## What a first character leaves -/

theorem isWordChar_of_isWordStart {c : Char} (hc : isWordStart c = true) :
    isWordChar c = true := by
  rw [isWordChar, hc, Bool.true_or]

theorem isWordChar_of_isDigit {c : Char} (hc : c.isDigit = true) : isWordChar c = true := by
  rw [isWordChar, hc, Bool.or_true]

theorem isWordChar_char (m : Mark) : isWordChar m.char = false := by cases m <;> rfl

theorem Keyword.text_of_ofText? {word : String} {k : Keyword} (h : Keyword.ofText? word = some k) :
    k.text = word := by
  have hword : (k.text == word) = true := List.find?_some (p := fun k => Keyword.text k == word) h
  exact eq_of_beq hword

theorem Mark.char_of_ofChar? {c : Char} {m : Mark} (h : Mark.ofChar? c = some m) :
    m.char = c := by
  have hchar : (m.char == c) = true := List.find?_some (p := fun m => Mark.char m == c) h
  exact eq_of_beq hchar

theorem Mark.char_injective {m m' : Mark} (h : m.char = m'.char) : m = m' := by
  have hchar := Mark.ofChar?_char m
  rw [h, Mark.ofChar?_char] at hchar
  exact (Option.some.inj hchar).symm

/-- A pattern whose texts begin with a word character is one of words or of numbers. -/
theorem begins_isWordChar {q : Pattern} {c : Char} (hc : isWordChar c = true)
    (h : q.begins c = true) : isWordStart c = true ∧ (q = .word ∨ ∃ k, q = .keyword k) ∨
      c.isDigit = true ∧ (q = .decimal ∨ q = .whole) := by
  cases q with
  | blanks => exact absurd (isSpace_of_isWordChar hc) (ne_false_of_eq_true h)
  | comment => exact absurd (eq_of_beq h) (ne_of_isWordChar hc rfl)
  | mark m => exact absurd (eq_of_beq h) (ne_of_isWordChar hc (isWordChar_char m))
  | keyword k => exact .inl ⟨h, .inr ⟨k, rfl⟩⟩
  | quote => exact absurd (eq_of_beq h) (ne_of_isWordChar hc rfl)
  | decimal =>
      rcases Bool.or_eq_true_iff.mp h with h | h
      · exact .inr ⟨h, .inl rfl⟩
      · exact absurd (eq_of_beq h) (ne_of_isWordChar hc rfl)
  | whole => exact .inr ⟨h, .inr rfl⟩
  | word => exact .inl ⟨h, .inl rfl⟩

theorem begins_isWordStart {q : Pattern} {c : Char} (hc : isWordStart c = true)
    (h : q.begins c = true) : q = .word ∨ ∃ k, q = .keyword k := by
  rcases begins_isWordChar (isWordChar_of_isWordStart hc) h with ⟨-, hq⟩ | ⟨hdigit, -⟩
  · exact hq
  · exact absurd (isDigit_of_isWordStart hc) (ne_false_of_eq_true hdigit)

theorem begins_isDigit {q : Pattern} {c : Char} (hc : c.isDigit = true)
    (h : q.begins c = true) : q = .decimal ∨ q = .whole := by
  rcases begins_isWordChar (isWordChar_of_isDigit hc) h with ⟨hstart, -⟩ | ⟨-, hq⟩
  · exact absurd (isDigit_of_isWordStart hstart) (ne_false_of_eq_true hc)
  · exact hq

theorem begins_char {q : Pattern} {m : Mark} (h : q.begins m.char = true) : q = .mark m := by
  cases q with
  | mark m' => rw [Mark.char_injective (eq_of_beq h)]
  | blanks | comment | keyword | quote | decimal | whole | word => cases m <;> cases h

theorem begins_quote {q : Pattern} (h : q.begins '"' = true) : q = .quote := by
  cases q with
  | quote => rfl
  | mark m => cases m <;> cases h
  | blanks | comment | keyword | decimal | whole | word => cases h

theorem begins_point {q : Pattern} (h : q.begins '.' = true) : q = .decimal := by
  cases q with
  | decimal => rfl
  | mark m => cases m <;> cases h
  | blanks | comment | keyword | quote | whole | word => cases h

/-! ## What stands behind a run -/

/-- What stands behind a run of characters does not go on with it. -/
def Bars (p : Char → Bool) (rest : List Char) : Prop := ∀ c ∈ rest.head?, p c = false

/-- The characters of a number. -/
def isNumberChar (c : Char) : Bool := c.isDigit || c == '.'

theorem bars_nil (p : Char → Bool) : Bars p [] := fun _ hc => by cases hc

theorem bars_cons {p : Char → Bool} {c : Char} (hc : p c = false) (rest : List Char) :
    Bars p (c :: rest) := by
  intro d hd
  cases hd
  exact hc

theorem Bars.mono {p q : Char → Bool} {rest : List Char} (h : Bars q rest)
    (hpq : ∀ c, p c = true → q c = true) : Bars p rest := by
  intro c hc
  rw [Bool.eq_false_iff]
  exact fun hp => absurd (h c hc) (ne_false_of_eq_true (hpq c hp))

theorem exists_run (p : Char → Bool) (cs : List Char) :
    ∃ run rest, cs = run ++ rest ∧ cs.takeWhile p = run ∧ (∀ c ∈ run, p c = true) ∧
      Bars p rest := by
  refine ⟨cs.takeWhile p, cs.dropWhile p, List.takeWhile_append_dropWhile.symm, rfl,
    List.all_eq_true.mp List.all_takeWhile, fun c hc => ?_⟩
  have hhead := List.head?_dropWhile_not p cs
  rw [Option.mem_def.mp hc] at hhead
  exact hhead

theorem takeWhile_of_bars {p : Char → Bool} {run rest : List Char}
    (hrun : ∀ c ∈ run, p c = true) (hrest : Bars p rest) : (run ++ rest).takeWhile p = run := by
  rw [List.takeWhile_append_of_pos hrun]
  cases rest with
  | nil => exact List.append_nil run
  | cons c rest =>
      have hc : p c ≠ true := ne_true_of_eq_false (hrest c rfl)
      rw [List.takeWhile_cons_of_neg hc, List.append_nil]

theorem takeWhile_of_all {p : Char → Bool} {run : List Char} (h : ∀ c ∈ run, p c = true) :
    run.takeWhile p = run := by
  have hrun := takeWhile_of_bars h (bars_nil p)
  rwa [List.append_nil] at hrun

/-- Characters of a kind go no further than a run that is barred. -/
theorem length_le_of_bars {p : Char → Bool} {text run rest : List Char}
    (htext : ∀ c ∈ text, p c = true) (hrest : Bars p rest) (h : text <+: run ++ rest) :
    text.length ≤ run.length := by
  by_contra hlonger
  have hrun : run <+: text := List.prefix_of_prefix_length_le (List.prefix_append run rest) h
    (Nat.le_of_lt (Nat.lt_of_not_le hlonger))
  obtain ⟨more, rfl⟩ := hrun
  cases more with
  | nil => exact hlonger (Nat.le_of_eq (by rw [List.append_nil]))
  | cons c more =>
      obtain ⟨behind, rfl⟩ := (List.prefix_append_right_inj run).mp h
      have hc : p c = true := htext c (List.mem_append_right run List.mem_cons_self)
      exact absurd (hrest c rfl) (ne_false_of_eq_true hc)

/-! ## Winners -/

/-- A pattern wins a text at the front of others: it matches the text, no pattern
matches more, and as much is matched only by words, where the pattern is a keyword. -/
structure Wins (p : Pattern) (text rest : List Char) : Prop where
  /-- The pattern matches. -/
  matched : p.Matches text
  /-- The text is at the front. -/
  front : text <+: rest
  /-- No match is longer. -/
  longest : ∀ (q : Pattern) (more : List Char), q.Matches more → more <+: rest →
    more.length ≤ text.length
  /-- A keyword comes before a word. -/
  first : ∀ q : Pattern, q.Matches text → q = p ∨ q = .word ∧ ∃ k, p = .keyword k

/-- No pattern matches at the front. -/
def Unmatched (rest : List Char) : Prop := ∀ q text, Pattern.Matches q text → ¬ text <+: rest

/-- A match begins with the first character there is. -/
theorem Pattern.Matches.begins_front {q : Pattern} {text rest : List Char} {c : Char}
    (h : q.Matches text) (hfront : text <+: c :: rest) : q.begins c = true := by
  obtain ⟨d, more, rfl, hd⟩ := h.begins
  rw [← (List.cons_prefix_cons.mp hfront).1]
  exact hd

theorem Pattern.Matches.begins_head {q : Pattern} {text rest : List Char} {c : Char}
    (h : q.Matches text) (htext : text = c :: rest) : q.begins c = true := by
  subst htext
  exact h.begins_front (List.prefix_refl _)

/-- A pattern of one text, of one character, wins if no other begins with it. -/
theorem wins_single {p : Pattern} {c : Char} (hp : ∀ text, p.Matches text ↔ text = [c])
    (honly : ∀ q : Pattern, q.begins c = true → q = p) (rest : List Char) :
    Wins p [c] (c :: rest) where
  matched := (hp [c]).mpr rfl
  front := List.prefix_append [c] rest
  longest q text hq hfront := by
    rw [honly q (hq.begins_front hfront), hp] at hq
    exact Nat.le_of_eq (congrArg List.length hq)
  first q hq := .inl (honly q (hq.begins_front (List.prefix_refl [c])))

/-- What begins as a word does is not longer than all its word characters. -/
theorem length_le_of_isWord {text post : List Char} (hword : IsWord (.ofList text))
    (hpost : Bars isWordChar post) {q : Pattern} {more : List Char} (hq : q.Matches more)
    (hfront : more <+: text ++ post) : more.length ≤ text.length := by
  obtain ⟨c, run, rfl, hc, -⟩ := isWord_ofList.mp hword
  have hmore : IsWord (.ofList more) := by
    rcases begins_isWordStart hc (hq.begins_front hfront) with rfl | ⟨k, rfl⟩
    · exact hq
    · rw [show more = k.text.toList from hq]
      exact isWord_keyword_ofList k
  exact length_le_of_bars (isWordChar_of_isWord hmore) hpost hfront

theorem wins_keyword {k : Keyword} {post : List Char} (hpost : Bars isWordChar post) :
    Wins (.keyword k) k.text.toList (k.text.toList ++ post) where
  matched := rfl
  front := List.prefix_append _ post
  longest _ _ hq hfront := length_le_of_isWord (isWord_keyword_ofList k) hpost hq hfront
  first q hq := by
    obtain ⟨c, run, htext, hc, -⟩ := isWord_ofList.mp (isWord_keyword_ofList k)
    rcases begins_isWordStart hc (hq.begins_head htext) with rfl | ⟨k', rfl⟩
    · exact .inr ⟨rfl, k, rfl⟩
    · have htext : k.text = k'.text := String.toList_inj.mp hq
      have hkeyword := Keyword.ofText?_text k
      rw [htext, Keyword.ofText?_text] at hkeyword
      exact .inl (congrArg Pattern.keyword (Option.some.inj hkeyword))

theorem wins_word {name : String} {post : List Char} (hword : IsWord name)
    (hname : ∀ k : Keyword, k.text ≠ name) (hpost : Bars isWordChar post) :
    Wins .word name.toList (name.toList ++ post) := by
  have hword : IsWord (.ofList name.toList) := by rwa [String.ofList_toList]
  refine ⟨hword, List.prefix_append _ post,
    fun _ _ hq hfront => length_le_of_isWord hword hpost hq hfront, fun q hq => ?_⟩
  obtain ⟨c, run, htext, hc, -⟩ := isWord_ofList.mp hword
  rcases begins_isWordStart hc (hq.begins_head htext) with rfl | ⟨k, rfl⟩
  · exact .inl rfl
  · exact absurd (String.toList_inj.mp hq).symm (hname k)

/-- The texts of both patterns of numbers have no characters but those of numbers. -/
theorem isNumberChar_of_matches {q : Pattern} {text : List Char} (hq : q.Matches text)
    (h : q = .decimal ∨ q = .whole) : ∀ c ∈ text, isNumberChar c = true := by
  have hdigits : ∀ {ds : List Char}, Digits ds → ∀ c ∈ ds, isNumberChar c = true :=
    fun hds c hc => by rw [isNumberChar, hds c hc, Bool.true_or]
  rcases h with rfl | rfl
  · obtain ⟨whole, fraction, rfl, hwhole, hfraction, -⟩ := hq
    exact List.forall_mem_append.mpr
      ⟨hdigits hwhole, List.forall_mem_cons.mpr ⟨rfl, hdigits hfraction⟩⟩
  · exact hdigits hq.2

theorem point_not_mem_digits {ds : List Char} (h : Digits ds) : '.' ∉ ds :=
  fun hmem => absurd (h '.' hmem) (by decide)

theorem wins_whole {text post : List Char} (hne : text ≠ []) (hdigits : Digits text)
    (hpost : Bars isNumberChar post) : Wins .whole text (text ++ post) := by
  obtain ⟨c, run, rfl⟩ := List.exists_cons_of_ne_nil hne
  have hc : c.isDigit = true := hdigits c List.mem_cons_self
  refine ⟨⟨hne, hdigits⟩, List.prefix_append _ post, fun q more hq hfront => ?_, fun q hq => ?_⟩
  · have hnumber := begins_isDigit hc (hq.begins_front hfront)
    exact length_le_of_bars (isNumberChar_of_matches hq hnumber) hpost hfront
  · rcases begins_isDigit hc (hq.begins_front (List.prefix_refl _)) with rfl | rfl
    · obtain ⟨whole, fraction, htext, -⟩ := hq
      have hpoint : '.' ∈ c :: run := htext ▸ List.mem_append_right whole List.mem_cons_self
      exact absurd hpoint (point_not_mem_digits hdigits)
    · exact .inl rfl

/-- Of two texts of digits and a point that one text begins with, both have the point at
the same place. -/
theorem fraction_front {whole whole' fraction rest : List Char} (hwhole : Digits whole)
    (hwhole' : Digits whole') (h : whole' ++ '.' :: fraction <+: whole ++ '.' :: rest) :
    whole' = whole ∧ fraction <+: rest := by
  have hbars : ∀ rest, Bars Char.isDigit ('.' :: rest) := bars_cons (by decide)
  have hle : whole'.length ≤ whole.length :=
    length_le_of_bars hwhole' (hbars rest) ((List.prefix_append ..).trans h)
  obtain ⟨more, rfl⟩ := List.prefix_of_prefix_length_le ((List.prefix_append ..).trans h)
    (List.prefix_append whole _) hle
  rw [List.append_assoc, List.prefix_append_right_inj] at h
  cases more with
  | nil => exact ⟨(List.append_nil whole').symm, (List.cons_prefix_cons.mp h).2⟩
  | cons c more =>
      have hpoint : c = '.' := (List.cons_prefix_cons.mp h).1.symm
      subst hpoint
      exact absurd (List.mem_append_right whole' List.mem_cons_self) (point_not_mem_digits hwhole)

/-- No pattern matches exactly if none begins with the first character, or if it is a point
and no digit follows. -/
theorem unmatched_iff {c : Char} {post : List Char} : Unmatched (c :: post) ↔
    (∀ q : Pattern, q.begins c = false) ∨ c = '.' ∧ Bars Char.isDigit post := by
  constructor
  · intro h
    have hnot : ∀ q : Pattern, ¬ q.Matches [c] := fun q hq =>
      h q [c] hq (List.prefix_append [c] post)
    have hword : ¬ isWordStart c = true := fun hc =>
      hnot .word (isWord_ofList.mpr ⟨c, [], rfl, hc, List.forall_mem_nil _⟩)
    have hdigit : ¬ c.isDigit = true := fun hc =>
      hnot .whole ⟨List.cons_ne_nil _ _, List.forall_mem_singleton.mpr hc⟩
    by_cases hpoint : c = '.'
    · refine .inr ⟨hpoint, fun d hd => Bool.eq_false_iff.mpr fun hd' => ?_⟩
      obtain ⟨behind, rfl⟩ := List.head?_eq_some_iff.mp hd
      refine h .decimal ['.', d] ⟨[], [d], rfl, List.forall_mem_nil _,
        List.forall_mem_singleton.mpr hd', .inr (List.cons_ne_nil _ _)⟩ ?_
      rw [hpoint]
      exact List.prefix_append ['.', d] behind
    · refine .inl fun q => Bool.eq_false_iff.mpr fun hq => ?_
      cases q with
      | blanks =>
          exact hnot .blanks ⟨List.cons_ne_nil _ _, List.forall_mem_singleton.mpr hq⟩
      | comment =>
          exact hnot .comment ⟨[], congrArg (fun d => [d]) (eq_of_beq hq), List.not_mem_nil⟩
      | mark m => exact hnot (.mark m) (congrArg (fun d => [d]) (eq_of_beq hq))
      | quote => exact hnot .quote (congrArg (fun d => [d]) (eq_of_beq hq))
      | decimal =>
          rcases Bool.or_eq_true_iff.mp hq with hq | hq
          · exact hdigit hq
          · exact hpoint (eq_of_beq hq)
      | whole => exact hdigit hq
      | keyword | word => exact hword hq
  · intro given q text hq hfront
    rcases given with hnone | ⟨rfl, hpost⟩
    · exact absurd (hnone q) (ne_false_of_eq_true (hq.begins_front hfront))
    · obtain rfl := begins_point (hq.begins_front hfront)
      obtain ⟨whole, fraction, rfl, hwhole, hfraction, hne⟩ := hq
      -- the point is the first character, so the digits would have to follow it
      have hfront : whole ++ '.' :: fraction <+: [] ++ '.' :: post := hfront
      obtain ⟨rfl, hbehind⟩ := fraction_front (List.forall_mem_nil _) hwhole hfront
      have hbehind : fraction <+: [] ++ post := hbehind
      have hnone := Nat.le_zero.mp (length_le_of_bars hfraction hpost hbehind)
      exact hne.elim (absurd rfl) (absurd (List.length_eq_zero_iff.mp hnone))

theorem wins_decimal {whole fraction post : List Char} (hwhole : Digits whole)
    (hfraction : Digits fraction) (hne : whole ≠ [] ∨ fraction ≠ [])
    (hpost : Bars Char.isDigit post) :
    Wins .decimal (whole ++ '.' :: fraction) (whole ++ '.' :: fraction ++ post) := by
  have hnumber : ∀ {q : Pattern} {text : List Char}, q.Matches text →
      text <+: whole ++ '.' :: fraction ++ post → q = .decimal ∨ q = .whole := by
    intro q text hq hfront
    cases whole with
    | nil => exact .inl (begins_point (hq.begins_front hfront))
    | cons c whole => exact begins_isDigit (hwhole c List.mem_cons_self) (hq.begins_front hfront)
  refine ⟨⟨whole, fraction, rfl, hwhole, hfraction, hne⟩, List.prefix_append _ post,
    fun q more hq hfront => ?_, fun q hq => ?_⟩
  · rcases hnumber hq hfront with rfl | rfl
    · obtain ⟨whole', fraction', rfl, hwhole', hfraction', -⟩ := hq
      rw [List.append_assoc, List.cons_append] at hfront
      obtain ⟨rfl, hbehind⟩ := fraction_front hwhole hwhole' hfront
      have hle := length_le_of_bars hfraction' hpost hbehind
      simp only [List.length_append, List.length_cons]
      omega
    · have hbars : Bars Char.isDigit ('.' :: fraction ++ post) := bars_cons (by decide) _
      rw [List.append_assoc] at hfront
      have hle := length_le_of_bars hq.2 hbars hfront
      rw [List.length_append]
      exact Nat.le_trans hle (Nat.le_add_right ..)
  · rcases hnumber hq (List.prefix_append _ post) with rfl | rfl
    · exact .inl rfl
    · exact absurd (List.mem_append_right whole List.mem_cons_self) (point_not_mem_digits hq.2)

/-! ## What is read of which text -/

/-- What a text is that is read as this, where other characters follow it. -/
def Spelled (text post : List Char) : Reading → Prop
  | .token (.mark m) => text = [m.char]
  | .token (.keyword k) => text = k.text.toList ∧ Bars isWordChar post
  | .token (.word name) => text = name.toList ∧ IsWord name ∧ (∀ k : Keyword, k.text ≠ name) ∧
      Bars isWordChar post
  | .token (.whole n) => text ≠ [] ∧ Digits text ∧ Bars isNumberChar post ∧
      n = Nat.ofDigitChars 10 text 0 ∧ n < twoTo 64
  | .token (.decimal x) => ∃ whole fraction, text = whole ++ '.' :: fraction ∧ Digits whole ∧
      Digits fraction ∧ (whole ≠ [] ∨ fraction ≠ []) ∧ Bars Char.isDigit post ∧
      x = .ofDigits whole fraction
  | .token (.text content) => text = '"' :: content.toList ++ ['"'] ∧ '"' ∉ content.toList
  | .token .finish => False
  | .fault (.unknown c) => text = [c] ∧ Unmatched (c :: post)
  | .fault .unclosed => text = ['"'] ∧ '"' ∉ post
  | .fault (.tooLarge digits) => text = digits.toList ∧ text ≠ [] ∧ Digits text ∧
      Bars isNumberChar post ∧ twoTo 64 ≤ Nat.ofDigitChars 10 text 0

theorem not_mem_of_takeWhile {c : Char} {run : List Char}
    (h : ∀ d ∈ run, (d != c) = true) : c ∉ run :=
  fun hc => absurd rfl (bne_iff_ne.mp (h c hc))

theorem spelled_scanText {cs : List Char} {node : Reading} {more : Nat}
    (h : scanText cs = (node, more)) : Spelled ('"' :: cs.take more) (cs.drop more) node := by
  obtain ⟨run, rest, rfl, htake, hrun, hrest⟩ := exists_run (· != '"') cs
  rw [scanText, htake] at h
  have hcontent := not_mem_of_takeWhile hrun
  cases rest with
  | nil =>
      rw [if_neg (by simp)] at h
      cases h
      exact ⟨rfl, by simpa using hcontent⟩
  | cons c rest =>
      have hquote : c = '"' := by simpa using hrest c rfl
      rw [if_pos (by simp)] at h
      cases h
      have hsplit : run ++ c :: rest = (run ++ [c]) ++ rest := by simp
      rw [hsplit, List.take_left' (by simp), hquote]
      exact ⟨by simp, by rwa [String.toList_ofList]⟩

theorem spelled_wholeToken {text post : List Char} (hne : text ≠ []) (hdigits : Digits text)
    (hpost : Bars isNumberChar post) : Spelled text post (wholeToken text) := by
  rw [wholeToken]
  split
  · next hlt => exact ⟨hne, hdigits, hpost, rfl, hlt⟩
  · next hge =>
      exact ⟨String.toList_ofList.symm, hne, hdigits, hpost, Nat.le_of_not_lt hge⟩

theorem spelled_scanNumber {c : Char} {cs : List Char} {node : Reading} {more : Nat}
    (hc : c.isDigit = true) (h : scanNumber c cs = (node, more)) :
    Spelled (c :: cs.take more) (cs.drop more) node := by
  obtain ⟨run, rest, rfl, htake, hrun, hrest⟩ := exists_run Char.isDigit cs
  have hdigits : Digits (c :: run) := List.forall_mem_cons.mpr ⟨hc, hrun⟩
  rw [scanNumber, htake, List.drop_left] at h
  split at h
  · next after =>
      obtain ⟨fraction, behind, rfl, htake, hfraction, hbehind⟩ := exists_run Char.isDigit after
      rw [htake] at h
      cases h
      have hsplit : run ++ '.' :: (fraction ++ behind) = (run ++ '.' :: fraction) ++ behind := by
        simp
      have hlength : run.length + 1 + fraction.length = (run ++ '.' :: fraction).length := by
        simp only [List.length_append, List.length_cons]
        omega
      rw [hsplit, hlength, List.take_left, List.drop_left]
      exact ⟨c :: run, fraction, rfl, hdigits, hfraction, .inl (List.cons_ne_nil _ _), hbehind, rfl⟩
  · next hpoint =>
      cases h
      rw [List.take_left, List.drop_left]
      refine spelled_wholeToken (List.cons_ne_nil _ _) hdigits fun d hd => ?_
      have hne : d ≠ '.' := by
        rintro rfl
        obtain ⟨behind, rfl⟩ := List.head?_eq_some_iff.mp hd
        exact hpoint behind rfl
      rw [isNumberChar, hrest d hd, beq_false_of_ne hne, Bool.or_false]

theorem spelled_scanPoint {cs : List Char} {node : Reading} {more : Nat}
    (h : scanPoint cs = (node, more)) : Spelled ('.' :: cs.take more) (cs.drop more) node := by
  obtain ⟨run, rest, rfl, htake, hrun, hrest⟩ := exists_run Char.isDigit cs
  rw [scanPoint, htake] at h
  cases run with
  | nil =>
      cases h
      exact ⟨rfl, unmatched_iff.mpr (.inr ⟨rfl, hrest⟩)⟩
  | cons d run =>
      cases h
      rw [List.take_left, List.drop_left]
      have hdigits : Digits (d :: run) := hrun
      exact ⟨[], d :: run, rfl, List.forall_mem_nil _, hdigits, .inr (List.cons_ne_nil _ _), hrest,
        rfl⟩

theorem spelled_wordToken {c : Char} {run post : List Char} (hc : isWordStart c = true)
    (hrun : ∀ d ∈ run, isWordChar d = true) (hpost : Bars isWordChar post) :
    Spelled (c :: run) post (.token (wordToken (c :: run))) := by
  rw [wordToken]
  split
  · next k hk =>
      exact ⟨by rw [Keyword.text_of_ofText? hk, String.toList_ofList], hpost⟩
  · next hnone =>
      refine ⟨String.toList_ofList.symm, isWord_ofList.mpr ⟨c, run, rfl, hc, hrun⟩, ?_, hpost⟩
      rintro k htext
      rw [← htext, Keyword.ofText?_text] at hnone
      cases hnone

/-- What is read is spelled by the characters that it is read from. -/
theorem spelled_of_scan {c : Char} {cs : List Char} {node : Reading} {more : Nat}
    (h : scan c cs = (some node, more)) : Spelled (c :: cs.take more) (cs.drop more) node := by
  have hmap : ∀ {x : Reading × Nat}, x.map some id = (some node, more) → x = (node, more) := by
    rintro ⟨r, n⟩ hx
    cases hx
    rfl
  unfold scan at h
  split at h
  · cases h
  next hspace =>
  split at h
  · cases h
  next hcomment =>
  split at h
  · next hquote => exact hquote ▸ spelled_scanText (hmap h)
  next hquote =>
  split at h
  · next hdigit => exact spelled_scanNumber hdigit (hmap h)
  next hdigit =>
  split at h
  · next hpoint => exact hpoint ▸ spelled_scanPoint (hmap h)
  next hpoint =>
  split at h
  · next hstart =>
      obtain ⟨run, rest, rfl, htake, hrun, hrest⟩ := exists_run isWordChar cs
      simp only [htake] at h
      cases h
      rw [List.take_left, List.drop_left]
      exact spelled_wordToken hstart hrun hrest
  next hstart =>
  split at h
  · next m hm =>
      cases h
      exact congrArg (fun d => [d]) (Mark.char_of_ofChar? hm).symm
  · next hm =>
      cases h
      refine ⟨rfl, unmatched_iff.mpr (.inl fun q => ?_)⟩
      rw [Bool.eq_false_iff]
      intro hq
      cases q with
      | blanks => exact hspace hq
      | comment => exact hcomment (eq_of_beq hq)
      | mark m =>
          rw [eq_of_beq hq, Mark.ofChar?_char] at hm
          cases hm
      | quote => exact hquote (eq_of_beq hq)
      | decimal =>
          rcases Bool.or_eq_true_iff.mp hq with hq | hq
          · exact hdigit hq
          · exact hpoint (eq_of_beq hq)
      | whole => exact hdigit hq
      | keyword | word => exact hstart hq

/-! ## Which pattern won -/

/-- The pattern that a reading comes from: a text from the quote that opens it. -/
def Reading.pattern? : Reading → Option Pattern
  | .token (.mark m) => some (.mark m)
  | .token (.keyword k) => some (.keyword k)
  | .token (.word _) => some .word
  | .token (.whole _) | .fault (.tooLarge _) => some .whole
  | .token (.decimal _) => some .decimal
  | .token (.text _) | .fault .unclosed => some .quote
  | .token .finish | .fault (.unknown _) => none

/-- The part of its text that the pattern of a reading matches. -/
def Reading.matched (text : List Char) : Reading → List Char
  | .token (.text _) => text.take 1
  | _ => text

/-- The pattern of a reading wins at the front, and without one no pattern matches and the
text is one character. -/
def Munched (text post : List Char) (node : Reading) : Prop :=
  match node.pattern? with
  | some p => Wins p (node.matched text) (text ++ post)
  | none => text.length = 1 ∧ Unmatched (text ++ post)

theorem wins_quote (rest : List Char) : Wins .quote ['"'] ('"' :: rest) :=
  wins_single (fun _ => Iff.rfl) (fun _ => begins_quote) rest

theorem Spelled.munched {text post : List Char} {node : Reading} (h : Spelled text post node) :
    Munched text post node := by
  match node, h with
  | .token (.mark m), h =>
      obtain rfl : text = [m.char] := h
      exact wins_single (fun _ => Iff.rfl) (fun _ => begins_char) post
  | .token (.keyword k), h =>
      obtain ⟨rfl, hpost⟩ := h
      exact wins_keyword hpost
  | .token (.word name), h =>
      obtain ⟨rfl, hword, hname, hpost⟩ := h
      exact wins_word hword hname hpost
  | .token (.whole n), h =>
      obtain ⟨hne, hdigits, hpost, -⟩ := h
      exact wins_whole hne hdigits hpost
  | .token (.decimal x), h =>
      obtain ⟨whole, fraction, rfl, hwhole, hfraction, hne, hpost, -⟩ := h
      exact wins_decimal hwhole hfraction hne hpost
  | .token (.text content), h =>
      obtain ⟨rfl, -⟩ := h
      exact wins_quote _
  | .fault (.unknown c), h =>
      obtain ⟨rfl, hunmatched⟩ := h
      exact ⟨rfl, hunmatched⟩
  | .fault .unclosed, h =>
      obtain ⟨rfl, -⟩ := h
      exact wins_quote post
  | .fault (.tooLarge digits), h =>
      obtain ⟨-, hne, hdigits, hpost, -⟩ := h
      exact wins_whole hne hdigits hpost

/-! ## Reading what is spelled -/

theorem scan_quote (cs : List Char) : scan '"' cs = (scanText cs).map some id := rfl

theorem scan_point (cs : List Char) : scan '.' cs = (scanPoint cs).map some id := rfl

theorem scan_whole {text post : List Char} (hne : text ≠ []) (hdigits : Digits text)
    (hpost : Bars isNumberChar post) :
    ∃ c cs, text = c :: cs ∧ scan c (cs ++ post) = (some (wholeToken text), cs.length) := by
  obtain ⟨c, cs, rfl⟩ := List.exists_cons_of_ne_nil hne
  obtain ⟨hc, hcs⟩ := List.forall_mem_cons.mp hdigits
  have hbars : Bars Char.isDigit post := hpost.mono fun d hd => by
    rw [isNumberChar, hd, Bool.true_or]
  refine ⟨c, cs, rfl, ?_⟩
  rw [scan_digit hc, scanNumber, takeWhile_of_bars hcs hbars, List.drop_left]
  split
  · next after => cases hpost '.' rfl
  · rfl

theorem scan_decimal {whole fraction post : List Char} (hwhole : Digits whole)
    (hfraction : Digits fraction) (hne : whole ≠ [] ∨ fraction ≠ [])
    (hpost : Bars Char.isDigit post) :
    ∃ c cs, whole ++ '.' :: fraction = c :: cs ∧ scan c (cs ++ post) =
      (some (.token (.decimal (.ofDigits whole fraction))), cs.length) := by
  cases whole with
  | nil =>
      obtain ⟨d, more, rfl⟩ := List.exists_cons_of_ne_nil (hne.resolve_left (absurd rfl))
      refine ⟨'.', d :: more, rfl, ?_⟩
      rw [scan_point, scanPoint, takeWhile_of_bars hfraction hpost]
      rfl
  | cons c run =>
      obtain ⟨hc, hrun⟩ := List.forall_mem_cons.mp hwhole
      have hbars : Bars Char.isDigit ('.' :: (fraction ++ post)) := bars_cons (by decide) _
      refine ⟨c, run ++ '.' :: fraction, rfl, ?_⟩
      rw [List.append_assoc, List.cons_append, scan_digit hc, scanNumber,
        takeWhile_of_bars hrun hbars, List.drop_left]
      simp only [takeWhile_of_bars hfraction hpost, Prod.map, id_eq, List.length_append,
        List.length_cons]
      exact congrArg (Prod.mk _) (by omega)

theorem scan_isWord {text post : List Char} (h : IsWord (.ofList text))
    (hpost : Bars isWordChar post) : ∃ c cs, text = c :: cs ∧
      scan c (cs ++ post) = (some (.token (wordToken text)), cs.length) := by
  obtain ⟨c, run, rfl, hc, hrun⟩ := isWord_ofList.mp h
  refine ⟨c, run, rfl, ?_⟩
  rw [scan_word hc, takeWhile_of_bars hrun hpost]

theorem ofText?_eq_none {name : String} (h : ∀ k : Keyword, k.text ≠ name) :
    Keyword.ofText? name = none := by
  cases hk : Keyword.ofText? name with
  | none => rfl
  | some k => exact absurd (Keyword.text_of_ofText? hk) (h k)

theorem scan_unmatched {c : Char} {post : List Char} (h : Unmatched (c :: post)) :
    scan c post = (some (.fault (.unknown c)), 0) := by
  rcases unmatched_iff.mp h with hnone | ⟨rfl, hpost⟩
  · have hspace : ¬ isSpace c = true := ne_true_of_eq_false (hnone .blanks)
    have hcomment : c ≠ '%' := ne_of_beq_false (hnone .comment)
    have hquote : c ≠ '"' := ne_of_beq_false (hnone .quote)
    have hdigit : ¬ c.isDigit = true := ne_true_of_eq_false (hnone .whole)
    have hpoint : c ≠ '.' := ne_of_beq_false (Bool.or_eq_false_iff.mp (hnone .decimal)).2
    have hstart : ¬ isWordStart c = true := ne_true_of_eq_false (hnone .word)
    have hmark : Mark.ofChar? c = none := by
      cases hm : Mark.ofChar? c with
      | none => rfl
      | some m => exact absurd (Mark.char_of_ofChar? hm).symm (ne_of_beq_false (hnone (.mark m)))
    rw [scan, if_neg hspace, if_neg hcomment, if_neg hquote, if_neg hdigit, if_neg hpoint,
      if_neg hstart, hmark]
  · have hrun : post.takeWhile Char.isDigit = [] :=
      takeWhile_of_bars (List.forall_mem_nil _) hpost
    rw [scan_point, scanPoint, hrun]
    rfl

/-- What is spelled is read. -/
theorem Spelled.scan {text post : List Char} {node : Reading} (h : Spelled text post node) :
    ∃ c cs, text = c :: cs ∧ scan c (cs ++ post) = (some node, cs.length) := by
  match node, h with
  | .token (.mark m), h => exact ⟨m.char, [], h, scan_mark m post⟩
  | .token (.keyword k), h =>
      obtain ⟨rfl, hpost⟩ := h
      obtain ⟨c, cs, htext, hscan⟩ := scan_isWord (isWord_keyword_ofList k) hpost
      rw [wordToken, String.ofList_toList, Keyword.ofText?_text] at hscan
      exact ⟨c, cs, htext, hscan⟩
  | .token (.word name), h =>
      obtain ⟨rfl, hword, hname, hpost⟩ := h
      obtain ⟨c, cs, htext, hscan⟩ := scan_isWord (by rwa [String.ofList_toList]) hpost
      rw [wordToken, String.ofList_toList, ofText?_eq_none hname] at hscan
      exact ⟨c, cs, htext, hscan⟩
  | .token (.whole n), h =>
      obtain ⟨hne, hdigits, hpost, rfl, hlt⟩ := h
      obtain ⟨c, cs, htext, hscan⟩ := scan_whole hne hdigits hpost
      refine ⟨c, cs, htext, ?_⟩
      rw [hscan, wholeToken, if_pos hlt]
  | .token (.decimal x), h =>
      obtain ⟨whole, fraction, rfl, hwhole, hfraction, hne, hpost, rfl⟩ := h
      exact scan_decimal hwhole hfraction hne hpost
  | .token (.text content), h =>
      obtain ⟨rfl, hcontent⟩ := h
      have hrun : ∀ c ∈ content.toList, (c != '"') = true := fun c hc =>
        bne_iff_ne.mpr fun heq => hcontent (heq ▸ hc)
      have hbars : Bars (· != '"') ('"' :: post) := bars_cons (by decide) post
      refine ⟨'"', content.toList ++ ['"'], rfl, ?_⟩
      rw [List.append_assoc, List.singleton_append, scan_quote, scanText,
        takeWhile_of_bars hrun hbars, if_pos (by simp), String.ofList_toList, List.length_append]
      rfl
  | .fault (.unknown c), h =>
      obtain ⟨rfl, hunmatched⟩ := h
      exact ⟨c, [], rfl, scan_unmatched hunmatched⟩
  | .fault .unclosed, h =>
      obtain ⟨rfl, hpost⟩ := h
      have hrun : post.takeWhile (· != '"') = post := takeWhile_of_all fun c hc =>
        bne_iff_ne.mpr fun heq => hpost (heq ▸ hc)
      refine ⟨'"', [], rfl, ?_⟩
      rw [List.nil_append, scan_quote, scanText, hrun, if_neg (Nat.lt_irrefl _)]
      rfl
  | .fault (.tooLarge digits), h =>
      obtain ⟨rfl, hne, hdigits, hpost, hge⟩ := h
      obtain ⟨c, cs, htext, hscan⟩ := scan_whole hne hdigits hpost
      refine ⟨c, cs, htext, ?_⟩
      rw [hscan, wholeToken, if_neg (Nat.not_lt.mpr hge), String.ofList_toList]

/-! ## Other characters behind -/

/-- What is read stays so before others that bar what was barred, except for a quote that
they may close. -/
theorem Spelled.before {text post post' : List Char} {node : Reading}
    (h : Spelled text post node) (hbars : ∀ p : Char → Bool, p '\n' = false → p ' ' = false →
      Bars p post → Bars p post') (hquote : node = .fault .unclosed → '"' ∉ post') :
    Spelled text post' node := by
  have hword : Bars isWordChar post → Bars isWordChar post' := hbars _ rfl rfl
  have hnumber : Bars isNumberChar post → Bars isNumberChar post' := hbars _ rfl rfl
  have hdigit : Bars Char.isDigit post → Bars Char.isDigit post' := hbars _ rfl rfl
  match node, h with
  | .token (.mark m), h => exact h
  | .token (.keyword k), h => exact ⟨h.1, hword h.2⟩
  | .token (.word name), h =>
      obtain ⟨htext, hname, hkeyword, hpost⟩ := h
      exact ⟨htext, hname, hkeyword, hword hpost⟩
  | .token (.whole n), h =>
      obtain ⟨hne, hdigits, hpost, hn⟩ := h
      exact ⟨hne, hdigits, hnumber hpost, hn⟩
  | .token (.decimal x), h =>
      obtain ⟨whole, fraction, htext, hwhole, hfraction, hne, hpost, hx⟩ := h
      exact ⟨whole, fraction, htext, hwhole, hfraction, hne, hdigit hpost, hx⟩
  | .token (.text content), h => exact h
  | .fault (.unknown c), h =>
      obtain ⟨htext, hunmatched⟩ := h
      refine ⟨htext, unmatched_iff.mpr ?_⟩
      exact (unmatched_iff.mp hunmatched).imp_right fun ⟨hc, hpost⟩ => ⟨hc, hdigit hpost⟩
  | .fault .unclosed, h => exact ⟨h.1, hquote rfl⟩
  | .fault (.tooLarge digits), h =>
      obtain ⟨htext, hne, hdigits, hpost, hge⟩ := h
      exact ⟨htext, hne, hdigits, hnumber hpost, hge⟩

/-- A text that is read somewhere is read the same by itself. -/
theorem Spelled.scan_alone {text post : List Char} {node : Reading} (h : Spelled text post node) :
    ∃ c cs, text = c :: cs ∧ Storyworld.scan c cs = (some node, cs.length) := by
  have halone : Spelled text [] node :=
    h.before (fun p _ _ _ => bars_nil p) (fun _ => List.not_mem_nil)
  obtain ⟨c, cs, htext, hscan⟩ := halone.scan
  rw [List.append_nil] at hscan
  exact ⟨c, cs, htext, hscan⟩

/-! ## What is not read -/

/-- Blanks are passed over one at a time, and a comment up to the end of its line. -/
theorem skipped_of_scan {c : Char} {cs : List Char} {more : Nat}
    (h : scan c cs = (none, more)) : isSpace c = true ∧ more = 0 ∨
      c = '%' ∧ more = (cs.takeWhile (· != '\n')).length := by
  have hmap : ∀ {x : Reading × Nat}, x.map some id ≠ (none, more) := by
    rintro ⟨r, n⟩ hx
    cases hx
  unfold scan at h
  split at h
  · next hspace =>
      cases h
      exact .inl ⟨hspace, rfl⟩
  split at h
  · next hcomment =>
      cases h
      exact .inr ⟨hcomment, rfl⟩
  split at h
  · exact absurd h hmap
  split at h
  · exact absurd h hmap
  split at h
  · exact absurd h hmap
  split at h
  · cases h
  split at h <;> cases h

/-! ## What a scan sees -/

/-- Characters that may stand behind a scan instead of others: they begin alike, or with a line
feed, or, if no comment was scanned, with a space. -/
def Replaces (c : Char) (behind post : List Char) : Prop :=
  post.head? = behind.head? ∨ post.head? = some '\n' ∨ c ≠ '%' ∧ post.head? = some ' '

/-- A scan sees one character at most of what stands behind, except for a quote that is looked
for. -/
theorem scan_before {c : Char} {cs post : List Char} {found : Option Reading} {more : Nat}
    (h : scan c cs = (found, more)) (hquote : found ≠ some (.fault .unclosed))
    (hpost : Replaces c (cs.drop more) post) :
    scan c (cs.take more ++ post) = (found, (cs.take more).length) := by
  cases found with
  | some node =>
      have hbars : ∀ p : Char → Bool, p '\n' = false → p ' ' = false → Bars p (cs.drop more) →
          Bars p post := by
        intro p hline hspace hdrop d hd
        rcases hpost with hsame | hfeed | ⟨-, hblank⟩
        · exact hdrop d (hsame ▸ hd)
        · obtain rfl : '\n' = d := Option.some.inj (hfeed.symm.trans hd)
          exact hline
        · obtain rfl : ' ' = d := Option.some.inj (hblank.symm.trans hd)
          exact hspace
      have hspelled := (spelled_of_scan h).before hbars
        fun hnode => absurd (congrArg some hnode) hquote
      obtain ⟨d, ds, htext, hscan⟩ := hspelled.scan
      obtain ⟨rfl, rfl⟩ := List.cons.inj htext
      exact hscan
  | none =>
      rcases skipped_of_scan h with ⟨hblank, rfl⟩ | ⟨rfl, rfl⟩
      · rw [scan, hblank]
        rfl
      · obtain ⟨line, behind, rfl, htake, hline, hbehind⟩ := exists_run (· != '\n') cs
        rw [htake, List.drop_left] at hpost
        have hbars : Bars (· != '\n') post := by
          intro d hd
          rcases hpost with hsame | hfeed | ⟨hother, -⟩
          · exact hbehind d (hsame ▸ hd)
          · obtain rfl : '\n' = d := Option.some.inj (hfeed.symm.trans hd)
            rfl
          · exact absurd rfl hother
        rw [htake, List.take_left, scan, takeWhile_of_bars hline hbars]
        rfl

/-- What is read first, and then what is read of the text behind it. -/
theorem lexemesFrom_before {c : Char} {cs post : List Char} {found : Option Reading} {more : Nat}
    (h : scan c cs = (found, more)) (hquote : found ≠ some (.fault .unclosed))
    (hpost : Replaces c (cs.drop more) post) (offset : Nat) :
    lexemesFrom offset (c :: cs.take more ++ post) =
      found.toList.map (⟨·, ⟨offset, offset + byteLength (c :: cs.take more)⟩⟩) ++
        lexemesFrom (offset + byteLength (c :: cs.take more)) post := by
  rw [List.cons_append, lexemesFrom, scan_before h hquote hpost]
  simp only [List.take_left, List.drop_left]
  cases found <;> rfl

end Storyworld
