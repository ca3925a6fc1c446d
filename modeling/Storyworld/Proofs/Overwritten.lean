import Storyworld.Proofs.Sequel
import Storyworld.Text.Bytes

/-!
# Texts overwritten with spaces

Bytes of a text are *overwritten* with spaces where they stand at given places.  If a place goes
from the beginning of a lexeme to the end of one, what is left is a text again
(`overwrite_encodeText`), and its lexemes are those of the first text without the ones at the place
(`lexemesFrom_overwritten`).

The lexemes behind the place are read from where they were read before.  Those in front are read
with something else behind them.  A scan sees one character there at most, and a space ends what
any other character ends (`scan_before`), except for a comment.  But a comment in front of a lexeme
has been ended by a line feed.
-/

namespace Storyworld

/-! ## Bytes -/

/-- The bytes of a text. -/
def encodeText (s : String) : List UInt8 := s.toUTF8.data.toList

/-- Spaces for the bytes that stand at one of some places, and the others as they are. -/
def overwrite (places : List Span) (bytes : List UInt8) : List UInt8 :=
  bytes.mapIdx fun i b => if ∃ p ∈ places, p.start ≤ i ∧ i < p.stop then 32 else b

theorem encodeText_ofList (cs : List Char) :
    encodeText (.ofList cs) = cs.flatMap String.utf8EncodeChar := by
  rw [encodeText, String.toUTF8, String.toByteArray_ofList, List.utf8Encode]
  simp

theorem decodeText_encodeText (s : String) : decodeText (encodeText s) = .ok s := by
  have hbytes : (⟨(encodeText s).toArray⟩ : ByteArray) = s.toByteArray := by
    rw [encodeText, String.toUTF8, Array.toArray_toList]
  rw [decodeText, hbytes, String.fromUTF8?, dif_pos s.isValidUTF8]
  rfl

theorem length_utf8EncodeChars (cs : List Char) :
    (cs.flatMap String.utf8EncodeChar).length = byteLength cs := by
  induction cs with
  | nil => rfl
  | cons c cs ih =>
      rw [List.flatMap_cons, List.length_append, ih, String.length_utf8EncodeChar]
      rfl

theorem overwrite_nil (bytes : List UInt8) : overwrite [] bytes = bytes := by
  refine List.ext_getElem List.length_mapIdx fun i hi hi' => ?_
  simp [overwrite]

/-- Places are overwritten one after another. -/
theorem overwrite_cons (p : Span) (ps : List Span) (bytes : List UInt8) :
    overwrite (p :: ps) bytes = overwrite [p] (overwrite ps bytes) := by
  rw [overwrite, overwrite, overwrite, List.mapIdx_mapIdx]
  refine congrArg (List.mapIdx · bytes) (funext fun i => funext fun b => ?_)
  by_cases hp : p.start ≤ i ∧ i < p.stop <;> simp [hp]

/-- Bytes between others are overwritten where these end and begin. -/
theorem overwrite_middle (xs ys zs : List UInt8) :
    overwrite [⟨xs.length, xs.length + ys.length⟩] (xs ++ ys ++ zs) =
      xs ++ List.replicate ys.length 32 ++ zs := by
  refine List.ext_getElem ?_ fun i hi hi' => ?_
  · simp only [overwrite, List.length_mapIdx, List.length_append, List.length_replicate]
  · simp only [overwrite, List.getElem_mapIdx, List.getElem_append, List.length_append,
      List.getElem_replicate, List.length_replicate, List.mem_singleton, exists_eq_left]
    -- the byte stands in front, between or behind, and nowhere else
    split_ifs
    all_goals first | rfl | omega

/-- As many spaces are as many bytes. -/
theorem utf8EncodeChar_spaces (n : Nat) :
    (List.replicate n ' ').flatMap String.utf8EncodeChar = List.replicate n 32 := by
  induction n with
  | zero => rfl
  | succ n ih =>
      rw [List.replicate_succ, List.flatMap_cons, ih]
      rfl

/-- A text overwritten between two of its characters has spaces there. -/
theorem overwrite_encodeText {source : String} {pre text post : List Char}
    (h : source.toList = pre ++ text ++ post) :
    overwrite [⟨byteLength pre, byteLength (pre ++ text)⟩] (encodeText source) =
      encodeText (.ofList (pre ++ List.replicate (byteLength text) ' ' ++ post)) := by
  have hmiddle := overwrite_middle (pre.flatMap String.utf8EncodeChar)
    (text.flatMap String.utf8EncodeChar) (post.flatMap String.utf8EncodeChar)
  rw [length_utf8EncodeChars, length_utf8EncodeChars, ← byteLength_append] at hmiddle
  rw [← String.ofList_toList (s := source), h, encodeText_ofList, encodeText_ofList]
  simp only [List.flatMap_append, utf8EncodeChar_spaces]
  exact hmiddle

/-- A letter of two bytes leaves two spaces. -/
example : overwrite [⟨1, 3⟩] (encodeText "aéb") = encodeText "a  b" := by decide +kernel

/-! ## Lexemes in front -/

/-- Behind a comment stands a line feed or nothing. -/
theorem comment_of_scan {cs : List Char} {found : Option Reading} {more : Nat}
    (h : scan '%' cs = (found, more)) :
    cs.drop more = [] ∨ ∃ rest, cs.drop more = '\n' :: rest := by
  cases h
  obtain ⟨line, behind, rfl, htake, -, hbehind⟩ := exists_run (· != '\n') cs
  rw [htake, List.drop_left]
  cases behind with
  | nil => exact .inl rfl
  | cons d behind =>
      obtain rfl : d = '\n' := by simpa using hbehind d rfl
      exact .inr ⟨behind, rfl⟩

/-- A text, whose first byte has an offset, splits in two at another. -/
structure SplitsAt (offset : Nat) (cs : List Char) (place : Nat) (front behind : List Char) :
    Prop where
  /-- The text is both parts. -/
  text : cs = front ++ behind
  /-- The second begins there. -/
  place : place = offset + byteLength front

/-- A text splits where it splits behind some of its characters. -/
theorem SplitsAt.behind {offset place more : Nat} {c : Char} {cs front behind : List Char}
    (h : SplitsAt (offset + byteLength (c :: cs.take more)) (cs.drop more) place front behind) :
    SplitsAt offset (c :: cs) place (c :: cs.take more ++ front) behind where
  text := by rw [List.append_assoc, ← h.text, List.cons_append, List.take_append_drop]
  place := by rw [h.place, byteLength_append, Nat.add_assoc]

/-- What stands in front of a lexeme has its lexemes with a space behind it as well. -/
theorem lexemesFrom_front {offset : Nat} {cs : List Char} {before : List Lexeme} {l : Lexeme}
    {more : List Lexeme} (h : lexemesFrom offset cs = before ++ l :: more) (hmore : more ≠ [])
    (hquote : ∀ l ∈ before, l.node ≠ .fault .unclosed) :
    ∃ front behind, SplitsAt offset cs l.span.start front behind ∧
      lexemesFrom l.span.start behind = l :: more ∧ (∀ d ∈ behind.head?, isSpace d = false) ∧
      ∀ rest, lexemesFrom offset (front ++ ' ' :: rest) =
        before ++ lexemesFrom l.span.start (' ' :: rest) := by
  fun_induction lexemesFrom offset cs generalizing before with
  | case1 offset =>
      rcases List.append_eq_singleton_iff.mp h.symm with ⟨-, hlast⟩ | ⟨-, hnil⟩
      · exact absurd (List.cons.inj hlast).2 hmore
      · cases hnil
  | case2 offset c cs size stop node hscan =>
      rename_i ih
      have hblank : isSpace c = false := by
        rw [Bool.eq_false_iff]
        intro hc
        rw [scan, if_pos hc] at hscan
        cases hscan
      have hcomment : c ≠ '%' := by
        rintro rfl
        cases hscan
      cases before with
      | nil =>
          obtain ⟨rfl, rfl⟩ := List.cons.inj h
          refine ⟨[], c :: cs, ⟨rfl, rfl⟩, ?_, ?_, fun rest => rfl⟩
          · rw [lexemesFrom, hscan]
          · rintro d ⟨⟩
            exact hblank
      | cons l' before =>
          obtain ⟨rfl, htail⟩ := List.cons.inj h
          rw [List.forall_mem_cons] at hquote
          obtain ⟨front, behind, hsplit, hbehind, hhead, hfront⟩ := ih htail hquote.2
          refine ⟨_, behind, hsplit.behind, hbehind, hhead, fun rest => ?_⟩
          have hpost : Replaces c (cs.drop size) (front ++ ' ' :: rest) := by
            rw [hsplit.text]
            cases front with
            | nil => exact .inr (.inr ⟨hcomment, rfl⟩)
            | cons d front => exact .inl rfl
          rw [List.append_assoc,
            lexemesFrom_before hscan (fun hnode => hquote.1 (Option.some.inj hnode)) hpost,
            hfront]
          rfl
  | case3 offset c cs size stop hscan =>
      rename_i ih
      obtain ⟨front, behind, hsplit, hbehind, hhead, hfront⟩ := ih h hquote
      refine ⟨_, behind, hsplit.behind, hbehind, hhead, fun rest => ?_⟩
      have hpost : Replaces c (cs.drop size) (front ++ ' ' :: rest) := by
        cases front with
        | cons d front =>
            rw [hsplit.text]
            exact .inl rfl
        | nil =>
            -- A comment ends with a line feed, which belongs to no lexeme.
            refine .inr (.inr ⟨?_, rfl⟩)
            rintro rfl
            rcases comment_of_scan hscan with hnil | ⟨tail, hline⟩
            · obtain rfl : [] = behind := hnil.symm.trans hsplit.text
              rw [lexemesFrom] at hbehind
              exact hmore (List.cons.inj hbehind).2.symm
            · obtain rfl : '\n' :: tail = behind := hline.symm.trans hsplit.text
              cases hhead '\n' rfl
      rw [List.append_assoc, lexemesFrom_before hscan (by simp) hpost, hfront]
      rfl

/-! ## Lexemes behind -/

/-- Where some lexemes end, the others begin. -/
theorem lexemesFrom_split {offset : Nat} {cs : List Char} {ls ms : List Lexeme}
    (h : lexemesFrom offset cs = ls ++ ms) (hls : ls ≠ []) (hms : ms ≠ []) :
    ∃ text post, SplitsAt offset cs (ls.getLast hls).span.stop text post ∧ text ≠ [] ∧
      lexemesFrom (ls.getLast hls).span.stop post = ms := by
  fun_induction lexemesFrom offset cs generalizing ls with
  | case1 offset =>
      rcases List.append_eq_singleton_iff.mp h.symm with ⟨hnil, -⟩ | ⟨-, hnil⟩
      · exact absurd hnil hls
      · exact absurd hnil hms
  | case2 offset c cs more stop node hscan =>
      rename_i ih
      obtain ⟨l, ls, rfl⟩ := List.exists_cons_of_ne_nil hls
      obtain ⟨rfl, htail⟩ := List.cons.inj h
      cases ls with
      | nil =>
          refine ⟨c :: cs.take more, cs.drop more, ⟨?_, rfl⟩, List.cons_ne_nil _ _, htail⟩
          rw [List.cons_append, List.take_append_drop]
      | cons l' ls =>
          obtain ⟨text, post, hsplit, -, hpost⟩ := ih htail (List.cons_ne_nil _ _)
          exact ⟨_, post, hsplit.behind, List.cons_ne_nil _ _, hpost⟩
  | case3 offset c cs more stop hscan =>
      rename_i ih
      obtain ⟨text, post, hsplit, -, hpost⟩ := ih h hls
      exact ⟨_, post, hsplit.behind, List.cons_ne_nil _ _, hpost⟩

/-! ## Lexemes taken out -/

/-- Spaces are passed over. -/
theorem lexemesFrom_spaces (offset n : Nat) (cs : List Char) :
    lexemesFrom offset (List.replicate n ' ' ++ cs) = lexemesFrom (offset + n) cs := by
  induction n generalizing offset with
  | zero => rfl
  | succ n ih =>
      have hscan : scan ' ' (List.replicate n ' ' ++ cs) = (none, 0) := rfl
      rw [List.replicate_succ, List.cons_append, lexemesFrom, hscan]
      show lexemesFrom (offset + 1) (List.replicate n ' ' ++ cs) = _
      rw [ih, Nat.add_assoc, Nat.add_comm 1]

/-- A text that is overwritten from the beginning of a lexeme to the end of one has the other
lexemes, where they were. -/
theorem lexemesFrom_overwritten {cs : List Char} {before block after : List Lexeme}
    (h : lexemesFrom 0 cs = before ++ (block ++ after)) (hblock : block ≠ []) (hafter : after ≠ [])
    (hquote : ∀ l ∈ before, l.node ≠ .fault .unclosed) :
    ∃ pre text post, cs = pre ++ text ++ post ∧
      Tree.around (block.map Spanned.span) = ⟨byteLength pre, byteLength (pre ++ text)⟩ ∧
      lexemesFrom 0 (pre ++ List.replicate (byteLength text) ' ' ++ post) = before ++ after := by
  obtain ⟨l, rest, rfl⟩ := List.exists_cons_of_ne_nil hblock
  obtain ⟨pre, behind, hpre, hbehind, -, hfront⟩ :=
    lexemesFrom_front h (List.append_ne_nil_of_right_ne_nil rest hafter) hquote
  obtain ⟨text, post, htext, hne, hpost⟩ := lexemesFrom_split hbehind hblock hafter
  have hstart : l.span.start = byteLength pre := by
    rw [hpre.place, Nat.zero_add]
  have hstop : ((l :: rest).getLast hblock).span.stop = byteLength (pre ++ text) := by
    rw [htext.place, hstart, byteLength_append]
  refine ⟨pre, text, post, ?_, ?_, ?_⟩
  · rw [hpre.text, htext.text, List.append_assoc]
  · rw [Tree.around, List.getLast?_map, List.getLast?_eq_some_getLast hblock, ← hstart, ← hstop]
    rfl
  · -- There is a space where the first lexeme stood.
    obtain ⟨n, hn⟩ := Nat.exists_eq_succ_of_ne_zero (byteLength_pos hne).ne'
    have hspaces := lexemesFrom_spaces l.span.start (byteLength text) post
    rw [← htext.place, hpost, hn, List.replicate_succ, List.cons_append] at hspaces
    rw [hn, List.replicate_succ, List.append_assoc, List.cons_append, hfront, hspaces]

end Storyworld
