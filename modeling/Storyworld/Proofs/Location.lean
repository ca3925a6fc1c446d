import Mathlib.Data.List.Basic
import Storyworld.Proofs.ShownLines
import Storyworld.Story.Compile

/-!
# Where reports point

The position of a byte offset (`Position.locate`) comes from a walk over the characters
before it, and so does the position that a report shows, but the report takes the same
number for one of characters and has line ends of its own.

Walks only move forward, so once the report is ahead it stays ahead
(`Position.walkShown_ne_of_ahead`).  It does not fall behind: there is no character
without a byte, and every line feed begins a line of the report as well.  Only behind
the last character of the source it begins no line, but there both walks end.  So a
report shows the position of the byte offset exactly if the walks agree at every step
(`Diagnostic.shows_locate_iff`), which is what `CharwiseBefore` says of the source.
-/

namespace Storyworld

open Position

/-! ## Walking ahead -/

namespace Position

/-- One position comes before another. -/
def Before (p q : Position) : Prop := p.line < q.line ∨ p.line = q.line ∧ p.column < q.column

/-- One position does not come behind another. -/
def AtMost (p q : Position) : Prop := p.line < q.line ∨ p.line = q.line ∧ p.column ≤ q.column

theorem atMost_refl (p : Position) : p.AtMost p := .inr ⟨rfl, Nat.le_refl _⟩

theorem AtMost.line_le {p q : Position} (h : p.AtMost q) : p.line ≤ q.line := by
  rcases h with h | h
  · exact Nat.le_of_lt h
  · exact Nat.le_of_eq h.1

theorem AtMost.trans_before {p q r : Position} (h : p.AtMost q) (h' : q.Before r) :
    p.Before r := by
  rw [AtMost] at h
  rw [Before] at *
  omega

theorem Before.atMost {p q : Position} (h : p.Before q) : p.AtMost q :=
  h.imp_right fun h => ⟨h.1, Nat.le_of_lt h.2⟩

theorem Before.ne {p q : Position} (h : p.Before q) : p ≠ q := by
  rintro rfl
  rcases h with h | h
  · exact Nat.lt_irrefl _ h
  · exact Nat.lt_irrefl _ h.2

theorem before_afterShown (p : Position) (c : Char) (rest : List Char) :
    p.Before (p.afterShown c rest) := by
  rw [afterShown]
  split
  · exact .inl (Nat.lt_succ_self _)
  · exact .inr ⟨rfl, Nat.lt_succ_self _⟩

theorem one_le_column_afterShown (p : Position) (c : Char) (rest : List Char) :
    1 ≤ (p.afterShown c rest).column := by
  rw [afterShown]
  split
  · exact Nat.le_refl _
  · exact Nat.le_add_left ..

/-- A report's walk moves forward. -/
theorem before_walkShown {k : Nat} {cs : List Char} {p r : Position}
    (h : walkShown (k + 1) cs p = some r) : p.Before r := by
  induction k generalizing cs p with
  | zero =>
      cases cs with
      | nil => cases h
      | cons c cs =>
          cases h
          exact before_afterShown p c cs
  | succ k ih =>
      cases cs with
      | nil => cases h
      | cons c cs => exact (before_afterShown p c cs).atMost.trans_before (ih h)

theorem afterShown_nil (p : Position) (c : Char) : p.afterShown c [] = ⟨p.line, p.column + 1⟩ := by
  rw [afterShown, endsShownLine]
  simp

/-- A line feed with something behind it ends a line of a report too. -/
theorem endsShownLine_feed {rest : List Char} (h : rest ≠ []) : endsShownLine '\n' rest = true := by
  cases rest with
  | nil => exact absurd rfl h
  | cons c cs => rfl

/-- Before the last character no step lets a report fall behind. -/
theorem after_atMost_afterShown {p q : Position} {c : Char} {rest : List Char} (h : rest ≠ [])
    (hq : q.AtMost p) : (q.after c).AtMost (p.afterShown c rest) := by
  rw [after, afterShown]
  by_cases hc : c = '\n'
  · subst hc
    rw [if_pos rfl, if_pos (endsShownLine_feed h)]
    exact hq.imp Nat.succ_lt_succ fun hsame => ⟨congrArg Nat.succ hsame.1, Nat.le_refl _⟩
  · rw [if_neg hc]
    split
    · exact .inl (Nat.lt_succ_of_le hq.line_le)
    · exact hq.imp_right fun hsame => ⟨hsame.1, Nat.succ_le_succ hsame.2⟩

/-- Before the last character no step lets a report lose a line. -/
theorem line_after_lt_afterShown {p q : Position} {c : Char} {rest : List Char} (h : rest ≠ [])
    (hq : q.line < p.line) : (q.after c).line < (p.afterShown c rest).line := by
  rw [after, afterShown]
  by_cases hc : c = '\n'
  · subst hc
    rw [if_pos rfl, if_pos (endsShownLine_feed h)]
    exact Nat.succ_lt_succ hq
  · rw [if_neg hc]
    split
    · exact Nat.lt_succ_of_lt hq
    · exact hq

/-- Over the last character a report only moves on in its line. -/
theorem walkShown_last {c : Char} {k : Nat} {p r : Position}
    (h : walkShown (k + 1) [c] p = some r) : k = 0 ∧ r = ⟨p.line, p.column + 1⟩ := by
  cases k with
  | zero => exact ⟨rfl, (Option.some.inj h).symm.trans (p.afterShown_nil c)⟩
  | succ k => cases h

/-- A walk over characters that has more to walk than one over bytes, or is on a later line,
does not end where the other does. -/
theorem walkShown_ne_of_ahead {cs : List Char} {k j : Nat} {p q r : Position}
    (hr : walkShown k cs p = some r) (hq : q.AtMost p)
    (hahead : j < k ∨ j = k ∧ q.line < p.line) (hcolumn : 1 ≤ p.column) :
    (charsBefore j cs).foldl after q ≠ r := by
  induction cs generalizing k j p q with
  | nil =>
      cases k with
      | zero =>
          cases hr
          exact Before.ne (.inl (hahead.resolve_left (Nat.not_lt_zero _)).2)
      | succ k => cases hr
  | cons c cs ih =>
      have hsize := c.utf8Size_pos
      cases k with
      | zero =>
          cases hr
          obtain ⟨rfl, hline⟩ := hahead.resolve_left (Nat.not_lt_zero _)
          rw [charsBefore, if_neg (Nat.not_le_of_lt hsize)]
          exact Before.ne (.inl hline)
      | succ k =>
          by_cases hfits : c.utf8Size ≤ j
          · rw [charsBefore, if_pos hfits, List.foldl_cons]
            by_cases hcs : cs = []
            · subst hcs
              obtain ⟨rfl, rfl⟩ := walkShown_last hr
              have hline : q.line < p.line := by omega
              show q.after c ≠ _
              rw [after]
              split
              · -- Behind a line feed the column is the first, and the report's is not.
                intro heq
                have hfirst : 1 = p.column + 1 := congrArg Position.column heq
                omega
              · exact Before.ne (.inl hline)
            · refine ih hr (after_atMost_afterShown hcs hq) ?_ (one_le_column_afterShown ..)
              have hkept := line_after_lt_afterShown (c := c) hcs (p := p) (q := q)
              omega
          · rw [charsBefore, if_neg hfits]
            exact (hq.trans_before (before_walkShown hr)).ne

end Position

/-! ## Where the walks agree -/

/-- The place behind so many characters of a source is the same for bytes and characters, and
for line feeds and the line ends of reports. -/
structure CharwiseBefore (k : Nat) (cs : List Char) : Prop where
  /-- There are so many characters. -/
  within : k ≤ cs.length
  /-- Each of them is one byte. -/
  single : ∀ c ∈ cs.take k, c.utf8Size = 1
  /-- The line feeds among them are those that end a line of a report. -/
  feeds : ∀ i c, i < k → cs[i]? = some c → (endsShownLine c (cs.drop (i + 1)) = true ↔ c = '\n')

theorem charwiseBefore_zero (cs : List Char) : CharwiseBefore 0 cs :=
  ⟨Nat.zero_le _, nofun, fun _ _ hi => absurd hi (Nat.not_lt_zero _)⟩

theorem charwiseBefore_cons {k : Nat} {c : Char} {cs : List Char} :
    CharwiseBefore (k + 1) (c :: cs) ↔
      (c.utf8Size = 1 ∧ (endsShownLine c cs = true ↔ c = '\n')) ∧ CharwiseBefore k cs := by
  constructor
  · intro given
    obtain ⟨hwithin, hsingle, hfeeds⟩ := given
    rw [List.take_succ_cons, List.forall_mem_cons] at hsingle
    refine ⟨⟨hsingle.1, hfeeds 0 c (Nat.succ_pos k) rfl⟩, Nat.le_of_succ_le_succ hwithin,
      hsingle.2, fun i d hi hd => ?_⟩
    exact hfeeds (i + 1) d (Nat.succ_lt_succ hi) hd
  · intro given
    obtain ⟨⟨hone, hfeed⟩, hwithin, hsingle, hfeeds⟩ := given
    refine ⟨Nat.succ_le_succ hwithin, ?_, fun i d hi hd => ?_⟩
    · rw [List.take_succ_cons, List.forall_mem_cons]
      exact ⟨hone, hsingle⟩
    · cases i with
      | zero =>
          cases hd
          exact hfeed
      | succ i => exact hfeeds i d (Nat.lt_of_succ_lt_succ hi) hd

/-- Where one step does not agree the walks end at different positions. -/
theorem walkShown_ne_of_step {c : Char} {cs : List Char} {k : Nat} {p r : Position}
    (hr : walkShown (k + 1) (c :: cs) p = some r)
    (hstep : ¬ (c.utf8Size = 1 ∧ (endsShownLine c cs = true ↔ c = '\n'))) :
    (charsBefore (k + 1) (c :: cs)).foldl after p ≠ r := by
  have hsize := c.utf8Size_pos
  by_cases hfits : c.utf8Size ≤ k + 1
  · rw [charsBefore, if_pos hfits, List.foldl_cons]
    by_cases hcs : cs = []
    · subst hcs
      obtain ⟨rfl, rfl⟩ := walkShown_last hr
      have hone : c.utf8Size = 1 := by omega
      have hfeed : c = '\n' := Decidable.byContradiction fun hc =>
        hstep ⟨hone, iff_of_false (by simp [endsShownLine]) hc⟩
      subst hfeed
      exact fun heq => absurd (congrArg Position.line heq) (Nat.succ_ne_self _)
    · refine walkShown_ne_of_ahead hr (after_atMost_afterShown hcs (atMost_refl p)) ?_
        (one_le_column_afterShown ..)
      by_cases hone : c.utf8Size = 1
      · -- The report begins a line behind a character that is no line feed.
        have hc : c ≠ '\n' := by
          rintro rfl
          exact hstep ⟨hone, iff_of_true (endsShownLine_feed hcs) rfl⟩
        have hends : endsShownLine c cs = true := Decidable.byContradiction fun h =>
          hstep ⟨hone, iff_of_false h hc⟩
        rw [hone, after, afterShown, if_neg hc, if_pos hends]
        exact .inr ⟨rfl, Nat.lt_succ_self _⟩
      · left
        omega
  · rw [charsBefore, if_neg hfits]
    exact (before_walkShown hr).ne

/-- A report's walk ends at the position of the byte offset exactly if the walks agree all the
way. -/
theorem walkShown_eq_some_iff {cs : List Char} {k : Nat} {p : Position} :
    walkShown k cs p = some ((charsBefore k cs).foldl after p) ↔ CharwiseBefore k cs := by
  induction cs generalizing k p with
  | nil =>
      cases k with
      | zero => exact ⟨fun _ => charwiseBefore_zero [], fun _ => rfl⟩
      | succ k => exact ⟨nofun, fun h => absurd h.within (Nat.not_succ_le_zero k)⟩
  | cons c cs ih =>
      cases k with
      | zero =>
          refine ⟨fun _ => charwiseBefore_zero _, fun _ => ?_⟩
          rw [charsBefore, if_neg (Nat.not_le_of_lt c.utf8Size_pos)]
          rfl
      | succ k =>
          rw [charwiseBefore_cons]
          by_cases hstep : c.utf8Size = 1 ∧ (endsShownLine c cs = true ↔ c = '\n')
          · have hsame : p.afterShown c cs = p.after c := by
              rw [after, afterShown]
              simp only [hstep.2]
            rw [and_iff_right hstep, ← ih (p := p.afterShown c cs), walkShown, charsBefore,
              hstep.1, if_pos (Nat.le_add_left ..), Nat.add_sub_cancel, List.foldl_cons, hsame]
          · refine iff_of_false (fun hr => ?_) fun h => hstep h.1
            exact walkShown_ne_of_step hr hstep rfl

/-! ## Reports -/

theorem colon_not_mem_toDigits (n : Nat) : ':' ∉ Nat.toDigits 10 n := by
  intro hmem
  have hdigit := Nat.isDigit_of_mem_toDigits (by decide) (by decide) hmem
  cases hdigit

/-- A number is written with its decimal digits. -/
theorem toDigits_injective {m n : Nat} (h : Nat.toDigits 10 m = Nat.toDigits 10 n) : m = n := by
  rw [← Nat.ofDigitChars_ten_toDigits (n := m), h, Nat.ofDigitChars_ten_toDigits]

theorem Position.toList_display (p : Position) :
    p.display.toList = Nat.toDigits 10 p.line ++ ':' :: Nat.toDigits 10 p.column := by
  simp [display, show (toString ":").toList = [':'] from rfl]

/-- No two positions are written alike. -/
theorem Position.display_injective {p q : Position} (h : p.display = q.display) : p = q := by
  have hchars := congrArg String.toList h
  rw [toList_display, toList_display, List.append_cons_inj_of_notMem
    (colon_not_mem_toDigits _) (colon_not_mem_toDigits _)] at hchars
  obtain ⟨hline, -, hcolumn⟩ := hchars
  cases p
  cases q
  exact congrArg₂ Position.mk (toDigits_injective hline) (toDigits_injective hcolumn)

namespace Diagnostic

/-- The line of a report that gives a position. -/
def locationLine (filename : String) (indent : Nat) (p : Position) : Painting :=
  [bare (Marked.spaces indent), ⟨.frame, "╭─["⟩, bare s!" {filename}:{p.display} ", ⟨.frame, "]"⟩]

/-- The report of a diagnostic shows a position, in the line behind the headline. -/
def Shows (filename source : String) (d : Diagnostic) (p : Position) : Prop :=
  ∃ indent rest, d.report filename source =
    [⟨d.ink, d.word⟩, bare (" " ++ d.message), bare "\n"] ++
      locationLine filename indent p ++ bare "\n" :: rest

theorem location_injective {filename : String} {p q : Position}
    (h : bare s!" {filename}:{p.display} " = bare s!" {filename}:{q.display} ") : p = q := by
  have htext : " " ++ filename ++ ":" ++ p.display ++ " " =
      " " ++ filename ++ ":" ++ q.display ++ " " := congrArg Piece.text h
  have hchars := congrArg String.toList htext
  refine Position.display_injective (String.toList_injective ?_)
  simpa using hchars

theorem lt_length_of_lineAt? {lines : List SourceLine} (hlines : lines ≠ []) {place n : Nat}
    (h : lineAt? lines place = some n) : n < lines.length := by
  rw [lineAt?] at h
  split at h
  · cases h
  · cases h
    have hpos := List.length_pos_of_ne_nil hlines
    have hle := (List.takeWhile_prefix (l := lines) fun l => decide (l.start ≤ place)).length_le
    omega

/-- A report has a frame exactly if its place has a position, and begins it with that. -/
theorem framed?_of_location? (filename : String) {lines : List SourceLine} {d : Diagnostic}
    {p : Position} (h : d.location? lines = some p) :
    ∃ indent body, d.framed? filename lines = some (locationLine filename indent p :: body) := by
  obtain ⟨⟨first, last⟩, hrange, hline⟩ := Option.bind_eq_some_iff.mp h
  obtain ⟨l, hl, -⟩ := Option.bind_eq_some_iff.mp hline
  have hlines : lines ≠ [] := List.ne_nil_of_mem (List.mem_of_getElem? hl)
  have hlast : last < lines.length := by
    obtain ⟨n, hn, hrest⟩ := Option.bind_eq_some_iff.mp hrange
    simp only at hrest
    split at hrest
    · obtain ⟨k, hk, hpair⟩ := Option.bind_eq_some_iff.mp hrest
      cases hpair
      exact lt_length_of_lineAt? hlines hk
    · cases hrest
      exact lt_length_of_lineAt? hlines hn
  have hk := List.getElem?_eq_getElem hlast
  rw [framed?, hrange, h]
  simp only [Option.bind_eq_bind, Option.bind_some, hl, hk]
  exact ⟨_, _, rfl⟩

theorem framed?_of_location?_none (filename : String) {lines : List SourceLine} {d : Diagnostic}
    (h : d.location? lines = none) : d.framed? filename lines = none := by
  rw [framed?, h]
  cases d.lineRange? lines <;> rfl

/-- A report shows the position of its place, and no other. -/
theorem shows_iff {filename source : String} {d : Diagnostic} {p : Position} :
    d.Shows filename source p ↔ d.location? (sourceLines source.toList) = some p := by
  rw [Shows, report]
  cases hlocation : d.location? (sourceLines source.toList) with
  | none =>
      rw [framed?_of_location?_none filename hlocation]
      refine iff_of_false ?_ nofun
      rintro ⟨indent, rest, heq⟩
      cases heq
  | some q =>
      obtain ⟨indent, body, hframed⟩ := framed?_of_location? filename hlocation
      rw [hframed]
      constructor
      · rintro ⟨indent', rest, heq⟩
        have hpiece : some (bare s!" {filename}:{q.display} ") =
            some (bare s!" {filename}:{p.display} ") :=
          congrArg (fun pieces : Painting => pieces[5]?) heq
        rw [location_injective (Option.some.inj hpiece)]
      · intro h
        cases h
        exact ⟨indent, _, rfl⟩

/-- A report shows the position of the byte offset where its place begins exactly if up to
there each character of the source is one byte and the line feeds are those that end a line
of the report, and the place ends within the source. -/
theorem shows_locate_iff (filename source : String) (d : Diagnostic) :
    d.Shows filename source (Position.locate source d.span.start) ↔
      CharwiseBefore d.span.start source.toList ∧
        (d.span.start < d.span.stop → d.span.stop ≤ source.toList.length + 1) := by
  rw [shows_iff, location?_sourceLines, Position.locate, ← walkShown_eq_some_iff (p := first)]
  split
  · next h => exact iff_of_false nofun fun given => absurd (given.2 h.1) (Nat.not_le_of_lt h.2)
  · next h =>
      have hwithin : d.span.start < d.span.stop → d.span.stop ≤ source.toList.length + 1 :=
        fun hlt => Nat.le_of_not_lt fun hbehind => h ⟨hlt, hbehind⟩
      exact (and_iff_left hwithin).symm

end Diagnostic

/-- The position that an error gives is that of the byte offset where its place begins. -/
theorem compile_error_position {source : String} {e : CompileError}
    (h : compile source = .error e) {p : Position} (hp : e.position? = some p) :
    p = Position.locate source e.diagnostic.span.start := by
  rw [compile] at h
  cases hls : compileLexemes (lexemes source) with
  | ok c =>
      rw [hls] at h
      cases h
  | error refusal =>
      rw [hls] at h
      cases h
      cases refusal with
      | fault f => exact (Option.some.inj hp).symm
      | model cause => cases hp

/-- An error gives the position of the byte offset where its place begins.  The report of a
diagnostic shows the position of that byte offset exactly if the walks agree up to there and
the place ends within the source. -/
theorem compile_positions (filename source : String) :
    (∀ e p, compile source = .error e → e.position? = some p →
      p = Position.locate source e.diagnostic.span.start) ∧
    ∀ d : Diagnostic, d.Shows filename source (Position.locate source d.span.start) ↔
      CharwiseBefore d.span.start source.toList ∧
        (d.span.start < d.span.stop → d.span.stop ≤ source.toList.length + 1) :=
  ⟨fun _ _ h hp => compile_error_position h hp, Diagnostic.shows_locate_iff filename source⟩

/-- Behind a letter of two bytes the report of an error shows a position that is not the one
the error gives. -/
theorem shows_other_position : ∃ e, compile "% é\n(" = .error e ∧
    e.position? = some ⟨2, 1⟩ ∧
    Position.locate "% é\n(" e.diagnostic.span.start = ⟨2, 1⟩ ∧
    e.diagnostic.Shows "story.fab" "% é\n(" ⟨2, 2⟩ ∧
    ¬ e.diagnostic.Shows "story.fab" "% é\n(" ⟨2, 1⟩ := by
  have herror : ((compile "% é\n(").map fun _ => ()).mapError (fun e => (e.position?,
      Position.locate "% é\n(" e.diagnostic.span.start,
      e.diagnostic.location? (sourceLines "% é\n(".toList))) =
      .error (some ⟨2, 1⟩, ⟨2, 1⟩, some ⟨2, 2⟩) := by
    decide +kernel
  cases hc : compile "% é\n(" with
  | ok c =>
      rw [hc] at herror
      cases herror
  | error e =>
      rw [hc] at herror
      have hparts := Prod.mk.inj (Except.error.inj herror)
      obtain ⟨hlocate, hlocation⟩ := Prod.mk.inj hparts.2
      refine ⟨e, rfl, hparts.1, hlocate, Diagnostic.shows_iff.mpr hlocation, ?_⟩
      rw [Diagnostic.shows_iff, hlocation]
      decide

end Storyworld
