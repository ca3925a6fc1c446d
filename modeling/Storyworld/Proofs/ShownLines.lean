import Storyworld.Report

/-!
# The lines of a report as a walk

A report splits the source into lines, numbers them with the places where they
start, and looks for the line that holds a place.  That comes to a walk over the
characters before the place (`shownAt?_sourceLines`), much as `Position.locate` is one.
The two walks differ in two ways.  This one counts characters where the other counts
bytes, and it begins a line where `endsShownLine` says and not at every line feed.

The proof goes through the lines without their numbers.  `inLines` looks for a place
in them, and it agrees with the walk (`inLines_splitLines`) and with the numbered lines
(`shownAt?_placeLines`).
-/

namespace Storyworld

/-! ## Two walks -/

/-- Whether a report begins a line behind a character, given what follows.  Behind the
source no line begins, and a carriage return and a line feed together end one line. -/
def endsShownLine (c : Char) (rest : List Char) : Bool :=
  endsLine c && !rest.isEmpty && !(c == '\r' && rest.head? == some '\n')

namespace Position

/-- The position in the next line, in the same column. -/
def nextLine (p : Position) : Position := ⟨p.line + 1, p.column⟩

/-- The position that a report gives behind a character, given what follows. -/
def afterShown (p : Position) (c : Char) (rest : List Char) : Position :=
  if endsShownLine c rest then ⟨p.line + 1, 1⟩ else ⟨p.line, p.column + 1⟩

/-- The position that a report gives behind so many characters, if there are so many. -/
def walkShown : Nat → List Char → Position → Option Position
  | 0, _, p => some p
  | _ + 1, [], _ => none
  | k + 1, c :: cs, p => walkShown k cs (p.afterShown c cs)

theorem afterShown_nextLine (p : Position) (c : Char) (rest : List Char) :
    p.nextLine.afterShown c rest = (p.afterShown c rest).nextLine := by
  rw [afterShown, afterShown]
  split <;> rfl

theorem walkShown_nextLine (k : Nat) (cs : List Char) (p : Position) :
    walkShown k cs p.nextLine = (walkShown k cs p).map nextLine := by
  induction k generalizing cs p with
  | zero => rfl
  | succ k ih =>
      cases cs with
      | nil => rfl
      | cons c cs => rw [walkShown, walkShown, afterShown_nextLine, ih]

theorem afterShown_of_not_endsLine {c : Char} (hc : endsLine c ≠ true) (p : Position)
    (rest : List Char) : p.afterShown c rest = ⟨p.line, p.column + 1⟩ := by
  rw [afterShown, endsShownLine, Bool.eq_false_iff.mpr hc]
  rfl

theorem afterShown_of_endsLine {c : Char} (hc : endsLine c = true) {rest : List Char}
    (hpair : ∀ cs, c = '\r' → rest = '\n' :: cs → False) (p : Position) :
    p.afterShown c rest = if rest = [] then ⟨p.line, p.column + 1⟩ else ⟨p.line + 1, 1⟩ := by
  have hsingle : (c == '\r' && rest.head? == some '\n') = false := by
    rw [Bool.eq_false_iff, ne_eq, Bool.and_eq_true, beq_iff_eq, beq_iff_eq]
    intro given
    obtain ⟨hcr, hhead⟩ := given
    obtain ⟨cs, hrest⟩ := List.head?_eq_some_iff.mp hhead
    exact hpair cs hcr hrest
  rw [afterShown, endsShownLine, hc, hsingle]
  cases rest <;> rfl

end Position

open Position

/-! ## Lines -/

/-- The position of a place in lines.  A place between two lines begins the second, and the
end of the last line belongs to it. -/
def inLines : List (List Char) → Nat → Option Position
  | [], _ => none
  | [line], place => if place ≤ line.length then some ⟨1, place + 1⟩ else none
  | line :: lines, place =>
      if place < line.length then some ⟨1, place + 1⟩
      else (inLines lines (place - line.length)).map nextLine

theorem inLines_cons (line : List Char) {lines : List (List Char)} (h : lines ≠ []) (place : Nat) :
    inLines (line :: lines) place =
      if place < line.length then some ⟨1, place + 1⟩
      else (inLines lines (place - line.length)).map nextLine := by
  cases lines with
  | nil => exact absurd rfl h
  | cons l ls => rfl

theorem splitLines_ne_nil {line cs : List Char} (h : line ≠ [] ∨ cs ≠ []) :
    splitLines line cs ≠ [] := by
  intro hnil
  have hflat := flatten_splitLines line cs
  rw [hnil] at hflat
  have hboth := List.append_eq_nil_iff.mp hflat.symm
  rcases h with h | h
  · exact h (List.reverse_eq_nil_iff.mp hboth.1)
  · exact h hboth.2

theorem inLines_of_lt {line : List Char} {place : Nat} (h : place < line.length)
    (lines : List (List Char)) : inLines (line :: lines) place = some ⟨1, place + 1⟩ := by
  cases lines with
  | nil => exact if_pos (Nat.le_of_lt h)
  | cons l ls => exact if_pos h

/-- Behind a line that is ended a report goes on in the next, if there is one. -/
theorem inLines_ended (line : List Char) {cs : List Char} {k : Nat}
    (hnext : cs ≠ [] → inLines (splitLines [] cs) k = walkShown k cs first) :
    inLines (line :: splitLines [] cs) (line.length + k) =
      walkShown k cs (if cs = [] then ⟨1, line.length + 1⟩ else ⟨2, 1⟩) := by
  by_cases hcs : cs = []
  · subst hcs
    rw [if_pos rfl, splitLines, inLines]
    cases k with
    | zero => exact if_pos (Nat.le_refl _)
    | succ k => exact if_neg (by omega)
  · rw [inLines_cons line (splitLines_ne_nil (.inr hcs)), if_neg (by omega),
      Nat.add_sub_cancel_left, hnext hcs, if_neg hcs, ← walkShown_nextLine]
    rfl

/-- A place in the line that is continued lies in the first line. -/
theorem inLines_splitLines_of_le {line cs : List Char} (h : line ≠ [] ∨ cs ≠ []) {place : Nat}
    (hplace : place ≤ line.length) : inLines (splitLines line cs) place = some ⟨1, place + 1⟩ := by
  fun_induction splitLines line cs with
  | case1 => simp at h
  | case2 line => exact if_pos (by simpa using hplace)
  | case3 line cs => exact inLines_of_lt (by simp; omega) _
  | case4 line c cs => exact inLines_of_lt (by simp; omega) _
  | case5 line c cs _ _ ih => exact ih (.inl (List.cons_ne_nil _ _)) (Nat.le_succ_of_le hplace)

/-- Looking for a place in the lines of a source is a walk. -/
theorem inLines_splitLines {line cs : List Char} (h : line ≠ [] ∨ cs ≠ []) (k : Nat) :
    inLines (splitLines line cs) (line.length + k) =
      walkShown k cs ⟨1, line.length + 1⟩ := by
  fun_induction splitLines line cs generalizing k with
  | case1 => simp at h
  | case2 line =>
      rw [inLines, List.length_reverse]
      cases k with
      | zero => exact if_pos (Nat.le_refl _)
      | succ k => exact if_neg (by omega)
  | case3 line cs ih =>
      rcases k with - | - | k
      · exact inLines_of_lt (by simp) _
      · exact inLines_of_lt (by simp) _
      · have hnext : cs ≠ [] → inLines (splitLines [] cs) k = walkShown k cs first := fun hcs => by
          simpa [first] using ih (.inr hcs) k
        have hended := inLines_ended ('\n' :: '\r' :: line).reverse hnext
        have hfeed : afterShown ⟨1, line.length + 1 + 1⟩ '\n' cs =
            if cs = [] then ⟨1, line.length + 1 + 1 + 1⟩ else ⟨2, 1⟩ :=
          afterShown_of_endsLine (c := '\n') rfl (fun _ hcr => absurd hcr (by decide)) _
        rw [walkShown, walkShown]
        simp only [List.length_reverse, List.length_cons] at hended
        rw [show line.length + (k + 1 + 1) = line.length + 1 + 1 + k by omega, hended]
        exact congrArg (walkShown k cs) hfeed.symm
  | case4 line c cs hpair hends ih =>
      cases k with
      | zero => exact inLines_of_lt (by simp) _
      | succ k =>
          have hnext : cs ≠ [] → inLines (splitLines [] cs) k = walkShown k cs first :=
            fun hcs => by simpa [first] using ih (.inr hcs) k
          have hended := inLines_ended (c :: line).reverse hnext
          rw [walkShown, afterShown_of_endsLine hends hpair]
          simp only [List.length_reverse, List.length_cons] at hended
          rw [show line.length + (k + 1) = line.length + 1 + k by omega, hended]
  | case5 line c cs hpair hends ih =>
      cases k with
      | zero => exact inLines_splitLines_of_le (.inl (List.cons_ne_nil _ _)) (Nat.le_succ _)
      | succ k =>
          have hrest := ih (.inl (List.cons_ne_nil _ _)) k
          rw [walkShown, afterShown_of_not_endsLine hends]
          rw [List.length_cons, Nat.add_right_comm] at hrest
          exact hrest

/-! ## The lines of a report -/

/-- Where lines have a place: the number of the line that holds it, and its number there. -/
def shownAt? (lines : List SourceLine) (place : Nat) : Option Position := do
  let first ← lineAt? lines place
  let l ← lines[first]?
  return ⟨first + 1, place - l.start + 1⟩

theorem placeLines_ne_nil {lines : List (List Char)} (h : lines ≠ []) (start : Nat) :
    placeLines start lines ≠ [] := by
  cases lines with
  | nil => exact absurd rfl h
  | cons line lines => exact List.cons_ne_nil _ _

/-- The last of the lines ends where all characters do. -/
theorem stop_placeLines {lines : List (List Char)} (h : lines ≠ []) (start : Nat) :
    (placeLines start lines).getLast?.map SourceLine.stop =
      some (start + lines.flatten.length) := by
  induction lines generalizing start with
  | nil => exact absurd rfl h
  | cons line lines ih =>
      rw [placeLines]
      by_cases hlines : lines = []
      · subst hlines
        simp [placeLines, SourceLine.stop]
      · rw [List.getLast?_cons_of_ne_nil (placeLines_ne_nil hlines _), ih hlines,
          List.flatten_cons, List.length_append, Nat.add_assoc]

theorem lineAt?_placeLines {lines : List (List Char)} (h : lines ≠ []) (start place : Nat) :
    lineAt? (placeLines start lines) place =
      if start + lines.flatten.length < place then none
      else some (((placeLines start lines).takeWhile fun l =>
        decide (l.start ≤ place)).length - 1) := by
  rw [lineAt?, stop_placeLines h]
  rfl

/-- Lines behind a place do not hold it. -/
theorem takeWhile_placeLines_of_lt {start place : Nat} (h : place < start)
    (lines : List (List Char)) :
    ((placeLines start lines).takeWhile fun l => decide (l.start ≤ place)) = [] := by
  cases lines with
  | nil => rfl
  | cons line lines => exact List.takeWhile_cons_of_neg (by simpa using h)

theorem takeWhile_placeLines_of_le {start place : Nat} (h : start ≤ place) (line : List Char)
    (lines : List (List Char)) :
    ((placeLines start (line :: lines)).takeWhile fun l => decide (l.start ≤ place)) =
      ⟨start, line⟩ :: (placeLines (start + line.length) lines).takeWhile fun l =>
        decide (l.start ≤ place) :=
  List.takeWhile_cons_of_pos (by simpa using h)

/-- Looking for a place in numbered lines is looking for it in the lines. -/
theorem shownAt?_placeLines {lines : List (List Char)} (h : lines ≠ []) (start place : Nat) :
    shownAt? (placeLines start lines) (start + place) = inLines lines place := by
  induction lines generalizing start place with
  | nil => exact absurd rfl h
  | cons line lines ih =>
      have htotal : (line :: lines).flatten.length = line.length + lines.flatten.length := by
        rw [List.flatten_cons, List.length_append]
      rw [shownAt?, lineAt?_placeLines h, htotal,
        takeWhile_placeLines_of_le (Nat.le_add_right ..)]
      by_cases hlines : lines = []
      · subst hlines
        rw [inLines]
        by_cases hplace : place ≤ line.length
        · rw [if_neg (by simpa using hplace), if_pos hplace]
          simp [placeLines]
        · rw [if_pos (by simpa using hplace), if_neg hplace]
          rfl
      · rw [inLines_cons line hlines]
        by_cases hplace : place < line.length
        · rw [if_neg (by omega), if_pos hplace, takeWhile_placeLines_of_lt (by omega)]
          simp [placeLines]
        · obtain ⟨k, rfl⟩ := Nat.exists_eq_add_of_le (Nat.le_of_not_lt hplace)
          rw [if_neg hplace, Nat.add_sub_cancel_left, ← ih hlines (start + line.length) k,
            ← Nat.add_assoc, ← Nat.add_assoc, shownAt?, lineAt?_placeLines hlines]
          obtain ⟨l, ls, rfl⟩ := List.exists_cons_of_ne_nil hlines
          split
          · rfl
          · rw [takeWhile_placeLines_of_le (Nat.le_add_right ..)]
            simp only [List.length_cons, Nat.add_one_sub_one, placeLines, Option.pure_def,
              Option.bind_eq_bind, Option.bind_some, List.getElem?_cons_succ, Option.map_bind]
            rfl

theorem sourceLines_eq (cs : List Char) : ∃ lines, lines ≠ [] ∧ lines.flatten = cs ∧
    sourceLines cs = placeLines 0 lines ∧ ∀ k, inLines lines k = walkShown k cs first := by
  by_cases hcs : cs = []
  · subst hcs
    refine ⟨[[]], List.cons_ne_nil _ _, rfl, rfl, fun k => ?_⟩
    cases k <;> rfl
  · have hsome : ([] : List Char) ≠ [] ∨ cs ≠ [] := .inr hcs
    have hne := splitLines_ne_nil hsome
    refine ⟨splitLines [] cs, hne, flatten_splitLines [] cs, ?_, fun k => ?_⟩
    · rw [sourceLines]
      split
      · next hnil => exact absurd hnil hne
      · rfl
    · simpa [first] using inLines_splitLines hsome k

/-- Where a report has a place is a walk over the characters of the source. -/
theorem shownAt?_sourceLines (cs : List Char) (place : Nat) :
    shownAt? (sourceLines cs) place = walkShown place cs first := by
  obtain ⟨lines, hne, -, hlines, hwalk⟩ := sourceLines_eq cs
  rw [hlines, ← hwalk, ← shownAt?_placeLines hne 0, Nat.zero_add]

theorem lineAt?_sourceLines_eq_none_iff {cs : List Char} {place : Nat} :
    lineAt? (sourceLines cs) place = none ↔ cs.length < place := by
  obtain ⟨lines, hne, rfl, hlines, -⟩ := sourceLines_eq cs
  rw [hlines, lineAt?_placeLines hne, Nat.zero_add]
  split <;> simp_all

/-- A report gives the position of the place where a diagnostic begins, if the whole place
lies within the source. -/
theorem Diagnostic.location?_sourceLines (cs : List Char) (d : Diagnostic) :
    d.location? (sourceLines cs) =
      if d.span.start < d.span.stop ∧ cs.length + 1 < d.span.stop then none
      else walkShown d.span.start cs first := by
  rw [← shownAt?_sourceLines, location?, lineRange?, shownAt?]
  by_cases hlt : d.span.start < d.span.stop
  · simp only [if_pos hlt]
    cases hstop : lineAt? (sourceLines cs) (d.span.stop - 1) with
    | none =>
        have hbehind := lineAt?_sourceLines_eq_none_iff.mp hstop
        rw [if_pos ⟨hlt, by omega⟩]
        cases lineAt? (sourceLines cs) d.span.start <;> rfl
    | some last =>
        have hwithin : ¬ cs.length < d.span.stop - 1 := by
          intro hbehind
          rw [lineAt?_sourceLines_eq_none_iff.mpr hbehind] at hstop
          cases hstop
        rw [if_neg (fun h => by omega)]
        cases lineAt? (sourceLines cs) d.span.start <;> rfl
  · simp only [if_neg hlt, if_neg fun h : _ ∧ _ => hlt h.1]
    cases lineAt? (sourceLines cs) d.span.start <;> rfl

end Storyworld
