import Mathlib.Data.List.DropRight
import Storyworld.Proofs.Location

/-!
# Positions of boundaries

An offset is a *boundary* of a text if a character begins there or the text ends there.  From
any other offset within the text a search that goes back one byte at a time comes to the boundary
before it (`BacksUp`).  `Position.locate` does not search.  It walks over the characters that end
at or before the offset, and behind the last of these is that boundary (`backsUp_charsBefore`).

What the walk counts are line feeds and the characters since the last of them
(`foldl_after_first`).  Every step of it leads to a later position (`before_foldl_after`), so
positions are in the order of their boundaries, and no two boundaries share one
(`Position.locate_boundaries`).
-/

namespace Storyworld

/-! ## Boundaries -/

/-- A character of a text begins at an offset, or the text ends there. -/
def IsBoundary (text : String) (offset : Nat) : Prop := String.Pos.Raw.IsValid text ⟨offset⟩

/-- Going back one byte at a time from an offset stops at a boundary.  There is no step back
from the first byte. -/
inductive BacksUp (text : String) : Nat → Nat → Prop
  /-- At a boundary the search is over. -/
  | stops {i : Nat} : IsBoundary text i → BacksUp text i i
  /-- From any other offset it goes on one byte before. -/
  | back {i k : Nat} : ¬ IsBoundary text (i + 1) → BacksUp text i k → BacksUp text (i + 1) k

theorem byteLength_toList (text : String) : byteLength text.toList = text.utf8ByteSize := by
  have hchars : ∀ cs : List Char, byteLength cs = (String.ofList cs).utf8ByteSize := by
    intro cs
    induction cs with
    | nil => rfl
    | cons c cs ih =>
        rw [byteLength_cons, ih, ← List.singleton_append, String.ofList_append,
          String.utf8ByteSize_append, ← String.singleton_eq_ofList, String.utf8ByteSize_singleton]
  rw [hchars, String.ofList_toList]

/-- A boundary is where a text can be cut in two. -/
theorem isBoundary_iff {text : String} {i : Nat} : IsBoundary text i ↔
    ∃ front rest, text.toList = front ++ rest ∧ byteLength front = i := by
  rw [IsBoundary, String.Pos.Raw.isValid_iff_exists_append]
  constructor
  · rintro ⟨front, rest, rfl, hi⟩
    refine ⟨front.toList, rest.toList, String.toList_append, ?_⟩
    rw [byteLength_toList]
    exact (congrArg String.Pos.Raw.byteIdx hi).symm
  · rintro ⟨front, rest, htext, rfl⟩
    refine ⟨.ofList front, .ofList rest, ?_, ?_⟩
    · rw [← String.ofList_append, ← htext, String.ofList_toList]
    · rw [← String.toList_ofList (l := front), byteLength_toList, String.toList_ofList]
      rfl

/-! ## The characters before an offset -/

/-- Behind the characters before an offset the text ends or a character goes over the offset. -/
theorem charsBefore_split (offset : Nat) (cs : List Char) :
    ∃ rest, cs = charsBefore offset cs ++ rest ∧ byteLength (charsBefore offset cs) ≤ offset ∧
      ∀ c ∈ rest.head?, offset < byteLength (charsBefore offset cs) + c.utf8Size := by
  fun_induction charsBefore offset cs with
  | case1 offset => exact ⟨[], rfl, Nat.zero_le _, nofun⟩
  | case2 offset c cs hfits ih =>
      obtain ⟨rest, hsplit, hle, hover⟩ := ih
      refine ⟨rest, congrArg (c :: ·) hsplit, ?_, fun d hd => ?_⟩
      · rw [byteLength_cons]
        omega
      · have := hover d hd
        rw [byteLength_cons]
        omega
  | case3 offset c cs hfits =>
      refine ⟨c :: cs, rfl, Nat.zero_le _, fun d hd => ?_⟩
      obtain rfl : c = d := Option.some.inj hd
      rw [byteLength_nil]
      omega

/-- Before an offset behind some characters there stand these, and those before what is left of
it. -/
theorem charsBefore_append (front rest : List Char) (offset : Nat) :
    charsBefore (byteLength front + offset) (front ++ rest) = front ++ charsBefore offset rest := by
  induction front with
  | nil => rw [List.nil_append, byteLength_nil, Nat.zero_add, List.nil_append]
  | cons c front ih =>
      have hrest : c.utf8Size + byteLength front + offset - c.utf8Size =
          byteLength front + offset := by omega
      rw [List.cons_append, charsBefore, byteLength_cons, if_pos (by omega), hrest, ih,
        List.cons_append]

/-- An offset that does not reach over the next character has the same characters before it. -/
theorem charsBefore_add (front : List Char) {rest : List Char} {j : Nat}
    (h : ∀ c ∈ rest.head?, j < c.utf8Size) :
    charsBefore (byteLength front + j) (front ++ rest) = front := by
  have hnone : charsBefore j rest = [] := by
    cases rest with
    | nil => rw [charsBefore]
    | cons c rest => rw [charsBefore, if_neg (Nat.not_le_of_lt (h c rfl))]
  rw [charsBefore_append, hnone, List.append_nil]

/-- Within a character there is no boundary. -/
theorem not_isBoundary_within {text : String} {front rest : List Char} {c : Char}
    (htext : text.toList = front ++ c :: rest) {i : Nat} (hlt : byteLength front < i)
    (hover : i < byteLength front + c.utf8Size) : ¬ IsBoundary text i := by
  rw [isBoundary_iff]
  rintro ⟨front', rest', htext', rfl⟩
  rw [htext] at htext'
  obtain ⟨more, rfl, hmore⟩ | ⟨more, rfl, -⟩ := List.append_eq_append_iff.mp htext'
  · cases more with
    | nil => simp at hlt
    | cons d more =>
        obtain rfl : c = d := (List.cons.inj hmore).1
        rw [byteLength_append, byteLength_cons] at hover
        omega
  · rw [byteLength_append] at hlt
    omega

/-- The search goes back to a boundary over offsets that are none. -/
theorem backsUp_of_between {text : String} {k : Nat} (hk : IsBoundary text k) :
    ∀ {i : Nat}, k ≤ i → (∀ j, k < j → j ≤ i → ¬ IsBoundary text j) → BacksUp text i k
  | 0, hle, _ => by
      obtain rfl := Nat.le_zero.mp hle
      exact .stops hk
  | i + 1, hle, hnone => by
      rcases Nat.lt_or_eq_of_le hle with hlt | rfl
      · exact .back (hnone (i + 1) hlt (Nat.le_refl _))
          (backsUp_of_between hk (Nat.le_of_lt_succ hlt)
            fun j hj hji => hnone j hj (Nat.le_succ_of_le hji))
      · exact .stops hk

/-- The search for a boundary stops behind the characters before the offset. -/
theorem backsUp_charsBefore (text : String) (offset : Nat) :
    BacksUp text (min offset text.utf8ByteSize) (byteLength (charsBefore offset text.toList)) := by
  obtain ⟨rest, hsplit, hle, hover⟩ := charsBefore_split offset text.toList
  have hlength : byteLength (charsBefore offset text.toList) + byteLength rest =
      text.utf8ByteSize := by
    rw [← byteLength_append, ← hsplit, byteLength_toList]
  refine backsUp_of_between (isBoundary_iff.mpr ⟨_, rest, hsplit, rfl⟩) (by omega) ?_
  intro j hj hji
  cases rest with
  | nil =>
      rw [byteLength_nil] at hlength
      omega
  | cons c rest =>
      have := hover c rfl
      exact not_isBoundary_within hsplit hj (by omega)

/-! ## The walk -/

namespace Position

/-- A walk from the beginning counts the line feeds, and the characters since the last of them. -/
theorem foldl_after_first (front : List Char) : front.foldl after first =
    ⟨front.count '\n' + 1, (front.rtakeWhile (· != '\n')).length + 1⟩ := by
  induction front using List.reverseRecOn with
  | nil => rfl
  | append_singleton front c ih =>
      rw [List.foldl_append, List.foldl_cons, List.foldl_nil, ih, after, List.count_append,
        List.rtakeWhile_concat]
      by_cases hc : c = '\n'
      · simp [hc]
      · simp [hc]

theorem before_after (p : Position) (c : Char) : p.Before (p.after c) := by
  rw [after]
  split
  · exact .inl (Nat.lt_succ_self _)
  · exact .inr ⟨rfl, Nat.lt_succ_self _⟩

/-- A walk over characters leads to a later position. -/
theorem before_foldl_after {cs : List Char} (hcs : cs ≠ []) (p : Position) :
    p.Before (cs.foldl after p) := by
  induction cs generalizing p with
  | nil => exact absurd rfl hcs
  | cons c cs ih =>
      by_cases hrest : cs = []
      · subst hrest
        exact before_after p c
      · exact (before_after p c).atMost.trans_before (ih hrest (p.after c))

theorem Before.asymm {p q : Position} (h : p.Before q) : ¬ q.Before p := by
  rw [Before] at *
  omega

/-- Up to the next character an offset has the position of the boundary before it. -/
theorem locate_add {text : String} {front rest : List Char} (htext : text.toList = front ++ rest)
    {j : Nat} (h : ∀ c ∈ rest.head?, j < c.utf8Size) :
    locate text (byteLength front + j) = locate text (byteLength front) := by
  rw [locate, locate, htext, charsBefore_add front h, charsBefore_byteLength_append]

/-- A later boundary has a later position. -/
theorem before_locate {text : String} {i j : Nat} (hi : IsBoundary text i)
    (hj : IsBoundary text j) (hlt : i < j) : (locate text i).Before (locate text j) := by
  obtain ⟨front, rest, htext, rfl⟩ := isBoundary_iff.mp hi
  obtain ⟨front', rest', htext', rfl⟩ := isBoundary_iff.mp hj
  rw [locate, locate, htext, charsBefore_byteLength_append, ← htext, htext',
    charsBefore_byteLength_append]
  rw [htext] at htext'
  obtain ⟨more, rfl, -⟩ | ⟨more, rfl, -⟩ := List.append_eq_append_iff.mp htext'
  · have hmore : more ≠ [] := by
      rintro rfl
      rw [List.append_nil] at hlt
      exact Nat.lt_irrefl _ hlt
    rw [List.foldl_append]
    exact before_foldl_after hmore _
  · rw [byteLength_append] at hlt
    omega

/-- The position of an offset is that of the boundary to which a search goes back from it, or
from the end of the text if the offset lies behind.  Its line counts the line feeds before the
boundary, and its column the characters since the last of them.  So the offsets within a
character have the position where the character begins, and those behind the end that of the
end.  Boundaries and their positions are in the same order. -/
theorem locate_boundaries (text : String) :
    (∀ offset, ∃ front rest : String, text = front ++ rest ∧
      BacksUp text (min offset text.utf8ByteSize) front.utf8ByteSize ∧
      locate text offset = ⟨front.toList.count '\n' + 1,
        (front.toList.rtakeWhile (· != '\n')).length + 1⟩) ∧
    (∀ front c rest, text.toList = front ++ c :: rest → ∀ j < c.utf8Size,
      locate text (byteLength front + j) = locate text (byteLength front)) ∧
    (∀ offset, text.utf8ByteSize ≤ offset →
      locate text offset = locate text text.utf8ByteSize) ∧
    ∀ i j, IsBoundary text i → IsBoundary text j →
      (i < j ↔ (locate text i).Before (locate text j)) ∧
        (locate text i = locate text j ↔ i = j) := by
  refine ⟨fun offset => ?_, fun front c rest htext j hj => ?_, fun offset hle => ?_,
    fun i j hi hj => ?_⟩
  · obtain ⟨rest, hsplit, -⟩ := charsBefore_split offset text.toList
    refine ⟨.ofList (charsBefore offset text.toList), .ofList rest, ?_, ?_, ?_⟩
    · rw [← String.ofList_append, ← hsplit, String.ofList_toList]
    · rw [← byteLength_toList (.ofList _), String.toList_ofList]
      exact backsUp_charsBefore text offset
    · rw [String.toList_ofList, locate, foldl_after_first]
  · refine locate_add htext fun d hd => ?_
    obtain rfl : c = d := Option.some.inj hd
    exact hj
  · have hend := locate_add (List.append_nil text.toList).symm
      (j := offset - text.utf8ByteSize) fun c hc => by cases hc
    rwa [byteLength_toList, Nat.add_sub_cancel' hle] at hend
  · have hforth := before_locate hi hj
    have hback := before_locate hj hi
    refine ⟨⟨hforth, fun hbefore => ?_⟩, fun hsame => ?_, congrArg _⟩
    · rcases Nat.lt_trichotomy i j with hlt | rfl | hlt
      · exact hlt
      · exact absurd rfl hbefore.ne
      · exact absurd (hback hlt) hbefore.asymm
    · rcases Nat.lt_trichotomy i j with hlt | heq | hlt
      · exact absurd hsame (hforth hlt).ne
      · exact heq
      · exact absurd hsame.symm (hback hlt).ne

/-- A letter of two bytes stands behind a line feed.  The offset within it is no boundary, and has
the position of the letter. -/
example : (List.range 6).map (Position.locate "a\né\n") =
    [⟨1, 1⟩, ⟨1, 2⟩, ⟨2, 1⟩, ⟨2, 1⟩, ⟨2, 2⟩, ⟨3, 1⟩] := by decide

end Position

end Storyworld
