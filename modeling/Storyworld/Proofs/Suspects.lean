import Mathlib.Algebra.Order.Field.Rat
import Mathlib.Algebra.Order.Field.Power
import Mathlib.Data.Rat.Cast.Order
import Storyworld.Proofs.Partition
import Storyworld.Proofs.Warnings

/-!
# What deserves a warning

A *site* is a place in a story where something can look like a mistake: a value in the list of a
factor, a test, a probability, an effect.  `Site.Suspect` says of each whether it does, and for
that only looks at the values that the blocks of the story declare (`declaredValues`).  The tokens
of a tree are those of its *pieces*, which are sites and plain tokens (`written_pieces`), so the
tokens of a story determine where its sites stand (`placed`).

Findings are made by several productions.  Those of a factor are made when the whole block has been
read, and the others compare a value with a factor as it is known so far.  Still what is found in a
tree is what its suspicious sites deserve, in order (`Block.found_eq`).  For a test and an effect
the reason is that the factor has been declared before and keeps its values.  As the tokens of a
story are in order and none is empty, so are its sites (`placed_inOrder`), and with them what is
found (`findings_inOrder`) and the warnings (`compile_warns`).  `Binary64.AboveOne` says when a
probability is above one, by the number that its word stands for.
-/

namespace Storyworld

/-! ## Above one -/

namespace Binary64

/-- A number above one: positive infinity, or a finite number that is. -/
def AboveOne (x : Binary64) : Prop :=
  match x.parts with
  | .notANumber => False
  | .infinite negative => negative = false
  | .finite negative m q => negative = false ∧ (1 : ℚ) < m * 2 ^ q

theorem scaledLe_one_iff (m : Nat) (q : Int) :
    scaledLe m q 1 0 = true ↔ (m * 2 ^ q : ℚ) ≤ 1 := by
  rw [scaledLe, decide_eq_true_eq]
  rcases Int.le_total 0 q with hq | hq
  · obtain ⟨n, rfl⟩ := Int.eq_ofNat_of_zero_le hq
    have hn : ((n : Int) - 0).toNat = n := by omega
    have hzero : (0 - (n : Int)).toNat = 0 := by omega
    rw [hn, hzero, zpow_natCast, twoTo_zero, Nat.one_mul]
    exact_mod_cast Iff.rfl
  · obtain ⟨n, hn⟩ := Int.eq_ofNat_of_zero_le (Int.neg_nonneg_of_nonpos hq)
    obtain rfl : q = -(n : Int) := by omega
    have hzero : (-(n : Int) - 0).toNat = 0 := by omega
    have hn : (0 - -(n : Int)).toNat = n := by omega
    rw [hn, hzero, twoTo_zero, Nat.mul_one, Nat.one_mul, zpow_neg, zpow_natCast,
      mul_inv_le_iff₀ (pow_pos two_pos n), one_mul]
    exact_mod_cast Iff.rfl

theorem exceeds_one_iff (x : Binary64) : x.exceeds 1 0 = true ↔ x.AboveOne := by
  rw [exceeds, AboveOne]
  cases x.parts with
  | notANumber => simp
  | infinite negative => simp
  | finite negative m q =>
      simp only [Bool.and_eq_true, Bool.not_eq_true', ← not_le, ← scaledLe_one_iff,
        Bool.not_eq_true]

instance (x : Binary64) : Decidable x.AboveOne := decidable_of_iff _ x.exceeds_one_iff

end Binary64

namespace Tree

/-! ## Sites -/

/-- A place where something can look like a mistake. -/
inductive Site where
  /-- A value in the list of a factor, behind others. -/
  | listed (factor : String) (earlier : List Value) (value : Atom)
  /-- A test of a factor for a value. -/
  | tested (factor : String) (value : Atom)
  /-- The probability of a spontaneous transition. -/
  | chance (p : Chance)
  /-- The value that an effect gives to a factor. -/
  | given (factor : String) (value : Atom)
deriving DecidableEq, Repr

/-- The values that blocks declare for the factor of a name. -/
def declaredValues (bs : List Block) (name : String) : List Value :=
  bs.flatMap fun
    | .factor label values => if label = name then values.toList.map Atom.value else []
    | _ => []

namespace Site

/-- The tokens that stand at a site. -/
def tokens : Site → List Token
  | .listed _ _ a => [a.token]
  | .tested factor a => [.word factor, .mark .equals, a.token]
  | .chance p => [p.token]
  | .given _ a => [a.token]

/-- A site looks like a mistake, given the values that are declared for each name: a value is
listed again, is tested for or given to a factor without being declared for it, or a probability is
above one. -/
def Suspect (declared : String → List Value) : Site → Prop
  | .listed _ earlier a => a.value ∈ earlier
  | .tested factor a => a.value ∉ declared factor
  | .chance p => p.probability.AboveOne
  | .given factor a => a.value ∉ declared factor

instance (declared : String → List Value) (s : Site) : Decidable (s.Suspect declared) :=
  match s with
  | .listed _ earlier a => inferInstanceAs (Decidable (a.value ∈ earlier))
  | .tested factor a => inferInstanceAs (Decidable (a.value ∉ declared factor))
  | .chance p => inferInstanceAs (Decidable p.probability.AboveOne)
  | .given factor a => inferInstanceAs (Decidable (a.value ∉ declared factor))

/-- The finding that a suspicious site deserves. -/
def finding : Site → Finding
  | .listed factor _ a => .repeatedValue a.value factor
  | .tested factor a => .neverHolds factor a.value
  | .chance p => .aboveOne p.probability
  | .given factor a => .undeclaredValue a.value factor

/-- What is found at sites: what the suspicious ones among them deserve. -/
def foundAt (declared : String → List Value) (sites : List (Spanned Site)) :
    List (Spanned Finding) :=
  (sites.filter fun s => decide (s.node.Suspect declared)).map fun s => ⟨s.node.finding, s.span⟩

theorem foundAt_append (declared : String → List Value) (sites more : List (Spanned Site)) :
    foundAt declared (sites ++ more) = foundAt declared sites ++ foundAt declared more := by
  rw [foundAt, List.filter_append, List.map_append]
  rfl

theorem foundAt_cons_of_suspect {declared : String → List Value} {s : Site}
    (h : s.Suspect declared) (span : Span) (sites : List (Spanned Site)) :
    foundAt declared (⟨s, span⟩ :: sites) = ⟨s.finding, span⟩ :: foundAt declared sites := by
  simp [foundAt, h]

theorem foundAt_cons_of_not_suspect {declared : String → List Value} {s : Site}
    (h : ¬ s.Suspect declared) (span : Span) (sites : List (Spanned Site)) :
    foundAt declared (⟨s, span⟩ :: sites) = foundAt declared sites := by
  simp [foundAt, h]

/-- What is found at one site. -/
theorem foundAt_singleton (declared : String → List Value) (s : Site) (span : Span) :
    foundAt declared [⟨s, span⟩] =
      if s.Suspect declared then [⟨s.finding, span⟩] else [] := by
  by_cases hs : s.Suspect declared
  · rw [foundAt_cons_of_suspect hs, if_pos hs]
    rfl
  · rw [foundAt_cons_of_not_suspect hs, if_neg hs]
    rfl

end Site

/-! ## Pieces -/

/-- A token that is no site, or a site. -/
inductive Piece where
  | plain (t : Token)
  | site (s : Site)

def Piece.tokens : Piece → List Token
  | .plain t => [t]
  | .site s => s.tokens

/-- Tokens that are no sites. -/
def plains (ts : List Token) : List Piece := ts.map .plain

/-- The tokens of pieces. -/
def written (xs : List Piece) : List Token := xs.flatMap Piece.tokens

/-- The sites of pieces whose tokens stand at these places. -/
def placed : List Piece → List Span → List (Spanned Site)
  | [], _ => []
  | .plain _ :: xs, ps => placed xs (ps.drop 1)
  | .site s :: xs, ps =>
      ⟨s, around (ps.take s.tokens.length)⟩ :: placed xs (ps.drop s.tokens.length)

@[simp] theorem written_append (xs ys : List Piece) :
    written (xs ++ ys) = written xs ++ written ys := List.flatMap_append

@[simp] theorem written_plains (ts : List Token) : written (plains ts) = ts := by
  induction ts with
  | nil => rfl
  | cons t ts ih => exact congrArg (t :: ·) ih

@[simp] theorem written_plain_cons (t : Token) (xs : List Piece) :
    written (.plain t :: xs) = t :: written xs := rfl

@[simp] theorem written_site_cons (s : Site) (xs : List Piece) :
    written (.site s :: xs) = s.tokens ++ written xs := rfl

theorem placed_append (xs ys : List Piece) (ps : List Span) :
    placed (xs ++ ys) ps =
      placed xs (ps.take (written xs).length) ++ placed ys (ps.drop (written xs).length) := by
  induction xs generalizing ps with
  | nil => rfl
  | cons x xs ih =>
      cases x with
      | plain t =>
          rw [List.cons_append, placed, ih, placed, written_plain_cons, List.length_cons,
            List.drop_take, List.drop_drop, Nat.add_comm 1, Nat.add_sub_cancel]
      | site s =>
          rw [List.cons_append, placed, ih, placed, written_site_cons, List.length_append,
            List.drop_take, List.drop_drop, List.take_take, Nat.add_sub_cancel_left,
            Nat.min_eq_left (Nat.le_add_right ..), List.cons_append]

@[simp] theorem placed_plains (ts : List Token) (ps : List Span) : placed (plains ts) ps = [] := by
  induction ts generalizing ps with
  | nil => rfl
  | cons t ts ih => exact ih _

/-- The sites of pieces behind others. -/
theorem placed_append_drop (n : Nat) (xs ys : List Piece) (ps : List Span) :
    placed (xs ++ ys) (ps.drop n) = placed xs (part n (written xs).length ps) ++
      placed ys (ps.drop (n + (written xs).length)) := by
  rw [placed_append, List.drop_drop]
  rfl

theorem placed_plains_append_drop (n : Nat) (ts : List Token) (ys : List Piece)
    (ps : List Span) :
    placed (plains ts ++ ys) (ps.drop n) = placed ys (ps.drop (n + ts.length)) := by
  rw [placed_append_drop, placed_plains, written_plains, List.nil_append]

theorem placed_plains_append (ts : List Token) (ys : List Piece) (ps : List Span) :
    placed (plains ts ++ ys) ps = placed ys (ps.drop ts.length) := by
  rw [placed_append, placed_plains, written_plains, List.nil_append]

theorem placed_append_plains (n : Nat) (xs : List Piece) (ts : List Token) (ps : List Span) :
    placed (xs ++ plains ts) (ps.drop n) = placed xs (part n (written xs).length ps) := by
  rw [placed_append_drop, placed_plains, List.append_nil]

/-! ## The pieces of trees -/

/-- The pieces of values between commas, behind others. -/
def listedPieces (factor : String) (earlier : List Value) : Several Atom → List Piece
  | .one a => [.site (.listed factor earlier a)]
  | .more a as =>
      .site (.listed factor earlier a) :: .plain (.mark .comma) ::
        listedPieces factor (a.value :: earlier) as

mutual

def Conjunction.pieces : Conjunction → List Piece
  | .one d => d.pieces
  | .and d c => d.pieces ++ .plain (.mark .ampersand) :: c.pieces

def Disjunction.pieces : Disjunction → List Piece
  | .one t => t.pieces
  | .or t d => t.pieces ++ .plain (.mark .pipe) :: d.pieces

def Term.pieces : Term → List Piece
  | .test factor value => [.site (.tested factor value)]
  | .group c => .plain (.mark .openParen) :: (c.pieces ++ [.plain (.mark .closeParen)])

end

def Timing.pieces : Timing → List Piece
  | .spontaneous p => [.plain (.keyword .spontaneous), .site (.chance p)]
  | .choice offer => plains (Timing.choice offer).tokens

def Change.pieces (e : Change) : List Piece :=
  plains [.word e.factor, .mark .minus, .mark .greater] ++ [.site (.given e.factor e.value)]

/-- The pieces of effects between commas. -/
def Change.piecesIn : Several Change → List Piece
  | .one e => e.pieces
  | .more e es => e.pieces ++ .plain (.mark .comma) :: piecesIn es

def Changes.pieces : Changes → List Piece
  | .bare e => e.pieces
  | .listed es =>
      .plain (.mark .openParen) :: (Change.piecesIn es ++ [.plain (.mark .closeParen)])

def Block.pieces : Block → List Piece
  | .factor name values =>
      plains [.keyword .factor, .word name, .mark .colon, .mark .openParen] ++
        (listedPieces name [] values ++ plains [.mark .closeParen])
  | .transition name condition timing changes told =>
      plains (.keyword .transition :: nameTokens name ++ [.mark .colon, .mark .openParen]) ++
        (condition.pieces ++ (plains [.mark .comma] ++ (timing.pieces ++
          (plains [.mark .comma] ++ (changes.pieces ++
            plains (toldTokens told ++ [.mark .closeParen]))))))
  | .description condition told =>
      plains [.keyword .description, .mark .colon, .mark .openParen] ++
        (condition.pieces ++ plains [.mark .comma, .text told, .mark .closeParen])

/-- The pieces of blocks one after another. -/
def pieces (bs : List Block) : List Piece := bs.flatMap Block.pieces

theorem pieces_cons (b : Block) (bs : List Block) : pieces (b :: bs) = b.pieces ++ pieces bs :=
  List.flatMap_cons

/-! ## Their tokens -/

theorem written_listedPieces (factor : String) (earlier : List Value) (as : Several Atom) :
    written (listedPieces factor earlier as) = as.tokens .comma fun a => [a.token] := by
  induction as generalizing earlier with
  | one a => rfl
  | more a as ih => exact congrArg (a.token :: .mark .comma :: ·) (ih _)

mutual

theorem Conjunction.written_pieces : ∀ c : Conjunction, written c.pieces = c.tokens
  | .one d => by
      rw [Conjunction.pieces, Conjunction.tokens, Disjunction.written_pieces d]
  | .and d c => by
      rw [Conjunction.pieces, Conjunction.tokens, written_append, written_plain_cons,
        Disjunction.written_pieces d, Conjunction.written_pieces c]

theorem Disjunction.written_pieces : ∀ d : Disjunction, written d.pieces = d.tokens
  | .one t => by
      rw [Disjunction.pieces, Disjunction.tokens, Term.written_pieces t]
  | .or t d => by
      rw [Disjunction.pieces, Disjunction.tokens, written_append, written_plain_cons,
        Term.written_pieces t, Disjunction.written_pieces d]

theorem Term.written_pieces : ∀ t : Term, written t.pieces = t.tokens
  | .test factor value => by
      rw [Term.pieces, Term.tokens]
      rfl
  | .group c => by
      rw [Term.pieces, Term.tokens, written_plain_cons, written_append,
        Conjunction.written_pieces c]
      rfl

end

theorem Timing.written_pieces (t : Timing) : written t.pieces = t.tokens := by
  cases t with
  | spontaneous p => rfl
  | choice offer => exact written_plains _

theorem Change.written_pieces (e : Change) : written e.pieces = e.tokens := rfl

theorem Change.written_piecesIn (es : Several Change) :
    written (piecesIn es) = es.tokens .comma Change.tokens := by
  induction es with
  | one e => rfl
  | more e es ih =>
      rw [piecesIn, Several.tokens, written_append, written_plain_cons, ih, written_pieces]

theorem Changes.written_pieces (es : Changes) : written es.pieces = es.tokens := by
  cases es with
  | bare e => rfl
  | listed es =>
      rw [pieces, tokens, written_plain_cons, written_append, Change.written_piecesIn]
      rfl

theorem Block.written_pieces (b : Block) : written b.pieces = b.tokens := by
  cases b with
  | factor name values =>
      simp only [pieces, tokens, written_append, written_plains, written_listedPieces,
        List.append_assoc]
  | transition name condition timing changes told =>
      simp only [pieces, tokens, written_append, written_plains, condition.written_pieces,
        timing.written_pieces, changes.written_pieces, List.append_assoc, List.cons_append,
        List.nil_append]
  | description condition told =>
      simp only [pieces, tokens, written_append, written_plains, condition.written_pieces,
        List.append_assoc]

/-- The tokens of blocks are those of their pieces. -/
theorem written_pieces (bs : List Block) : written (pieces bs) = tokens bs := by
  induction bs with
  | nil => rfl
  | cons b bs ih =>
      rw [pieces_cons, written_append, b.written_pieces, ih, tokens, tokens, List.flatMap_cons]

/-! ## What is found in them -/

/-- The values that are declared for each name are those of the factor, as far as a universe has a
factor of the name. -/
def Known (u : Universe) (declared : String → List Value) : Prop :=
  ∀ name f, u.findFactor? name = some f → ∀ v, v ∈ declared name ↔ v ∈ f.values

/-- The values of a factor are those that are declared for its name. -/
theorem known_values (u : Universe) :
    Known u fun name => ((u.findFactor? name).map Factor.values).getD [] := by
  intro name f hf v
  simp only [hf, Option.map_some, Option.getD_some]

section Found

variable {u : Universe} {declared : String → List Value}

/-- A value is found at a factor exactly if it is not declared for the name. -/
theorem Known.found (h : Known u declared) {name : String} (hname : name ∈ u.names) (v : Value)
    (w : Spanned Finding) :
    (match u.findFactor? name with
      | some f => if f.admits v then [] else [w]
      | none => []) = if v ∉ declared name then [w] else [] := by
  obtain ⟨f, hf⟩ := Option.isSome_iff_exists.mp (Universe.findFactor?_isSome_iff.mpr hname)
  have hv : f.admits v = true ↔ v ∈ declared name := by rw [f.admits_iff, h name f hf]
  by_cases hmem : v ∈ declared name
  · simp [hf, hv.mpr hmem, hmem]
  · simp [hf, mt hv.mp hmem, hmem]

/-- What is found at the values of a factor depends on which came before, not on how they are
kept. -/
theorem repetitions_eq (name : String) (as : Several Atom) {seen earlier : List Value}
    (hseen : ∀ v, v ∈ seen ↔ v ∈ earlier) {ps : List Span}
    (hps : ps.length = (as.tokens .comma fun a => [a.token]).length) :
    Reading.repetitions name seen (spannedValues as ps) =
      Site.foundAt declared (placed (listedPieces name earlier as) ps) := by
  induction as generalizing seen earlier ps with
  | one a =>
      have hone : ps.take (Site.listed name earlier a).tokens.length = ps :=
        List.take_of_length_le (Nat.le_of_eq hps)
      rw [spannedValues, listedPieces, placed, placed, hone, Reading.repetitions]
      by_cases ha : (Site.listed name earlier a).Suspect declared
      · rw [if_pos (List.contains_iff_mem.mpr ((hseen _).mpr ha)),
          Site.foundAt_cons_of_suspect ha]
        rfl
      · rw [if_neg (fun hmem => ha ((hseen _).mp (List.contains_iff_mem.mp hmem))),
          Site.foundAt_cons_of_not_suspect ha]
        rfl
  | more a as ih =>
      have hrest : (ps.drop 2).length = (as.tokens .comma fun a => [a.token]).length := by
        rw [List.length_drop, hps, Several.tokens]
        simp
      have hdrop : (ps.drop (Site.listed name earlier a).tokens.length).drop 1 = ps.drop 2 :=
        List.drop_drop
      rw [spannedValues, listedPieces, placed, placed, hdrop, Reading.repetitions]
      by_cases ha : (Site.listed name earlier a).Suspect declared
      · have hsame : ∀ v, v ∈ seen ↔ v ∈ a.value :: earlier := fun v => by
          rw [hseen, List.mem_cons]
          refine ⟨.inr, fun hv => hv.elim (fun heq => ?_) id⟩
          subst heq
          exact ha
        rw [if_pos (List.contains_iff_mem.mpr ((hseen _).mpr ha)),
          Site.foundAt_cons_of_suspect ha, ih hsame hrest]
        rfl
      · have hnext : ∀ v, v ∈ a.value :: seen ↔ v ∈ a.value :: earlier := fun v => by
          rw [List.mem_cons, List.mem_cons, hseen]
        rw [if_neg (fun hmem => ha ((hseen _).mp (List.contains_iff_mem.mp hmem))),
          Site.foundAt_cons_of_not_suspect ha, ih hnext hrest]

/-- The places of the tokens before a token and of those behind it. -/
theorem length_split {ps : List Span} {xs ys : List Token} {t : Token}
    (h : ps.length = (xs ++ t :: ys).length) :
    (ps.take xs.length).length = xs.length ∧ (ps.drop (xs.length + 1)).length = ys.length := by
  rw [List.length_append, List.length_cons] at h
  rw [List.length_take, List.length_drop]
  omega

/-- The places of the tokens between others. -/
theorem length_part {ps : List Span} {n : Nat} (before : List Token) {xs after : List Token}
    (hn : before.length = n) (h : ps.length = (before ++ (xs ++ after)).length) :
    (part n xs.length ps).length = xs.length := by
  rw [List.length_append, List.length_append] at h
  rw [part, List.length_take, List.length_drop]
  omega

mutual

theorem Conjunction.found_eq (h : Known u declared) : ∀ (c : Conjunction) {ps : List Span},
    (∀ p ∈ c.tests, p.1 ∈ u.names) → ps.length = c.tokens.length →
      c.found u ps = Site.foundAt declared (placed c.pieces ps)
  | .one d, ps, hnames, hps => by
      rw [Conjunction.tests] at hnames
      rw [Conjunction.tokens] at hps
      rw [Conjunction.found, Conjunction.pieces]
      exact Disjunction.found_eq h d hnames hps
  | .and d c, ps, hnames, hps => by
      rw [Conjunction.tests, List.forall_mem_append] at hnames
      rw [Conjunction.tokens] at hps
      obtain ⟨hd, hc⟩ := length_split hps
      rw [Conjunction.found, Conjunction.pieces, placed_append, placed, d.written_pieces,
        List.drop_drop, Site.foundAt_append, Disjunction.found_eq h d hnames.1 hd,
        Conjunction.found_eq h c hnames.2 hc]

theorem Disjunction.found_eq (h : Known u declared) : ∀ (d : Disjunction) {ps : List Span},
    (∀ p ∈ d.tests, p.1 ∈ u.names) → ps.length = d.tokens.length →
      d.found u ps = Site.foundAt declared (placed d.pieces ps)
  | .one t, ps, hnames, hps => by
      rw [Disjunction.tests] at hnames
      rw [Disjunction.tokens] at hps
      rw [Disjunction.found, Disjunction.pieces]
      exact Term.found_eq h t hnames hps
  | .or t d, ps, hnames, hps => by
      rw [Disjunction.tests, List.forall_mem_append] at hnames
      rw [Disjunction.tokens] at hps
      obtain ⟨ht, hd⟩ := length_split hps
      rw [Disjunction.found, Disjunction.pieces, placed_append, placed, t.written_pieces,
        List.drop_drop, Site.foundAt_append, Term.found_eq h t hnames.1 ht,
        Disjunction.found_eq h d hnames.2 hd]

theorem Term.found_eq (h : Known u declared) : ∀ (t : Term) {ps : List Span},
    (∀ p ∈ t.tests, p.1 ∈ u.names) → ps.length = t.tokens.length →
      t.found u ps = Site.foundAt declared (placed t.pieces ps)
  | .test factor a, ps, hnames, hps => by
      rw [Term.tests, List.forall_mem_singleton] at hnames
      rw [Term.tokens] at hps
      have hall : ps.take (Site.tested factor a).tokens.length = ps :=
        List.take_of_length_le (Nat.le_of_eq hps)
      rw [Term.found, Term.pieces, placed, placed, hall, Site.foundAt_singleton]
      exact h.found hnames a.value _
  | .group c, ps, hnames, hps => by
      rw [Term.tests] at hnames
      rw [Term.tokens] at hps
      have hlength : (part 1 c.tokens.length ps).length = c.tokens.length :=
        length_part [.mark .openParen] rfl hps
      rw [Term.found, Term.pieces, placed, Conjunction.found_eq h c hnames hlength,
        ← c.written_pieces]
      exact congrArg _ (placed_append_plains 1 c.pieces [.mark .closeParen] ps).symm

end

theorem Timing.found_eq (t : Timing) {ps : List Span} (hps : ps.length = t.tokens.length) :
    t.found ps = Site.foundAt declared (placed t.pieces ps) := by
  cases t with
  | spontaneous p =>
      have hall : (ps.drop 1).take (Site.chance p).tokens.length = ps.drop 1 := by
        refine List.take_of_length_le ?_
        rw [List.length_drop, hps]
        exact Nat.le_refl _
      rw [Timing.found, Timing.pieces, placed, placed, placed, hall, Site.foundAt_singleton,
        Chance.found]
      by_cases hp : p.probability.AboveOne
      · rw [if_pos (p.probability.exceeds_one_iff.mpr hp)]
        exact (if_pos hp).symm
      · rw [if_neg (mt p.probability.exceeds_one_iff.mp hp)]
        exact (if_neg hp).symm
  | choice offer =>
      rw [Timing.found, Timing.pieces, placed_plains]
      rfl

theorem Change.found_eq (h : Known u declared) (e : Change) (hname : e.factor ∈ u.names)
    {ps : List Span} (hps : ps.length = e.tokens.length) :
    e.found u ps = Site.foundAt declared (placed e.pieces ps) := by
  have hall : (ps.drop 3).take (Site.given e.factor e.value).tokens.length = ps.drop 3 := by
    refine List.take_of_length_le ?_
    rw [List.length_drop, hps]
    exact Nat.le_refl _
  rw [Change.found, Change.pieces, placed_plains_append, placed, placed]
  show _ = Site.foundAt declared [⟨_, around ((ps.drop 3).take _)⟩]
  rw [hall, Site.foundAt_singleton]
  exact h.found hname e.value.value _

theorem Change.foundIn_eq (h : Known u declared) (es : Several Change)
    (hnames : ∀ e ∈ es.toList, e.factor ∈ u.names) {ps : List Span}
    (hps : ps.length = (es.tokens .comma Change.tokens).length) :
    Change.foundIn u es ps = Site.foundAt declared (placed (Change.piecesIn es) ps) := by
  induction es generalizing ps with
  | one e => exact e.found_eq h (hnames e (List.mem_singleton_self _)) hps
  | more e es ih =>
      rw [Several.toList, List.forall_mem_cons] at hnames
      rw [Several.tokens] at hps
      obtain ⟨he, hes⟩ := length_split hps
      rw [Change.foundIn, Change.piecesIn, placed_append, placed, e.written_pieces,
        List.drop_drop, Site.foundAt_append, e.found_eq h hnames.1 he, ih hnames.2 hes]

theorem Changes.found_eq (h : Known u declared) (es : Changes)
    (hnames : ∀ e ∈ es.toList, e.factor ∈ u.names) {ps : List Span}
    (hps : ps.length = es.tokens.length) :
    es.found u ps = Site.foundAt declared (placed es.pieces ps) := by
  cases es with
  | bare e => exact e.found_eq h (hnames e (List.mem_singleton_self _)) hps
  | listed es =>
      rw [Changes.tokens] at hps
      have hlength : (part 1 (es.tokens .comma Change.tokens).length ps).length =
          (es.tokens .comma Change.tokens).length := length_part [.mark .openParen] rfl hps
      rw [Changes.found, Changes.pieces, placed, Change.foundIn_eq h es hnames hlength,
        ← Change.written_piecesIn]
      exact congrArg _ (placed_append_plains 1 (Change.piecesIn es) [.mark .closeParen] ps).symm

/-- What is found in a block is what its suspicious sites deserve. -/
theorem Block.found_eq (h : Known u declared) (b : Block) (hnames : ∀ name ∈ b.uses, name ∈ u.names)
    {ps : List Span} (hps : ps.length = b.tokens.length) :
    b.found u ps = Site.foundAt declared (placed b.pieces ps) := by
  cases b with
  | factor name values =>
      have hlength : (part 4 (values.tokens .comma fun a => [a.token]).length ps).length =
          (values.tokens .comma fun a => [a.token]).length :=
        length_part [.keyword .factor, .word name, .mark .colon, .mark .openParen] rfl
          (by rw [hps, tokens, List.append_assoc])
      rw [found, repetitions_eq name values (fun v => Iff.rfl) hlength, pieces,
        placed_plains_append, ← written_listedPieces name []]
      exact congrArg _ (placed_append_plains 4 _ [.mark .closeParen] ps).symm
  | transition name condition timing changes told =>
      rw [uses, List.forall_mem_append, List.forall_mem_map] at hnames
      have hhead : (.keyword .transition :: nameTokens name ++
          [.mark .colon, .mark .openParen] : List Token).length = (nameTokens name).length + 3 := by
        simp
      simp only [tokens, List.length_append, List.length_cons, List.length_nil] at hps
      have hpart : ∀ n m, n + m ≤ ps.length → (part n m ps).length = m := fun n m hle => by
        rw [part, List.length_take, List.length_drop]
        omega
      rw [found, condition.found_eq h (List.forall_mem_map.mp hnames.1) (hpart _ _ (by omega)),
        timing.found_eq (hpart _ _ (by omega)),
        changes.found_eq h hnames.2 (hpart _ _ (by omega)), pieces, placed_plains_append, hhead,
        placed_append_drop, placed_plains_append_drop, placed_append_drop,
        placed_plains_append_drop, placed_append_plains, condition.written_pieces,
        timing.written_pieces, changes.written_pieces, Site.foundAt_append, Site.foundAt_append,
        ← List.append_assoc]
      rfl
  | description condition told =>
      have hlength : (part 3 condition.tokens.length ps).length = condition.tokens.length :=
        length_part [.keyword .description, .mark .colon, .mark .openParen] rfl
          (by rw [hps, tokens, List.append_assoc])
      rw [found, condition.found_eq h (List.forall_mem_map.mp hnames) hlength, pieces,
        placed_plains_append, ← condition.written_pieces]
      exact congrArg _ (placed_append_plains 3 _ [.mark .comma, .text told, .mark .closeParen]
        ps).symm

end Found

/-! ## Declared values -/

/-- The values that are declared for each name are those of its factor, and there are none for a
name that no factor has. -/
def Records (u : Universe) (declared : String → List Value) : Prop :=
  ∀ name v, v ∈ declared name ↔ ∃ f, u.findFactor? name = some f ∧ v ∈ f.values

theorem Records.known {u u' : Universe} {declared : String → List Value} (h : Records u' declared)
    (hu : u'.Extends u) : Known u declared := by
  intro name f hf v
  rw [h name v, hu.findFactor? hf]
  exact ⟨fun ⟨_, heq, hv⟩ => Option.some.inj heq ▸ hv, fun hv => ⟨f, rfl, hv⟩⟩

/-- A factor that is added is not found by another name. -/
theorem findFactor?_addFactor_of_ne {u u' : Universe} {name other : String} {vs : List Value}
    {id : FactorId} (h : u.addFactor name vs = .ok (id, u')) (hne : name ≠ other) :
    u'.findFactor? other = u.findFactor? other := by
  obtain ⟨-, rfl, initial, others, -, rfl⟩ := Universe.addFactor_eq_ok_iff.mp h
  rw [Universe.findFactor?, Universe.findFactor?, List.find?_append]
  simp [hne]

theorem Block.world?_records {u u' : Universe} {b : Block} {declared : String → List Value}
    (h : b.world? u = some u') (hrecords : Records u declared) :
    Records u' fun name => declared name ++ declaredValues [b] name := by
  cases b with
  | factor name values =>
      obtain ⟨id, hadd⟩ := world?_factor.mp h
      obtain ⟨f, hf, hvalues⟩ := Universe.findFactor?_addFactor hadd
      have hnone : u.findFactor? name = none :=
        Universe.findFactor?_eq_none_iff.mpr (Universe.addFactor_eq_ok_iff.mp hadd).1
      intro other v
      by_cases hname : name = other
      · -- Nothing was declared for the name before.
        subst hname
        have hold : v ∉ declared name := fun hv => by
          obtain ⟨g, hg, -⟩ := (hrecords name v).mp hv
          rw [hnone] at hg
          cases hg
        simp [declaredValues, hold, hf, hvalues v]
      · rw [findFactor?_addFactor_of_ne hadd hname, ← hrecords other v]
        simp [declaredValues, hname]
  | transition name condition timing changes told =>
      obtain ⟨x, ps, id, -, -, hadd⟩ := world?_transition.mp h
      obtain ⟨-, -, rfl⟩ := Universe.addTransition_eq_ok_iff.mp hadd
      intro other v
      show v ∈ declared other ++ [] ↔ ∃ f, u.findFactor? other = some f ∧ v ∈ f.values
      rw [List.append_nil, hrecords other v]
  | description condition told =>
      obtain ⟨-, rfl⟩ := world?_description.mp h
      intro other v
      show v ∈ declared other ++ [] ↔ _
      rw [List.append_nil, hrecords other v]

/-- What blocks declare for a name are the values of the factor that they make of it. -/
theorem compile?_records {bs : List Block} {c c' : Compilation} {ps : List Span}
    {declared : String → List Value} (h : compile? c bs ps = some c')
    (hrecords : Records c.world declared) :
    Records c'.world fun name => declared name ++ declaredValues bs name := by
  induction bs generalizing c ps declared with
  | nil =>
      cases h
      simpa only [declaredValues, List.flatMap_nil, List.append_nil] using hrecords
  | cons b bs ih =>
      obtain ⟨c₁, hb, hrest⟩ := Option.bind_eq_some_iff.mp h
      obtain ⟨w, hw, rfl⟩ := Block.compile?_eq_some.mp hb
      have hall := ih hrest (Block.world?_records hw hrecords)
      simpa only [declaredValues, List.flatMap_cons, List.flatMap_nil, List.append_nil,
        List.append_assoc] using hall

/-- What is found in blocks is what their suspicious sites deserve. -/
theorem compile?_found {bs : List Block} {c c' : Compilation} {ps : List Span}
    {declared : String → List Value} (h : compile? c bs ps = some c') (hu : c.world.Built)
    (hrecords : Records c'.world declared) (hps : ps.length = (tokens bs).length) :
    c'.findings = c.findings ++ Site.foundAt declared (placed (pieces bs) ps) := by
  induction bs generalizing c ps with
  | nil =>
      cases h
      exact (List.append_nil _).symm
  | cons b bs ih =>
      have hextends := compile?_extends h
      obtain ⟨c₁, hb, hrest⟩ := Option.bind_eq_some_iff.mp h
      obtain ⟨w, hw, rfl⟩ := Block.compile?_eq_some.mp hb
      have huses := ((b.world?_isSome_iff hu).mp (by rw [hw]; rfl)).1
      obtain ⟨hfirst, hothers⟩ := length_split_blocks hps
      rw [ih hrest (Block.world?_eq_some hu hw).1 hothers,
        b.found_eq (hrecords.known hextends) huses hfirst, pieces_cons, placed_append,
        b.written_pieces, Site.foundAt_append, List.append_assoc]

/-- The values that the blocks of a story declare for a name are those of its factor. -/
theorem compile?_declared {bs : List Block} {c : Compilation} {ps : List Span}
    (h : compile? .nothing bs ps = some c) : Records c.world (declaredValues bs) := by
  have hnone : Records Compilation.nothing.world fun _ => [] := fun name v =>
    ⟨nofun, fun ⟨f, hf, _⟩ => by cases hf⟩
  exact compile?_records h hnone

/-- What is found in the blocks of a story is what their suspicious sites deserve. -/
theorem compile?_findings {bs : List Block} {c : Compilation} {ps : List Span}
    (h : compile? .nothing bs ps = some c) (hps : ps.length = (tokens bs).length) :
    c.findings = Site.foundAt (declaredValues bs) (placed (pieces bs) ps) :=
  compile?_found h .empty (compile?_declared h) hps

/-! ## The places of sites -/

/-- Places of tokens: none is empty, and each ends before the next begins. -/
structure InOrder (ps : List Span) : Prop where
  nonempty : ∀ p ∈ ps, p.start < p.stop
  disjoint : ps.Pairwise fun p q => p.stop ≤ q.start

theorem InOrder.sublist {ps qs : List Span} (h : InOrder ps) (hqs : qs.Sublist ps) :
    InOrder qs :=
  ⟨fun p hp => h.nonempty p (hqs.subset hp), h.disjoint.sublist hqs⟩

/-- The place around some places goes from the beginning of one to the end of another. -/
theorem InOrder.around {ps : List Span} (h : InOrder ps) (hne : ps ≠ []) :
    ∃ p ∈ ps, ∃ q ∈ ps, Tree.around ps = ⟨p.start, q.stop⟩ ∧ p.start < q.stop := by
  obtain ⟨p, rest, rfl⟩ := List.exists_cons_of_ne_nil hne
  refine ⟨p, List.mem_cons_self .., (p :: rest).getLast hne, List.getLast_mem hne, ?_, ?_⟩
  · rw [Tree.around, List.getLast?_eq_some_getLast hne]
    rfl
  · have hfirst := h.nonempty p (List.mem_cons_self ..)
    rcases List.mem_cons.mp (List.getLast_mem hne) with hlast | hlast
    · rw [hlast]
      exact hfirst
    · have hbehind := (List.pairwise_cons.mp h.disjoint).1 _ hlast
      have hnonempty := h.nonempty _ (List.mem_cons_of_mem p hlast)
      omega

theorem Site.tokens_ne_nil (s : Site) : s.tokens ≠ [] := by
  cases s <;> exact List.cons_ne_nil _ _

/-- A site has a token, and behind its tokens stand those of the other pieces. -/
theorem length_split_site {s : Site} {xs : List Piece} {ps : List Span}
    (h : ps.length = (written (.site s :: xs)).length) :
    ps.take s.tokens.length ≠ [] ∧ (ps.drop s.tokens.length).length = (written xs).length := by
  have hpos := List.length_pos_of_ne_nil s.tokens_ne_nil
  rw [written_site_cons, List.length_append] at h
  refine ⟨List.ne_nil_of_length_pos ?_, ?_⟩
  · rw [List.length_take]
    omega
  · rw [List.length_drop]
    omega

/-- Sites are in order where their tokens are, and each goes from the beginning of a token to the
end of one. -/
theorem placed_inOrder (xs : List Piece) {ps : List Span} (hps : ps.length = (written xs).length)
    (h : InOrder ps) :
    (placed xs ps).Pairwise (fun s s' => s.span.stop ≤ s'.span.start) ∧
      ∀ s ∈ placed xs ps, ∃ p ∈ ps, ∃ q ∈ ps, s.span = ⟨p.start, q.stop⟩ ∧ p.start < q.stop := by
  induction xs generalizing ps with
  | nil => exact ⟨.nil, List.forall_mem_nil _⟩
  | cons x xs ih =>
      cases x with
      | plain t =>
          have hrest : (ps.drop 1).length = (written xs).length := by
            rw [List.length_drop, hps]
            rfl
          obtain ⟨hordered, hspans⟩ := ih hrest (h.sublist (List.drop_sublist 1 ps))
          refine ⟨hordered, fun s hs => ?_⟩
          obtain ⟨p, hp, q, hq, hspan⟩ := hspans s hs
          exact ⟨p, List.mem_of_mem_drop hp, q, List.mem_of_mem_drop hq, hspan⟩
      | site s =>
          obtain ⟨hne, hrest⟩ := length_split_site hps
          obtain ⟨p, hp, q, hq, hspan, hlt⟩ :=
            (h.sublist (List.take_sublist s.tokens.length ps)).around hne
          obtain ⟨hordered, hspans⟩ := ih hrest (h.sublist (List.drop_sublist _ ps))
          -- The tokens of the site come before all others.
          have hcross : ∀ a ∈ ps.take s.tokens.length, ∀ b ∈ ps.drop s.tokens.length,
              a.stop ≤ b.start := by
            have hdisjoint := h.disjoint
            rw [← List.take_append_drop s.tokens.length ps, List.pairwise_append] at hdisjoint
            exact hdisjoint.2.2
          rw [placed, hspan]
          refine ⟨List.pairwise_cons.mpr ⟨fun s' hs' => ?_, hordered⟩,
            List.forall_mem_cons.mpr ⟨?_, fun s' hs' => ?_⟩⟩
          · obtain ⟨p', hp', q', -, hspan', -⟩ := hspans s' hs'
            rw [hspan']
            exact hcross q hq p' hp'
          · exact ⟨p, List.mem_of_mem_take hp, q, List.mem_of_mem_take hq, rfl, hlt⟩
          · obtain ⟨p', hp', q', hq', hspan'⟩ := hspans s' hs'
            exact ⟨p', List.mem_of_mem_drop hp', q', List.mem_of_mem_drop hq', hspan'⟩

/-- The places of sites are in order where those of the tokens are. -/
theorem placed_spans_inOrder {xs : List Piece} {ps : List Span}
    (hps : ps.length = (written xs).length) (h : InOrder ps) :
    InOrder ((placed xs ps).map Spanned.span) := by
  obtain ⟨hordered, hspans⟩ := placed_inOrder xs hps h
  refine ⟨List.forall_mem_map.mpr fun s hs => ?_, List.pairwise_map.mpr hordered⟩
  obtain ⟨p, -, q, -, hspan, hlt⟩ := hspans s hs
  rw [hspan]
  exact hlt

/-- Findings stand in order, each behind the one before it. -/
theorem findings_inOrder {bs : List Block} {c : Compilation} {ps : List Span}
    (h : compile? .nothing bs ps = some c) (hps : ps.length = (tokens bs).length)
    (hordered : InOrder ps) : InOrder (c.findings.map Spanned.span) := by
  have hsites : InOrder ((placed (pieces bs) ps).map Spanned.span) :=
    placed_spans_inOrder (hps.trans (congrArg List.length (written_pieces bs)).symm) hordered
  rw [compile?_findings h hps, Site.foundAt, List.map_map]
  exact hsites.sublist (List.filter_sublist.map _)

end Tree

/-! ## Stories -/

/-- The places of the tokens of a story are in order, and a text stands at each. -/
theorem HasTokens.inOrder {source : String} {ts : List (Spanned Token)} (h : HasTokens source ts) :
    Tree.InOrder (Tree.places ts) ∧
      ∀ p ∈ Tree.places ts, ∃ text, text ≠ [] ∧ p.Covers source.toList text := by
  obtain ⟨stop, htokens⟩ := h
  obtain ⟨pieces, hpieces, hordered⟩ := ordered_lexemes source
  rw [tokens_eq_ok.mp htokens, List.map_append] at hpieces
  obtain rfl : ts.map Lexeme.ofToken = pieces := (List.append_inj' hpieces rfl).1
  have hspans : Tree.places ts = (ts.map Lexeme.ofToken).map Spanned.span := by
    rw [List.map_map]
    rfl
  rw [hspans]
  refine ⟨⟨List.forall_mem_map.mpr fun l hl => (hordered.nonempty l hl).2,
    List.pairwise_map.mpr hordered.disjoint⟩, List.forall_mem_map.mpr fun l hl => ?_⟩
  exact (hordered.stands l hl).covers

/-- The warnings of a story are those that its sites deserve. -/
structure Compilation.WarnsOf (c : Compilation) (source : String) (ts : List (Spanned Token))
    (bs : List Tree.Block) : Prop where
  /-- The tokens of the story are those of the pieces of the blocks, and of no other blocks. -/
  tokens : HasTokens source ts ∧ ts.map Spanned.node = Tree.written (Tree.pieces bs) ∧
    ∀ bs', ts.map Spanned.node = Tree.written (Tree.pieces bs') → bs' = bs
  /-- There is a warning for each suspicious site, where it stands, and no other. -/
  warnings : c.warnings = ((Tree.placed (Tree.pieces bs) (Tree.places ts)).filter fun s =>
      decide (s.node.Suspect (Tree.declaredValues bs))).map fun s =>
    Finding.diagnostic ⟨s.node.finding, s.span⟩
  /-- A text of the story stands where a warning points. -/
  covers : ∀ w ∈ c.warnings, ∃ text, text ≠ [] ∧ w.span.Covers source.toList text
  /-- Each warning points behind the one before it. -/
  ordered : c.warnings.Pairwise fun w w' => w.span.stop ≤ w'.span.start

/-- A story that compiles is warned of exactly what deserves it, in order. -/
theorem compile_warns {source : String} {c : Compilation} (h : compile source = .ok c) :
    ∃ ts bs, c.WarnsOf source ts bs := by
  obtain ⟨ts, bs, hts, htokens, hcompile⟩ := compile_eq_ok.mp h
  have hlength := Tree.length_places htokens
  have hwarnings : c.warnings =
      ((Tree.placed (Tree.pieces bs) (Tree.places ts)).filter fun s =>
        decide (s.node.Suspect (Tree.declaredValues bs))).map fun s =>
      Finding.diagnostic ⟨s.node.finding, s.span⟩ := by
    rw [Compilation.warnings, Tree.compile?_findings hcompile hlength]
    exact List.map_map
  obtain ⟨hinOrder, hcovers⟩ := hts.inOrder
  obtain ⟨-, hspans⟩ := Tree.placed_inOrder (Tree.pieces bs)
    (hlength.trans (congrArg List.length (Tree.written_pieces bs)).symm) hinOrder
  refine ⟨ts, bs, ⟨hts, htokens.trans (Tree.written_pieces bs).symm, fun bs' hbs' => ?_⟩,
    hwarnings, ?_, ?_⟩
  · rw [Tree.written_pieces] at hbs'
    exact Tree.tokens_injective (hbs'.symm.trans htokens)
  · rw [hwarnings]
    refine List.forall_mem_map.mpr fun s hs => ?_
    obtain ⟨p, hp, q, hq, hspan, hlt⟩ := hspans s (List.mem_of_mem_filter hs)
    obtain ⟨text, -, htext⟩ := hcovers p hp
    obtain ⟨text', -, htext'⟩ := hcovers q hq
    show ∃ text, text ≠ [] ∧ s.span.Covers source.toList text
    rw [hspan]
    exact htext.between htext' hlt
  · rw [Compilation.warnings, List.pairwise_map]
    exact List.pairwise_map.mp (Tree.findings_inOrder hcompile hlength hinOrder).disjoint

/-- A value is listed again with a zero before it, a test and an effect name values that are not
declared, and a chance is too great.  Another effect of the transition replaces that effect. -/
def suspectStory : String :=
  "factor a : (x, 07, 7)\n" ++
  "transition : (a = y, spontaneous 2, (a -> z, a -> x))"

/-- All four are warned of. -/
theorem compile_warns_suspectStory : ∃ c, compile suspectStory = .ok c ∧
    (∃ ts bs, c.WarnsOf suspectStory ts bs) ∧
    c.warnings.map (fun w => (w.span, w.message)) =
      [(⟨19, 20⟩, "value `7` is listed twice for factor `a`"),
        (⟨36, 41⟩, "comparison `a = y` can never hold"),
        (⟨55, 56⟩, "probability 2 is above 1"),
        (⟨64, 65⟩, "value `z` is not declared for factor `a`")] := by
  have hfour : (compile suspectStory).toOption.map
      (fun c => c.warnings.map fun w => (w.span, w.message)) =
      some [(⟨19, 20⟩, "value `7` is listed twice for factor `a`"),
        (⟨36, 41⟩, "comparison `a = y` can never hold"),
        (⟨55, 56⟩, "probability 2 is above 1"),
        (⟨64, 65⟩, "value `z` is not declared for factor `a`")] := by
    decide +kernel
  obtain ⟨c, hc, hwarnings⟩ := exists_compilation hfour
  exact ⟨c, hc, compile_warns hc, hwarnings⟩

end Storyworld
