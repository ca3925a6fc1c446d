import Mathlib.Data.List.Basic
import Storyworld.Story.Compile

/-!
# The languages of reading steps

A step of reading passes some tokens, changes what is compiled and has a result.
Its *language* says which tokens, and to what effect: `L c ts next c' a` reads
"from `c` the tokens `ts` lead to `c'` and the result `a`, if `next` is the token
in front of the reader behind them".  `Reads m p L` says that this is all there is
to the step `p` wherever at most `m` lexemes are ahead: it succeeds exactly on the
texts that begin with a word of `L`.

The language of a sequence of steps is the concatenation of their languages
(`Reads.bind`), so the language of a production is put together from those of its
parts, and nothing has to be said about readers again.

The bound `m` is there for the two recursions that are bounded by the number of
lexemes ahead.  Passing a token leaves fewer of them, so the bound that is enough
for a production is enough for its parts.
-/

namespace Storyworld

/-! ## Readers and their lexemes -/

/-- A token as a lexeme. -/
def Lexeme.ofToken (t : Spanned Token) : Lexeme := ⟨.token t.node, t.span⟩

/-- The lexeme that is looked at and those behind it. -/
def Reader.lexemes (r : Reader) : List Lexeme := .ofToken r.current :: r.ahead

/-- What is compiled so far. -/
def Reader.done (r : Reader) : Compilation := ⟨r.world, r.findings, r.descriptions⟩

/-- More findings behind those there are. -/
def Compilation.noting (c : Compilation) (found : List (Spanned Finding)) : Compilation :=
  { c with findings := c.findings ++ found }

@[simp] theorem Compilation.noting_world (c : Compilation) (found : List (Spanned Finding)) :
    (c.noting found).world = c.world := rfl

@[simp] theorem Compilation.noting_nil (c : Compilation) : c.noting [] = c := by
  simp [noting]

@[simp] theorem Compilation.noting_noting (c : Compilation) (fs gs : List (Spanned Finding)) :
    (c.noting fs).noting gs = c.noting (fs ++ gs) := by
  simp [noting]

/-- Lexemes that end with the end of a story, which stands nowhere before. -/
def Closed (ls : List Lexeme) : Prop :=
  ∃ init stop, ls = init ++ [⟨.token .finish, stop⟩] ∧ ∀ l ∈ init, l.node ≠ .token .finish

theorem Closed.of_append {ls ms : List Lexeme} (h : Closed (ls ++ ms)) (hms : ms ≠ []) :
    Closed ms := by
  obtain ⟨init, stop, heq, hinit⟩ := h
  rcases List.append_eq_append_iff.mp heq with ⟨rest, rfl, hms'⟩ | ⟨rest, rfl, hrest⟩
  · exact ⟨rest, stop, hms', fun l hl => hinit l (List.mem_append_right _ hl)⟩
  · cases rest with
    | nil => exact ⟨[], stop, hrest.symm, by simp⟩
    | cons l rest =>
        have hnil : rest ++ ms = [] := by
          have := (List.cons.injEq .. ▸ hrest : _ ∧ _).2
          exact this.symm
        exact absurd (List.append_eq_nil_iff.mp hnil).2 hms

/-- Behind the end there is nothing. -/
theorem Closed.finish {l : Lexeme} {ls : List Lexeme} (h : Closed (l :: ls))
    (hl : l.node = .token .finish) : ls = [] := by
  obtain ⟨init, stop, heq, hinit⟩ := h
  cases init with
  | nil => exact (List.cons.inj heq).2
  | cons m init =>
      obtain ⟨rfl, -⟩ := List.cons.inj heq
      exact absurd hl (hinit _ (List.mem_cons_self ..))

/-- Behind any other lexeme there is one. -/
theorem Closed.ne_nil {l : Lexeme} {ls : List Lexeme} (h : Closed (l :: ls))
    (hl : l.node ≠ .token .finish) : ls ≠ [] := by
  rintro rfl
  obtain ⟨init, stop, heq, -⟩ := h
  cases init with
  | nil => exact hl (by rw [(List.cons.inj heq).1])
  | cons m init => simp at heq

/-! ## Languages -/

/-- The tokens that a step passes, and what comes of them. -/
abbrev Lang (α : Type) := Compilation → List (Spanned Token) → Token → Compilation → α → Prop

/-- The token in front: the first of some, or else the next behind them. -/
def front : List (Spanned Token) → Token → Token
  | [], next => next
  | t :: _, _ => t.node

theorem front_append (ts us : List (Spanned Token)) (next : Token) :
    front (ts ++ us) next = front ts (front us next) := by
  cases ts <;> rfl

namespace Lang

variable {α β : Type}

/-- No token passed, nothing changed. -/
def result (a : α) : Lang α := fun c ts _ c' b => ts = [] ∧ c' = c ∧ b = a

/-- One token, picked for what it says. -/
def picked (pick : Spanned Token → Option α) : Lang α := fun c ts _ c' a =>
  c' = c ∧ ∃ t, ts = [t] ∧ pick t = some a

/-- No token passed, and what is compiled changed by a function that can refuse. -/
def still (f : Compilation → Option (α × Compilation)) : Lang α := fun c ts _ c' a =>
  ts = [] ∧ f c = some (a, c')

/-- Words that begin with a given token and others that do not. -/
def choose (t : Token) (L : Span → Lang α) (M : Lang α) : Lang α := fun c ts next c' a =>
  (∃ span us, ts = ⟨t, span⟩ :: us ∧ L span c us next c' a) ∨ front ts next ≠ t ∧ M c ts next c' a

/-- One language behind another. -/
def bind (L : Lang α) (M : α → Lang β) : Lang β := fun c ts next c' b =>
  ∃ ts₁ ts₂ c₁ a, ts = ts₁ ++ ts₂ ∧ L c ts₁ (front ts₂ next) c₁ a ∧ M a c₁ ts₂ next c' b

/-- The words behind which a token stands that is admitted. -/
def before (L : Lang α) (ok : Token → Prop) : Lang α := fun c ts next c' a =>
  L c ts next c' a ∧ ok next

/-- One item or more with separators between them, of which none follows. -/
inductive Separated (separator : Mark) (L : Lang α) : Lang (List α)
  | one {c ts next c' a} : L c ts next c' a → next ≠ .mark separator →
      Separated separator L c ts next c' [a]
  | more {c ts c₁ a span us next c' as} : L c ts (.mark separator) c₁ a →
      Separated separator L c₁ us next c' as →
      Separated separator L c (ts ++ ⟨.mark separator, span⟩ :: us) next c' (a :: as)

end Lang

namespace Reading

variable {α β : Type}

/-! ## Steps and their languages -/

/-- From this reader a step succeeds on the words of a language and on no others. -/
def ReadsAt (r : Reader) (p : Step α) (L : Lang α) : Prop :=
  ∀ a r', p.run r = .ok (a, r') ↔
    ∃ ts, r.lexemes = ts.map Lexeme.ofToken ++ r'.lexemes ∧ L r.done ts r'.current.node r'.done a

/-- From readers with at most so many lexemes ahead a step succeeds on the words of a
language and on no others. -/
def Reads (m : Nat) (p : Step α) (L : Lang α) : Prop :=
  ∀ r : Reader, Closed r.lexemes → r.ahead.length ≤ m → ReadsAt r p L

theorem Reads.mono {m n : Nat} {p : Step α} {L : Lang α} (h : Reads n p L) (hmn : m ≤ n) :
    Reads m p L :=
  fun r hr hm => h r hr (Nat.le_trans hm hmn)

/-- A step that is refused has no words. -/
theorem readsAt_of_error {r : Reader} {p : Step α} {L : Lang α} {e : Refusal}
    (hp : p.run r = .error e)
    (hL : ∀ ts (r' : Reader) a, r.lexemes = ts.map Lexeme.ofToken ++ r'.lexemes →
      ¬ L r.done ts r'.current.node r'.done a) : ReadsAt r p L := by
  intro a r'
  rw [hp]
  constructor
  · intro h
    cases h
  · intro given
    obtain ⟨ts, hts, h⟩ := given
    exact absurd h (hL ts r' a hts)

/-- The token in front of a reader is that in front of the tokens it passes. -/
theorem current_of_lexemes {r r' : Reader} {ts : List (Spanned Token)}
    (h : r.lexemes = ts.map Lexeme.ofToken ++ r'.lexemes) :
    r.current.node = front ts r'.current.node := by
  cases ts with
  | nil =>
      obtain ⟨hcur, -⟩ := List.cons.inj h
      exact Reading.token.inj (congrArg Spanned.node hcur)
  | cons t ts =>
      obtain ⟨hcur, -⟩ := List.cons.inj h
      exact Reading.token.inj (congrArg Spanned.node hcur)

/-- Only the words that begin with the token in front of the reader matter. -/
theorem ReadsAt.congr {r : Reader} {p : Step α} {L M : Lang α} (h : ReadsAt r p L)
    (hLM : ∀ c ts next c' a, r.current.node = front ts next →
      (L c ts next c' a ↔ M c ts next c' a)) : ReadsAt r p M := by
  intro a r'
  rw [h a r']
  constructor
  · intro given
    obtain ⟨ts, hts, hL⟩ := given
    exact ⟨ts, hts, (hLM _ _ _ _ _ (current_of_lexemes hts)).mp hL⟩
  · intro given
    obtain ⟨ts, hts, hM⟩ := given
    exact ⟨ts, hts, (hLM _ _ _ _ _ (current_of_lexemes hts)).mpr hM⟩

theorem Reads.congr {m : Nat} {p : Step α} {L M : Lang α} (h : Reads m p L)
    (hLM : ∀ c ts next c' a, L c ts next c' a ↔ M c ts next c' a) : Reads m p M :=
  fun r hr hm => (h r hr hm).congr fun c ts next c' a _ => hLM c ts next c' a

theorem ReadsAt.of_run_eq {r : Reader} {p q : Step α} {L : Lang α} (h : ReadsAt r q L)
    (hpq : p.run r = q.run r) : ReadsAt r p L := by
  intro a r'
  rw [hpq]
  exact h a r'

theorem ofToken_injective : Function.Injective Lexeme.ofToken := by
  rintro ⟨t, s⟩ ⟨t', s'⟩ h
  cases h
  rfl

/-- A reader is its lexemes and what it has compiled. -/
theorem reader_ext {r r' : Reader} (hls : r.lexemes = r'.lexemes) (hdone : r.done = r'.done) :
    r = r' := by
  obtain ⟨cur, ahead, w, fs, ds⟩ := r
  obtain ⟨cur', ahead', w', fs', ds'⟩ := r'
  obtain ⟨hcur, rfl⟩ := List.cons.inj hls
  cases ofToken_injective hcur
  cases hdone
  rfl

theorem closed_suffix {r r' : Reader} {ts : List (Spanned Token)} (hr : Closed r.lexemes)
    (h : r.lexemes = ts.map Lexeme.ofToken ++ r'.lexemes) : Closed r'.lexemes :=
  Closed.of_append (h ▸ hr) (List.cons_ne_nil _ _)

theorem length_ahead {r r' : Reader} {ts : List (Spanned Token)}
    (h : r.lexemes = ts.map Lexeme.ofToken ++ r'.lexemes) :
    r.ahead.length = ts.length + r'.ahead.length := by
  have hlen := congrArg List.length h
  simp only [Reader.lexemes, List.length_append, List.length_map, List.length_cons] at hlen
  omega

/-- The reader that has compiled `c` and looks at the first of some tokens, or of what
another reader looks at. -/
def readerAt (c : Compilation) : List (Spanned Token) → Reader → Reader
  | [], r => ⟨r.current, r.ahead, c.world, c.findings, c.descriptions⟩
  | t :: ts, r =>
      ⟨t, ts.map Lexeme.ofToken ++ r.lexemes, c.world, c.findings, c.descriptions⟩

@[simp] theorem readerAt_done (c : Compilation) (ts : List (Spanned Token)) (r : Reader) :
    (readerAt c ts r).done = c := by
  cases ts <;> rfl

@[simp] theorem readerAt_lexemes (c : Compilation) (ts : List (Spanned Token)) (r : Reader) :
    (readerAt c ts r).lexemes = ts.map Lexeme.ofToken ++ r.lexemes := by
  cases ts <;> rfl

theorem readerAt_current (c : Compilation) (ts : List (Spanned Token)) (r : Reader) :
    (readerAt c ts r).current.node = front ts r.current.node := by
  cases ts <;> rfl

/-! ## Sequences of steps -/

theorem run_bind_eq_ok {p : Step α} {f : α → Step β} {r r'' : Reader} {b : β} :
    (p >>= f).run r = .ok (b, r'') ↔
      ∃ a r', p.run r = .ok (a, r') ∧ (f a).run r' = .ok (b, r'') := by
  rw [StateT.run_bind]
  cases hp : p.run r with
  | error e =>
      constructor
      · intro h
        cases h
      · intro given
        obtain ⟨a, r', h, -⟩ := given
        cases h
  | ok x =>
      constructor
      · intro h
        exact ⟨x.1, x.2, rfl, h⟩
      · intro given
        obtain ⟨a, r', h, h'⟩ := given
        cases h
        exact h'

theorem run_bind_eq_error {p : Step α} {f : α → Step β} {r : Reader} {e : Refusal} :
    (p >>= f).run r = .error e ↔ p.run r = .error e ∨
      ∃ a r', p.run r = .ok (a, r') ∧ (f a).run r' = .error e := by
  rw [StateT.run_bind]
  cases hp : p.run r with
  | error e' =>
      constructor
      · intro h
        cases h
        exact .inl rfl
      · rintro (h | ⟨a, r', h, -⟩)
        · cases h
          rfl
        · cases h
  | ok x =>
      constructor
      · intro h
        exact .inr ⟨x.1, x.2, rfl, h⟩
      · rintro (h | ⟨a, r', h, h'⟩)
        · cases h
        · cases h
          exact h'

theorem ReadsAt.bind {r : Reader} {p : Step α} {f : α → Step β} {L : Lang α} {M : α → Lang β}
    (hp : ReadsAt r p L) (hf : ∀ a r', p.run r = .ok (a, r') → ReadsAt r' (f a) (M a)) :
    ReadsAt r (p >>= f) (L.bind M) := by
  intro b r''
  rw [run_bind_eq_ok]
  constructor
  · intro given
    obtain ⟨a, r', ha, hb⟩ := given
    obtain ⟨ts₁, hts₁, hL⟩ := (hp a r').mp ha
    obtain ⟨ts₂, hts₂, hM⟩ := (hf a r' ha b r'').mp hb
    refine ⟨ts₁ ++ ts₂, ?_, ts₁, ts₂, r'.done, a, rfl, ?_, hM⟩
    · rw [hts₁, hts₂, List.map_append, List.append_assoc]
    · exact current_of_lexemes hts₂ ▸ hL
  · intro given
    obtain ⟨ts, hts, ts₁, ts₂, c₁, a, rfl, hL, hM⟩ := given
    rw [List.map_append, List.append_assoc] at hts
    have ha : p.run r = .ok (a, readerAt c₁ ts₂ r'') := by
      refine (hp a _).mpr ⟨ts₁, by rw [readerAt_lexemes, hts], ?_⟩
      rw [readerAt_done, readerAt_current]
      exact hL
    refine ⟨a, _, ha, (hf a _ ha b r'').mpr ⟨ts₂, by rw [readerAt_lexemes], ?_⟩⟩
    rw [readerAt_done]
    exact hM

theorem Reads.bind {m : Nat} {p : Step α} {f : α → Step β} {L : Lang α} {M : α → Lang β}
    (hp : Reads m p L) (hf : ∀ a, Reads m (f a) (M a)) : Reads m (p >>= f) (L.bind M) := by
  intro r hr hm
  refine (hp r hr hm).bind fun a r' ha => ?_
  obtain ⟨ts, hts, -⟩ := (hp r hr hm a r').mp ha
  have hlen := length_ahead hts
  exact hf a r' (closed_suffix hr hts) (by omega)

/-! ## Single steps -/

theorem readsAt_result (r : Reader) (a : α) : ReadsAt r (pure a) (Lang.result a) := by
  intro b r'
  constructor
  · intro h
    cases h
    exact ⟨[], rfl, rfl, rfl, rfl⟩
  · intro given
    obtain ⟨ts, hts, rfl, hdone, rfl⟩ := given
    rw [reader_ext (hts.trans (by simp)) hdone.symm]
    rfl

theorem reads_pure (m : Nat) (a : α) : Reads m (pure a) (Lang.result a) :=
  fun r _ _ => readsAt_result r a

/-- A result made of that of a step has the words of the step. -/
theorem bind_result_iff {L : Lang α} {f : α → β} {c c' : Compilation}
    {ts : List (Spanned Token)} {next : Token} {b : β} :
    (L.bind fun a => Lang.result (f a)) c ts next c' b ↔ ∃ a, b = f a ∧ L c ts next c' a := by
  constructor
  · intro given
    obtain ⟨ts, _, c₁, a, rfl, hL, rfl, rfl, rfl⟩ := given
    rw [List.append_nil]
    exact ⟨a, rfl, hL⟩
  · intro given
    obtain ⟨a, rfl, hL⟩ := given
    exact ⟨ts, [], c', a, (List.append_nil _).symm, hL, rfl, rfl, rfl⟩

theorem bind_still_iff {f : Compilation → Option (α × Compilation)} {M : α → Lang β}
    {c c' : Compilation} {ts : List (Spanned Token)} {next : Token} {b : β} :
    (Lang.still f).bind M c ts next c' b ↔ ∃ a c₁, f c = some (a, c₁) ∧ M a c₁ ts next c' b := by
  constructor
  · intro given
    obtain ⟨_, us, c₁, a, rfl, ⟨rfl, hf⟩, hM⟩ := given
    exact ⟨a, c₁, hf, hM⟩
  · intro given
    obtain ⟨a, c₁, hf, hM⟩ := given
    exact ⟨[], ts, c₁, a, rfl, ⟨rfl, hf⟩, hM⟩

theorem bind_picked_iff {pick : Spanned Token → Option α} {M : α → Lang β} {c c' : Compilation}
    {ts : List (Spanned Token)} {next : Token} {b : β} :
    (Lang.picked pick).bind M c ts next c' b ↔
      ∃ t us a, ts = t :: us ∧ pick t = some a ∧ M a c us next c' b := by
  constructor
  · intro given
    obtain ⟨_, us, c₁, a, rfl, ⟨rfl, t, rfl, ht⟩, hM⟩ := given
    exact ⟨t, us, a, rfl, ht, hM⟩
  · intro given
    obtain ⟨t, us, a, rfl, ht, hM⟩ := given
    exact ⟨[t], us, c, a, rfl, ⟨rfl, t, rfl, ht⟩, hM⟩

theorem reads_unexpected (m : Nat) (expected : String) :
    Reads m (unexpected expected : Step α) fun _ _ _ _ _ => False :=
  fun _ _ _ => readsAt_of_error rfl fun _ _ _ _ h => h

/-- Passing a token that is not the end looks at what is behind it. -/
theorem next_eq_ok {r r' : Reader} (hr : Closed r.lexemes) (hcur : r.current.node ≠ .finish) :
    r.next = .ok r' ↔ r.lexemes = .ofToken r.current :: r'.lexemes ∧ r'.done = r.done := by
  have hne : r.ahead ≠ [] := hr.ne_nil fun h => hcur (Reading.token.inj h)
  obtain ⟨cur, ahead, w, fs, ds⟩ := r
  cases ahead with
  | nil => exact absurd rfl hne
  | cons l ls =>
      obtain ⟨node, span⟩ := l
      cases node with
      | token t =>
          constructor
          · intro h
            cases h
            exact ⟨rfl, rfl⟩
          · intro given
            obtain ⟨hls, hdone⟩ := given
            exact congrArg Except.ok (reader_ext (List.cons.inj hls).2 hdone.symm)
      | fault f =>
          constructor
          · intro h
            cases h
          · intro given
            obtain ⟨hls, -⟩ := given
            cases (List.cons.inj (List.cons.inj hls).2).1

theorem run_pass (r : Reader) : pass.run r = r.next.map fun r' => (r.current.span, r') := by
  simp only [pass, StateT.run_bind, StateT.run_get]
  cases h : r.next <;> simp [h]
  all_goals rfl

theorem readsAt_pass {r : Reader} (hr : Closed r.lexemes) (hcur : r.current.node ≠ .finish) :
    ReadsAt r pass (Lang.picked fun t => some t.span) := by
  intro span r'
  rw [run_pass]
  constructor
  · intro h
    cases hnext : r.next with
    | error e =>
        rw [hnext] at h
        cases h
    | ok r₁ =>
        rw [hnext] at h
        cases h
        obtain ⟨hls, hdone⟩ := (next_eq_ok hr hcur).mp hnext
        exact ⟨[r.current], hls, hdone, r.current, rfl, rfl⟩
  · intro given
    obtain ⟨ts, hts, hdone, t, rfl, ht⟩ := given
    obtain rfl := ofToken_injective (List.cons.inj hts).1
    cases ht
    rw [(next_eq_ok hr hcur).mpr ⟨hts, hdone⟩]
    rfl

/-- A step picks the token in front: it passes the tokens of a kind, with a result, and
otherwise says what it expected. -/
def Picks (p : Step α) (pick : Spanned Token → Option α) (expected : String) : Prop :=
  ∀ r : Reader, p.run r = match pick r.current with
    | some a => (do let _ ← pass; return a : Step α).run r
    | none => (unexpected expected : Step α).run r

/-- A step that picks tokens reads those it picks. -/
theorem Picks.reads {m : Nat} {p : Step α} {pick : Spanned Token → Option α} {expected : String}
    (h : Picks p pick expected) (hfinish : ∀ span, pick ⟨.finish, span⟩ = none) :
    Reads m p (Lang.picked pick) := by
  intro r hr _
  have hrun := h r
  cases hpick : pick r.current with
  | some b =>
      rw [hpick] at hrun
      have hcur : r.current.node ≠ .finish := by
        intro hend
        have hnone := hfinish r.current.span
        rw [← hend, hpick] at hnone
        cases hnone
      refine ReadsAt.of_run_eq (fun a r' => ?_) hrun
      rw [(readsAt_pass hr hcur).bind (fun _ r' _ => readsAt_result r' b) a r']
      constructor
      · intro given
        obtain ⟨ts, hts, us, -, c, span, rfl, ⟨rfl, t, rfl, ht⟩, rfl, hdone, rfl⟩ := given
        obtain rfl := ofToken_injective (List.cons.inj hts).1
        exact ⟨_, hts, hdone, _, rfl, hpick⟩
      · intro given
        obtain ⟨ts, hts, hdone, t, rfl, ht⟩ := given
        obtain rfl := ofToken_injective (List.cons.inj hts).1
        rw [hpick] at ht
        cases ht
        exact ⟨_, hts, [r.current], [], _, _, rfl, ⟨hdone, _, rfl, rfl⟩, rfl, rfl, rfl⟩
  | none =>
      rw [hpick] at hrun
      refine readsAt_of_error hrun ?_
      intro ts r' a hts given
      obtain ⟨-, t, rfl, ht⟩ := given
      rw [← ofToken_injective (List.cons.inj hts).1, hpick] at ht
      cases ht

/-- The place of the given token. -/
def pickToken (t : Token) (s : Spanned Token) : Option Span :=
  if s.node = t then some s.span else none

def pickWord : Spanned Token → Option (Spanned String)
  | ⟨.word name, span⟩ => some ⟨name, span⟩
  | _ => none

def pickText : Spanned Token → Option (Spanned String)
  | ⟨.text content, span⟩ => some ⟨content, span⟩
  | _ => none

def pickValue : Spanned Token → Option (Spanned Value)
  | ⟨.word name, span⟩ => some ⟨⟨name⟩, span⟩
  | ⟨.whole n, span⟩ => some ⟨⟨toString n⟩, span⟩
  | _ => none

theorem picks_expect (t : Token) : Picks (expect t) (pickToken t) t.display := by
  intro r
  have hrun : (expect t).run r =
      (if r.current.node = t then pass else unexpected t.display).run r := rfl
  rw [hrun, pickToken]
  split
  · simp only [StateT.run_bind, run_pass]
    cases r.next <;> rfl
  · rfl

/-- A step that makes its result of the place of the token that it passes. -/
theorem run_pass_map {r : Reader} (f : Span → α) :
    (do return f (← pass) : Step α).run r =
      (do let _ ← pass; return f r.current.span : Step α).run r := by
  simp only [StateT.run_bind, run_pass]
  cases r.next <;> rfl

theorem picks_word (expected : String) : Picks (word expected) pickWord expected := by
  rintro ⟨⟨node, span⟩, ahead, w, fs, ds⟩
  cases node with
  | word name => exact run_pass_map (Spanned.mk name)
  | _ => rfl

theorem picks_text (expected : String) : Picks (text expected) pickText expected := by
  rintro ⟨⟨node, span⟩, ahead, w, fs, ds⟩
  cases node with
  | text content => exact run_pass_map (Spanned.mk content)
  | _ => rfl

theorem picks_value : Picks value pickValue "a value" := by
  rintro ⟨⟨node, span⟩, ahead, w, fs, ds⟩
  cases node with
  | word name => exact run_pass_map (Spanned.mk (Value.mk name))
  | whole n => exact run_pass_map (Spanned.mk (Value.mk (toString n)))
  | _ => rfl

theorem reads_expect (m : Nat) {t : Token} (ht : t ≠ .finish) :
    Reads m (expect t) (Lang.picked (pickToken t)) :=
  (picks_expect t).reads fun _ => if_neg fun h => ht h.symm

theorem reads_word (m : Nat) (expected : String) :
    Reads m (word expected) (Lang.picked pickWord) :=
  (picks_word expected).reads fun _ => rfl

theorem reads_text (m : Nat) (expected : String) :
    Reads m (text expected) (Lang.picked pickText) :=
  (picks_text expected).reads fun _ => rfl

theorem reads_value (m : Nat) : Reads m value (Lang.picked pickValue) :=
  picks_value.reads fun _ => rfl

/-- A step that looks at no token. -/
theorem reads_still {m : Nat} {p : Step α} {f : Compilation → Option (α × Compilation)}
    (hsome : ∀ (r : Reader) a c, f r.done = some (a, c) → p.run r = .ok (a, readerAt c [] r))
    (hnone : ∀ r : Reader, f r.done = none → ∃ e, p.run r = .error e) :
    Reads m p (Lang.still f) := by
  intro r _ _
  cases hf : f r.done with
  | none =>
      obtain ⟨e, he⟩ := hnone r hf
      refine readsAt_of_error he ?_
      rintro ts r' a - ⟨-, h⟩
      rw [hf] at h
      cases h
  | some x =>
      obtain ⟨b, c⟩ := x
      intro a r'
      rw [hsome r b c hf]
      constructor
      · intro h
        cases h
        exact ⟨[], rfl, rfl, by rw [readerAt_done, hf]⟩
      · intro given
        obtain ⟨ts, hts, rfl, h⟩ := given
        rw [hf] at h
        cases h
        have heq : readerAt r'.done [] r = r' :=
          reader_ext (readerAt_lexemes .. ▸ hts) (readerAt_done ..)
        rw [heq]

theorem run_resolve_of_some {name : Spanned String} {r : Reader} {f : Factor}
    (h : r.world.findFactor? name.node = some f) : (resolve name).run r = .ok (f, r) := by
  simp [resolve, h]
  rfl

theorem run_resolve_of_none {name : Spanned String} {r : Reader}
    (h : r.world.findFactor? name.node = none) :
    (resolve name).run r =
      .error (.fault ⟨.undefinedFactor name.node (r.world.closest? name.node), name.span⟩) := by
  simp [resolve, h]
  rfl

theorem reads_resolve (m : Nat) (name : Spanned String) :
    Reads m (resolve name) (Lang.still fun c => (c.world.findFactor? name.node).map (·, c)) := by
  refine reads_still (fun r a c h => ?_) fun r h => ?_
  · obtain ⟨f, hf, h⟩ := Option.map_eq_some_iff.mp h
    cases h
    exact run_resolve_of_some hf
  · exact ⟨_, run_resolve_of_none (Option.map_eq_none_iff.mp h)⟩

/-! ## Looking ahead -/

theorem ReadsAt.look {r : Reader} {f : Token → Step α} {L : Lang α}
    (h : ReadsAt r (f r.current.node) L) : ReadsAt r (look >>= f) L := h

/-- A step that depends on the number of lexemes ahead, which only has to be enough. -/
theorem reads_ahead {m : Nat} {f : Nat → Step α} {L : Lang α}
    (h : ∀ k, k ≤ m → Reads k (f k) L) :
    Reads m (do f (← get).ahead.length) L :=
  fun r hr hm => h r.ahead.length hm r hr (Nat.le_refl _)

/-- A token decides which of two steps is taken. -/
theorem Reads.choose {m : Nat} {t : Token} {f : Span → Step α} {q : Step α}
    {L : Span → Lang α} {M : Lang α} (ht : t ≠ .finish)
    (hf : ∀ span, Reads (m - 1) (f span) (L span)) (hq : Reads m q M) :
    Reads m (do if (← Reading.look) = t then pass >>= f else q) (Lang.choose t L M) := by
  intro r hr hm
  refine ReadsAt.look ?_
  by_cases hcur : r.current.node = t
  · rw [if_pos hcur]
    have hpass := readsAt_pass hr (hcur ▸ ht)
    have hrest : ∀ span r', pass.run r = .ok (span, r') → ReadsAt r' (f span) (L span) := by
      intro span r' hspan
      obtain ⟨ts, hts, -, t', rfl, -⟩ := (hpass span r').mp hspan
      have hlen := length_ahead hts
      rw [List.length_singleton] at hlen
      exact hf span r' (closed_suffix hr hts) (by omega)
    refine (hpass.bind hrest).congr fun c ts next c' a hfront => ?_
    constructor
    · intro given
      obtain ⟨ts₁, us, c₁, span, rfl, ⟨rfl, s, rfl, hs⟩, hL⟩ := given
      cases hs
      refine .inl ⟨s.span, us, ?_, hL⟩
      rw [← hcur, hfront]
      rfl
    · intro given
      rcases given with ⟨span, us, rfl, hL⟩ | ⟨hne, -⟩
      · exact ⟨[⟨t, span⟩], us, c, span, rfl, ⟨rfl, _, rfl, rfl⟩, hL⟩
      · exact absurd (hfront.symm.trans hcur) hne
  · rw [if_neg hcur]
    refine (hq r hr hm).congr fun c ts next c' a hfront => ?_
    constructor
    · intro hM
      exact .inr ⟨hfront ▸ hcur, hM⟩
    · intro given
      rcases given with ⟨span, us, rfl, -⟩ | ⟨-, hM⟩
      · exact absurd hfront hcur
      · exact hM

/-! ## Repetition -/

/-- What stands behind an item: nothing if no separator follows, and otherwise one and
more items. -/
def Further (separator : Mark) (L : Lang α) : Lang (List α) :=
  Lang.choose (.mark separator) (fun _ => Lang.Separated separator L) (Lang.result [])

theorem separated_iff {separator : Mark} {L : Lang α} {c c' : Compilation}
    {ts : List (Spanned Token)} {next : Token} {as : List α} :
    (L.bind fun a => (Further separator L).bind fun as => Lang.result (a :: as)) c ts next c' as ↔
      Lang.Separated separator L c ts next c' as := by
  constructor
  · intro given
    obtain ⟨ts, -, c₁, a, rfl, hL, us, -, c₂, as, rfl, hfurther, rfl, rfl, rfl⟩ := given
    rw [List.append_nil] at hL ⊢
    rcases hfurther with ⟨span, us, rfl, hmore⟩ | ⟨hne, rfl, rfl, rfl⟩
    · exact .more hL hmore
    · rw [List.append_nil]
      exact .one hL hne
  · intro h
    cases h with
    | one hL hne =>
        exact ⟨_, [], _, _, (List.append_nil _).symm, hL, [], [], _, [], rfl,
          .inr ⟨hne, rfl, rfl, rfl⟩, rfl, rfl, rfl⟩
    | more hL hmore =>
        exact ⟨_, _, _, _, rfl, hL, _, [], _, _, (List.append_nil _).symm,
          .inl ⟨_, _, rfl, hmore⟩, rfl, rfl, rfl⟩

/-- So many rounds are enough where no more lexemes are ahead. -/
theorem reads_further {separator : Mark} {item : Step α} {L : Lang α} :
    ∀ n, Reads n item L → Reads n (further separator item n) (Further separator L)
  | 0, _ => by
      intro r hr hm
      have hahead : r.ahead = [] := List.eq_nil_of_length_eq_zero (Nat.le_zero.mp hm)
      have hcur : r.current.node = .finish := by
        by_contra hne
        exact hr.ne_nil (fun h => hne (Reading.token.inj h)) hahead
      refine (readsAt_result r []).congr fun c ts next c' as hfront => ?_
      rw [hcur] at hfront
      constructor
      · intro h
        exact .inr ⟨by rw [← hfront]; simp, h⟩
      · intro given
        rcases given with ⟨span, us, rfl, -⟩ | ⟨-, h⟩
        · cases hfront
        · exact h
  | n + 1, h => by
      have hitem := h.mono (Nat.le_succ n)
      have hrest : Reads n (do
          let a ← item
          let as ← further separator item n
          return a :: as) (Lang.Separated separator L) :=
        (hitem.bind fun a => (reads_further n hitem).bind fun as => reads_pure n (a :: as)).congr
          fun _ _ _ _ _ => separated_iff
      exact Reads.choose (by simp) (fun _ => hrest) (reads_pure (n + 1) [])

theorem reads_separated {m : Nat} (separator : Mark) {item : Step α} {L : Lang α}
    (h : Reads m item L) :
    Reads m (separated separator item) (Lang.Separated separator L) :=
  (h.bind fun a => reads_ahead (f := fun n => do
      let as ← further separator item n
      return a :: as) fun k hk =>
    (reads_further k (h.mono hk)).bind fun as => reads_pure k (a :: as)).congr
    fun _ _ _ _ _ => separated_iff

end Reading

end Storyworld
