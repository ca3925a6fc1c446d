import Storyworld.Proofs.Narration

/-!
# The questions of a game

Three places of a game must agree on which numbers can be answered: the menu, the reading of a
line, and what a rejection says.  `Action.ofLine?_eq_some_iff` says what each line asks for,
`Action.Takes` which lines a menu takes, and `numbered_numbers` which numbers the menu bears.
`Game.Question` is the agreement at one question: it is about the menu that was shown last, and
it holds wherever the session of a game follows its universe (`question_of_follows`).

A game is over when its lines are, if not before.  `Game.heard` are the lines that it reads.
Each round, each step in the history and each rejection ends with one question
(`answer_asks`), so there is one question at most for each line heard and one before
(`questions_answerAll`), and every question of a game is the last of a game with fewer lines
(`answerAll_question`).  `play_ends` says all of this of every game.
-/

namespace Storyworld

/-! ## What a line asks for -/

/-- Decimal digits, with a plus sign before them or none, that say a number below the limit of
numerals. -/
def Numeral (cs : List Char) (n : Nat) : Prop :=
  ∃ sign digits, (sign = [] ∨ sign = ['+']) ∧ cs = sign ++ digits ∧ digits ≠ [] ∧
    (∀ d ∈ digits, d.isDigit = true) ∧ Nat.ofDigitChars 10 digits 0 = n ∧ n < numeralLimit

/-- The number that decimal digits say, if it is below the limit. -/
def readDigits? (digits : List Char) : Option Nat :=
  if digits.isEmpty || !digits.all Char.isDigit then none
  else if Nat.ofDigitChars 10 digits 0 < numeralLimit then some (Nat.ofDigitChars 10 digits 0)
  else none

theorem readDigits?_eq_some_iff {digits : List Char} {n : Nat} :
    readDigits? digits = some n ↔ digits ≠ [] ∧ (∀ d ∈ digits, d.isDigit = true) ∧
      Nat.ofDigitChars 10 digits 0 = n ∧ n < numeralLimit := by
  rw [readDigits?]
  by_cases hdigits : digits ≠ [] ∧ ∀ d ∈ digits, d.isDigit = true
  · obtain ⟨hne, hall⟩ := hdigits
    have hread : (digits.isEmpty || !digits.all Char.isDigit) = false := by simpa [hne] using hall
    rw [hread, if_neg Bool.false_ne_true]
    constructor
    · intro h
      split at h
      · cases h
        exact ⟨hne, hall, rfl, ‹_›⟩
      · cases h
    · rintro ⟨-, -, rfl, hlt⟩
      exact if_pos hlt
  · have hread : (digits.isEmpty || !digits.all Char.isDigit) = true := by
      by_contra hfalse
      exact hdigits (by simpa using hfalse)
    rw [hread, if_pos rfl]
    exact ⟨nofun, fun ⟨hne, hall, _⟩ => absurd ⟨hne, hall⟩ hdigits⟩

theorem numeral?_of_not_signed {cs : List Char} (h : ∀ digits, cs ≠ '+' :: digits) :
    numeral? cs = readDigits? cs := by
  unfold numeral?
  split
  next digits => exact absurd rfl (h digits)
  next => rfl

/-- A numeral is what is read as a number. -/
theorem numeral?_eq_some_iff {cs : List Char} {n : Nat} : numeral? cs = some n ↔ Numeral cs n := by
  by_cases hsigned : ∃ digits, cs = '+' :: digits
  · obtain ⟨digits, rfl⟩ := hsigned
    refine readDigits?_eq_some_iff.trans ⟨?_, ?_⟩
    · rintro ⟨hne, hall, hvalue⟩
      exact ⟨['+'], digits, .inr rfl, rfl, hne, hall, hvalue⟩
    · rintro ⟨sign, ds, rfl | rfl, heq, hne, hall, hvalue⟩
      · -- A plus sign is no digit.
        subst heq
        exact absurd (hall '+' (List.mem_cons_self ..)) (by decide)
      · cases heq
        exact ⟨hne, hall, hvalue⟩
  · rw [numeral?_of_not_signed fun digits heq => hsigned ⟨digits, heq⟩, readDigits?_eq_some_iff]
    constructor
    · rintro ⟨hne, hall, hvalue⟩
      exact ⟨[], cs, .inl rfl, rfl, hne, hall, hvalue⟩
    · rintro ⟨sign, ds, rfl | rfl, rfl, hne, hall, hvalue⟩
      · exact ⟨hne, hall, hvalue⟩
      · exact absurd ⟨ds, rfl⟩ hsigned

namespace Action

/-- What the characters of a line ask for, white space around them apart, when there are
choices. -/
inductive Says (choices : List Transition) (cs : List Char) : Action → Prop
  | undo (h : cs = "u".toList ∨ cs = "undo".toList) : Says choices cs .undo
  | redo (h : cs = "r".toList ∨ cs = "redo".toList) : Says choices cs .redo
  | leave (h : Numeral cs 0) : Says choices cs .leave
  | wait (h : Numeral cs 1) : Says choices cs .wait
  | choose {k : Nat} {t : Transition} (h : Numeral cs (k + 2)) (ht : choices[k]? = some t) :
      Says choices cs (.choose t.id)

/-- The words for a step in the history are no numerals. -/
theorem not_numeral_of_word {cs : List Char} {n : Nat}
    (h : (cs = "u".toList ∨ cs = "undo".toList) ∨ cs = "r".toList ∨ cs = "redo".toList) :
    ¬ Numeral cs n := by
  rw [← numeral?_eq_some_iff]
  rcases h with (rfl | rfl) | rfl | rfl
  all_goals
    have hnone : ∀ {cs : List Char}, numeral? cs = none → numeral? cs ≠ some n :=
      fun h h' => by rw [h] at h'; cases h'
    exact hnone (by decide +kernel)

theorem ofLine?_eq_some_iff {choices : List Transition} {line : String} {a : Action} :
    ofLine? choices line = some a ↔ Says choices (trim line.toList) a := by
  rw [ofLine?]
  generalize trim line.toList = cs
  by_cases hundo : cs = "u".toList ∨ cs = "undo".toList
  · rw [if_pos hundo]
    refine ⟨fun h => by cases h; exact .undo hundo, fun h => ?_⟩
    cases h with
    | undo => rfl
    | redo hredo => rcases hundo with rfl | rfl <;> simp at hredo
    | leave h | wait h | choose h => exact absurd h (not_numeral_of_word (.inl hundo))
  rw [if_neg hundo]
  by_cases hredo : cs = "r".toList ∨ cs = "redo".toList
  · rw [if_pos hredo]
    refine ⟨fun h => by cases h; exact .redo hredo, fun h => ?_⟩
    cases h with
    | undo h => exact absurd h hundo
    | redo => rfl
    | leave h | wait h | choose h => exact absurd h (not_numeral_of_word (.inr hredo))
  rw [if_neg hredo]
  constructor
  · intro h
    split at h
    next => cases h
    next hn =>
      cases h
      exact .leave (numeral?_eq_some_iff.mp hn)
    next hn =>
      cases h
      exact .wait (numeral?_eq_some_iff.mp hn)
    next k hn =>
      obtain ⟨t, ht, rfl⟩ := Option.map_eq_some_iff.mp h
      exact .choose (numeral?_eq_some_iff.mp hn) ht
  · intro h
    cases h with
    | undo h => exact absurd h hundo
    | redo h => exact absurd h hredo
    | leave h => simp [numeral?_eq_some_iff.mpr h]
    | wait h => simp [numeral?_eq_some_iff.mpr h]
    | choose h ht => simp [numeral?_eq_some_iff.mpr h, ht]

/-- The characters that a menu with so many choices takes for an answer: a word for a step in the
history, or the numeral of a number on it. -/
def Takes (count : Nat) (cs : List Char) : Prop :=
  cs = "u".toList ∨ cs = "undo".toList ∨ cs = "r".toList ∨ cs = "redo".toList ∨
    ∃ n, Numeral cs n ∧ n ≤ count + 1

theorem Says.takes {choices : List Transition} {cs : List Char} {a : Action}
    (h : Says choices cs a) : Takes choices.length cs := by
  cases h with
  | undo h => exact h.elim .inl fun h => .inr (.inl h)
  | redo h => exact .inr (.inr (h.elim .inl fun h => .inr (.inl h)))
  | leave h => exact .inr (.inr (.inr (.inr ⟨0, h, Nat.zero_le _⟩)))
  | wait h => exact .inr (.inr (.inr (.inr ⟨1, h, Nat.le_add_left ..⟩)))
  | @choose k t h ht =>
      have hk : k < choices.length := (List.getElem?_eq_some_iff.mp ht).1
      exact .inr (.inr (.inr (.inr ⟨k + 2, h, by omega⟩)))

theorem Takes.says {choices : List Transition} {cs : List Char} (h : Takes choices.length cs) :
    ∃ a, Says choices cs a := by
  rcases h with h | h | h | h | ⟨n, hn, hle⟩
  · exact ⟨_, .undo (.inl h)⟩
  · exact ⟨_, .undo (.inr h)⟩
  · exact ⟨_, .redo (.inl h)⟩
  · exact ⟨_, .redo (.inr h)⟩
  · match n with
    | 0 => exact ⟨_, .leave hn⟩
    | 1 => exact ⟨_, .wait hn⟩
    | k + 2 =>
        have hk : k < choices.length := by omega
        exact ⟨_, .choose hn (List.getElem?_eq_getElem hk)⟩

/-- A line asks for nothing exactly if the menu does not take it. -/
theorem ofLine?_eq_none_iff {choices : List Transition} {line : String} :
    ofLine? choices line = none ↔ ¬ Takes choices.length (trim line.toList) := by
  constructor
  · intro h htakes
    obtain ⟨a, ha⟩ := htakes.says
    rw [ofLine?_eq_some_iff.mpr ha] at h
    cases h
  · intro h
    cases ha : ofLine? choices line with
    | none => rfl
    | some a => exact absurd (ofLine?_eq_some_iff.mp ha).takes h

end Action

/-! ## The menu -/

/-- The entries of a menu with their numbers. -/
def numbered (offers : List String) : List (String × Nat) :=
  ("Exit." :: "Do nothing." :: offers).zipIdx

theorem text_menu (offers : List String) :
    (Event.menu offers).text =
      String.join ((numbered offers).map fun (entry, i) => s!"  {i}. {entry}\n") := rfl

/-- The numbers on a menu are those from zero to one above the number of choices. -/
theorem numbered_numbers (offers : List String) :
    (numbered offers).map Prod.snd = List.range (offers.length + 2) := by
  rw [numbered, List.zipIdx_map_snd, List.range_eq_range']
  rfl

/-- The choices have the numbers from two on, in order. -/
theorem numbered_choice (offers : List String) (k : Nat) :
    (numbered offers)[k + 2]? = offers[k]?.map fun offer => (offer, k + 2) := by
  simp [numbered, List.getElem?_zipIdx, Nat.add_comm 2 k]

/-- What a menu offers. -/
def Event.menu? : Event → Option (List String)
  | .menu offers => some offers
  | _ => none

/-- What the last menu among events offers. -/
def lastMenu? (events : List Event) : Option (List String) :=
  (events.filterMap Event.menu?).getLast?

theorem lastMenu?_append (events more : List Event) :
    lastMenu? (events ++ more) = (lastMenu? more).or (lastMenu? events) := by
  rw [lastMenu?, List.filterMap_append, List.getLast?_append]
  rfl

namespace Game

variable {G : Type}

theorem length_offers (g : Game G) : g.offers.length = g.session.choices.length :=
  List.length_map ..

/-- The menu bears what a choice offers, with its number. -/
theorem numbered_of_choice {g : Game G} {k : Nat} {t : Transition}
    (ht : g.session.choices[k]? = some t) :
    ∃ offer, t.schedule = .chosen offer ∧ (numbered g.offers)[k + 2]? = some (offer, k + 2) := by
  have hoffered : t.schedule.isOffered = true :=
    (List.mem_filter.mp (List.mem_of_getElem? ht)).2
  cases hschedule : t.schedule with
  | spontaneous p =>
      rw [hschedule] at hoffered
      cases hoffered
  | chosen offer =>
      refine ⟨offer, rfl, ?_⟩
      rw [numbered_choice, offers, List.getElem?_map, ht]
      simp [hschedule, Schedule.offer?]

/-- A choice can be applied. -/
theorem applyId_of_mem_choices {u : Universe} {settings : Settings} {tl : Timeline} {g : Game G}
    (hu : u.Built) (h : g.session.Follows u settings tl) {t : Transition}
    (ht : t ∈ g.session.choices) :
    g.session.applyId t.id = .ok (g.session.apply t) := by
  have hmem : t ∈ u.transitions := by
    have hpossible := List.mem_of_mem_filter (List.mem_of_mem_filter ht)
    rwa [h.world] at hpossible
  rw [Session.applyId, h.world, hu.transition?_id hmem]

/-! ## One question -/

/-- Something shown is up to a question: a game shows other things, then asks.  The menu of the
game is the last among the other things, or it was shown before. -/
structure Shown.Asks (shown : Shown G) (before : Option (List String)) (events : List Event) :
    Prop where
  /-- The question stands at the end. -/
  events_eq : shown.events = events ++ [.question]
  /-- It is the only one. -/
  question : .question ∉ events
  /-- The last menu is that of the game. -/
  menu : (lastMenu? events).or before = some shown.game.offers

theorem asks_of_ask {shown : Shown G} (events : List Event) {before : Option (List String)}
    (hevents : shown.events = events ++ shown.game.ask) (h : .question ∉ events) :
    shown.Asks before (events ++ [.menu shown.game.offers]) where
  events_eq := by rw [hevents, List.append_assoc]; rfl
  question := by simpa using h
  menu := by rw [lastMenu?_append]; rfl

theorem moved_asks (g : Game G) (session : Option Session) {otherwise : Event}
    (hotherwise : otherwise ≠ .question) (before : Option (List String)) :
    ∃ events, (g.moved session otherwise).Asks before events := by
  cases session with
  | none => exact ⟨_, asks_of_ask [otherwise] rfl (by simpa using hotherwise.symm)⟩
  | some s => exact ⟨_, asks_of_ask [] rfl (List.not_mem_nil)⟩

variable [Generator G]

theorem round_asks (g : Game G) (since : MomentId) (before : Option (List String)) :
    ∃ events, (g.round since).Asks before events := by
  refine ⟨_, asks_of_ask ((g.round since).game.tellSince since) rfl ?_⟩
  simp [tellSince]

/-- Every answer that goes on leads to one question, about the menu that was shown last. -/
theorem answer_asks {g : Game G} {line : String} {shown : Shown G}
    (h : g.answer line = .asks shown) :
    ∃ events, shown.Asks (some g.offers) events := by
  rw [answer] at h
  split at h
  · cases h
    exact ⟨[.rejected (g.session.choices.length + 1)], rfl, by simp, rfl⟩
  · cases h
  · cases h
    exact round_asks g _ _
  · split at h
    · cases h
      exact round_asks _ _ _
    · cases h
  · cases h
    exact moved_asks g _ (by simp) _
  · cases h
    exact moved_asks g _ (by simp) _

/-- A game takes a line as an answer: what it shows then is no rejection. -/
def Accepts (g : Game G) (line : String) : Prop :=
  ∀ shown, g.answer line = .asks shown → ∀ greatest, Event.rejected greatest ∉ shown.events

theorem round_not_rejected (g : Game G) (since : MomentId) (greatest : Nat) :
    Event.rejected greatest ∉ (g.round since).events := by
  simp [round, tellSince, ask]

theorem answer_of_none {g : Game G} {line : String}
    (h : Action.ofLine? g.session.choices line = none) :
    g.answer line = .asks ⟨[.rejected (g.session.choices.length + 1), .question], g⟩ := by
  rw [answer, h]

theorem accepts_of_some {g : Game G} {line : String} {a : Action}
    (ha : Action.ofLine? g.session.choices line = some a) : g.Accepts line := by
  intro shown h greatest
  rw [answer, ha] at h
  cases a with
  | leave => cases h
  | wait =>
      cases h
      exact round_not_rejected g _ greatest
  | choose id =>
      simp only at h
      split at h
      · cases h
        exact round_not_rejected _ _ greatest
      · cases h
  | undo =>
      cases h
      cases g.session.undo? <;> simp [moved, ask]
  | redo =>
      cases h
      cases g.session.redo? <;> simp [moved, ask]

/-- What holds of the question of a game that has shown some events. -/
structure Question (g : Game G) (events : List Event) : Prop where
  /-- The menu that was shown last is that of the game. -/
  menu : lastMenu? events = some g.offers
  /-- It is written with a number before each entry, and the numbers are those up to one above the
  number of choices. -/
  numbers : (Event.menu g.offers).text =
      String.join ((numbered g.offers).map fun (entry, i) => s!"  {i}. {entry}\n") ∧
    ∀ n, n ∈ (numbered g.offers).map Prod.snd ↔ n ≤ g.session.choices.length + 1
  /-- A line is accepted if it is a word for a step in the history or the numeral of a number on
  the menu, white space around it apart, and only then. -/
  accepts : ∀ line, g.Accepts line ↔ Action.Takes g.session.choices.length (trim line.toList)
  /-- To any other line the game says the range of these numbers and asks again. -/
  rejects : (∀ line, ¬ g.Accepts line →
      g.answer line = .asks ⟨[.rejected (g.session.choices.length + 1), .question], g⟩) ∧
    (Event.rejected (g.session.choices.length + 1)).text =
      s!"Please enter a number between 0 and {g.session.choices.length + 1}.\n"
  /-- A number from two on has a choice.  What the choice offers stands on the menu with that
  number, and the number lets it happen. -/
  chooses : ∀ line n, Numeral (trim line.toList) n → 2 ≤ n → n ≤ g.session.choices.length + 1 →
    ∃ t offer, g.session.choices[n - 2]? = some t ∧ t.schedule = .chosen offer ∧
      (numbered g.offers)[n]? = some (offer, n) ∧
      g.session.applyId t.id = .ok (g.session.apply t) ∧
      g.answer line = .asks ((Game.mk (g.session.apply t).2 g.generator).round g.session.now)
  /-- Nothing else asks for a choice. -/
  chosen : ∀ line id, Action.ofLine? g.session.choices line = some (.choose id) →
    ∃ n, Numeral (trim line.toList) n ∧ 2 ≤ n ∧ n ≤ g.session.choices.length + 1
  /-- No line makes the game fail. -/
  holds : ∀ line reason, g.answer line ≠ .fails reason

section Follows

variable {u : Universe} {settings : Settings} {tl : Timeline} {g : Game G}

/-- The number of a choice lets it happen. -/
theorem answer_number (hu : u.Built) (h : g.session.Follows u settings tl) {line : String}
    {k : Nat} (hnumeral : Numeral (trim line.toList) (k + 2))
    {t : Transition} (ht : g.session.choices[k]? = some t) :
    g.answer line = .asks ((Game.mk (g.session.apply t).2 g.generator).round g.session.now) := by
  have hsays : Action.ofLine? g.session.choices line = some (.choose t.id) :=
    Action.ofLine?_eq_some_iff.mpr (.choose hnumeral ht)
  simp only [answer, hsays, applyId_of_mem_choices hu h (List.mem_of_getElem? ht)]

theorem answer_ne_fails (hu : u.Built) (h : g.session.Follows u settings tl) (line : String)
    (reason : String) : g.answer line ≠ .fails reason := by
  intro hfails
  rw [answer] at hfails
  split at hfails
  · cases hfails
  · cases hfails
  · cases hfails
  next id hsays =>
    obtain ⟨t, ht, rfl⟩ := Action.mem_choices_of_ofLine? hsays
    rw [applyId_of_mem_choices hu h ht] at hfails
    cases hfails
  · cases hfails
  · cases hfails

/-- Where the session of a game follows its universe, the question is about the last menu. -/
theorem question_of_follows (hu : u.Built) (h : g.session.Follows u settings tl)
    {events : List Event} (hmenu : lastMenu? events = some g.offers) : g.Question events := by
  have haccepts : ∀ line, g.Accepts line ↔ Action.ofLine? g.session.choices line ≠ none := by
    intro line
    constructor
    · intro haccepts hnone
      exact haccepts _ (answer_of_none hnone) _ (List.mem_cons_self ..)
    · intro hsome
      obtain ⟨a, ha⟩ := Option.ne_none_iff_exists'.mp hsome
      exact accepts_of_some ha
  refine ⟨hmenu, ⟨text_menu _, fun n => ?_⟩, fun line => ?_, ⟨fun line hline => ?_, rfl⟩, ?_, ?_,
    answer_ne_fails hu h⟩
  · rw [numbered_numbers, List.mem_range, length_offers]
    omega
  · rw [haccepts, Ne, Action.ofLine?_eq_none_iff, not_not]
  · rw [haccepts, not_not] at hline
    exact answer_of_none hline
  · intro line n hnumeral htwo hle
    obtain ⟨k, rfl⟩ : ∃ k, n = k + 2 := ⟨n - 2, by omega⟩
    have hk : k < g.session.choices.length := by omega
    have ht : g.session.choices[k]? = some g.session.choices[k] := List.getElem?_eq_getElem hk
    obtain ⟨offer, hoffer, hentry⟩ := numbered_of_choice ht
    exact ⟨_, offer, ht, hoffer, hentry,
      applyId_of_mem_choices hu h (List.mem_of_getElem? ht), answer_number hu h hnumeral ht⟩
  · intro line id hsays
    cases Action.ofLine?_eq_some_iff.mp hsays with
    | @choose k t hnumeral ht =>
        have hk : k < g.session.choices.length := (List.getElem?_eq_some_iff.mp ht).1
        exact ⟨k + 2, hnumeral, Nat.le_add_left .., by omega⟩

end Follows

/-! ## All questions -/

/-- The lines that a game reads from a question on. -/
def heard (g : Game G) : List String → List String
  | [] => []
  | line :: lines =>
      line :: match g.answer line with
        | .asks shown => shown.game.heard lines
        | .ends | .fails _ => []

theorem heard_prefix (lines : List String) (g : Game G) : g.heard lines <+: lines := by
  induction lines generalizing g with
  | nil => exact List.prefix_refl _
  | cons line lines ih =>
      rw [heard]
      refine List.cons_prefix_cons.mpr ⟨rfl, ?_⟩
      cases g.answer line with
      | asks shown => exact ih shown.game
      | ends => exact List.nil_prefix
      | fails reason => exact List.nil_prefix

/-- The lines that are not read change nothing. -/
theorem answerAll_heard (lines : List String) (g : Game G) :
    g.answerAll ((g.heard lines).map .ok) = g.answerAll (lines.map .ok) := by
  induction lines generalizing g with
  | nil => rfl
  | cons line lines ih =>
      rw [heard, List.map_cons, List.map_cons, answerAll, answerAll]
      cases g.answer line with
      | asks shown => simp only [ih]
      | ends => rfl
      | fails reason => rfl

/-- Every line heard but the last leads to one question. -/
theorem questions_answerAll (lines : List String) (g : Game G) :
    (g.answerAll (lines.map .ok)).events.count .question ≤ (g.heard lines).length ∧
      (g.heard lines).length ≤ (g.answerAll (lines.map .ok)).events.count .question + 1 := by
  induction lines generalizing g with
  | nil => exact ⟨Nat.le_refl _, Nat.zero_le _⟩
  | cons line lines ih =>
      rw [heard, List.map_cons, answerAll]
      cases hanswer : g.answer line with
      | asks shown =>
          obtain ⟨events, hasks⟩ := answer_asks hanswer
          have hone : shown.events.count .question = 1 := by
            rw [hasks.events_eq, List.count_append, List.count_eq_zero_of_not_mem hasks.question]
            rfl
          have hrest := ih shown.game
          simp only [List.count_append, hone, List.length_cons]
          omega
      | ends => exact ⟨Nat.zero_le _, Nat.le_refl _⟩
      | fails reason => exact ⟨Nat.zero_le _, Nat.le_refl _⟩

/-- The only one of its kind at the end of a list is the first when more follows, and any other
stands in what follows. -/
theorem append_singleton_split {α : Type} {x : α} {xs more before after : List α} (h : x ∉ xs)
    (heq : xs ++ [x] ++ more = before ++ x :: after) :
    before = xs ∧ after = more ∨
      ∃ between, before = xs ++ x :: between ∧ more = between ++ x :: after := by
  rw [List.append_assoc] at heq
  obtain ⟨rest, rfl, hmore⟩ | ⟨rest, rfl, hmore⟩ := List.append_eq_append_iff.mp heq
  · cases rest with
    | nil =>
        obtain ⟨-, rfl⟩ := List.cons.inj hmore
        exact .inl ⟨List.append_nil _, rfl⟩
    | cons y between =>
        obtain ⟨rfl, rfl⟩ := List.cons.inj hmore
        exact .inr ⟨between, rfl, rfl⟩
  · cases rest with
    | nil =>
        obtain ⟨-, rfl⟩ := List.cons.inj hmore
        exact .inl ⟨(List.append_nil _).symm, rfl⟩
    | cons y between =>
        obtain ⟨rfl, -⟩ := List.cons.inj hmore
        exact absurd (List.mem_append_right _ (List.mem_cons_self ..)) h

section Follows

variable {u : Universe} {settings : Settings}

theorem answerAll_result (hu : u.Built) (lines : List String) {g : Game G} {tl : Timeline}
    (h : g.session.Follows u settings tl) : (g.answerAll (lines.map .ok)).result = .ok () := by
  induction lines generalizing g tl with
  | nil => rfl
  | cons line lines ih =>
      rw [List.map_cons, answerAll]
      cases hanswer : g.answer line with
      | asks shown =>
          have hnext := (h.run (g.requests line)).2
          rw [← answer_session hanswer] at hnext
          exact ih hnext
      | ends => rfl
      | fails reason => exact absurd hanswer (answer_ne_fails hu h line reason)

/-- What was shown is up to a question, and all lines are answered from there. -/
theorem first_question (hu : u.Built) {shown : Shown G} {tl : Timeline}
    (h : shown.game.session.Follows u settings tl) {past events : List Event}
    (hasks : shown.Asks (lastMenu? past) events) (lines : List String) :
    ([] : List String).length = events.count .question ∧
      shown.events ++ (shown.game.answerAll (([] : List String).map .ok)).events =
        events ++ [.question] ∧
      (shown.game.answerAll (([] : List String).map .ok)).game.Question (past ++ events) ∧
      ((shown.game.answerAll (([] : List String).map .ok)).game.answerAll
        (lines.map .ok)).events = (shown.game.answerAll (lines.map .ok)).events := by
  refine ⟨(List.count_eq_zero_of_not_mem hasks.question).symm, ?_, ?_, rfl⟩
  · rw [hasks.events_eq]
    exact List.append_nil _
  · exact question_of_follows hu h ((lastMenu?_append past events).trans hasks.menu)

/-- Every question that a game asks from one on is the last of the game with fewer lines, and the
other lines are answered from there. -/
theorem answerAll_question (hu : u.Built) (lines : List String) {shown : Shown G} {tl : Timeline}
    (h : shown.game.session.Follows u settings tl) {past events before after : List Event}
    (hasks : shown.Asks (lastMenu? past) events)
    (heq : shown.events ++ (shown.game.answerAll (lines.map .ok)).events =
      before ++ .question :: after) :
    ∃ asked rest, lines = asked ++ rest ∧ asked.length = before.count .question ∧
      shown.events ++ (shown.game.answerAll (asked.map .ok)).events = before ++ [.question] ∧
      (shown.game.answerAll (asked.map .ok)).game.Question (past ++ before) ∧
      ((shown.game.answerAll (asked.map .ok)).game.answerAll (rest.map .ok)).events = after := by
  induction lines generalizing shown tl past events before with
  | nil =>
      rw [hasks.events_eq] at heq
      obtain ⟨rfl, rfl⟩ | ⟨between, -, hnil⟩ := append_singleton_split hasks.question heq
      · exact ⟨[], [], rfl, first_question hu h hasks _⟩
      · simp [answerAll] at hnil
  | cons line lines ih =>
      rw [hasks.events_eq] at heq
      obtain ⟨rfl, rfl⟩ | ⟨between, rfl, hbetween⟩ := append_singleton_split hasks.question heq
      · exact ⟨[], line :: lines, rfl, first_question hu h hasks _⟩
      · rw [List.map_cons, answerAll] at hbetween
        cases hanswer : shown.game.answer line with
        | ends => simp [hanswer] at hbetween
        | fails reason => simp [hanswer] at hbetween
        | asks next =>
            rw [hanswer] at hbetween
            obtain ⟨nextEvents, hnextAsks⟩ := answer_asks hanswer
            have hnext := (h.run (shown.game.requests line)).2
            rw [← answer_session hanswer] at hnext
            -- What was shown before the next answer ends with the menu of this question.
            have hpast : lastMenu? (past ++ events ++ [.question]) = some shown.game.offers := by
              rw [lastMenu?_append, lastMenu?_append, hasks.menu]
              rfl
            rw [← hpast] at hnextAsks
            obtain ⟨asked, rest, rfl, hlength, hevents, hquestion, hafter⟩ :=
              ih hnext hnextAsks hbetween
            have hasked : shown.game.answerAll ((line :: asked).map .ok) =
                { next.game.answerAll (asked.map .ok) with
                  events := next.events ++ (next.game.answerAll (asked.map .ok)).events } := by
              rw [List.map_cons, answerAll, hanswer]
            refine ⟨line :: asked, rest, rfl, ?_, ?_, ?_, ?_⟩
            · rw [List.length_cons, hlength, List.count_append,
                List.count_eq_zero_of_not_mem hasks.question, List.count_cons_self, Nat.zero_add]
            · rw [hasked, hasks.events_eq, hevents]
              simp
            · rw [hasked]
              simpa using hquestion
            · rw [hasked]
              exact hafter

end Follows

/-! ## Whole games -/

/-- A game that is played with lines ends well, and its questions are in order. -/
structure Ends (g : Game G) (lines : List String) : Prop where
  /-- It does not fail. -/
  result : (g.play (lines.map .ok)).result = .ok ()
  /-- It reads lines in order from the first on, and those it does not read change nothing. -/
  heard : g.opening.game.heard lines <+: lines ∧
    g.play ((g.opening.game.heard lines).map .ok) = g.play (lines.map .ok)
  /-- It asks one question for each line that it reads, and one more at most. -/
  questions : (g.opening.game.heard lines).length ≤
      (g.play (lines.map .ok)).events.count .question ∧
    (g.play (lines.map .ok)).events.count .question ≤ (g.opening.game.heard lines).length + 1
  /-- So it asks one more than there are lines at most. -/
  questions_le : (g.play (lines.map .ok)).events.count .question ≤ lines.length + 1
  /-- Each question is the last of the game with the lines up to it.  The question is right about
  the menu shown last, and the other lines are answered from there. -/
  question : ∀ before after, (g.play (lines.map .ok)).events = before ++ .question :: after →
    ∃ asked rest, lines = asked ++ rest ∧ asked.length = before.count .question ∧
      (g.play (asked.map .ok)).events = before ++ [.question] ∧
      (g.play (asked.map .ok)).game.Question before ∧
      ((g.play (asked.map .ok)).game.answerAll (rest.map .ok)).events = after

/-- Every game ends well with any lines, whatever was done before it began, with any generator and
in either order. -/
theorem play_ends {u : Universe} (hu : u.Built) (settings : Settings)
    (earlier : List (Operation G)) (generator : G) (lines : List String) :
    (Game.mk (Session.after u settings earlier) generator).Ends lines := by
  generalize hg : Game.mk (Session.after u settings earlier) generator = g
  obtain ⟨tl, hfollows⟩ : ∃ tl, g.opening.game.session.Follows u settings tl := by
    have hstart := ((Session.follows_start u settings).run earlier).2
    subst hg
    exact ⟨_, (hstart.perform (.pass generator)).2⟩
  obtain ⟨events, hasks⟩ := round_asks g g.session.now (lastMenu? [])
  have hone : g.opening.events.count .question = 1 := by
    rw [opening, hasks.events_eq, List.count_append,
      List.count_eq_zero_of_not_mem hasks.question]
    rfl
  have hquestions := questions_answerAll lines g.opening.game
  have hcount : (g.play (lines.map .ok)).events.count .question =
      1 + (g.opening.game.answerAll (lines.map .ok)).events.count .question := by
    rw [play, List.count_append, hone]
  have hheard := heard_prefix lines g.opening.game
  have hlength := hheard.length_le
  refine ⟨answerAll_result hu lines hfollows, ⟨hheard, ?_⟩, ⟨by omega, by omega⟩, by omega,
    fun before after heq => ?_⟩
  · rw [play, play, answerAll_heard]
  · obtain ⟨asked, rest, hlines, hlength, hevents, hquestion, hafter⟩ :=
      answerAll_question hu lines hfollows hasks heq
    exact ⟨asked, rest, hlines, hlength, hevents, hquestion, hafter⟩

/-- A number too great, one with a sign, one too great for a word, and the one that leaves. -/
def doorInput : List String := ["3", " +02 ", "18446744073709551616", "0", "u"]

/-- What is shown of the door. -/
theorem play_ends_door : door.Built ∧
    (Game.mk (Session.after door {} doorRun) (Replay.mk #[] 0)).Ends doorInput ∧
    ((Game.mk (Session.after door {} doorRun) (Replay.mk #[] 0)).play
        (doorInput.map .ok)).events =
      [.menu ["Open it."], .question, .rejected 2, .question, .told "The door is open.",
        .told "The wind shuts the door.", .menu ["Open it."], .question, .rejected 2,
        .question] :=
  ⟨built_door, play_ends built_door {} doorRun ⟨#[], 0⟩ doorInput, by decide +kernel⟩

end Game

end Storyworld
