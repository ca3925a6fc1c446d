import Storyworld.Proofs.Blocks

/-!
# Reading lexemes that go on

Two lists of lexemes are the same up to the end of the first, where the second goes on
(`Lexeme.GoOn`).  They may also part before, at a quote that the first does not close.
Reading the first is then refused for the end of input, or it comes to its end, or it is
refused before.  In the last case the second is refused for the same, since it has been the
same so far.

There is one exception.  A name is judged when the token behind it has been looked at.  So
the first reading can look at the end already when it is refused for a name, and the second
looks at what follows.  If that is no token, it is refused for it and the name is never
judged (`Fate.late`).  This is why a token and what is settled behind it are taken as one
step (`Picks.goesOn_settle`).

Both readings are bounded by the lexemes ahead, of which the second has more or fewer, so
`GoesOn` speaks of two steps with two bounds.
-/

namespace Storyworld

/-! ## Lexemes and readers that go on -/

section GoOn

variable (next : Lexeme) (more : List Lexeme)

/-- The same lexemes, up to the end in the first list, where given ones stand in the second, or
up to a quote that is not closed. -/
inductive Lexeme.GoOn : List Lexeme → List Lexeme → Prop
  | same (l : Lexeme) {ls ms : List Lexeme} : GoOn ls ms → GoOn (l :: ls) (l :: ms)
  | finish (span : Span) : GoOn [⟨.token .finish, span⟩] (next :: more)
  | unclosed {span : Span} {ls : List Lexeme} {m : Lexeme} {ms : List Lexeme} :
      GoOn (⟨.fault .unclosed, span⟩ :: ls) (m :: ms)

/-- Readers that look at the same token and have compiled the same.  What is ahead of the second
goes on. -/
structure Reader.GoOn (r r' : Reader) : Prop where
  /-- The token they look at. -/
  current : r.current = r'.current
  /-- What is ahead. -/
  ahead : Lexeme.GoOn next more r.ahead r'.ahead
  /-- What is compiled. -/
  done : r.done = r'.done

end GoOn

/-- A reader at the end of a story. -/
structure Reader.Ended (r : Reader) : Prop where
  /-- It looks at the end. -/
  current : r.current.node = .finish
  /-- Nothing is ahead. -/
  ahead : r.ahead = []

/-- A refusal for the end of input. -/
def Refusal.AtEnd (e : Refusal) : Prop :=
  ∃ expected span, e = .fault ⟨.unexpected expected "end of input", span⟩

/-- A refusal for what was read, and not for a token that is looked at. -/
def Refusal.Late (e : Refusal) : Prop :=
  ∀ expected found span, e ≠ .fault ⟨.unexpected expected found, span⟩

/-- Before the end something is ahead. -/
theorem Lexeme.GoOn.length_pos {next : Lexeme} {more ls ms : List Lexeme}
    (h : Lexeme.GoOn next more ls ms) : 0 < ls.length ∧ 0 < ms.length := by
  cases h <;> exact ⟨Nat.succ_pos _, Nat.succ_pos _⟩

namespace Reading

variable {α β γ : Type} {next : Lexeme} {more : List Lexeme} {m m' n n' : Nat}

/-- A reading that comes to the end of the story, or is refused for it. -/
inductive Stops : Except Refusal (α × Reader) → Prop
  | ok {a : α} {r : Reader} : r.Ended → Stops (.ok (a, r))
  | error {e : Refusal} : e.AtEnd → Stops (.error e)

/-- A step that does not get past the end of a story. -/
def Ending (p : Step α) : Prop := ∀ r : Reader, r.Ended → Stops (p.run r)

/-- What becomes of two readings of which the second has more before it. -/
inductive Fate (next : Lexeme) (more : List Lexeme) (m m' : Nat) :
    Except Refusal (α × Reader) → Except Refusal (α × Reader) → Prop
  /-- Both go on, with at most so many lexemes ahead. -/
  | ok {a : α} {r r' : Reader} : r.GoOn next more r' → r.ahead.length ≤ m →
      r'.ahead.length ≤ m' → Fate next more m m' (.ok (a, r)) (.ok (a, r'))
  /-- Both are refused for the same. -/
  | error {e : Refusal} : Fate next more m m' (.error e) (.error e)
  /-- The first comes to its end. -/
  | stops {x y : Except Refusal (α × Reader)} : Stops x → Fate next more m m' x y
  /-- The second is refused before it can be refused for the same. -/
  | late {e : Refusal} {f : LexicalFault} {span : Span} : e.Late → next = ⟨.fault f, span⟩ →
      Fate next more m m' (.error e) (.error (.fault ⟨f.fault, span⟩))

/-- Two steps share their fate from readers with at most so many lexemes ahead. -/
structure GoesOn (next : Lexeme) (more : List Lexeme) (n n' : Nat) (p p' : Step α) : Prop where
  /-- From readers of which the second goes on. -/
  longer : ∀ r r', r.GoOn next more r' → r.ahead.length ≤ n → r'.ahead.length ≤ n' →
    Fate next more r.ahead.length r'.ahead.length (p.run r) (p'.run r')
  /-- From the end of the story. -/
  ended : Ending p

/-! ## Sequences of steps -/

theorem Fate.mono {x y : Except Refusal (α × Reader)} (h : Fate next more m m' x y)
    (hm : m ≤ n) (hm' : m' ≤ n') : Fate next more n n' x y := by
  cases h with
  | ok hr hahead hahead' => exact .ok hr (Nat.le_trans hahead hm) (Nat.le_trans hahead' hm')
  | error => exact .error
  | stops hx => exact .stops hx
  | late he hnext => exact .late he hnext

/-- What becomes of the second reading if the first is refused before the end. -/
theorem Fate.of_error {e : Refusal} {y : Except Refusal (α × Reader)}
    (h : Fate next more m m' (.error e) y) (hend : ¬ e.AtEnd) :
    y = .error e ∨ e.Late ∧ ∃ f span, next = ⟨.fault f, span⟩ ∧
      y = .error (.fault ⟨f.fault, span⟩) := by
  cases h with
  | error => exact .inl rfl
  | stops hx =>
      cases hx with
      | error hatEnd => exact absurd hatEnd hend
  | late hlate hnext => exact .inr ⟨hlate, _, _, hnext, rfl⟩

theorem Stops.bind {x : Except Refusal (α × Reader)} {f : α → Step β} (h : Stops x)
    (hf : ∀ a, Ending (f a)) : Stops (x >>= fun y => (f y.1).run y.2) := by
  cases h with
  | ok hr => exact hf _ _ hr
  | error he => exact .error he

theorem Ending.bind {p : Step α} {f : α → Step β} (hp : Ending p) (hf : ∀ a, Ending (f a)) :
    Ending (p >>= f) := by
  intro r hr
  rw [StateT.run_bind]
  exact (hp r hr).bind hf

theorem GoesOn.mono {p p' : Step α} (h : GoesOn next more n n' p p') (hm : m ≤ n) (hm' : m' ≤ n') :
    GoesOn next more m m' p p' :=
  ⟨fun r r' hr hahead hahead' =>
    h.longer r r' hr (Nat.le_trans hahead hm) (Nat.le_trans hahead' hm'), h.ended⟩

/-- A smaller bound by one. -/
theorem GoesOn.fewer {p p' : Step α} (h : GoesOn next more (n + 1) (n' + 1) p p') :
    GoesOn next more n n' p p' :=
  h.mono (Nat.le_succ n) (Nat.le_succ n')

theorem GoesOn.bind {p p' : Step α} {f f' : α → Step β} (hp : GoesOn next more n n' p p')
    (hf : ∀ a, GoesOn next more n n' (f a) (f' a)) :
    GoesOn next more n n' (p >>= f) (p' >>= f') := by
  refine ⟨fun r r' hr hn hn' => ?_, hp.ended.bind fun a => (hf a).ended⟩
  rw [StateT.run_bind, StateT.run_bind]
  have hfate := hp.longer r r' hr hn hn'
  generalize p.run r = x, p'.run r' = y at hfate
  cases hfate with
  | ok hs hm hm' =>
      exact ((hf _).longer _ _ hs (Nat.le_trans hm hn) (Nat.le_trans hm' hn')).mono hm hm'
  | error => exact .error
  | stops hx => exact .stops (hx.bind fun a => (hf a).ended)
  | late he hnext => exact .late he hnext

/-- Steps that run as others do from every reader. -/
theorem GoesOn.of_run_eq {p p' q q' : Step α} (h : GoesOn next more n n' q q')
    (hp : ∀ r, p.run r = q.run r) (hp' : ∀ r, p'.run r = q'.run r) :
    GoesOn next more n n' p p' := by
  constructor
  · intro r r' hr hn hn'
    rw [hp, hp']
    exact h.longer r r' hr hn hn'
  · intro r hr
    rw [hp]
    exact h.ended r hr

theorem goesOn_zero_left {p p' : Step α} (hp : Ending p) : GoesOn next more 0 n' p p' := by
  refine ⟨fun r r' hr hn _ => ?_, hp⟩
  exact absurd hn (Nat.not_le.mpr hr.ahead.length_pos.1)

theorem goesOn_zero_right {p p' : Step α} (hp : Ending p) : GoesOn next more n 0 p p' := by
  refine ⟨fun r r' hr _ hn' => ?_, hp⟩
  exact absurd hn' (Nat.not_le.mpr hr.ahead.length_pos.2)

/-- A recursion that is bounded by the lexemes ahead. -/
theorem goesOn_rounds {f f' : Nat → Step α} (hzero : Ending (f 0))
    (hsucc : ∀ n n', GoesOn next more n n' (f n) (f' n') →
      GoesOn next more (n + 1) (n' + 1) (f (n + 1)) (f' (n' + 1))) (n n' : Nat) :
    GoesOn next more n n' (f n) (f' n') := by
  induction n generalizing n' with
  | zero => exact goesOn_zero_left hzero
  | succ n ih =>
      cases n' with
      | zero => exact goesOn_zero_right (hsucc n 0 (ih 0)).ended
      | succ n' => exact hsucc n n' (ih n')

/-! ## What is settled between two tokens -/

/-- A step that looks at no token.  It is refused for nothing but what was read. -/
structure Settles (q : Step α) (f : Compilation → Except Refusal (α × Compilation)) : Prop where
  /-- It goes by what is compiled. -/
  run : ∀ r : Reader, q.run r = (f r.done).map fun x => (x.1, readerAt x.2 [] r)
  /-- Why it is refused. -/
  late : ∀ c e, f c = .error e → e.Late

theorem settles_pure (a : α) : Settles (pure a) fun c => .ok (a, c) :=
  ⟨fun _ => rfl, fun _ _ h => nomatch h⟩

theorem settles_note (finding : Finding) (span : Span) :
    Settles (note finding span) fun c => .ok ((), c.noting [⟨finding, span⟩]) :=
  ⟨fun _ => rfl, fun _ _ h => nomatch h⟩

theorem settles_resolve (name : Spanned String) : Settles (resolve name) fun c =>
    match c.world.findFactor? name.node with
    | some f => .ok (f, c)
    | none => .error (.fault ⟨.undefinedFactor name.node (c.world.closest? name.node),
        name.span⟩) := by
  constructor
  · intro r
    show _ = Except.map _ (match r.world.findFactor? name.node with | some f => _ | none => _)
    cases hf : r.world.findFactor? name.node with
    | some f => exact run_resolve_of_some hf
    | none => exact run_resolve_of_none hf
  · intro c e he
    cases hf : c.world.findFactor? name.node with
    | some f =>
        rw [hf] at he
        cases he
    | none =>
        rw [hf] at he
        cases he
        exact nofun

theorem settles_declareFactor (name : Spanned String) (values : List (Spanned Value)) :
    Settles (declareFactor name values) fun c =>
      match c.world.addFactor name.node (values.map Spanned.node) with
      | .ok (_, world) =>
          .ok ((), { c.noting (repetitions name.node [] values) with world := world })
      | .error (.duplicateFactor _) => .error (.fault ⟨.duplicateFactor name.node, name.span⟩)
      | .error (.emptyFactor _) => .error (.fault ⟨.emptyFactor name.node, name.span⟩)
      | .error cause => .error (.model cause) := by
  constructor
  · intro r
    simp only [declareFactor, StateT.run_bind, StateT.run_modify, StateT.run_get, pure_bind]
    show _ = Except.map _ (match r.world.addFactor name.node (values.map Spanned.node) with
      | .ok (_, world) => _ | .error (.duplicateFactor _) => _ | .error (.emptyFactor _) => _
      | .error cause => _)
    cases r.world.addFactor name.node (values.map Spanned.node) with
    | ok added => rfl
    | error cause => cases cause <;> rfl
  · intro c e he
    cases hadd : c.world.addFactor name.node (values.map Spanned.node) with
    | ok added =>
        rw [hadd] at he
        cases he
    | error cause =>
        rw [hadd] at he
        cases cause <;> cases he <;> exact nofun

theorem settles_declareTransition (label : String) (condition : Condition) (schedule : Schedule)
    (told : String) (es : List (FactorId × Value)) :
    Settles (declareTransition label condition schedule told es) fun c =>
      match c.world.addTransition label condition schedule told es with
      | .ok (_, world) => .ok ((), { c with world := world })
      | .error cause => .error (.model cause) := by
  constructor
  · intro r
    simp only [declareTransition, StateT.run_bind, StateT.run_get, pure_bind]
    show _ = Except.map _ (match r.world.addTransition label condition schedule told es with
      | .ok (_, world) => _ | .error cause => _)
    cases r.world.addTransition label condition schedule told es with
    | ok added => rfl
    | error cause => rfl
  · intro c e he
    cases hadd : c.world.addTransition label condition schedule told es with
    | ok added =>
        rw [hadd] at he
        cases he
    | error cause =>
        rw [hadd] at he
        cases he
        exact nofun

section Settles

variable {q : Step α} {f : Compilation → Except Refusal (α × Compilation)}
  {g g' : α → Step β}

theorem Settles.run_bind (hq : Settles q f) (r : Reader) :
    (q >>= g).run r = (f r.done).bind fun x => (g x.1).run (readerAt x.2 [] r) := by
  rw [StateT.run_bind, hq.run]
  cases f r.done <;> rfl

/-- What is settled is settled alike where the second reader goes on. -/
theorem Settles.longer (hq : Settles q f) (hg : ∀ a, GoesOn next more n n' (g a) (g' a))
    {r r' : Reader} (hr : r.GoOn next more r') (hn : r.ahead.length ≤ n)
    (hn' : r'.ahead.length ≤ n') :
    Fate next more r.ahead.length r'.ahead.length ((q >>= g).run r) ((q >>= g').run r') := by
  rw [hq.run_bind, hq.run_bind, ← hr.done]
  cases f r.done with
  | ok x =>
      have hafter : (readerAt x.2 [] r).GoOn next more (readerAt x.2 [] r') :=
        ⟨hr.current, hr.ahead, rfl⟩
      exact (hg x.1).longer _ _ hafter hn hn'
  | error e => exact .error

/-- A step that only looks at what is compiled and is never refused. -/
theorem Settles.goesOn (hq : Settles q f) (hok : ∀ c, ∃ x, f c = .ok x) :
    GoesOn next more n n' q q := by
  constructor
  · intro r r' hr _ _
    obtain ⟨x, hx⟩ := hok r.done
    rw [hq.run, hq.run, ← hr.done, hx]
    have hafter : (readerAt x.2 [] r).GoOn next more (readerAt x.2 [] r') :=
      ⟨hr.current, hr.ahead, rfl⟩
    exact .ok hafter (Nat.le_refl _) (Nat.le_refl _)
  · intro r hr
    obtain ⟨x, hx⟩ := hok r.done
    rw [hq.run, hx]
    exact .ok ⟨hr.current, hr.ahead⟩

/-- A token is passed, and something is settled before others are. -/
theorem fate_pass_settle (hq : Settles q f) (hg : ∀ a, GoesOn next more n n' (g a) (g' a))
    {r r' : Reader} (hr : r.GoOn next more r') (hn : r.ahead.length ≤ n + 1)
    (hn' : r'.ahead.length ≤ n' + 1) :
    Fate next more r.ahead.length r'.ahead.length ((do let _ ← pass; q >>= g : Step β).run r)
      ((do let _ ← pass; q >>= g' : Step β).run r') := by
  obtain ⟨cur, ahead, w, fs, ds⟩ := r
  obtain ⟨cur', ahead', w', fs', ds'⟩ := r'
  obtain ⟨hcurrent, hahead, hdone⟩ := hr
  cases hcurrent
  cases hdone
  cases hahead with
  | @same l ls ms h =>
      obtain ⟨node, span⟩ := l
      cases node with
      | token t =>
          let s (ahead : List Lexeme) : Reader := ⟨⟨t, span⟩, ahead, w, fs, ds⟩
          have hs : (s ls).GoOn next more (s ms) := ⟨rfl, h, rfl⟩
          exact (hq.longer hg hs (Nat.le_of_succ_le_succ hn) (Nat.le_of_succ_le_succ hn')).mono
            (Nat.le_succ _) (Nat.le_succ _)
      | fault f => exact .error
  | finish span =>
      -- the first looks at the end, and the second at the lexeme that is next
      let s : Reader := ⟨⟨.finish, span⟩, [], w, fs, ds⟩
      show Fate _ _ _ _ ((q >>= g).run s) _
      rw [hq.run_bind]
      cases hsettled : f s.done with
      | ok x => exact .stops ((hg x.1).ended _ ⟨rfl, rfl⟩)
      | error e =>
          obtain ⟨node, span'⟩ := next
          cases node with
          | token t =>
              let s' : Reader := ⟨⟨t, span'⟩, more, w, fs, ds⟩
              have hsame : (q >>= g').run s' = .error e := by
                rw [hq.run_bind, show s'.done = s.done from rfl, hsettled]
                rfl
              show Fate _ _ _ _ (.error e) ((q >>= g').run s')
              rw [hsame]
              exact .error
          | fault f => exact .late (hq.late _ _ hsettled) rfl
  | unclosed => exact .stops (.error ⟨_, _, rfl⟩)

end Settles

/-! ## Single steps -/

theorem goesOn_pure (a : α) : GoesOn next more n n' (pure a) (pure a) :=
  (settles_pure a).goesOn fun _ => ⟨_, rfl⟩

theorem goesOn_note (finding : Finding) (span : Span) :
    GoesOn next more n n' (note finding span) (note finding span) :=
  (settles_note finding span).goesOn fun _ => ⟨_, rfl⟩

theorem ending_unexpected (expected : String) : Ending (unexpected expected : Step α) := by
  intro r hr
  refine .error ⟨expected, r.current.span, ?_⟩
  rw [hr.current]
  rfl

theorem goesOn_unexpected (expected : String) :
    GoesOn next more n n' (unexpected expected : Step α) (unexpected expected) := by
  refine ⟨fun r r' hr _ _ => ?_, ending_unexpected expected⟩
  have hsame : (unexpected expected : Step α).run r = (unexpected expected).run r' := by
    show Except.error _ = Except.error _
    rw [hr.current]
  rw [hsame]
  exact .error

theorem goesOn_look {f f' : Token → Step α} (hf : ∀ t, GoesOn next more n n' (f t) (f' t)) :
    GoesOn next more n n' (look >>= f) (look >>= f') := by
  constructor
  · intro r r' hr hn hn'
    have hsame : (look >>= f').run r' = (f' r.current.node).run r' := by
      rw [hr.current]
      rfl
    rw [hsame]
    exact (hf r.current.node).longer r r' hr hn hn'
  · intro r hr
    exact (hf r.current.node).ended r hr

/-- A step that depends on the number of lexemes ahead. -/
theorem goesOn_ahead {f f' : Nat → Step α}
    (hf : ∀ m ≤ n, ∀ m' ≤ n', GoesOn next more m m' (f m) (f' m')) (hend : ∀ m, Ending (f m)) :
    GoesOn next more n n' (do f (← get).ahead.length) (do f' (← get).ahead.length) := by
  constructor
  · intro r r' hr hn hn'
    exact (hf _ hn _ hn').longer r r' hr (Nat.le_refl _) (Nat.le_refl _)
  · intro r hr
    exact hend r.ahead.length r hr

/-- Behind a token that was passed there is less ahead. -/
theorem GoesOn.pass_bind {f f' : Span → Step α}
    (hf : ∀ span, GoesOn next more n n' (f span) (f' span)) :
    GoesOn next more (n + 1) (n' + 1) (pass >>= f) (pass >>= f') := by
  have hrun (f : Span → Step α) (r : Reader) : (pass >>= f).run r =
      (do let _ ← pass; pure r.current.span >>= f : Step α).run r := by
    rw [StateT.run_bind, StateT.run_bind, run_pass]
    cases r.next <;> rfl
  constructor
  · intro r r' hr hn hn'
    rw [hrun f, hrun f', ← hr.current]
    exact fate_pass_settle (settles_pure r.current.span) hf hr hn hn'
  · intro r hr
    obtain ⟨cur, ahead, w, fs, ds⟩ := r
    obtain rfl := hr.ahead
    exact (hf cur.span).ended _ hr

theorem goesOn_pass : GoesOn next more n n' pass pass := by
  have hpure : GoesOn next more (n + 1) (n' + 1) (pass >>= pure) (pass >>= pure) :=
    GoesOn.pass_bind goesOn_pure
  rw [bind_pure] at hpure
  exact hpure.fewer

section Picks

variable {p : Step α} {pick : Spanned Token → Option α} {expected : String}

/-- A token is picked, and something is settled before other tokens are looked at. -/
theorem Picks.goesOn_settle_bind (hp : Picks p pick expected)
    (hpick : ∀ span, pick ⟨.finish, span⟩ = none) {q : α → Step β}
    {f : α → Compilation → Except Refusal (β × Compilation)} (hq : ∀ a, Settles (q a) (f a))
    {g g' : α → β → Step γ} (hg : ∀ a b, GoesOn next more n n' (g a b) (g' a b)) :
    GoesOn next more (n + 1) (n' + 1) (p >>= fun a => q a >>= g a)
      (p >>= fun a => q a >>= g' a) := by
  have hsome (g : α → β → Step γ) {r : Reader} {a : α} (ha : pick r.current = some a) :
      (p >>= fun a => q a >>= g a).run r = (do let _ ← pass; q a >>= g a : Step γ).run r := by
    have hpicked : p.run r = (do let _ ← pass; return a : Step α).run r := by rw [hp, ha]
    rw [StateT.run_bind, hpicked, StateT.run_bind, StateT.run_bind, run_pass]
    cases r.next <;> rfl
  have hnone (g : α → β → Step γ) {r : Reader} (h : pick r.current = none) :
      (p >>= fun a => q a >>= g a).run r = (unexpected expected : Step γ).run r := by
    have hrefused : p.run r = (unexpected expected : Step α).run r := by rw [hp, h]
    rw [StateT.run_bind, hrefused]
    rfl
  constructor
  · intro r r' hr hn hn'
    cases ha : pick r.current with
    | some a =>
        rw [hsome g ha, hsome g' (hr.current ▸ ha)]
        exact fate_pass_settle (hq a) (hg a) hr hn hn'
    | none =>
        rw [hnone g ha, hnone g' (hr.current ▸ ha)]
        exact (goesOn_unexpected expected).longer r r' hr hn hn'
  · intro r hr
    have hend : pick r.current = none := by
      rw [← hpick r.current.span, ← hr.current]
    rw [hnone g hend]
    exact ending_unexpected expected r hr

/-- Behind a token that was picked there is less ahead. -/
theorem Picks.goesOn_bind (hp : Picks p pick expected)
    (hpick : ∀ span, pick ⟨.finish, span⟩ = none) {g g' : α → Step γ}
    (hg : ∀ a, GoesOn next more n n' (g a) (g' a)) :
    GoesOn next more (n + 1) (n' + 1) (p >>= g) (p >>= g') := by
  have hpure := hp.goesOn_settle_bind hpick settles_pure fun _ b => hg b
  simpa only [pure_bind] using hpure

/-- A token is picked, and something is settled. -/
theorem Picks.goesOn_settle (hp : Picks p pick expected)
    (hpick : ∀ span, pick ⟨.finish, span⟩ = none) {q : α → Step β}
    {f : α → Compilation → Except Refusal (β × Compilation)} (hq : ∀ a, Settles (q a) (f a)) :
    GoesOn next more n n' (p >>= q) (p >>= q) := by
  have hpure : GoesOn next more (n + 1) (n' + 1) (p >>= fun a => q a >>= pure)
      (p >>= fun a => q a >>= pure) :=
    hp.goesOn_settle_bind hpick hq fun _ => goesOn_pure
  simp only [bind_pure] at hpure
  exact hpure.fewer

theorem Picks.goesOn (hp : Picks p pick expected)
    (hpick : ∀ span, pick ⟨.finish, span⟩ = none) : GoesOn next more n n' p p := by
  have hpure : GoesOn next more n n' (p >>= pure) (p >>= pure) :=
    hp.goesOn_settle hpick settles_pure
  rwa [bind_pure] at hpure

end Picks

theorem goesOn_expect {t : Token} (ht : t ≠ .finish) :
    GoesOn next more n n' (expect t) (expect t) :=
  (picks_expect t).goesOn fun _ => if_neg fun h => ht h.symm

theorem goesOn_word (expected : String) : GoesOn next more n n' (word expected) (word expected) :=
  (picks_word expected).goesOn fun _ => rfl

theorem goesOn_text (expected : String) : GoesOn next more n n' (text expected) (text expected) :=
  (picks_text expected).goesOn fun _ => rfl

theorem goesOn_value : GoesOn next more n n' value value :=
  picks_value.goesOn fun _ => rfl

/-! ## Repetition -/

theorem ending_further (separator : Mark) (item : Step α) (n : Nat) :
    Ending (further separator item n) := by
  intro r hr
  cases n with
  | zero => exact .ok hr
  | succ n =>
      have hnone : (further separator item (n + 1)).run r = .ok ([], r) := by
        show (if r.current.node = .mark separator then _ else _ : Step (List α)).run r = _
        rw [hr.current, if_neg (by simp)]
        rfl
      rw [hnone]
      exact .ok hr

theorem goesOn_further (separator : Mark) {item item' : Step α}
    (hitem : GoesOn next more n n' item item') :
    GoesOn next more n n' (further separator item n) (further separator item' n') := by
  induction n generalizing n' with
  | zero => exact goesOn_zero_left (ending_further separator item 0)
  | succ n ih =>
      cases n' with
      | zero => exact goesOn_zero_right (ending_further separator item (n + 1))
      | succ n' =>
          refine goesOn_look fun t => ?_
          split
          · exact GoesOn.pass_bind fun _ => hitem.fewer.bind fun a => (ih hitem.fewer).bind
              fun as => goesOn_pure (a :: as)
          · exact goesOn_pure []

theorem goesOn_separated (separator : Mark) {item item' : Step α}
    (hitem : GoesOn next more n n' item item') :
    GoesOn next more n n' (separated separator item) (separated separator item') := by
  refine hitem.bind fun a => ?_
  have hmore (m : Nat) (hm : m ≤ n) (m' : Nat) (hm' : m' ≤ n') : GoesOn next more m m' (do
      let as ← further separator item m
      return a :: as) (do
      let as ← further separator item' m'
      return a :: as) :=
    (goesOn_further separator (hitem.mono hm hm')).bind fun as => goesOn_pure (a :: as)
  exact goesOn_ahead hmore fun m =>
    (ending_further separator item m).bind fun as r hr => .ok hr

/-! ## Conditions -/

/-- The factor is looked up before the token behind its name. -/
theorem goesOn_test : GoesOn next more n n' test test := by
  refine GoesOn.fewer ((picks_word _).goesOn_settle_bind (fun _ => rfl) settles_resolve
    fun name factor => (goesOn_expect (by simp)).bind fun _ => goesOn_value.bind fun v => ?_)
  split
  · exact (goesOn_note _ _).bind fun _ => goesOn_pure _
  · exact goesOn_pure _

theorem goesOn_term {nested nested' : Step Condition}
    (hnested : GoesOn next more n n' nested nested') :
    GoesOn next more (n + 1) (n' + 1) (term nested) (term nested') := by
  refine goesOn_look fun t => ?_
  split
  · exact GoesOn.pass_bind fun _ => hnested.bind fun c => (goesOn_expect (by simp)).bind fun _ =>
      goesOn_pure c
  · exact goesOn_test

theorem goesOn_conditionWithin (n n' : Nat) :
    GoesOn next more n n' (conditionWithin n) (conditionWithin n') := by
  refine goesOn_rounds (ending_unexpected _) (fun n n' hnested => ?_) n n'
  have hclause := (goesOn_separated .pipe (goesOn_term hnested)).bind fun terms =>
    goesOn_pure (Condition.any terms)
  exact (goesOn_separated .ampersand hclause).bind fun clauses =>
    goesOn_pure (Condition.all clauses)

theorem goesOn_condition : GoesOn next more n n' condition condition := by
  have hwithin (m m' : Nat) :
      GoesOn next more m m' (conditionWithin (m + 1)) (conditionWithin (m' + 1)) :=
    (goesOn_conditionWithin (m + 1) (m' + 1)).fewer
  exact goesOn_ahead (fun m _ m' _ => hwithin m m') fun m => (hwithin m m).ended

/-! ## Schedules and effects -/

theorem goesOn_probability : GoesOn next more n n' probability probability := by
  refine GoesOn.of_run_eq (GoesOn.bind (picks_chance.goesOn fun _ => rfl) fun x => ?_)
    run_probability run_probability
  split
  · exact (goesOn_note _ _).bind fun _ => goesOn_pure _
  · exact goesOn_pure _

theorem goesOn_schedule : GoesOn next more n n' schedule schedule := by
  refine goesOn_look fun t => ?_
  split
  · exact goesOn_pass.bind fun _ => goesOn_probability.bind fun _ => goesOn_pure _
  · exact goesOn_pass.bind fun _ => (goesOn_expect (by simp)).bind fun _ =>
      (goesOn_text _).bind fun _ => goesOn_pure _
  · exact goesOn_unexpected _

/-- The factor is looked up before the token behind its name. -/
theorem goesOn_effect : GoesOn next more n n' effect effect := by
  refine GoesOn.fewer ((picks_word _).goesOn_settle_bind (fun _ => rfl) settles_resolve
    fun name factor => (goesOn_expect (by simp)).bind fun _ =>
    (goesOn_expect (by simp)).bind fun _ => goesOn_value.bind fun v => ?_)
  split
  · exact (goesOn_note _ _).bind fun _ => goesOn_pure _
  · exact goesOn_pure _

theorem goesOn_effects : GoesOn next more n n' effects effects := by
  refine goesOn_look fun t => ?_
  split
  · exact goesOn_pass.bind fun _ => (goesOn_separated .comma goesOn_effect).bind fun es =>
      (goesOn_expect (by simp)).bind fun _ => goesOn_pure es
  · exact goesOn_effect.bind fun _ => goesOn_pure _

/-! ## Blocks -/

theorem goesOn_transitionName : GoesOn next more n n' transitionName transitionName := by
  refine goesOn_look fun t => ?_
  split
  · exact (goesOn_word _).bind fun _ => goesOn_pure _
  · exact goesOn_pure _

theorem goesOn_transitionText : GoesOn next more n n' transitionText transitionText := by
  refine goesOn_look fun t => ?_
  split
  · exact goesOn_pass.bind fun _ => (goesOn_text _).bind fun _ => goesOn_pure _
  · exact goesOn_pure _

section Blocks

variable {p p' : Step Unit}

/-- What begins with a token that it passes leaves less ahead for what follows. -/
theorem goesOn_behind {t : Token} (ht : t ≠ .finish) {rest : Span → Step Unit}
    (hrest : ∀ span, GoesOn next more n n' (rest span) (rest span))
    (hp : GoesOn next more n n' p p') :
    GoesOn next more (n + 1) (n' + 1) (do expect t >>= rest; p) (do expect t >>= rest; p') := by
  rw [bind_assoc, bind_assoc]
  exact (picks_expect t).goesOn_bind (fun _ => if_neg fun h => ht h.symm) fun span =>
    (hrest span).bind fun _ => hp

/-- A factor is declared before the token behind its last parenthesis. -/
theorem goesOn_factorBlock (hp : GoesOn next more n n' p p') :
    GoesOn next more (n + 1) (n' + 1) (do factorBlock; p) (do factorBlock; p') :=
  goesOn_behind (by simp) (fun _ => (goesOn_word _).bind fun name =>
    (goesOn_expect (by simp)).bind fun _ => (goesOn_expect (by simp)).bind fun _ =>
    (goesOn_separated .comma goesOn_value).bind fun values =>
    (picks_expect _).goesOn_settle (fun _ => rfl) fun _ => settles_declareFactor name values) hp

theorem goesOn_transitionRest (label : String) :
    GoesOn next more n n' (transitionRest label) (transitionRest label) :=
  (goesOn_expect (by simp)).bind fun _ => (goesOn_expect (by simp)).bind fun _ =>
    goesOn_condition.bind fun c => (goesOn_expect (by simp)).bind fun _ =>
    goesOn_schedule.bind fun s => (goesOn_expect (by simp)).bind fun _ =>
    goesOn_effects.bind fun es => goesOn_transitionText.bind fun told =>
    (picks_expect _).goesOn_settle (fun _ => rfl) fun _ =>
      settles_declareTransition label c s told es

theorem goesOn_transitionBlock (hp : GoesOn next more n n' p p') :
    GoesOn next more (n + 1) (n' + 1) (do transitionBlock; p) (do transitionBlock; p') := by
  rw [transitionBlock_eq]
  exact goesOn_behind (by simp) (fun _ => goesOn_transitionName.bind goesOn_transitionRest) hp

theorem goesOn_descriptionBlock (hp : GoesOn next more n n' p p') :
    GoesOn next more (n + 1) (n' + 1) (do descriptionBlock; p) (do descriptionBlock; p') := by
  have hlast (d : Description) : Settles
      (modify fun r => { r with descriptions := r.descriptions ++ [d] } : Step Unit)
      fun c => .ok ((), { c with descriptions := c.descriptions ++ [d] }) :=
    ⟨fun _ => rfl, fun _ _ h => nomatch h⟩
  exact goesOn_behind (by simp) (fun _ => (goesOn_expect (by simp)).bind fun _ =>
    (goesOn_expect (by simp)).bind fun _ => goesOn_condition.bind fun c =>
    (goesOn_expect (by simp)).bind fun _ => (goesOn_text _).bind fun told =>
    (goesOn_expect (by simp)).bind fun _ => (hlast _).goesOn fun _ => ⟨_, rfl⟩) hp

end Blocks

/-- Blocks up to the end of a story, of which the second goes on. -/
theorem goesOn_blocks (n n' : Nat) : GoesOn next more n n' (blocks n) (blocks n') := by
  have hzero : Ending (blocks 0) := fun _ hr => .ok hr
  refine goesOn_rounds hzero (fun n n' hblocks => goesOn_look fun t => ?_) n n'
  split
  · exact goesOn_factorBlock hblocks
  · exact goesOn_transitionBlock hblocks
  · exact goesOn_descriptionBlock hblocks
  · exact goesOn_pure ()
  · exact goesOn_unexpected _

end Reading

end Storyworld
