import Storyworld.Story.Compile

/-!
# Syntax trees of stories

A tree says how the tokens of a story belong together.  `tokens` writes a tree
out, and the other functions say what it means in a universe, without a word
about how it is read.  A tree has no places.  What is found in one has, so
`found` is given the places of the tree's tokens.

A conjunction is one disjunction or more, a disjunction one term or more, and a
term in parentheses is a conjunction again.  No tree stands for the conjunction
or the disjunction of nothing.
-/

namespace Storyworld.Tree

/-! ## Places -/

/-- The place from the beginning of the first to the end of the last. -/
def around (places : List Span) : Span :=
  ⟨(places.head?.getD default).start, (places.getLast?.getD default).stop⟩

/-- The places of so many tokens behind so many others. -/
def part (skipped length : Nat) (places : List Span) : List Span :=
  (places.drop skipped).take length

/-! ## Values -/

/-- A value as it is written. -/
inductive Atom where
  | word (name : String)
  | whole (n : Nat)
deriving DecidableEq, Repr

def Atom.token : Atom → Token
  | .word name => .word name
  | .whole n => .whole n

/-- A number is the value of its decimal form. -/
def Atom.value : Atom → Value
  | .word name => ⟨name⟩
  | .whole n => ⟨toString n⟩

/-! ## One or more -/

/-- One thing or more. -/
inductive Several (T : Type) where
  | one (t : T)
  | more (t : T) (ts : Several T)
deriving DecidableEq, Repr

namespace Several

variable {T : Type}

def toList : Several T → List T
  | .one t => [t]
  | .more t ts => t :: ts.toList

/-- The things one after another, with separators between them. -/
def tokens (separator : Mark) (tokensOf : T → List Token) : Several T → List Token
  | .one t => tokensOf t
  | .more t ts => tokensOf t ++ .mark separator :: ts.tokens separator tokensOf

end Several

/-- Values between commas with their places. -/
def spannedValues : Several Atom → List Span → List (Spanned Value)
  | .one a, places => [⟨a.value, around places⟩]
  | .more a as, places => ⟨a.value, around (places.take 1)⟩ :: spannedValues as (places.drop 2)

/-! ## Conditions -/

mutual

/-- One clause or more, all of which are to hold. -/
inductive Conjunction where
  | one (clause : Disjunction)
  | and (clause : Disjunction) (rest : Conjunction)

/-- One term or more, at least one of which is to hold. -/
inductive Disjunction where
  | one (term : Term)
  | or (term : Term) (rest : Disjunction)

/-- A test of a factor, or a condition in parentheses. -/
inductive Term where
  | test (factor : String) (value : Atom)
  | group (inner : Conjunction)

end

mutual

def Conjunction.tokens : Conjunction → List Token
  | .one d => d.tokens
  | .and d c => d.tokens ++ .mark .ampersand :: c.tokens

def Disjunction.tokens : Disjunction → List Token
  | .one t => t.tokens
  | .or t d => t.tokens ++ .mark .pipe :: d.tokens

def Term.tokens : Term → List Token
  | .test factor value => [.word factor, .mark .equals, value.token]
  | .group c => .mark .openParen :: (c.tokens ++ [.mark .closeParen])

end

mutual

/-- The clauses of a conjunction, if all factors are declared. -/
def Conjunction.clauses? (u : Universe) : Conjunction → Option (List Condition)
  | .one d => (d.terms? u).map fun ts => [.any ts]
  | .and d c => do
      let ts ← d.terms? u
      let cs ← c.clauses? u
      return .any ts :: cs

/-- The terms of a disjunction, if all factors are declared. -/
def Disjunction.terms? (u : Universe) : Disjunction → Option (List Condition)
  | .one t => (t.condition? u).map fun x => [x]
  | .or t d => do
      let x ← t.condition? u
      let xs ← d.terms? u
      return x :: xs

/-- The condition that a term is, if all factors are declared. -/
def Term.condition? (u : Universe) : Term → Option Condition
  | .test factor value => (u.findFactor? factor).map fun f => .holds f.id value.value
  | .group c => (c.clauses? u).map Condition.all

end

/-- The condition that a conjunction is, if all factors are declared. -/
def Conjunction.condition? (u : Universe) (c : Conjunction) : Option Condition :=
  (c.clauses? u).map Condition.all

/-- The clause that a disjunction is, if all factors are declared. -/
def Disjunction.clause? (u : Universe) (d : Disjunction) : Option Condition :=
  (d.terms? u).map Condition.any

mutual

/-- The tests of a conjunction, from left to right. -/
def Conjunction.tests : Conjunction → List (String × Atom)
  | .one d => d.tests
  | .and d c => d.tests ++ c.tests

/-- The tests of a disjunction, from left to right. -/
def Disjunction.tests : Disjunction → List (String × Atom)
  | .one t => t.tests
  | .or t d => t.tests ++ d.tests

/-- The tests of a term, from left to right. -/
def Term.tests : Term → List (String × Atom)
  | .test factor value => [(factor, value)]
  | .group c => c.tests

end

/-- The names of the factors tested. -/
def Conjunction.names (c : Conjunction) : List String := c.tests.map Prod.fst

/-- A test is found if the factor can not hold the value. -/
def testFound (u : Universe) (factor : String) (value : Value) (places : List Span) :
    List (Spanned Finding) :=
  match u.findFactor? factor with
  | some f => if f.admits value then [] else [⟨.neverHolds factor value, around places⟩]
  | none => []

mutual

def Conjunction.found (u : Universe) : Conjunction → List Span → List (Spanned Finding)
  | .one d, places => d.found u places
  | .and d c, places =>
      d.found u (places.take d.tokens.length) ++ c.found u (places.drop (d.tokens.length + 1))

def Disjunction.found (u : Universe) : Disjunction → List Span → List (Spanned Finding)
  | .one t, places => t.found u places
  | .or t d, places =>
      t.found u (places.take t.tokens.length) ++ d.found u (places.drop (t.tokens.length + 1))

def Term.found (u : Universe) : Term → List Span → List (Spanned Finding)
  | .test factor value, places => testFound u factor value.value places
  | .group c, places => c.found u (part 1 c.tokens.length places)

end

/-! ## Schedules -/

/-- A probability as it is written. -/
inductive Chance where
  | whole (n : Nat)
  | decimal (x : Binary64)
deriving DecidableEq, Repr

def Chance.token : Chance → Token
  | .whole n => .whole n
  | .decimal x => .decimal x

def Chance.probability : Chance → Binary64
  | .whole n => .ofNat n
  | .decimal x => x

/-- A probability is found if above one. -/
def Chance.found (p : Chance) (places : List Span) : List (Spanned Finding) :=
  if p.probability.exceeds 1 0 then [⟨.aboveOne p.probability, around places⟩] else []

/-- A schedule as it is written. -/
inductive Timing where
  | spontaneous (p : Chance)
  | choice (offer : String)
deriving DecidableEq, Repr

namespace Timing

def tokens : Timing → List Token
  | .spontaneous p => [.keyword .spontaneous, p.token]
  | .choice offer => [.keyword .choice, .mark .colon, .text offer]

def schedule : Timing → Schedule
  | .spontaneous p => .spontaneous p.probability
  | .choice offer => .chosen offer

def found : Timing → List Span → List (Spanned Finding)
  | .spontaneous p, places => p.found (places.drop 1)
  | .choice _, _ => []

end Timing

/-! ## Effects -/

/-- An effect as it is written. -/
structure Change where
  factor : String
  value : Atom
deriving DecidableEq, Repr

namespace Change

def tokens (e : Change) : List Token :=
  [.word e.factor, .mark .minus, .mark .greater, e.value.token]

/-- The effect that a change is, if its factor is declared. -/
def pair? (u : Universe) (e : Change) : Option (FactorId × Value) :=
  (u.findFactor? e.factor).map fun f => (f.id, e.value.value)

/-- A change is found at its value if that is not declared for the factor. -/
def found (u : Universe) (e : Change) (places : List Span) : List (Spanned Finding) :=
  match u.findFactor? e.factor with
  | some f =>
      if f.admits e.value.value then []
      else [⟨.undeclaredValue e.value.value e.factor, around (places.drop 3)⟩]
  | none => []

/-- The effects that changes are, in their order. -/
def pairs? (u : Universe) : Several Change → Option (List (FactorId × Value))
  | .one e => (e.pair? u).map fun p => [p]
  | .more e es => do
      let p ← e.pair? u
      let ps ← pairs? u es
      return p :: ps

def foundIn (u : Universe) : Several Change → List Span → List (Spanned Finding)
  | .one e, places => e.found u places
  | .more e es, places =>
      e.found u (places.take e.tokens.length) ++ foundIn u es (places.drop (e.tokens.length + 1))

end Change

/-- The effects of a transition: one alone, or one or more in parentheses. -/
inductive Changes where
  | bare (e : Change)
  | listed (es : Several Change)
deriving DecidableEq, Repr

namespace Changes

def toList : Changes → List Change
  | .bare e => [e]
  | .listed es => es.toList

def tokens : Changes → List Token
  | .bare e => e.tokens
  | .listed es => .mark .openParen :: (es.tokens .comma Change.tokens ++ [.mark .closeParen])

def pairs? (u : Universe) : Changes → Option (List (FactorId × Value))
  | .bare e => (e.pair? u).map fun p => [p]
  | .listed es => Change.pairs? u es

def found (u : Universe) : Changes → List Span → List (Spanned Finding)
  | .bare e, places => e.found u places
  | .listed es, places =>
      Change.foundIn u es (part 1 (es.tokens .comma Change.tokens).length places)

end Changes

/-! ## Blocks -/

/-- A block of a story. -/
inductive Block where
  | factor (name : String) (values : Several Atom)
  | transition (name : Option String) (condition : Conjunction) (timing : Timing)
      (changes : Changes) (told : Option String)
  | description (condition : Conjunction) (told : String)

/-- The name of a transition, if it has one. -/
def nameTokens : Option String → List Token
  | none => []
  | some name => [.word name]

/-- The text behind the effects of a transition, if there is one. -/
def toldTokens : Option String → List Token
  | none => []
  | some content => [.mark .comma, .text content]

namespace Block

def tokens : Block → List Token
  | .factor name values =>
      [.keyword .factor, .word name, .mark .colon, .mark .openParen] ++
        values.tokens .comma (fun a => [a.token]) ++ [.mark .closeParen]
  | .transition name condition timing changes told =>
      .keyword .transition :: nameTokens name ++ [.mark .colon, .mark .openParen] ++
        condition.tokens ++ .mark .comma :: timing.tokens ++ .mark .comma :: changes.tokens ++
        toldTokens told ++ [.mark .closeParen]
  | .description condition told =>
      [.keyword .description, .mark .colon, .mark .openParen] ++ condition.tokens ++
        [.mark .comma, .text told, .mark .closeParen]

/-- The keyword that a block begins with. -/
def keyword : Block → Keyword
  | .factor .. => .factor
  | .transition .. => .transition
  | .description .. => .description

/-- The condition of a block, if it has one. -/
def condition? : Block → Option Conjunction
  | .factor .. => none
  | .transition _ condition _ _ _ => some condition
  | .description condition _ => some condition

/-- The names of the factors that a block tests or affects. -/
def uses : Block → List String
  | .factor .. => []
  | .transition _ condition _ changes _ => condition.names ++ changes.toList.map Change.factor
  | .description condition _ => condition.names

/-- The name of the factor that a block declares. -/
def declares : Block → List String
  | .factor name _ => [name]
  | _ => []

/-- The universe behind a block.  A missing name or text is empty. -/
def world? (u : Universe) : Block → Option Universe
  | .factor name values =>
      (u.addFactor name (values.toList.map Atom.value)).toOption.map Prod.snd
  | .transition name condition timing changes told => do
      let c ← condition.condition? u
      let es ← changes.pairs? u
      (u.addTransition (name.getD "") c timing.schedule (told.getD "") es).toOption.map Prod.snd
  | .description condition _ => (condition.condition? u).map fun _ => u

/-- The description that a block is. -/
def described (u : Universe) : Block → List Span → List Description
  | .description condition told, places =>
      (condition.condition? u).toList.map fun c => ⟨c, told, around places⟩
  | _, _ => []

def found (u : Universe) : Block → List Span → List (Spanned Finding)
  | .factor name values, places =>
      Reading.repetitions name [] (spannedValues values
        (part 4 (values.tokens .comma fun a => [a.token]).length places))
  | .transition name condition timing changes _, places =>
      let head := (nameTokens name).length + 3
      let middle := head + condition.tokens.length + 1
      let last := middle + timing.tokens.length + 1
      condition.found u (part head condition.tokens.length places) ++
        timing.found (part middle timing.tokens.length places) ++
        changes.found u (part last changes.tokens.length places)
  | .description condition _, places =>
      condition.found u (part 3 condition.tokens.length places)

/-- What is compiled behind a block whose tokens stand at these places. -/
def compile? (c : Compilation) (b : Block) (places : List Span) : Option Compilation :=
  (b.world? c.world).map fun u =>
    ⟨u, c.findings ++ b.found c.world places, c.descriptions ++ b.described c.world places⟩

end Block

/-! ## Stories -/

/-- The tokens of blocks one after another. -/
def tokens (blocks : List Block) : List Token := blocks.flatMap Block.tokens

/-- What is compiled behind blocks whose tokens stand at these places. -/
def compile? (c : Compilation) : List Block → List Span → Option Compilation
  | [], _ => some c
  | b :: bs, places => do
      let c ← b.compile? c (places.take b.tokens.length)
      compile? c bs (places.drop b.tokens.length)

/-- The names of the factors that blocks declare. -/
def declares (blocks : List Block) : List String := blocks.flatMap Block.declares

/-- Behind factors of the given names, every factor is declared before it is tested or
affected, and none is declared twice. -/
structure Scoped (known : List String) (blocks : List Block) : Prop where
  used : ∀ before b after, blocks = before ++ b :: after →
    ∀ name ∈ b.uses, name ∈ known ++ declares before
  once : (known ++ declares blocks).Nodup

end Storyworld.Tree
