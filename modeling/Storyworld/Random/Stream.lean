import Storyworld.Random.Generator

/-!
# The seeded stream

The generator of a session is the ChaCha stream cipher with twelve rounds, run on
a key made from the seed.  Its words are those of the blocks numbered from zero,
sixteen to a block, in order.  A draw of 32 bits takes the next word and a draw
of 64 bits the next two, the low half first.

The key is eight words of a small congruential generator whose state is the seed
(`Seeding`).
-/

namespace Storyworld

/-! ## The key -/

namespace Seeding

/-- One step of the state. -/
def step (state : UInt64) : UInt64 := state * 6364136223846793005 + 11634580027462260723

/-- The word that a state gives: some of its high bits, turned by as many places as
the five highest say. -/
def output (state : UInt64) : UInt32 :=
  let folded : UInt32 := (((state >>> 18) ^^^ state) >>> 27).toUInt32
  let turn : UInt32 := (state >>> 59).toUInt32
  (folded >>> turn) ||| (folded <<< ((32 - turn) % 32))

/-- The words of a key, from a state on. -/
def words : Nat → UInt64 → List UInt32
  | 0, _ => []
  | n + 1, state => output (step state) :: words n (step state)

end Seeding

/-! ## The blocks -/

/-- Sixteen words: what a block is computed in. -/
abbrev Block := Vector UInt32 16

namespace Block

/-- Turn the bits of a word to the left. -/
def turnLeft (w : UInt32) (n : UInt32) : UInt32 := (w <<< n) ||| (w >>> (32 - n))

/-- Mix four words of a block. -/
def quarterRound (v : Block) (a b c d : Fin 16) : Block :=
  let v := v.set a (v[a] + v[b])
  let v := v.set d (turnLeft (v[d] ^^^ v[a]) 16)
  let v := v.set c (v[c] + v[d])
  let v := v.set b (turnLeft (v[b] ^^^ v[c]) 12)
  let v := v.set a (v[a] + v[b])
  let v := v.set d (turnLeft (v[d] ^^^ v[a]) 8)
  let v := v.set c (v[c] + v[d])
  v.set b (turnLeft (v[b] ^^^ v[c]) 7)

/-- Mix the columns and then the diagonals. -/
def doubleRound (v : Block) : Block :=
  let v := v.quarterRound 0 4 8 12
  let v := v.quarterRound 1 5 9 13
  let v := v.quarterRound 2 6 10 14
  let v := v.quarterRound 3 7 11 15
  let v := v.quarterRound 0 5 10 15
  let v := v.quarterRound 1 6 11 12
  let v := v.quarterRound 2 7 8 13
  v.quarterRound 3 4 9 14

/-- Several double rounds. -/
def rounds : Nat → Block → Block
  | 0, v => v
  | n + 1, v => rounds n v.doubleRound

/-- The block of a number, before mixing: four fixed words, the key, the number and
two words of zero. -/
def seeded (key : Vector UInt32 8) (number : UInt64) : Block :=
  #v[0x61707865, 0x3320646e, 0x79622d32, 0x6b206574,
     key[0], key[1], key[2], key[3], key[4], key[5], key[6], key[7],
     number.toUInt32, (number >>> 32).toUInt32, 0, 0]

/-- The words of the stream that a block holds: the mixed block added to itself
before mixing. -/
def keystream (key : Vector UInt32 8) (number : UInt64) : Block :=
  let start := seeded key number
  (start.rounds 6).zipWith (· + ·) start

end Block

/-! ## The generator -/

/-- A place in the stream of a key. -/
structure Stream where
  /-- The key. -/
  key : Vector UInt32 8
  /-- The number of the next block. -/
  block : UInt64
  /-- The words of the last block that have not been drawn. -/
  ready : List UInt32

namespace Stream

/-- The stream of a seed, at its beginning. -/
def ofSeed (seed : UInt64) : Stream where
  key := Vector.ofFn fun i => ((Seeding.words 8 seed)[i.val]?).getD 0
  block := 0
  ready := []

/-- The next word. -/
def next (s : Stream) : UInt32 × Stream :=
  match s.ready with
  | w :: ws => (w, { s with ready := ws })
  | [] =>
      let words := Block.keystream s.key s.block
      (words[0], { s with block := s.block + 1, ready := words.toList.drop 1 })

instance : Generator Stream where
  next32 := next
  next64 s :=
    let (low, s) := s.next
    let (high, s) := s.next
    (low.toUInt64 ||| (high.toUInt64 <<< 32), s)

end Stream

end Storyworld
