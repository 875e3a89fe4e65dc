/-!
# A seeded generator of 32-bit words

The words are the key stream of the ChaCha cipher with eight rounds, block counter and stream
number starting at zero. A 64-bit seed is stretched to the key by a permuted linear congruential
generator. Nothing here is claimed about the quality of the words.
-/
namespace AutoBattler.Random

/-! ## The stream -/

/-- Four words that a round treats alike. -/
structure Row where
  w0 : UInt32
  w1 : UInt32
  w2 : UInt32
  w3 : UInt32
deriving DecidableEq

namespace Row

def zip (f : UInt32 → UInt32 → UInt32) (r s : Row) : Row :=
  ⟨f r.w0 s.w0, f r.w1 s.w1, f r.w2 s.w2, f r.w3 s.w3⟩

def add : Row → Row → Row := zip (· + ·)

/-- Exclusive or, then every word turned left by `n` bits. -/
def xorTurn (n : UInt32) : Row → Row → Row :=
  zip fun x y => ((x ^^^ y) <<< n) ||| ((x ^^^ y) >>> (32 - n))

/-- Moves every word one place down, the first to the end. -/
def shift (r : Row) : Row := ⟨r.w1, r.w2, r.w3, r.w0⟩

def toList (r : Row) : List UInt32 := [r.w0, r.w1, r.w2, r.w3]

end Row

structure Block where
  a : Row
  b : Row
  c : Row
  d : Row
deriving DecidableEq

namespace Block

def add (s t : Block) : Block := ⟨s.a.add t.a, s.b.add t.b, s.c.add t.c, s.d.add t.d⟩

/-- The quarter round on all four columns at once. -/
def columnRound (s : Block) : Block :=
  let a := s.a.add s.b
  let d := s.d.xorTurn 16 a
  let c := s.c.add d
  let b := s.b.xorTurn 12 c
  let a := a.add b
  let d := d.xorTurn 8 a
  let c := c.add d
  let b := b.xorTurn 7 c
  ⟨a, b, c, d⟩

/-- Brings the diagonals into columns. -/
def slant (s : Block) : Block := ⟨s.a, s.b.shift, s.c.shift.shift, s.d.shift.shift.shift⟩

def straighten (s : Block) : Block := ⟨s.a, s.b.shift.shift.shift, s.c.shift.shift, s.d.shift⟩

def doubleRound (s : Block) : Block := s.columnRound.slant.columnRound.straighten

def scramble (s : Block) : Block :=
  s.add s.doubleRound.doubleRound.doubleRound.doubleRound

def words (s : Block) : List UInt32 := s.a.toList ++ s.b.toList ++ s.c.toList ++ s.d.toList

end Block

structure Key where
  low : Row
  high : Row
deriving DecidableEq

/-- The words that open every block before the key. -/
def opening : Row := ⟨0x61707865, 0x3320646e, 0x79622d32, 0x6b206574⟩

def Key.block (key : Key) (number : UInt64) : Block :=
  Block.scramble ⟨opening, key.low, key.high, ⟨number.toUInt32, (number >>> 32).toUInt32, 0, 0⟩⟩

/-! ## The seed -/

def advanceSeed (state : UInt64) : UInt64 := state * 6364136223846793005 + 11634580027462260723

/-- The word that a state of the seed sequence gives: the upper bits folded together and turned
right by the five uppermost. -/
def seedWord (state : UInt64) : UInt32 :=
  let folded := (((state >>> 18) ^^^ state) >>> 27).toUInt32
  let turn := (state >>> 59).toUInt32
  (folded >>> turn) ||| (folded <<< ((32 - turn) % 32))

def seedRow (state : UInt64) : Row × UInt64 :=
  let s0 := advanceSeed state
  let s1 := advanceSeed s0
  let s2 := advanceSeed s1
  let s3 := advanceSeed s2
  (⟨seedWord s0, seedWord s1, seedWord s2, seedWord s3⟩, s3)

def Key.ofSeed (seed : UInt64) : Key :=
  let (low, state) := seedRow seed
  ⟨low, (seedRow state).1⟩

/-! ## The generator -/

/-- `pending` holds what is left of the blocks before `nextBlock`. -/
structure Generator where
  key : Key
  nextBlock : UInt64
  pending : List UInt32
deriving DecidableEq

namespace Generator

def ofSeed (seed : Nat) : Generator := ⟨.ofSeed (.ofNat seed), 0, []⟩

def next (g : Generator) : UInt32 × Generator :=
  match g.pending with
  | word :: rest => (word, { g with pending := rest })
  | [] =>
    let words := (g.key.block g.nextBlock).words
    (words.headD 0, { g with nextBlock := g.nextBlock + 1, pending := words.tail })

end Generator

end AutoBattler.Random
