/-!
# Random draws

A reproducible stream of random words: the ChaCha cipher with twelve rounds, a zero nonce, and a
key that is spread out from a seed by a linear generator. A draw below a bound multiplies a word
by the bound and keeps the upper half of the product, unless the lower half is in the zone that
would favour some results; then the next word is tried.
-/

namespace PageCompiler.Random

/-- The bits of a word moved up by `count`, the ones that fall off coming in below. -/
def rotatedLeft (word count : UInt32) : UInt32 :=
  (word <<< count) ||| (word >>> (32 - count))

/-- The bits of a word moved down by `count`, the ones that fall off coming in above. -/
def rotatedRight (word count : UInt32) : UInt32 :=
  (word >>> count) ||| (word <<< (32 - count))

/-- One step of the generator that spreads out a seed. -/
def spreadStep (state : UInt64) : UInt64 :=
  state * 6364136223846793005 + 11634580027462260723

/-- The word that the spreading generator gives in a state. -/
def spreadWord (state : UInt64) : UInt32 :=
  rotatedRight (((state >>> 18) ^^^ state) >>> 27).toUInt32 (state >>> 59).toUInt32

/-- The first `count` words spread out from a state. -/
def spread : Nat → UInt64 → List UInt32
  | 0, _ => []
  | count + 1, state => spreadWord (spreadStep state) :: spread count (spreadStep state)

/-- The words of a cipher block. -/
abbrev Block := Array UInt32

/-- The word at a position of a block. -/
def Block.word (block : Block) (position : Nat) : UInt32 :=
  block.getD position 0

/-- A quarter round on four words of a block. -/
def quarterRound (block : Block) (a b c d : Nat) : Block :=
  let x := block.word a + block.word b
  let w := rotatedLeft (block.word d ^^^ x) 16
  let z := block.word c + w
  let y := rotatedLeft (block.word b ^^^ z) 12
  let x := x + y
  let w := rotatedLeft (w ^^^ x) 8
  let z := z + w
  let y := rotatedLeft (y ^^^ z) 7
  (((block.setIfInBounds a x).setIfInBounds b y).setIfInBounds c z).setIfInBounds d w

/-- A round on the columns and one on the diagonals. -/
def doubleRound (block : Block) : Block :=
  let block := quarterRound block 0 4 8 12
  let block := quarterRound block 1 5 9 13
  let block := quarterRound block 2 6 10 14
  let block := quarterRound block 3 7 11 15
  let block := quarterRound block 0 5 10 15
  let block := quarterRound block 1 6 11 12
  let block := quarterRound block 2 7 8 13
  quarterRound block 3 4 9 14

/-- The words that every block starts with. -/
def leadingWords : List UInt32 :=
  [0x61707865, 0x3320646e, 0x79622d32, 0x6b206574]

/-- The block that the rounds start from. -/
def startBlock (key : List UInt32) (counter : UInt64) : Block :=
  (leadingWords ++ key ++
    [counter.toUInt32, (counter >>> 32).toUInt32, 0, 0]).toArray

/-- A block of the key stream. -/
def keyBlock (key : List UInt32) (counter : UInt64) : Block :=
  let start := startBlock key counter
  Array.zipWith (· + ·) start ((doubleRound ∘ doubleRound ∘ doubleRound ∘ doubleRound ∘ doubleRound ∘
    doubleRound) start)

/-- Neighbouring words joined into one, the lower half first. -/
def paired : List UInt32 → List UInt64
  | low :: high :: rest => (high.toUInt64 <<< 32 ||| low.toUInt64) :: paired rest
  | _ => []

/-- The key stream from a point on: the words of the current block that are left, and the number
of the next block. -/
structure Stream where
  key : List UInt32
  counter : UInt64 := 0
  pending : List UInt64 := []

namespace Stream

/-- The stream for a seed. -/
def ofSeed (seed : UInt64) : Stream :=
  { key := spread 8 seed }

/-- The next word, and the stream after it. -/
def next (stream : Stream) : UInt64 × Stream :=
  match stream.pending with
  | word :: rest => (word, { stream with pending := rest })
  | [] =>
    match paired (keyBlock stream.key stream.counter).toList with
    | word :: rest => (word, { stream with counter := stream.counter + 1, pending := rest })
    | [] => (0, stream)

/-- The largest lower half that a draw below `bound` accepts: the greatest multiple of the bound by
a power of two below the word size, less one. -/
def acceptedZone (bound : Nat) : Nat :=
  bound * Nat.pow 2 (63 - bound.log2) - 1

/-- Draws a number below `bound`, trying at most `attempts` words. -/
def belowWithin (bound : Nat) : Nat → Stream → Nat × Stream
  | 0, stream => (0, stream)
  | attempts + 1, stream =>
    let (word, rest) := stream.next
    let product := word.toNat * bound
    if product % Nat.pow 2 64 ≤ acceptedZone bound then (product / Nat.pow 2 64, rest)
    else belowWithin bound attempts rest

/-- Number of words tried before a draw gives up, far more than a stream ever refuses. -/
def attemptLimit : Nat := 4096

/-- Draws a number below `bound`. -/
def below (bound : Nat) (stream : Stream) : Nat × Stream :=
  belowWithin bound attemptLimit stream

end Stream

end PageCompiler.Random
