import PageCompiler.Random
import PageCompiler.Text

/-!
# Generated identifiers

Identifiers of elements and names of classes are issued from two counters that share one random
stream. A sequential token carries the counter, so that no two tokens of one kind are equal; its
random ending only keeps it from being guessed. A random token is drawn again while it has been
issued before.
-/

namespace PageCompiler.Identifier

/-- How tokens are shaped. -/
inductive Strategy where
  | sequential
  | random
deriving DecidableEq

/-- The characters of random endings. -/
def alphabet : Text :=
  "0123456789abcdefghijklmnopqrstuvwxyz".toList

/-- Draws a number of characters from the alphabet. -/
def letters : Nat → Random.Stream → Text × Random.Stream
  | 0, stream => ([], stream)
  | count + 1, stream =>
    let (position, stream) := stream.below alphabet.length
    let (rest, stream) := letters count stream
    (alphabet.getD position '0' :: rest, stream)

/-- Number of random characters at the end of a sequential token. -/
def endingLength : Nat := 4

/-- Number of random characters of a random token. -/
def tokenLength : Nat := 6

/-- The tokens of one kind: what they start with, how many were issued, and the random ones. -/
structure Series where
  stem : Text
  count : Nat := 0
  issued : List Text := []

/-- Number of times that a random token is drawn again, far more than ever happens. -/
def redrawLimit : Nat := 4096

/-- A token that is no random token, for a series whose draws all failed. -/
def spareToken (number : Nat) : Text :=
  '_' :: '_' :: Text.ofNat number

/-- Draws a random token that was not issued before; after too many draws the spare token of the
series' number is taken. -/
def freshToken (issued : List Text) (number : Nat) : Nat → Random.Stream → Text × Random.Stream
  | 0, stream => (spareToken number, stream)
  | attempts + 1, stream =>
    let (drawn, stream) := letters tokenLength stream
    let token := '_' :: drawn
    if issued.contains token then freshToken issued number attempts stream else (token, stream)

/-- Issues the next token of a series. -/
def Series.next (strategy : Strategy) (series : Series) (stream : Random.Stream) :
    Text × Series × Random.Stream :=
  let number := series.count + 1
  match strategy with
  | .sequential =>
    let (ending, stream) := letters endingLength stream
    (series.stem ++ ['-'] ++ Text.ofNat number ++ ['-'] ++ ending,
      { series with count := number }, stream)
  | .random =>
    let (token, stream) := freshToken series.issued number redrawLimit stream
    (token, { series with count := number, issued := token :: series.issued }, stream)

/-- The two series of tokens and the stream they share. -/
structure Allocator where
  strategy : Strategy
  elements : Series
  classes : Series
  stream : Random.Stream

namespace Allocator

/-- An allocator that has issued nothing. -/
def new (strategy : Strategy) (elementStem classStem : Text) (seed : UInt64) : Allocator :=
  { strategy, elements := { stem := elementStem }, classes := { stem := classStem },
    stream := Random.Stream.ofSeed seed }

/-- Issues an element identifier. -/
def element (allocator : Allocator) : Text × Allocator :=
  let (token, elements, stream) := allocator.elements.next allocator.strategy allocator.stream
  (token, { allocator with elements, stream })

/-- Issues a class name. -/
def className (allocator : Allocator) : Text × Allocator :=
  let (token, classes, stream) := allocator.classes.next allocator.strategy allocator.stream
  (token, { allocator with classes, stream })

end Allocator

end PageCompiler.Identifier
