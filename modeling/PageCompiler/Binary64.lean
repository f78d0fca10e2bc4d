/-!
# Binary floating point numbers of 64 bits

A number is its bit pattern: sign, eleven bits of exponent, fifty-two bits of fraction. All
arithmetic goes through one rule, `nearest`: the exact quotient of two natural numbers is rounded
to the nearest number, a tie to the even one, and a quotient too large for the range has no
number. The decimal form is found by `shortest`: the coarsest decimal grid with a point that
rounds back to the number, and on it the nearest such point.
-/

namespace PageCompiler

/-- A binary floating point number of 64 bits, as its bit pattern. -/
structure Binary64 where
  bits : UInt64
deriving DecidableEq

namespace Binary64

/-- The quotient rounded to the nearest natural number, a tie to the even one. -/
def roundQuotient (numerator denominator : Nat) : Nat :=
  let quotient := numerator / denominator
  let twiceRest := 2 * (numerator % denominator)
  if twiceRest > denominator || (twiceRest = denominator && quotient % 2 = 1) then
    quotient + 1
  else
    quotient

/-- The quotient divided by two to the power of `exponent`, as a numerator and a denominator. -/
def scaled (numerator denominator : Nat) (exponent : Int) : Nat × Nat :=
  if 0 ≤ exponent then
    (numerator, denominator * Nat.pow 2 exponent.toNat)
  else
    (numerator * Nat.pow 2 (-exponent).toNat, denominator)

/-- The exponent of the grid on which the quotient is rounded: fifty-three binary digits, or the
finest grid there is. -/
def gridExponent (numerator denominator : Nat) : Int :=
  let estimate : Int := max ((numerator.log2 : Int) - denominator.log2 - 53) (-1074)
  let (n, d) := scaled numerator denominator estimate
  if Nat.pow 2 53 ≤ n / d then estimate + 1 else estimate

/-- The bit pattern of positive infinity; smaller patterns without a sign are the finite
numbers. -/
def infinityBits : Nat := 0x7FF * Nat.pow 2 52

/-- The number nearest to a quotient, or nothing when it is out of range. -/
def nearest (numerator denominator : Nat) : Option Binary64 :=
  if numerator = 0 then
    some ⟨0⟩
  else
    let exponent := gridExponent numerator denominator
    let (n, d) := scaled numerator denominator exponent
    let bits := (exponent + 1074).toNat * Nat.pow 2 52 + roundQuotient n d
    if bits < infinityBits then some ⟨UInt64.ofNat bits⟩ else none

/-- Whether the sign bit is set. -/
def isNegative (x : Binary64) : Bool :=
  Nat.pow 2 63 ≤ x.bits.toNat

/-- The number with the other sign. -/
def negated (x : Binary64) : Binary64 :=
  ⟨x.bits ^^^ 0x8000000000000000⟩

/-- The bit pattern without the sign. -/
def magnitude (x : Binary64) : Nat :=
  x.bits.toNat % Nat.pow 2 63

/-- Whether the number is zero, of either sign. -/
def isZero (x : Binary64) : Bool :=
  x.magnitude = 0

/-- The absolute value is `significand` times two to the power of `exponent`. -/
def significand (x : Binary64) : Nat :=
  let fraction := x.magnitude % Nat.pow 2 52
  if x.magnitude / Nat.pow 2 52 = 0 then fraction else Nat.pow 2 52 + fraction

/-- The exponent of two that belongs to `significand`. -/
def exponent (x : Binary64) : Int :=
  max ((x.magnitude / Nat.pow 2 52 : Nat) : Int) 1 - 1075

/-- The absolute value as a quotient of natural numbers. -/
def quotient (x : Binary64) : Nat × Nat :=
  let (denominator, numerator) := scaled 1 x.significand x.exponent
  (numerator, denominator)

/-- The rounded product of two absolute values. -/
def times (x y : Binary64) : Option Binary64 :=
  nearest (x.quotient.1 * y.quotient.1) (x.quotient.2 * y.quotient.2)

/-- The rounded quotient of two absolute values; the second must not be zero. -/
def dividedBy (x y : Binary64) : Option Binary64 :=
  nearest (x.quotient.1 * y.quotient.2) (x.quotient.2 * y.quotient.1)

/-- Numbers are equal when their patterns are, and both zeros are equal. -/
def same (x y : Binary64) : Bool :=
  x = y || (x.isZero && y.isZero)

/-- A point of a decimal grid: `digits` times ten to the power of `exponent`. -/
structure Point where
  digits : Nat
  exponent : Int
deriving DecidableEq

/-- The nearest point of the grid of step ten to the power of `step` that rounds to `x`; of two
points that are equally near, the even one. The numbers that round to `x` reach half a step of
its own grid up and down, a quarter down where that grid becomes finer, with the ends when the
significand is even. -/
def pointOnGrid (x : Binary64) (step : Int) : Option Point :=
  let m := x.significand
  let lower := if m = Nat.pow 2 52 && 1 < x.magnitude / Nat.pow 2 52 then 4 * m - 1 else 4 * m - 2
  let upper := 4 * m + 2
  -- Quarters of the unit of `x` are measured in multiples of `unit`, grid points in multiples of `ten`.
  let unit := (if 0 ≤ x.exponent then Nat.pow 2 x.exponent.toNat else 1) *
    (if step < 0 then Nat.pow 10 (-step).toNat else 1)
  let ten := 4 * (if 0 ≤ step then Nat.pow 10 step.toNat else 1) *
    (if x.exponent < 0 then Nat.pow 2 (-x.exponent).toNat else 1)
  let rounds := fun point : Nat =>
    0 < point && (lower * unit < point * ten || (m % 2 = 0 && lower * unit = point * ten)) &&
      (point * ten < upper * unit || (m % 2 = 0 && point * ten = upper * unit))
  let below := 4 * m * unit / ten
  let distanceBelow := 4 * m * unit - below * ten
  let distanceAbove := (below + 1) * ten - 4 * m * unit
  let preferBelow :=
    distanceBelow < distanceAbove || (distanceBelow = distanceAbove && below % 2 = 0)
  if rounds below && (preferBelow || !rounds (below + 1)) then some ⟨below, step⟩
  else if rounds (below + 1) then some ⟨below + 1, step⟩
  else none

/-- Searches the grids from `count - 345` down to `-344`. -/
def coarsestPoint (x : Binary64) : Nat → Point
  | 0 => ⟨0, 0⟩
  | count + 1 => (pointOnGrid x ((count : Int) - 344)).getD (coarsestPoint x count)

/-- The decimal with the fewest digits that rounds to the absolute value of `x`. -/
def shortest (x : Binary64) : Point :=
  if x.isZero then ⟨0, 0⟩ else coarsestPoint x 660

end Binary64

end PageCompiler
