import PageCompiler.Text
import PageCompiler.Binary64

/-!
# Numbers

A number without fraction and exponent is an integer as long as it fits 64 bits, with or without
sign; everything else is a floating point number. Minus zero is a floating point number. A number
too large for the floating point range has no value.
-/

namespace PageCompiler.Json

/-- The value of a number. -/
inductive Number where
  | integer (value : Int)
  | float (value : Binary64)
deriving DecidableEq

/-- The written form of a number, by its parts. The digits of the whole part come first, then
those after the point; `exponent` is the power of ten. -/
structure Literal where
  negative : Bool
  whole : Text
  fraction : Option Text
  exponent : Option Int

namespace Number

/-- The value of a decimal digit. -/
def digitValue (c : Char) : Nat :=
  c.toNat - '0'.toNat

/-- The largest significand that is kept while reading. -/
def significandLimit : Nat := Nat.pow 2 64 - 1

/-- Reads digits into the significand as long as it stays within the limit; the digits from the
first that does not fit on are left over. -/
def absorb (significand : Nat) : Text → Nat × Text
  | [] => (significand, [])
  | c :: rest =>
    let next := significand * 10 + digitValue c
    if next ≤ significandLimit then absorb next rest else (significand, c :: rest)

/-- A power of ten as a floating point number. -/
def powerOfTen (exponent : Nat) : Option Binary64 :=
  Binary64.nearest (Nat.pow 10 exponent) 1

/-- The number times ten to the power of `exponent`, in steps of at most 308 downwards; nothing
when it is out of range. -/
def scaledByTen (x : Binary64) (exponent : Int) : Option Binary64 :=
  if 0 ≤ exponent then
    if x.isZero then some x
    else if exponent ≤ 308 then (powerOfTen exponent.toNat).bind x.times
    else none
  else if -308 ≤ exponent then
    (powerOfTen (-exponent).toNat).bind x.dividedBy
  else if x.isZero then
    some x
  else
    (((powerOfTen 308).bind x.dividedBy)).bind fun smaller => scaledByTen smaller (exponent + 308)
termination_by (-exponent).toNat
decreasing_by omega

/-- The floating point number with the given sign, significand and power of ten. -/
def floatOf (negative : Bool) (significand : Nat) (exponent : Int) : Option Binary64 :=
  ((Binary64.nearest significand 1).bind (scaledByTen · exponent)).map fun x =>
    if negative then x.negated else x

end Number

/-- The value of a written number. -/
def Literal.value? (literal : Literal) : Option Number :=
  let (significand, dropped) := Number.absorb 0 literal.whole
  if dropped.isEmpty && literal.fraction.isNone && literal.exponent.isNone then
    if !literal.negative then some (.integer significand)
    else if 0 < significand && significand ≤ Nat.pow 2 63 then some (.integer (-significand))
    else (Number.floatOf true significand 0).map .float
  else
    let fraction := literal.fraction.getD []
    let (kept, ignored) := Number.absorb significand fraction
    let shift : Int := (dropped.length : Int) - (fraction.length - ignored.length : Nat)
    (Number.floatOf literal.negative kept (shift + literal.exponent.getD 0)).map .float

namespace Number

/-- Numbers are the same when both are integers or both are floating point numbers, with equal
values. -/
def same : Number → Number → Bool
  | .integer a, .integer b => a = b
  | .float a, .float b => a.same b
  | _, _ => false

/-- A decimal in plain notation with at least one digit after the point. -/
def plainText (digits : Text) (exponent : Int) : Text :=
  let point := digits.length + exponent
  if 0 ≤ exponent then
    digits ++ List.replicate exponent.toNat '0' ++ ['.', '0']
  else if 0 < point then
    digits.take point.toNat ++ ['.'] ++ digits.drop point.toNat
  else
    ['0', '.'] ++ List.replicate (-point).toNat '0' ++ digits

/-- A decimal with one digit before the point and a signed power of ten. -/
def scientificText (digits : Text) (exponent : Int) : Text :=
  let fraction := digits.drop 1
  digits.take 1 ++ (if fraction.isEmpty then [] else '.' :: fraction) ++ ['e'] ++
    (if exponent < 0 then ['-'] else ['+']) ++ Text.ofNat exponent.natAbs

/-- A floating point number is written with the fewest digits that read back to it: plainly from
a hundred-thousandth up to ten to the power of sixteen, otherwise with a power of ten. -/
def floatText (x : Binary64) : Text :=
  let point := x.shortest
  let digits := Text.ofNat point.digits
  let leading : Int := (digits.length : Int) + point.exponent - 1
  (if x.isNegative then ['-'] else []) ++
    if x.isZero || (-5 ≤ leading && leading < 16) then plainText digits point.exponent
    else scientificText digits leading

/-- An integer in decimal digits. -/
def integerText (value : Int) : Text :=
  if value < 0 then '-' :: Text.ofNat value.natAbs else Text.ofNat value.natAbs

/-- The written form of a number. -/
def text : Number → Text
  | .integer value => integerText value
  | .float value => floatText value

end Number

end PageCompiler.Json
