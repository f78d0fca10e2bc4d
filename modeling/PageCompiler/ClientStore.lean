import Mathlib.Data.List.Sort
import PageCompiler.Json.Printer
import PageCompiler.Json.Tree

/-!
# The client store

The client keeps the state of a page in a store of its own. Its values are those of the data format, but
all its numbers are floating point numbers, and an object lists its members in an order of its own: first
those whose keys are indices of arrays, ascending, then the others as they were written. A write of the
value that a key has already does nothing, and the store decides by `same` whether it is one.
-/

namespace PageCompiler

/-- Whether the number is neither infinite nor undefined. -/
def Binary64.isFinite (x : Binary64) : Bool :=
  x.magnitude < infinityBits

namespace ClientStore

open Json

/-! ## Numbers -/

/-- The number that the client has for a number of the data format: the nearest one. -/
def number : Number → Binary64
  | .integer value =>
    let size := (Binary64.nearest value.natAbs 1).getD ⟨.ofNat Binary64.infinityBits⟩
    if value < 0 then size.negated else size
  | .float value => value

/-- A decimal with its point after `point` digits: in full from a millionth up to ten to the power of
twenty-one, otherwise with a power of ten. -/
def decimalText (digits : Text) (point : Int) : Text :=
  if digits.length ≤ point && point ≤ 21 then
    digits ++ List.replicate (point - digits.length).toNat '0'
  else if 0 < point && point ≤ 21 then
    digits.take point.toNat ++ '.' :: digits.drop point.toNat
  else if -6 < point && point ≤ 0 then
    '0' :: '.' :: (List.replicate (-point).toNat '0' ++ digits)
  else
    Number.scientificText digits (point - 1)

/-- A number as the client writes it, with the fewest digits that read back to it. Both zeros are written
the same, and what is not finite is written as null. -/
def numberText (x : Binary64) : Text :=
  if !x.isFinite then ['n', 'u', 'l', 'l']
  else if x.isZero then ['0']
  else
    let digits := Text.ofNat x.shortest.digits
    (if x.isNegative then ['-'] else []) ++ decimalText digits (digits.length + x.shortest.exponent)

/-! ## The order of members -/

/-- The index that a key is, if it is one: the digits of a number that an array can have as an index. -/
def arrayIndex? (key : Text) : Option Nat :=
  let index := natOfDigits key
  if index < Nat.pow 2 32 - 1 && Text.ofNat index = key then some index else none

/-- Whether one key is listed before another wherever the two were written. -/
def comesBefore (first second : Text) : Bool :=
  match arrayIndex? first, arrayIndex? second with
  | some i, some j => i < j
  | some _, none => true
  | none, _ => false

/-- Members in the order in which the client lists them. -/
def listed {α : Type} (members : Entries α) : Entries α :=
  members.insertionSort fun member other => comesBefore other.1 member.1 = false

mutual

/-- A value with the members of all its objects in the order in which the client lists them. -/
def arranged : Value → Value
  | .array items => .array (arrangedItems items)
  | .object members => .object (listed (arrangedMembers members))
  | value => value

/-- Items, each one arranged. -/
def arrangedItems : List Value → List Value
  | [] => []
  | item :: rest => arranged item :: arrangedItems rest

/-- Members as they were written, with each value arranged. -/
def arrangedMembers : List (Text × Value) → List (Text × Value)
  | [] => []
  | (key, value) :: rest => (key, arranged value) :: arrangedMembers rest

end

/-! ## Written values -/

mutual

/-- A value as the client writes it, with the members of its objects as they stand. -/
def text : Value → Text
  | .null => ['n', 'u', 'l', 'l']
  | .bool true => ['t', 'r', 'u', 'e']
  | .bool false => ['f', 'a', 'l', 's', 'e']
  | .number value => numberText (number value)
  | .string value => stringText value
  | .array [] => ['[', ']']
  | .array (first :: rest) => '[' :: (text first ++ itemsText rest)
  | .object [] => ['{', '}']
  | .object ((key, value) :: rest) => '{' :: (stringText key ++ ':' :: (text value ++ membersText rest))

/-- The items after the first, and the closing bracket. -/
def itemsText : List Value → Text
  | [] => [']']
  | item :: rest => ',' :: (text item ++ itemsText rest)

/-- The members after the first, and the closing brace. -/
def membersText : List (Text × Value) → Text
  | [] => ['}']
  | (key, value) :: rest => ',' :: (stringText key ++ ':' :: (text value ++ membersText rest))

end

/-! ## Equality -/

/-- Whether the client has one value for both. Two numbers are one if they have the same pattern, which the
zeros of opposite signs do not, and an array or an object is only itself. -/
def isSame : Value → Value → Bool
  | .null, .null => true
  | .bool a, .bool b => a = b
  | .number a, .number b => number a = number b
  | .string a, .string b => a = b
  | _, _ => false

/-- Whether a value is an array or an object. -/
def isStructured : Value → Bool
  | .array _ | .object _ => true
  | _ => false

/-- Whether the store takes a write of the second value over the first for no change. Arrays and objects are
compared by their texts. -/
def same (a b : Value) : Bool :=
  isSame a b || (isStructured a && isStructured b && text (arranged a) = text (arranged b))

end ClientStore

end PageCompiler
