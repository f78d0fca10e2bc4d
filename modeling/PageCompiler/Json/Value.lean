import PageCompiler.Entries
import PageCompiler.Json.Number

/-!
# Values

The values of the JSON data format. The members of an object are ordered entries: a repeated key
keeps its first place and its last value. Two values are the same when they agree up to the order
of members.
-/

namespace PageCompiler.Json

/-- A JSON value. -/
inductive Value where
  | null
  | bool (value : Bool)
  | number (value : Number)
  | string (text : Text)
  | array (items : List Value)
  | object (members : List (Text × Value))

namespace Value

mutual

/-- Whether two values agree up to the order of members. -/
def same : Value → Value → Bool
  | .null, .null => true
  | .bool a, .bool b => a == b
  | .number a, .number b => a.same b
  | .string a, .string b => a == b
  | .array a, .array b => sameItems a b
  | .object a, .object b => a.length == b.length && sameMembers a b
  | _, _ => false

/-- Whether two lists agree item by item. -/
def sameItems : List Value → List Value → Bool
  | [], [] => true
  | a :: as, b :: bs => same a b && sameItems as bs
  | _, _ => false

/-- Whether every member on the left has a partner with the same key and value on the right. -/
def sameMembers : List (Text × Value) → List (Text × Value) → Bool
  | [], _ => true
  | (key, a) :: rest, others =>
    (match Entries.get? key others with
      | some b => same a b
      | none => false) && sameMembers rest others

end

/-- A text that may be missing. -/
def ofOptionalText : Option Text → Value
  | some text => .string text
  | none => .null

/-- A list of texts. -/
def ofTexts (texts : List Text) : Value :=
  .array (texts.map .string)

/-- A table of texts. -/
def ofTable (table : Entries Text) : Value :=
  .object (table.map fun (key, text) => (key, .string text))

/-- An object with the given members. -/
def record (members : List (String × Value)) : Value :=
  .object (members.map fun (name, value) => (name.toList, value))

end Value

end PageCompiler.Json
