import PageCompiler.Json.Printer
import PageCompiler.Text.Quoted

/-!
# Client data

What the page hands to the client script: the table of references, from names to element
identifiers, and the first values of the client state. Both are written as JSON objects in the
order in which their keys were first used.
-/

namespace PageCompiler

/-- Element identifiers by reference name; the last registration of a name counts. -/
abbrev References := Entries Text

namespace References

/-- Registers an element identifier under a name. -/
def register (references : References) (name element : Text) : References :=
  Entries.put name element references

/-- The table as a JSON value. -/
def value (references : References) : Json.Value :=
  .object (references.map fun (name, element) => (name, .string element))

/-- The table as JSON text. -/
def text (references : References) : Text :=
  references.value.text

end References

/-- A table that cannot be written as JSON because one of its keys is no string. -/
structure StateError where
  key : Text
deriving DecidableEq

/-- The wording of an error. -/
def StateError.message (error : StateError) : Text :=
  "state value for ".toList ++ Text.quoted error.key ++
    " is not serializable: key must be a string".toList

/-- First values of the client state, by key. -/
abbrev ClientState := Entries Json.Value

namespace ClientState

/-- Whether a key holds a value that is the same. -/
def holds (state : ClientState) (key : Text) (value : Json.Value) : Bool :=
  match Entries.get? key state with
  | some current => current.same value
  | none => false

/-- Stores a value and says whether the state changed. -/
def set (state : ClientState) (key : Text) (value : Json.Value) : ClientState × Bool :=
  if state.holds key value then (state, false) else (Entries.put key value state, true)

/-- The member name for a key of a table. Numbers and truth values are written out. -/
def memberName? : Json.Value → Option Text
  | .string text => some text
  | .number value => some value.text
  | .bool value => some (Json.Value.bool value).text
  | _ => none

/-- Stores a table from values to values, whose keys must have member names. -/
def setTable (state : ClientState) (key : Text) (table : List (Json.Value × Json.Value)) :
    Except StateError (ClientState × Bool) := do
  let members ← table.mapM fun (name, value) =>
    match memberName? name with
    | some name => Except.ok (name, value)
    | none => .error ⟨key⟩
  return state.set key (.object (Entries.ofPairs members))

/-- The state as a JSON value. -/
def value (state : ClientState) : Json.Value :=
  .object state

/-- The state as JSON text. -/
def text (state : ClientState) : Text :=
  state.value.text

end ClientState

end PageCompiler
