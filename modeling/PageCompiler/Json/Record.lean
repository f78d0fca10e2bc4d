import PageCompiler.Json.Tree

/-!
# Records

A record is written as an object whose members are its fields, in any order and beside others, or
as an array of its fields in their order. A field may not be written twice. A required field must
be there; an optional one may be missing from an object but not from an array; one with a default
may be missing from both. A field that may be given once or several times is written as one item or
as an array of items.
-/

namespace PageCompiler.Json.Record

/-- What happens when a field is missing. -/
inductive Presence where
  | required
  | optional
  | defaulted
deriving DecidableEq

/-- The names of the fields of a record, in order. -/
abbrev Shape := List (Text × Presence)

/-- A shape from its names. -/
def shapeOf (fields : List (String × Presence)) : Shape :=
  fields.map fun (name, presence) => (name.toList, presence)

/-- The tree of one field among the members of an object. -/
def memberOf (name : Text) (presence : Presence) (members : List (Option Text × Tree)) :
    Option (Option Tree) :=
  match members.filter fun member => member.1 = some name with
  | [] => if presence = .required then none else some none
  | [(_, tree)] => some (some tree)
  | _ => none

/-- The trees of the fields, taken from the members of an object. -/
def ofMembers (members : List (Option Text × Tree)) (shape : Shape) : Option (List (Option Tree)) :=
  if members.all fun member => member.1.isSome then
    shape.mapM fun (name, presence) => memberOf name presence members
  else
    none

/-- The trees of the fields, taken from the items of an array. -/
def ofItems : Shape → List Tree → Option (List (Option Tree))
  | [], [] => some []
  | [], _ :: _ => none
  | (_, presence) :: shape, [] =>
    if presence = .defaulted then (ofItems shape []).map (none :: ·) else none
  | _ :: shape, item :: items => (ofItems shape items).map (some item :: ·)

/-- The trees of the fields of a record, in the order of its shape. -/
def fields (shape : Shape) : Tree → Option (List (Option Tree))
  | .object members => ofMembers members shape
  | .array items => ofItems shape items
  | _ => none

/-- Reads a text. -/
def text : Tree → Option Text
  | .string text => text
  | _ => none

/-- Reads a truth value. -/
def bool : Tree → Option Bool
  | .bool value => some value
  | _ => none

/-- Reads one of several words: the word itself, or an object with the word as its only key and
nothing under it. -/
def word {α : Type} (words : List (Text × α)) : Tree → Option α
  | .string (some name) => Entries.get? name words
  | .object [(some name, .null)] => Entries.get? name words
  | _ => none

/-- Reads a field that has to be there. -/
def required {α : Type} (read : Tree → Option α) (field : Option Tree) : Option α :=
  field.bind read

/-- Reads a field that may be missing or nothing. -/
def optional {α : Type} (read : Tree → Option α) : Option Tree → Option (Option α)
  | none => some none
  | some .null => some none
  | some tree => (read tree).map some

/-- Reads a field that has a value when it is missing. -/
def defaulted {α : Type} (read : Tree → Option α) (value : α) : Option Tree → Option α
  | none => some value
  | some tree => read tree

/-- Reads a list. -/
def list {α : Type} (read : Tree → Option α) : Tree → Option (List α)
  | .array items => items.mapM read
  | _ => none

/-- Reads one item or a list of items. One item is tried first. -/
def oneOrMany {α : Type} (read : Tree → Option α) (tree : Tree) : Option (List α) :=
  match read tree with
  | some item => some [item]
  | none => list read tree

/-- Reads an object of texts; the keys ascend. -/
def textTable : Tree → Option (Entries Text)
  | .object members =>
    (members.mapM fun (member : Option Text × Tree) => do
      return (← member.1, ← text member.2)).map Entries.sorted
  | _ => none

/-- Reads an object of any values, whose arrays and objects nest at most `depth` deep. -/
def valueTable (depth : Nat) (tree : Tree) : Option (List (Text × Value)) :=
  match tree.value? depth with
  | some (.object members) => some members
  | _ => none

/-- A tree in which every number and string has a value and arrays and objects nest at most `depth`
deep. -/
def sound (depth : Nat) (tree : Tree) : Option Tree :=
  (tree.value? depth).map fun _ => tree

end PageCompiler.Json.Record
