import PageCompiler.Entries
import PageCompiler.Text.Blank

/-!
# Element data

What an element is apart from its place in the document: tag, attributes, class list and inline
style. Class list and inline style are kept apart from the other attributes, so that they can grow
piece by piece, and are folded into attributes when the element is written.
-/

namespace PageCompiler.Markup

/-- Tag, attributes, class list and inline style of an element. -/
structure ElementData where
  tag : Text
  attributes : Entries Text := []
  classes : List Text := []
  style : Entries Text := []
deriving DecidableEq

namespace ElementData

/-- Adds a class unless it is there already. -/
def addClass (data : ElementData) (name : Text) : ElementData :=
  if data.classes.contains name then data else { data with classes := data.classes ++ [name] }

/-- Adds every word of `names` as a class. -/
def addClasses (data : ElementData) (names : Text) : ElementData :=
  (Text.words names).foldl addClass data

/-- Writes an inline declaration. -/
def setStyle (data : ElementData) (property value : Text) : ElementData :=
  { data with style := data.style.put property value }

/-- The declaration in one piece of a style attribute: property and value around the first
colon, both trimmed. A piece without a colon or without a property declares nothing. -/
def declarationIn (piece : Text) : Option (Text × Text) :=
  match Text.cutAt ':' piece with
  | none => none
  | some (property, value) =>
    if (Text.trim property).isEmpty then none else some (Text.trim property, Text.trim value)

/-- Replaces the inline style by the declarations of a style attribute. -/
def readStyle (data : ElementData) (value : Text) : ElementData :=
  ((Text.segments (· = ';') value).filterMap declarationIn).foldl
    (fun data (property, value) => data.setStyle property value) { data with style := [] }

/-- Replaces the class list by the words of a class attribute. -/
def readClasses (data : ElementData) (value : Text) : ElementData :=
  addClasses { data with classes := [] } value

/-- Writes an attribute whose name is in small letters. The class and style attributes replace
the class list and the inline style. -/
def setAttribute (data : ElementData) (name value : Text) : ElementData :=
  if name = "class".toList then data.readClasses value
  else if name = "style".toList then data.readStyle value
  else { data with attributes := data.attributes.put name value }

/-- The class list as an attribute value. -/
def classText (data : ElementData) : Text :=
  List.intercalate [' '] data.classes

/-- The inline style as an attribute value. -/
def styleText (data : ElementData) : Text :=
  List.intercalate [';', ' '] (data.style.map fun (property, value) => property ++ [':', ' '] ++ value)

/-- All attributes as they are written: the plain ones, then class, then style. -/
def foldedAttributes (data : ElementData) : List (Text × Text) :=
  data.attributes ++
    (if data.classes.isEmpty then [] else [("class".toList, data.classText)]) ++
    (if data.style.isEmpty then [] else [("style".toList, data.styleText)])

end ElementData

end PageCompiler.Markup
