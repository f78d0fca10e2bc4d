import PageCompiler.Config

/-!
# Blueprints

A blueprint describes a whole page as data: settings, head, client state, styles, handlers that
run once the page has loaded, and a tree for each root of the body. The properties of an element
are kept apart from its content, so that what is done with an element before and after its content
is built depends on the properties alone.
-/

namespace PageCompiler

namespace Blueprint

/-- A state key that the text of an element follows, and the function that the value goes through
before it is shown. -/
structure Binding where
  key : Text
  transform : Option Text
deriving DecidableEq

/-- What an element is to become, apart from its content. Inline and scoped declarations are kept
as they were given. -/
structure Properties where
  tag : Text
  id : Option Text := none
  text : Option Text := none
  attributes : Entries Text := []
  inlineStyle : List (Text × Json.Value) := []
  classes : List Text := []
  scopedStyle : List (Text × Json.Value) := []
  reference : Option Text := none
  binding : Option Binding := none
  listeners : Entries Text := []

/-- A piece of content: a text, or an element with its own content. -/
inductive Part where
  | text (content : Text)
  | element (properties : Properties) (content : List Part)

/-- An element at the top of the body. -/
structure Root where
  properties : Properties
  content : List Part := []

/-- A rule of the stylesheet: a class name, or a selector if it is raw. -/
structure Rule where
  selector : Text
  declarations : List (Text × Json.Value) := []
  raw : Bool := false

end Blueprint

/-- The description of a page. -/
structure Blueprint where
  config : EngineConfig := {}
  head : HeadConfig := {}
  state : List (Text × Json.Value) := []
  styles : List Blueprint.Rule := []
  lifecycle : List Text := []
  body : List Blueprint.Root := []

end PageCompiler
