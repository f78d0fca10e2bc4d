import PageCompiler.Blueprint

/-!
# Blueprints as JSON

How a blueprint is read from JSON text and written as a JSON value. Lists of roots, classes and
handlers may be given as one item; content is given as a list of texts and elements.
-/

namespace PageCompiler.Blueprint

open Json (Tree Value)
open Json.Record

namespace Binding

/-- The fields of a binding. -/
def shape : Shape :=
  shapeOf [("key", .required), ("transform", .optional)]

/-- Reads a binding. -/
def read? (tree : Tree) : Option Binding := do
  match ← fields shape tree with
  | [key, transform] =>
    return {
      key := ← required text key
      transform := ← optional text transform }
  | _ => none

/-- A binding as a JSON value. -/
def value (binding : Binding) : Value :=
  .record [("key", .string binding.key), ("transform", .ofOptionalText binding.transform)]

end Binding

/-- The fields of an element. -/
def elementShape : Shape :=
  shapeOf [("tag", .required), ("id", .optional), ("text", .optional), ("attrs", .defaulted),
    ("style", .defaulted), ("class", .defaulted), ("scoped", .defaulted), ("ref", .optional),
    ("bind", .optional), ("on", .defaulted), ("children", .defaulted)]

/-- Reads the properties of an element from its fields, and gives the field of the content. -/
def readProperties : List (Option Tree) → Option (Properties × Option Tree)
  | [tag, id, content, attributes, inlineStyle, classes, scopedStyle, reference, binding, listeners,
      children] => do
    let properties : Properties := {
      tag := ← required text tag
      id := ← optional text id
      text := ← optional text content
      attributes := ← defaulted textTable [] attributes
      inlineStyle := ← defaulted (valueTable Json.depthLimit) [] inlineStyle
      classes := ← defaulted (oneOrMany text) [] classes
      scopedStyle := ← defaulted (valueTable Json.depthLimit) [] scopedStyle
      reference := ← optional text reference
      binding := ← optional Binding.read? binding
      listeners := ← defaulted textTable [] listeners }
    return (properties, children)
  | _ => none

/-- Reads an element in which elements nest at most `depth` deep. -/
def readRoot : Nat → Tree → Option Root
  | 0, _ => none
  | depth + 1, tree => do
    let (properties, children) ← readProperties (← fields elementShape tree)
    let part (tree : Tree) : Option Part :=
      match text tree with
      | some content => some (.text content)
      | none => (readRoot depth tree).map fun root => .element root.properties root.content
    return { properties, content := ← defaulted (list part) [] children }

namespace Rule

/-- The fields of a rule. -/
def shape : Shape :=
  shapeOf [("selector", .required), ("declarations", .defaulted), ("raw", .defaulted)]

/-- Reads a rule whose fields nest at most `depth` deep. -/
def read? (depth : Nat) (tree : Tree) : Option Rule := do
  match ← fields shape tree with
  | [selector, declarations, raw] =>
    return {
      selector := ← required text selector
      declarations := ← defaulted (valueTable depth) [] declarations
      raw := ← defaulted bool false raw }
  | _ => none

/-- A rule as a JSON value. -/
def value (rule : Rule) : Value :=
  .record [("selector", .string rule.selector), ("declarations", .object rule.declarations),
    ("raw", .bool rule.raw)]

end Rule

/-- The fields of a page. -/
def shape : Shape :=
  shapeOf [("config", .defaulted), ("head", .defaulted), ("state", .defaulted),
    ("styles", .defaulted), ("lifecycle", .defaulted), ("body", .defaulted)]

/-- The depth that is left for the fields of a page. -/
def fieldDepth : Nat := Json.depthLimit - 1

/-- Reads a page from its tree. -/
def ofTree (tree : Tree) : Option Blueprint := do
  match ← fields shape tree with
  | [config, head, state, styles, lifecycle, body] =>
    let several {α : Type} (read : Tree → Option α) (tree : Tree) : Option (List α) :=
      (sound fieldDepth tree).bind (oneOrMany read)
    return {
      config := ← defaulted EngineConfig.read? {} config
      head := ← defaulted (HeadConfig.read? (fieldDepth - 1)) {} head
      state := ← defaulted (valueTable fieldDepth) [] state
      styles := ← defaulted (list (Rule.read? (fieldDepth - 2))) [] styles
      lifecycle := ← defaulted (several text) [] lifecycle
      body := ← defaulted (several (readRoot Json.depthLimit)) [] body }
  | _ => none

/-- Reads a page from JSON text. -/
def read (text : Text) : Option Blueprint :=
  (Tree.read text).bind ofTree

/-- An element as a JSON value, given the values of its content. -/
def Properties.value (properties : Properties) (content : List Value) : Value :=
  .record [("tag", .string properties.tag), ("id", .ofOptionalText properties.id),
    ("text", .ofOptionalText properties.text), ("attrs", .ofTable properties.attributes),
    ("style", .object properties.inlineStyle), ("class", .ofTexts properties.classes),
    ("scoped", .object properties.scopedStyle), ("ref", .ofOptionalText properties.reference),
    ("bind", match properties.binding with
      | some binding => binding.value
      | none => .null),
    ("on", .ofTable properties.listeners), ("children", .array content)]

namespace Part

mutual

/-- A piece of content as a JSON value. -/
def value : Part → Value
  | .text content => .string content
  | .element properties content => properties.value (values content)

/-- Pieces of content as JSON values. -/
def values : List Part → List Value
  | [] => []
  | part :: rest => value part :: values rest

end

end Part

/-- A root as a JSON value. -/
def Root.value (root : Root) : Value :=
  root.properties.value (Part.values root.content)

/-- A page as a JSON value, with every field. -/
def value (page : Blueprint) : Value :=
  .record [("config", page.config.value), ("head", page.head.value), ("state", .object page.state),
    ("styles", .array (page.styles.map Rule.value)), ("lifecycle", .ofTexts page.lifecycle),
    ("body", .array (page.body.map Root.value))]

end PageCompiler.Blueprint
