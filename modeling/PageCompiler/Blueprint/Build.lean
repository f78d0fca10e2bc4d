import PageCompiler.Blueprint
import PageCompiler.Engine.Element
import PageCompiler.Engine.Render

/-!
# Building blueprints

A blueprint is built through the same actions that an element is built with by hand. An element is
created and given its properties, then its content is built and appended piece by piece; reference,
binding and listeners, which need its identifier, come last.
-/

namespace PageCompiler.Blueprint

/-- Declarations as they were given, read as texts. -/
def declarations (members : List (Text × Json.Value)) : Action Declarations :=
  match Declarations.ofJson (.object members) with
  | .ok declarations => pure declarations
  | .error cause => throw (.invalidDeclarations cause)

namespace Properties

/-- Creates the element and gives it what does not depend on its content. -/
def begin (properties : Properties) : Action Element := do
  let element ← Action.createElement properties.tag
  properties.id.forM fun id => Action.setId element id
  properties.attributes.forM fun (name, value) => Action.setAttribute element name value
  if !properties.classes.isEmpty then
    Action.addClasses element properties.classes
  if !properties.inlineStyle.isEmpty then
    Action.setInlineStyle element (← declarations properties.inlineStyle)
  if !properties.scopedStyle.isEmpty then
    Action.generateScopedClass element (← declarations properties.scopedStyle)
  properties.text.forM fun content => Action.setText element content
  return element

/-- Gives the element its reference, binding and listeners. -/
def finish (properties : Properties) (element : Element) : Action Unit := do
  properties.reference.forM fun name => Action.registerReference element name
  properties.binding.forM fun binding =>
    Action.bindText element binding.key (binding.transform.map Handler.callable)
  properties.listeners.forM fun (event, source) => Action.on element event (.body source)

end Properties

mutual

/-- Builds a piece of content and appends it. -/
def Part.build (host : Element) : Part → Action Unit
  | .text content => Action.append host (.text content)
  | .element properties content => do
    let element ← properties.begin
    buildContent element content
    properties.finish element
    Action.append host (.element element)

/-- Builds content piece by piece. -/
def buildContent (host : Element) : List Part → Action Unit
  | [] => pure ()
  | part :: rest => do
    part.build host
    buildContent host rest

end

/-- Builds a root. -/
def Root.build (root : Root) : Action Element := do
  let element ← root.properties.begin
  buildContent element root.content
  root.properties.finish element
  return element

/-- Stores the state, defines the styles, records the handlers and builds the roots, in that
order. -/
def build (page : Blueprint) : Action (List Element) := do
  page.state.forM fun (key, value) => do
    let _ ← Action.setState key value
  page.styles.forM fun rule => do
    Action.tryDefineStyle rule.selector (← declarations rule.declarations) rule.raw
  page.lifecycle.forM fun source => Action.onLoad (.body source)
  page.body.mapM Root.build

/-- The engine that a page is built in. Without a seed in its settings, identifiers start from the
given entropy. -/
def engine (page : Blueprint) (entropy : UInt64) : Engine :=
  Engine.new 0 page.config entropy

/-- Builds a page and renders it. -/
def buildAndRender (page : Blueprint) : Action Text := do
  Action.tryRender (← page.build) page.head

/-- The page that a blueprint describes. -/
def compile (page : Blueprint) (entropy : UInt64) : Except Error Text :=
  match page.buildAndRender (page.engine entropy) with
  | .ok result _ => .ok result
  | .error cause _ => .error cause

end PageCompiler.Blueprint
