import PageCompiler.Blueprint.Build
import PageCompiler.Proofs.Engine.Collecting
import PageCompiler.Proofs.Engine.PageText

/-!
# Drafts of pages

What the page of a blueprint reads, written straight from its tree: no document is built. Only what an
earlier element leaves to a later one is carried along, the generator of identifiers and what is registered.
A scoped class is drawn on entering an element, an identifier on leaving it, and what an element registers
comes after what its content registers.
-/

namespace PageCompiler

open Markup

namespace Blueprint

/-- The generator of identifiers, and what is registered so far. -/
structure Draft where
  ids : Identifier.Allocator
  registered : List Registration := []

namespace Draft

/-- Draws a class name. -/
def drawClass : StateM Draft Text :=
  modifyGet fun draft => (draft.ids.className.1, { draft with ids := draft.ids.className.2 })

/-- Draws an identifier. -/
def drawIdentifier : StateM Draft Text :=
  modifyGet fun draft => (draft.ids.element.1, { draft with ids := draft.ids.element.2 })

def register (what : List Registration) : StateM Draft Unit :=
  modify fun draft => { draft with registered := draft.registered ++ what }

end Draft

/-- A member of an object as a declaration, if its value is a string or a number. -/
def declaration? : Text × Json.Value → Option (Text × Text)
  | (property, .string value) => some (property, value)
  | (property, .number value) => some (property, value.text)
  | _ => none

/-- The declarations that the members of an object stand for. -/
def declared (members : List (Text × Json.Value)) : Declarations :=
  members.filterMap declaration?

namespace Properties

/-- The attributes by their names in small letters, the identifier first: each stands where it was first
given, with the value it was last given. -/
def attributeTable (properties : Properties) : Entries Text :=
  Entries.ofPairs (properties.id.toList.map (fun id => ("id".toList, id)) ++
    properties.attributes.map fun (name, value) => (Text.lowered name, value))

/-- The words of the class attribute, of the class list and of the scoped class, each once. -/
def classNames (properties : Properties) (generated : Option Text) : List Text :=
  (((properties.attributeTable.get? "class".toList).toList ++ properties.classes ++
    generated.toList).flatMap Text.words).eraseDups

/-- The declarations of the style attribute, then the inline ones with hyphenated properties. -/
def inlineTable (properties : Properties) : Entries Text :=
  Entries.ofPairs (((properties.attributeTable.get? "style".toList).toList.flatMap fun value =>
      (Text.segments (· = ';') value).filterMap ElementData.declarationIn) ++
    (declared properties.inlineStyle).map fun (property, value) =>
      (Style.kebabCase (Text.trim property), Text.trim value))

/-- The element, before an identifier is drawn for it. -/
def data (properties : Properties) (generated : Option Text) : ElementData where
  tag := Text.lowered properties.tag
  attributes := properties.attributeTable.filter fun (name, _) => !foldedNames.contains name
  classes := properties.classNames generated
  style := properties.inlineTable

/-- The reference, then the binding, then the listeners. -/
def hooks (properties : Properties) : List Change :=
  properties.reference.toList.map .registerReference ++
    properties.binding.toList.map (fun binding =>
      .bindText binding.key (binding.transform.map .callable)) ++
    properties.listeners.map fun (event, source) => .on event (.body source)

/-- Draws the scoped class. It is only kept if its rule is accepted. -/
def enter (properties : Properties) : StateM Draft (Option Text) := do
  if properties.scopedStyle.isEmpty then
    return none
  let name ← Draft.drawClass
  match Style.ruleOf name (declared properties.scopedStyle) false with
  | .ok rule =>
    Draft.register [.style rule]
    return some name
  | .error _ => return none

/-- The identifier of an element, drawn if it has none, or an empty one. -/
def identify (data : ElementData) : StateM Draft Text :=
  match data.attributes.get? "id".toList with
  | some (first :: rest) => pure (first :: rest)
  | _ => Draft.drawIdentifier

/-- Registers what needs the identifier of the element. -/
def leave (properties : Properties) (data : ElementData) : StateM Draft ElementData := do
  if properties.hooks.isEmpty then
    return data
  let id ← identify data
  Draft.register (properties.hooks.filterMap (Change.registration? id))
  return { data with attributes := data.attributes.put "id".toList id }

/-- The markup of the element around the markup of its content. -/
def markupAround (properties : Properties) (data : ElementData) (inside : Text) : Text :=
  if isVoidElement data.tag then Tree.startTag data
  else Tree.startTag data ++ Tree.contentText (some data.tag) (properties.text.getD []) ++ inside ++
    Tree.endTag data.tag

/-- Drafts an element around its content. -/
def draftAround (properties : Properties) (content : StateM Draft Text) : StateM Draft Text := do
  let generated ← properties.enter
  let inside ← content
  let data ← properties.leave (properties.data generated)
  return properties.markupAround data inside

/-! ## Runs -/

theorem bind_draft {α β : Type} (first : StateM Draft α) (next : α → StateM Draft β) (draft : Draft) :
    (first >>= next) draft = next (first draft).1 (first draft).2 := rfl

variable {properties : Properties} {data : ElementData} {draft : Draft}

theorem enter_of_unscoped (empty : properties.scopedStyle.isEmpty = true) :
    properties.enter draft = (none, draft) := by
  rw [enter, empty]
  rfl

theorem enter_of_scoped (filled : properties.scopedStyle.isEmpty = false) :
    properties.enter draft =
      match Style.ruleOf draft.ids.className.1 (declared properties.scopedStyle) false with
      | .ok rule => (some draft.ids.className.1,
          { ids := draft.ids.className.2, registered := draft.registered ++ [.style rule] })
      | .error _ => (none, { draft with ids := draft.ids.className.2 }) := by
  have drawn : Draft.drawClass draft =
      (draft.ids.className.1, { draft with ids := draft.ids.className.2 }) := rfl
  rw [enter, filled, if_neg Bool.false_ne_true, bind_draft, drawn]
  dsimp only
  cases Style.ruleOf draft.ids.className.1 (declared properties.scopedStyle) false <;> rfl

theorem leave_of_unhooked (unhooked : properties.hooks = []) :
    properties.leave data draft = (data, draft) := by
  rw [leave, unhooked]
  rfl

theorem leave_of_hooked (hooked : properties.hooks ≠ []) :
    properties.leave data draft =
      ({ data with attributes := data.attributes.put "id".toList (identify data draft).1 },
        { ids := (identify data draft).2.ids
          registered := (identify data draft).2.registered ++
            properties.hooks.filterMap (Change.registration? (identify data draft).1) }) := by
  have filled : properties.hooks.isEmpty = false := by simpa using hooked
  rw [leave, filled]
  rfl

theorem tag_leave (properties : Properties) (data : ElementData) (draft : Draft) :
    (properties.leave data draft).1.tag = data.tag := by
  by_cases hooked : properties.hooks = []
  · rw [leave_of_unhooked hooked]
  · rw [leave_of_hooked hooked]

theorem draftAround_run (properties : Properties) (content : StateM Draft Text) (draft : Draft) :
    let entered := properties.enter draft
    let inside := content entered.2
    let left := properties.leave (properties.data entered.1) inside.2
    properties.draftAround content draft = (properties.markupAround left.1 inside.1, left.2) := rfl

end Properties

mutual

/-- The markup of a piece of content inside an element with the given tag. -/
def Part.draft (around : Text) : Part → StateM Draft Text
  | .text content => return Tree.contentText (some around) content
  | .element properties content =>
    properties.draftAround (draftContent (Text.lowered properties.tag) content)

/-- The markup of content inside an element with the given tag. -/
def draftContent (around : Text) : List Part → StateM Draft Text
  | [] => return []
  | part :: rest => do
    let first ← part.draft around
    let others ← draftContent around rest
    return first ++ others

end

def Root.draft (root : Root) : StateM Draft Text :=
  root.properties.draftAround (draftContent (Text.lowered root.properties.tag) root.content)

/-- What a page registers before its first element: state, rules, and the handlers that run once the page
has loaded. -/
def registrations (page : Blueprint) : List Registration :=
  page.state.map (fun (key, value) => .state key value) ++
    page.styles.flatMap (fun rule =>
      Registration.ofRule (Style.ruleOf rule.selector (declared rule.declarations) rule.raw)) ++
    page.lifecycle.map fun source => .behavior (.lifecycle (.body source))

/-- The markup of the roots, with what was drawn and registered for them. -/
def draft (page : Blueprint) (ids : Identifier.Allocator) : List Text × Draft :=
  page.body.mapM Root.draft { ids, registered := page.registrations }

/-- The text of the page, for an engine with this configuration, generator and pending entries. -/
def text (page : Blueprint) (config : EngineConfig) (ids : Identifier.Allocator) (pending : Buffers) :
    Text :=
  pageText config ((page.draft ids).2.registered.foldl Buffers.add pending) page.head (page.draft ids).1

end Blueprint

end PageCompiler
