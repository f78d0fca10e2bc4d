import PageCompiler.Engine

/-!
# Elements of an engine

What can be done with an element through its handle. Behavior, bindings and references need the
identifier of an element: one is generated if there is none, and from then on it is locked.
-/

namespace PageCompiler

open Markup (Document DomError Edit NodeId)

/-- What may be appended to an element: an element, a raw node of the same document, a text, several
of these, or nothing. -/
inductive Child where
  | element (element : Element)
  | node (node : NodeId)
  | text (content : Text)
  | many (children : List Child)
  | nothing

/-- A single thing to append. -/
inductive Item where
  | element (element : Element)
  | node (node : NodeId)
  | text (content : Text)
deriving DecidableEq

namespace Child

mutual

/-- The things to append, in order; empty texts are left out. -/
def items : Child → List Item
  | .element handle => [.element handle]
  | .node id => [.node id]
  | .text content => if content.isEmpty then [] else [.text content]
  | .many children => itemsOfAll children
  | .nothing => []

/-- The things to append of several children. -/
def itemsOfAll : List Child → List Item
  | [] => []
  | child :: rest => items child ++ itemsOfAll rest

end

end Child

namespace Engine

/-- An attribute of an element as it is written: class and style are put together from the class
list and the inline style. -/
def attribute? (engine : Engine) (element : Element) (name : Text) : Option Text :=
  match engine.document.element? element.node with
  | none => none
  | some data =>
    if name = "class".toList then if data.classes.isEmpty then none else some data.classText
    else if name = "style".toList then if data.style.isEmpty then none else some data.styleText
    else data.attributes.get? name

/-- The identifier of an element. -/
def identifier? (engine : Engine) (element : Element) : Option Text :=
  engine.attribute? element "id".toList

/-- The texts of an element, put together. -/
def text (engine : Engine) (element : Element) : Text :=
  engine.document.textContent element.node

/-- Whether an element has a class. -/
def hasClass (engine : Engine) (element : Element) (name : Text) : Bool :=
  match engine.document.element? element.node with
  | some data => data.classes.contains name
  | none => false

/-- The markup of an element. -/
def markup (engine : Engine) (element : Element) : Text :=
  engine.document.markup element.node

end Engine

namespace Action

/-- The identifier of an element, generated if there is none or an empty one. The element counts
as hooked from then on. -/
def ensureIdentifier (node : NodeId) : Action Text := do
  let engine ← get
  let id ←
    match engine.document.attribute? node "id".toList with
    | some (first :: rest) => pure (first :: rest)
    | _ =>
      let (id, ids) := engine.ids.element
      modify fun engine => { engine with ids }
      edit (Edit.setAttribute node "id".toList id)
      pure id
  modify fun engine =>
    if engine.hooked.contains node then engine else { engine with hooked := node :: engine.hooked }
  return id

/-- Writes the identifier. That of a hooked element can only be written as it is. -/
def setId (element : Element) (id : Text) : Action Unit := do
  let engine ← get
  let current := (engine.document.attribute? element.node "id".toList).getD []
  if engine.hooked.contains element.node && current != id then
    throw (.identifierLocked element.node current)
  edit (Edit.setAttribute element.node "id".toList id)

/-- Replaces the children by one text. -/
def setText (element : Element) (content : Text) : Action Unit :=
  edit (Edit.setTextContent element.node content)

/-- Writes an attribute; the identifier is written by `setId`. -/
def setAttribute (element : Element) (name value : Text) : Action Unit :=
  if Text.lowered name = "id".toList then setId element value
  else edit (Edit.setAttribute element.node name value)

/-- Writes inline declarations, whose properties may be in camel case. -/
def setInlineStyle (element : Element) (declarations : Declarations) : Action Unit :=
  edit (declarations.forM fun (property, value) =>
    Edit.setStyle element.node (Style.kebabCase (Text.trim property)) (Text.trim value))

/-- Adds every word of each text as a class. -/
def addClasses (element : Element) (classes : List Text) : Action Unit :=
  edit (classes.forM fun names => Edit.addClasses element.node names)

/-- Generates a class, adds a rule for it and gives it to the element. When the rule is refused,
the class is reported and not given. -/
def generateScopedClass (element : Element) (declarations : Declarations) : Action Unit := do
  let (name, ids) := (← get).ids.className
  modify fun engine => { engine with ids }
  match (← get).buffers.styles.define name declarations false with
  | .ok styles =>
    modify fun engine => { engine with buffers.styles := styles }
    edit (Edit.addClasses element.node name)
  | .error cause => report (.scopedClassDropped element.tag (.invalidStyle cause))

/-- Fails if a handler is not valid. -/
def checkHandler (handler : Handler) : Action Unit :=
  match handler.validate with
  | .ok () => pure ()
  | .error cause => throw (.invalidHandler cause)

/-- Lets the text of an element follow a key of the client state. -/
def bindText (element : Element) (key : Text) (transform : Option Handler) : Action Unit := do
  transform.forM checkHandler
  let id ← ensureIdentifier element.node
  updateBuffers .invalidHandler fun buffers =>
    (buffers.behaviors.recordStateWatch key id transform).map fun behaviors =>
      { buffers with behaviors }

/-- Registers an element under a name. -/
def registerReference (element : Element) (name : Text) : Action Unit := do
  let id ← ensureIdentifier element.node
  modify fun engine =>
    { engine with buffers.references := engine.buffers.references.register name id }

/-- Attaches a listener. -/
def on (element : Element) (event : Text) (handler : Handler) : Action Unit := do
  checkHandler handler
  let id ← ensureIdentifier element.node
  updateBuffers .invalidHandler fun buffers =>
    (buffers.behaviors.recordEvent id event handler).map fun behaviors =>
      { buffers with behaviors }

/-- Edits the document and gives what went wrong, if anything did. -/
def attempt {α : Type} (change : Edit α) : Action (Except DomError α) :=
  fun engine =>
    match change engine.document with
    | .ok result document => .ok (.ok result) { engine with document }
    | .error cause document => .ok (.error cause) { engine with document }

/-- Appends one item and gives the reason if it cannot be appended. A text that cannot be appended
is removed again. -/
def attach (host : Element) (item : Item) : Action (Option ChildError) := do
  match item with
  | .element element =>
    if (← get).owns element then
      match ← attempt (Edit.appendChild host.node element.node) with
      | .ok () => return none
      | .error cause => return some (.document cause)
    else
      return some (.foreign element.tag)
  | .node node =>
    match ← attempt (Edit.appendChild host.node node) with
    | .ok () => return none
    | .error cause => return some (.document cause)
  | .text content =>
    let node ← createText content
    match ← attempt (Edit.appendChild host.node node) with
    | .ok () => return none
    | .error cause =>
      let _ ← attempt (Edit.remove node)
      return some (.document cause)

/-- Appends one item, or treats one that cannot be appended by the policy of the engine. -/
def appendItem (host : Element) (item : Item) : Action Unit := do
  match ← attach host item with
  | none => pure ()
  | some cause =>
    match (← get).config.append with
    | .strict => throw (.invalidChild host.tag cause)
    | .lenient => report (.childSkipped host.tag cause)

/-- Appends every item of the children, in order. -/
def appendChildren (host : Element) (children : List Child) : Action Unit :=
  (Child.itemsOfAll children).forM (appendItem host)

/-- Appends a child. -/
def append (host : Element) (child : Child) : Action Unit :=
  appendChildren host [child]

/-- Creates an element at the end of the children of another one. -/
def createChild (host : Element) (tag : Text) : Action Element := do
  let element ← createElement tag
  match ← attempt (Edit.appendChild host.node element.node) with
  | .ok () => return element
  | .error cause =>
    let _ ← attempt (Edit.remove element.node)
    throw (.elementCreation cause)

end Action

end PageCompiler
