import PageCompiler.Markup.Tree
import PageCompiler.Text.Quoted

/-!
# Documents

A document is a row of slots that holds element and text nodes; a node is known by the position of
its slot. Slots are filled once and never again, so that the identity of a removed node stays
missing forever. Nodes start without a parent, and putting a node below another one moves it
there. An edit that fails may have changed the document before it found out; the document that
remains is part of its result.
-/

namespace PageCompiler.Markup

/-- The position of a node's slot. -/
abbrev NodeId := Nat

/-- What a node is. -/
inductive NodeKind where
  | element (data : ElementData)
  | text (content : Text)
deriving DecidableEq

/-- A node with its links. -/
structure Node where
  kind : NodeKind
  parent : Option NodeId := none
  children : List NodeId := []
deriving DecidableEq

/-- Why an edit fails. -/
inductive DomError where
  | invalidTagName (tag : Text)
  | invalidAttributeName (name : Text)
  | missingNode (node : NodeId)
  | notAnElement (node : NodeId)
  | voidElement (tag : Text)
  | hierarchyRequest (parent child : NodeId)
deriving DecidableEq

/-- A node as messages show it. -/
def nodeText (node : NodeId) : Text :=
  '#' :: Text.ofNat node

/-- The wording of an error. -/
def DomError.message : DomError → Text
  | .invalidTagName tag => "invalid tag name: ".toList ++ Text.quoted tag
  | .invalidAttributeName name => "invalid attribute name: ".toList ++ Text.quoted name
  | .missingNode node => "node ".toList ++ nodeText node ++ " does not exist in this document".toList
  | .notAnElement node => "node ".toList ++ nodeText node ++ " is not an element".toList
  | .voidElement tag => ['<'] ++ tag ++ "> is a void element and cannot have children".toList
  | .hierarchyRequest parent child =>
    "cannot append ".toList ++ nodeText child ++ " to ".toList ++ nodeText parent ++
      ": the child is the parent or one of its ancestors".toList

/-- The slots of a document; a slot whose node was removed is empty. -/
structure Document where
  slots : Array (Option Node) := #[]
deriving DecidableEq

/-- A change to a document, which may fail and leaves a document either way. -/
abbrev Edit := EStateM DomError Document

namespace Document

/-- The node in a slot. -/
def node? (document : Document) (id : NodeId) : Option Node :=
  document.slots[id]?.join

/-- Whether a node is there. -/
def contains (document : Document) (id : NodeId) : Bool :=
  (document.node? id).isSome

/-- Number of nodes. -/
def size (document : Document) : Nat :=
  document.slots.toList.countP Option.isSome

/-- The data of an element. -/
def element? (document : Document) (id : NodeId) : Option ElementData :=
  match document.node? id with
  | some { kind := .element data, .. } => some data
  | _ => none

/-- The tag of an element. -/
def tag? (document : Document) (id : NodeId) : Option Text :=
  (document.element? id).map ElementData.tag

/-- Whether a node is a text. -/
def isText (document : Document) (id : NodeId) : Bool :=
  match document.node? id with
  | some { kind := .text _, .. } => true
  | _ => false

/-- The parent of a node. -/
def parent? (document : Document) (id : NodeId) : Option NodeId :=
  (document.node? id).bind Node.parent

/-- The children of a node, in order. -/
def children (document : Document) (id : NodeId) : List NodeId :=
  match document.node? id with
  | some node => node.children
  | none => []

/-- The value of a plain attribute. -/
def attribute? (document : Document) (id : NodeId) (name : Text) : Option Text :=
  (document.element? id).bind fun data => data.attributes.get? name

/-- Whether `ancestor` is met within `count` steps from `id` towards the root. -/
def isAncestorWithin (document : Document) (ancestor : NodeId) : Nat → NodeId → Bool
  | 0, _ => false
  | count + 1, id =>
    id = ancestor ||
      match document.parent? id with
      | some parent => isAncestorWithin document ancestor count parent
      | none => false

/-- Whether `ancestor` is `id` or above it. A path towards the root has no more nodes than there
are slots. -/
def isInclusiveAncestor (document : Document) (ancestor id : NodeId) : Bool :=
  document.isAncestorWithin ancestor (document.slots.size + 1) id

/-- The tree below a node, down to a depth. -/
def treeWithin (document : Document) : Nat → NodeId → Option Tree
  | 0, _ => none
  | depth + 1, id =>
    match document.node? id with
    | none => none
    | some node =>
      match node.kind with
      | .text content => some (.text content)
      | .element data =>
        some (.element data (node.children.filterMap (treeWithin document depth)))

/-- The tree below a node. It is no deeper than there are slots. -/
def tree? (document : Document) (id : NodeId) : Option Tree :=
  document.treeWithin (document.slots.size + 1) id

/-- A node and everything below it, down to a depth. -/
def familyWithin (document : Document) : Nat → NodeId → List NodeId
  | 0, _ => []
  | depth + 1, id => id :: (document.children id).flatMap (familyWithin document depth)

/-- A node and everything below it. -/
def family (document : Document) (id : NodeId) : List NodeId :=
  document.familyWithin (document.slots.size + 1) id

/-- The texts below a node, put together. -/
def textContent (document : Document) (id : NodeId) : Text :=
  match document.tree? id with
  | some tree => tree.textContent
  | none => []

/-- The markup of a node and everything below it. -/
def markup (document : Document) (id : NodeId) : Text :=
  match document.tree? id with
  | some tree => tree.markup
  | none => []

/-- The markup of a whole page with the given root. -/
def page (document : Document) (root : NodeId) : Text :=
  "<!DOCTYPE html>\n".toList ++ document.markup root

/-- Fills a new slot. -/
def push (document : Document) (node : Node) : Document :=
  ⟨document.slots.push (some node)⟩

/-- Replaces the node in a slot. -/
def put (document : Document) (id : NodeId) (node : Node) : Document :=
  ⟨document.slots.setIfInBounds id (some node)⟩

/-- Empties slots. -/
def free (document : Document) (ids : List NodeId) : Document :=
  ⟨ids.foldl (fun slots id => slots.setIfInBounds id none) document.slots⟩

end Document

namespace Edit

/-- The node in a slot, which must be there. -/
def node (id : NodeId) : Edit Node := do
  match (← get).node? id with
  | some node => pure node
  | none => throw (.missingNode id)

/-- The data of a node, which must be an element. -/
def element (id : NodeId) : Edit ElementData := do
  match (← node id).kind with
  | .element data => pure data
  | .text _ => throw (.notAnElement id)

/-- Changes a node, which must be there. -/
def updateNode (id : NodeId) (change : Node → Node) : Edit Unit := do
  let node ← node id
  modify fun document => document.put id (change node)

/-- Changes the data of a node, which must be an element. -/
def updateElement (id : NodeId) (change : ElementData → ElementData) : Edit Unit := do
  let data ← element id
  updateNode id fun node => { node with kind := .element (change data) }

/-- Fills a new slot and gives its position. -/
def create (node : Node) : Edit NodeId := do
  let id := (← get).slots.size
  modify fun document => document.push node
  pure id

/-- Creates an element without a parent. Its tag is kept in small letters. -/
def createElement (tag : Text) : Edit NodeId := do
  if Markup.isTagName tag then
    create { kind := .element { tag := Text.lowered tag } }
  else
    throw (.invalidTagName tag)

/-- Creates a text without a parent. -/
def createText (content : Text) : Edit NodeId :=
  create { kind := .text content }

/-- Writes an attribute. Its name is kept in small letters; the class and style attributes
replace the class list and the inline style. -/
def setAttribute (id : NodeId) (name value : Text) : Edit Unit := do
  if Markup.isAttributeName name then
    updateElement id fun data => data.setAttribute (Text.lowered name) value
  else
    throw (.invalidAttributeName name)

/-- Leaves out a plain attribute and gives its value. -/
def removeAttribute (id : NodeId) (name : Text) : Edit (Option Text) := do
  let data ← element id
  updateElement id fun data => { data with attributes := data.attributes.erase name }
  pure (data.attributes.get? name)

/-- Adds every word of `names` as a class. -/
def addClasses (id : NodeId) (names : Text) : Edit Unit :=
  updateElement id fun data => data.addClasses names

/-- Writes an inline declaration. -/
def setStyle (id : NodeId) (property value : Text) : Edit Unit :=
  updateElement id fun data => data.setStyle property value

/-- Takes a node away from its parent, if it has one. -/
def detach (id : NodeId) : Edit Unit := do
  match (← node id).parent with
  | none => pure ()
  | some parent =>
    if (← get).contains parent then
      updateNode parent fun node => { node with children := node.children.filter (· != id) }
    updateNode id fun node => { node with parent := none }

/-- Takes all children away from a node and gives them, in order. -/
def clearChildren (id : NodeId) : Edit (List NodeId) := do
  let children := (← node id).children
  updateNode id fun node => { node with children := [] }
  children.forM fun child => do
    if (← get).contains child then
      updateNode child fun node => { node with parent := none }
  pure children

/-- Takes a node away from its parent and removes it with everything below it. -/
def remove (id : NodeId) : Edit Unit := do
  detach id
  modify fun document => document.free (document.family id)

/-- Moves `child` to the end of the children of `parent`, which must be an element that may have
content and neither `child` nor below it. -/
def appendChild (parent child : NodeId) : Edit Unit := do
  let data ← element parent
  if Markup.isVoidElement data.tag then
    throw (.voidElement data.tag)
  let _ ← node child
  if (← get).isInclusiveAncestor child parent then
    throw (.hierarchyRequest parent child)
  detach child
  updateNode child fun node => { node with parent := some parent }
  updateNode parent fun node => { node with children := node.children ++ [child] }

/-- Replaces the content of a text, or the children of an element by one text, none when it is
empty. Former text children are removed, former element children only lose their parent. -/
def setTextContent (id : NodeId) (content : Text) : Edit Unit := do
  match (← node id).kind with
  | .text _ => updateNode id fun node => { node with kind := .text content }
  | .element _ =>
    let children ← clearChildren id
    children.forM fun child => do
      if (← get).isText child then
        remove child
    if !content.isEmpty then
      let text ← createText content
      appendChild id text

end Edit

end PageCompiler.Markup
