import PageCompiler.Journal

/-!
# Engines

An engine owns a document and everything that is collected while it is built: styles, behavior,
references and client state, the generated identifiers, and the elements whose identifier is in
use. Elements are handles to nodes of the document of one engine. An action changes an engine; one
that fails leaves the engine it had got to.
-/

namespace PageCompiler

open Markup (Document DomError Edit NodeId)

/-- What is collected for the next render. -/
structure Buffers where
  styles : Stylesheet := []
  behaviors : BehaviorLog := []
  references : References := []
  state : ClientState := []

/-- The elements around the mounted roots: the page, its head and body, and the client script of
the last render. -/
structure Shell where
  html : NodeId
  head : NodeId
  body : NodeId
  script : Option NodeId := none
deriving DecidableEq

/-- Where an engine is: nothing rendered yet, rendering, or rendered. -/
inductive Phase where
  | idle
  | compiling
  | compiled
deriving DecidableEq

/-- The word for a phase. -/
def Phase.word : Phase → Text
  | .idle => "Idle".toList
  | .compiling => "Compiling".toList
  | .compiled => "Compiled".toList

/-- A document under construction with all that belongs to it. -/
structure Engine where
  uid : Nat
  config : EngineConfig
  document : Document := {}
  ids : Identifier.Allocator
  buffers : Buffers := {}
  hooked : List NodeId := []
  shell : Option Shell := none
  phase : Phase := .idle
  lastRendered : Option Text := none
  journal : List Event := []

/-- A handle to an element: the engine it belongs to, its node and its tag. -/
structure Element where
  owner : Nat
  node : NodeId
  tag : Text
deriving DecidableEq

/-- A description of an element in one line. -/
def Element.description (element : Element) : Text :=
  "Element \x7b node: NodeId(".toList ++ Text.ofNat element.node ++ "), tag: ".toList ++
    Text.quoted element.tag ++ [' ', '\x7d']

/-- How many entries the next render will write out. -/
structure Pending where
  styles : Nat
  behaviors : Nat
  references : Nat
  state : Nat
deriving DecidableEq

/-- A change to an engine, which may fail and leaves an engine either way. -/
abbrev Action := EStateM Error Engine

namespace Engine

/-- An engine with an empty document. Without a seed in its settings, identifiers start from the
given entropy. -/
def new (uid : Nat) (config : EngineConfig) (entropy : UInt64) : Engine where
  uid := uid
  config := config
  ids := .new config.ids.strategy config.ids.elementStem config.ids.classStem
    (config.ids.seed.getD entropy)
  journal := [.opened config]

/-- Whether an element belongs to an engine. -/
def owns (engine : Engine) (element : Element) : Bool :=
  element.owner = engine.uid

/-- How many entries the next render will write out. -/
def pending (engine : Engine) : Pending where
  styles := engine.buffers.styles.length
  behaviors := engine.buffers.behaviors.length
  references := engine.buffers.references.length
  state := engine.buffers.state.length

/-- The value of a key of the client state. -/
def stateValue? (engine : Engine) (key : Text) : Option Json.Value :=
  Entries.get? key engine.buffers.state

/-- The element identifier registered under a name. -/
def reference? (engine : Engine) (name : Text) : Option Text :=
  Entries.get? name engine.buffers.references

/-- A description of an engine in one line. -/
def description (engine : Engine) : Text :=
  "Engine \x7b phase: ".toList ++ engine.phase.word ++ ", nodes: ".toList ++
    Text.ofNat engine.document.size ++ ", rendered: ".toList ++
    (if engine.lastRendered.isSome then "true".toList else "false".toList) ++ [' ', '\x7d']

/-- Reports an event. -/
def report (event : Event) (engine : Engine) : Engine :=
  { engine with journal := engine.journal ++ [event] }

/-- Edits the document of an engine, and names the cause when that fails. -/
def edit {ε α : Type} (wrap : DomError → ε) (change : Edit α) : EStateM ε Engine α :=
  fun engine =>
    match change engine.document with
    | .ok result document => .ok result { engine with document }
    | .error cause document => .error (wrap cause) { engine with document }

end Engine

namespace Action

/-- Edits the document. -/
def edit {α : Type} (change : Edit α) : Action α :=
  Engine.edit .elementCreation change

/-- Reports an event. -/
def report (event : Event) : Action Unit :=
  modify (Engine.report event)

/-- Changes the buffers by a function that may refuse to. -/
def updateBuffers {ε : Type} (wrap : ε → Error) (change : Buffers → Except ε Buffers) :
    Action Unit := do
  match change (← get).buffers with
  | .ok buffers => modify fun engine => { engine with buffers }
  | .error cause => throw (wrap cause)

/-- Creates an element without a parent. -/
def createElement (tag : Text) : Action Element := do
  let node ← edit (Edit.createElement tag)
  let engine ← get
  return ⟨engine.uid, node, (engine.document.tag? node).getD tag⟩

/-- The tag of a heading; the level is kept between one and six. -/
def headingTag (level : Nat) : Text :=
  'h' :: Text.ofNat (max 1 (min level 6))

/-- Creates a text without a parent. -/
def createText (content : Text) : Action NodeId :=
  edit (Edit.createText content)

/-- Adds a rule to the stylesheet, or fails. -/
def tryDefineStyle (name : Text) (declarations : Declarations) (raw : Bool) : Action Unit :=
  updateBuffers .invalidStyle fun buffers =>
    (buffers.styles.define name declarations raw).map fun styles => { buffers with styles }

/-- Adds a rule to the stylesheet, or reports that it was refused. -/
def defineStyle (name : Text) (declarations : Declarations) (raw : Bool) : Action Bool := do
  match (← get).buffers.styles.define name declarations raw with
  | .ok styles =>
    modify fun engine => { engine with buffers.styles := styles }
    return true
  | .error cause =>
    report (.styleRefused (.invalidStyle cause))
    return false

/-- Stores a value of the client state, and says whether it changed. -/
def setState (key : Text) (value : Json.Value) : Action Bool := do
  let (state, changed) := (← get).buffers.state.set key value
  modify fun engine => { engine with buffers.state := state }
  return changed

/-- Has a handler run once the page has loaded. -/
def onLoad (handler : Handler) : Action Unit :=
  updateBuffers .invalidHandler fun buffers =>
    (buffers.behaviors.recordLifecycle handler).map fun behaviors => { buffers with behaviors }

/-- The last page rendered. -/
def output : Action Text := do
  match (← get).lastRendered with
  | some page => return page
  | none => throw .notRendered

/-- Writes the last page rendered to a file, and gives the files after that. -/
def trySave (files : FileTree) (here : List Text) (path : Path) : Action FileTree := do
  let page ← output
  match files.write here path page with
  | .ok files =>
    report (.saved path (Text.utf8Size page))
    return files
  | .error cause => throw (.persistence path cause)

/-- Writes the last page rendered to a file, or reports why that failed. -/
def save (files : FileTree) (here : List Text) (path : Path) : Action (Option FileTree) :=
  fun engine =>
    match trySave files here path engine with
    | .ok files engine => .ok (some files) engine
    | .error cause engine => .ok none (engine.report (.saveFailed cause))

end Action

end PageCompiler
