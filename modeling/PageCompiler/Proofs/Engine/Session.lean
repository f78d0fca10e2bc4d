import PageCompiler.Proofs.Engine.Rendering

/-!
# Sessions

What a caller does with an engine. A caller holds elements and numbers of nodes, names them by their
place in what is held, and gets an answer to every command. Numbers of nodes are held but are not
answers: they say nothing about a page.
-/

namespace PageCompiler

open Markup Steps

/-- What a caller has been given: elements of the engine or of other ones, and numbers of nodes. -/
structure Held where
  elements : List Element := []
  nodes : List NodeId := []

/-- Something to append, named by its place in what is held. -/
inductive Piece where
  | element (place : Nat)
  | node (place : Nat)
  | text (content : Text)
  | many (pieces : List Piece)
  | nothing

namespace Piece

mutual

/-- The child that a piece stands for. Whatever is not held is nothing. -/
def child (held : Held) : Piece → Child
  | .element place => (held.elements[place]?).elim .nothing .element
  | .node place => (held.nodes[place]?).elim .nothing .node
  | .text content => .text content
  | .many pieces => .many (children held pieces)
  | .nothing => .nothing

/-- The children that several pieces stand for. -/
def children (held : Held) : List Piece → List Child
  | [] => []
  | piece :: rest => child held piece :: children held rest

end

/-- The items that pieces stand for. -/
def items (held : Held) (pieces : List Piece) : List Item :=
  Child.itemsOfAll (children held pieces)

end Piece

/-- What can be done to an element. -/
inductive Change where
  | setId (id : Text)
  | setText (content : Text)
  | setAttribute (name value : Text)
  | setInlineStyle (declarations : Declarations)
  | addClasses (classes : List Text)
  | generateScopedClass (declarations : Declarations)
  | bindText (key : Text) (transform : Option Handler)
  | registerReference (name : Text)
  | on (event : Text) (handler : Handler)

/-- Does something to an element. -/
def Change.action (element : Element) : Change → Action Unit
  | .setId id => Action.setId element id
  | .setText content => Action.setText element content
  | .setAttribute name value => Action.setAttribute element name value
  | .setInlineStyle declarations => Action.setInlineStyle element declarations
  | .addClasses classes => Action.addClasses element classes
  | .generateScopedClass declarations => Action.generateScopedClass element declarations
  | .bindText key transform => Action.bindText element key transform
  | .registerReference name => Action.registerReference element name
  | .on event handler => Action.on element event handler

/-- What a caller can have an engine do. -/
inductive Command where
  | createElement (tag : Text)
  | createText (content : Text)
  | createChild (host : Nat) (tag : Text)
  | change (place : Nat) (what : Change)
  | append (host : Nat) (pieces : List Piece)
  | node (place : Nat)
  | child (place index : Nat)
  | markup (place : Nat)
  | attributeOf (place : Nat) (name : Text)
  | text (place : Nat)
  | hasClass (place : Nat) (name : Text)
  | tryDefineStyle (name : Text) (declarations : Declarations) (raw : Bool)
  | defineStyle (name : Text) (declarations : Declarations) (raw : Bool)
  | setState (key : Text) (value : Json.Value)
  | onLoad (handler : Handler)
  | stateValue (key : Text)
  | reference (name : Text)
  | pending
  | phase
  | tryRender (mount : List Nat) (head : HeadConfig)
  | render (mount : List Nat) (head : HeadConfig)
  | output
  | trySave (files : FileTree) (here : List Text) (path : Path)
  | save (files : FileTree) (here : List Text) (path : Path)

/-- What a command is answered with. -/
inductive Answer where
  | done
  | failed
  | elsewhere
  | flag (value : Bool)
  | text (content : Text)
  | maybe (content : Option Text)
  | value (value : Option Json.Value)
  | pending (counts : Pending)
  | phase (phase : Phase)
  | files (files : Option FileTree)

/-- An answer, and what is held from then on. -/
structure Reply where
  answer : Answer
  element : Option Element := none
  node : Option NodeId := none

/-- What is held after a reply. -/
def Held.receive (held : Held) (reply : Reply) : Held where
  elements := held.elements ++ reply.element.toList
  nodes := held.nodes ++ reply.node.toList

/-- An action whose result is all that is answered. -/
def Reply.of {α : Type} (answer : α → Answer) (action : Action α) : Action Reply := do
  let value ← action
  return { answer := answer value }

/-- Something done with an element that is held. A handle of another engine has that engine do it, so
nothing happens in this one. -/
def Held.use (held : Held) (place : Nat) (action : Element → Action Reply) : Action Reply := do
  let engine ← get
  match held.elements[place]? with
  | some element => if engine.owns element then action element else return { answer := .elsewhere }
  | none => return { answer := .elsewhere }

namespace Command

/-- What a command has an engine do. -/
def action (held : Held) : Command → Action Reply
  | .createElement tag => do
    let element ← Action.createElement tag
    return { answer := .text element.tag, element := some element }
  | .createText content => do
    let node ← Action.createText content
    return { answer := .done, node := some node }
  | .createChild host tag => held.use host fun host => do
    let element ← Action.createChild host tag
    return { answer := .text element.tag, element := some element }
  | .change place what => held.use place fun element =>
    Reply.of (fun _ => .done) (what.action element)
  | .append host pieces => held.use host fun host =>
    Reply.of (fun _ => .done) (Action.appendChildren host (Piece.children held pieces))
  | .node place => held.use place fun element =>
    return { answer := .done, node := some element.node }
  | .child place index => held.use place fun element =>
    return { answer := .done, node := ((← get).document.children element.node)[index]? }
  | .markup place => held.use place fun element =>
    return { answer := .text ((← get).markup element) }
  | .attributeOf place name => held.use place fun element =>
    return { answer := .maybe ((← get).attribute? element name) }
  | .text place => held.use place fun element => return { answer := .text ((← get).text element) }
  | .hasClass place name => held.use place fun element =>
    return { answer := .flag ((← get).hasClass element name) }
  | .tryDefineStyle name declarations raw =>
    Reply.of (fun _ => .done) (Action.tryDefineStyle name declarations raw)
  | .defineStyle name declarations raw =>
    Reply.of .flag (Action.defineStyle name declarations raw)
  | .setState key value => Reply.of .flag (Action.setState key value)
  | .onLoad handler => Reply.of (fun _ => .done) (Action.onLoad handler)
  | .stateValue key => return { answer := .value ((← get).stateValue? key) }
  | .reference name => return { answer := .maybe ((← get).reference? name) }
  | .pending => return { answer := .pending (← get).pending }
  | .phase => return { answer := .phase (← get).phase }
  | .tryRender mount head =>
    Reply.of .text (Action.tryRender (mount.filterMap fun place => held.elements[place]?) head)
  | .render mount head =>
    Reply.of .flag (Action.render (mount.filterMap fun place => held.elements[place]?) head)
  | .output => Reply.of .text Action.output
  | .trySave files here path =>
    Reply.of (fun files => .files (some files)) (Action.trySave files here path)
  | .save files here path => Reply.of .files (Action.save files here path)

/-- One command: its answer, what is held after it and the engine it leaves. -/
def perform (command : Command) (held : Held) (engine : Engine) : Answer × Held × Engine :=
  match command.action held engine with
  | .ok reply after => (reply.answer, held.receive reply, after)
  | .error _ after => (.failed, held, after)

/-- The answers to commands given one after another. -/
def answers : List Command → Held → Engine → List Answer
  | [], _, _ => []
  | command :: rest, held, engine =>
    let (answer, held, engine) := command.perform held engine
    answer :: answers rest held engine

end Command

/-- Whether appending the items puts a node of the page below an element: when its turn comes, the raw
number of such a node is accepted. -/
def Action.AttachesPage (host : Element) (items : List Item) (engine : Engine) : Prop :=
  ∃ before id rest after, items = before ++ .node id :: rest ∧
    (before.forM (Action.appendItem host)) engine = .ok ⟨⟩ after ∧
    after.IsShellNode id ∧ Edit.appendProblem after.document host.node id = none

/-- Whether a command puts a node of the page below an element. -/
def Command.AttachesPage (held : Held) (engine : Engine) : Command → Prop
  | .append host pieces => ∃ element, held.elements[host]? = some element ∧
    engine.owns element = true ∧ Action.AttachesPage element (Piece.items held pieces) engine
  | _ => False

/-- An engine and what its caller holds, as any session can come to them: commands have been given in
any order, elements of other engines and any numbers of nodes may have come in from outside, but no
node of the page has been put below an element. -/
inductive Engine.Reachable : Engine → Held → Prop where
  | opened (uid : Nat) (config : EngineConfig) (entropy : UInt64) :
    Reachable (Engine.new uid config entropy) {}
  | received {engine : Engine} {held : Held} {element : Element} (reached : Reachable engine held)
    (foreign : engine.owns element = false) :
    Reachable engine { held with elements := held.elements ++ [element] }
  | noted {engine : Engine} {held : Held} (reached : Reachable engine held) (id : NodeId) :
    Reachable engine { held with nodes := held.nodes ++ [id] }
  | performed {engine after : Engine} {held heldAfter : Held} {command : Command} {answer : Answer}
    (reached : Reachable engine held)
    (run : command.perform held engine = (answer, heldAfter, after))
    (apart : ¬ command.AttachesPage held engine) :
    Reachable after heldAfter

end PageCompiler
