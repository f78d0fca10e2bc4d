import PageCompiler.Bootstrap
import PageCompiler.Engine

/-!
# Rendering

A render mounts roots into the body of the page, builds the head anew, puts the client script at
the end of the body and writes everything out. The elements around the roots are kept from render
to render and emptied each time. When a render fails, what was collected and the last page stay.
-/

namespace PageCompiler

open Markup (Document DomError Edit NodeId)

/-- A step of a render. -/
abbrev RenderStep := EStateM RenderError Engine

namespace RenderStep

/-- Edits the document. -/
def edit {α : Type} (change : Edit α) : RenderStep α :=
  Engine.edit .document change

/-- The first reason not to mount the roots, given the body and the roots before them: each must
be an element, appear once, and have no parent but the body. -/
def mountProblem (document : Document) (body : Option NodeId) (before : List NodeId) :
    List NodeId → Option RenderError
  | [] => none
  | root :: rest =>
    if (document.element? root).isNone then some (.notLive root)
    else if before.contains root then some (.mountedTwice root)
    else
      match (document.parent? root).filter fun parent => some parent != body with
      | some parent => some (.nested root ((document.tag? parent).getD ['?']) parent)
      | none => mountProblem document body (root :: before) rest

/-- Creates the elements around the roots. -/
def createShell : RenderStep Shell := do
  let html ← edit (Edit.createElement "html".toList)
  let head ← edit (Edit.createElement "head".toList)
  let body ← edit (Edit.createElement "body".toList)
  edit (Edit.appendChild html head)
  edit (Edit.appendChild html body)
  return { html, head, body }

/-- Empties head and body. Roots of the last render lose their parent, everything that the last
render made is removed. -/
def resetShell : RenderStep Shell := do
  let shell ←
    match (← get).shell with
    | some shell => pure shell
    | none => createShell
  let former ← edit (Edit.clearChildren shell.head)
  edit (former.forM Edit.remove)
  let _ ← edit (Edit.clearChildren shell.body)
  match shell.script with
  | some script => edit (Edit.remove script)
  | none => pure ()
  let shell := { shell with script := none }
  modify fun engine => { engine with shell := some shell }
  return shell

/-- Puts an element with attributes at the end of the head. -/
def addToHead (head : NodeId) (tag : Text) (attributes : List (Text × Text)) : RenderStep NodeId := do
  let node ← edit (Edit.createElement tag)
  edit (Edit.appendChild head node)
  edit (attributes.forM fun (name, value) => Edit.setAttribute node name value)
  return node

/-- The content of the viewport tag that a page gets when its settings have none. -/
def defaultViewport : List (Text × Text) :=
  [("name".toList, "viewport".toList),
    ("content".toList, "width=device-width, initial-scale=1".toList)]

/-- The language of a page whose settings have none. -/
def defaultLanguage : Text := "en".toList

/-- The attributes of a link. -/
def linkAttributes (relation reference : Text) : List (Text × Text) :=
  [("rel".toList, relation), ("href".toList, reference)]

/-- Builds the head: character set, title, viewport, the tags from the settings, and the
stylesheet, which is taken out of the buffers. -/
def buildHead (node : NodeId) (head : HeadConfig) : RenderStep Unit := do
  let _ ← addToHead node "meta".toList [("charset".toList, "utf-8".toList)]
  let title ← addToHead node "title".toList []
  edit (Edit.setTextContent title (head.title.getD (← get).config.defaultTitle))
  if !head.hasViewport then
    let _ ← addToHead node "meta".toList defaultViewport
  head.metaTags.forM fun attributes => do
    let _ ← addToHead node "meta".toList attributes
  head.scripts.forM fun source => do
    let _ ← addToHead node "script".toList [("src".toList, source)]
  head.stylesheets.forM fun reference => do
    let _ ← addToHead node "link".toList (linkAttributes "stylesheet".toList reference)
  match head.icon with
  | some reference =>
    let _ ← addToHead node "link".toList (linkAttributes "icon".toList reference)
  | none => pure ()
  let style ← addToHead node "style".toList []
  let css := (← get).buffers.styles.text
  modify fun engine => { engine with buffers.styles := [] }
  if !css.isEmpty then
    edit (Edit.setTextContent style css)

/-- The client script of an engine, as it is composed. -/
def scriptSource (engine : Engine) : Text :=
  Bootstrap.compose engine.buffers.references.text engine.buffers.state.text
    engine.buffers.behaviors.script engine.config.exposeGlobals

/-- Composes the client script, takes what it holds out of the buffers, and shrinks it if that is
wanted and possible. -/
def composeScript : RenderStep Text := do
  let engine ← get
  let source := scriptSource engine
  set { engine with buffers := { styles := engine.buffers.styles } }
  if engine.config.minifyScript then
    match Script.minify source with
    | .ok short => return short
    | .error cause =>
      modify (Engine.report (.minificationFailed cause))
      return source
  else
    return source

/-- Compiles the page with the given roots. -/
def compile (roots : List NodeId) (head : HeadConfig) : RenderStep Text := do
  let engine ← get
  match mountProblem engine.document (engine.shell.map Shell.body) [] roots with
  | some problem => throw problem
  | none => pure ()
  let shell ← resetShell
  edit (Edit.setAttribute shell.html "lang".toList (head.language.getD defaultLanguage))
  buildHead shell.head head
  edit (roots.forM fun root => Edit.appendChild shell.body root)
  let source ← composeScript
  let script ← edit (Edit.createElement "script".toList)
  edit (Edit.setTextContent script source)
  edit (Edit.appendChild shell.body script)
  modify fun engine => { engine with shell := some { shell with script := some script } }
  let page := (← get).document.page shell.html
  modify (Engine.report (.serialized (Text.utf8Size page)))
  return page

end RenderStep

namespace Action

/-- Renders the roots. On success the buffers are empty afterwards, or as before if they are to be
retained; on failure they are as before, and so is the last page. -/
def tryRender (mount : List Element) (head : HeadConfig) : Action Text :=
  fun engine =>
    match mount.find? fun root => !engine.owns root with
    | some root => .error (.render (.foreign root.tag root.node)) engine
    | none =>
      match RenderStep.compile (mount.map Element.node) head { engine with phase := .compiling } with
      | .ok page after =>
        let kept := if engine.config.flush = .retain then engine.buffers else after.buffers
        let after := after.report (.compiled mount.length (Text.utf8Size page))
        .ok page { after with buffers := kept, lastRendered := some page, phase := .compiled }
      | .error cause after =>
        .error (.render cause) { after with buffers := engine.buffers, phase := engine.phase }

/-- Renders the roots, or reports why that failed. -/
def render (mount : List Element) (head : HeadConfig) : Action Bool :=
  fun engine =>
    match tryRender mount head engine with
    | .ok _ engine => .ok true engine
    | .error cause engine => .ok false (engine.report (.renderFailed cause))

end Action

end PageCompiler
