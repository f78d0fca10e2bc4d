import PageCompiler.Proofs.Engine.Lockstep

/-!
# Renders in lockstep

A render makes the same edits at two engines that are side by side, up to the script that it composes. What
comes after the page has been emptied only creates nodes, writes attributes of the html element and of new
ones, fills new elements and appends to the head and the body; it agrees with itself for every relation
between documents that these edits keep.
-/

namespace PageCompiler

open Markup Steps

/-- A relation between documents that is kept by the edits of a page: new nodes are loose, loose nodes may be
written, filled and appended to, and movable ones may be appended. Identifiers that are written must be
allowed. -/
structure PageEdits (related : Document → Document → Prop) (loose movable : NodeId → Prop)
    (names : NodeId → Text → Prop) : Prop where
  createElement : ∀ tag, Agrees related (Edit.createElement tag) (Edit.createElement tag) loose
  setAttribute : ∀ {id name value}, loose id → (Text.lowered name = "id".toList → names id value) →
    Agrees related (Edit.setAttribute id name value) (Edit.setAttribute id name value) fun _ => True
  setTextContent : ∀ {id} content, loose id →
    Agrees related (Edit.setTextContent id content) (Edit.setTextContent id content) fun _ => True
  appendChild : ∀ {parent child}, loose parent → movable child →
    Agrees related (Edit.appendChild parent child) (Edit.appendChild parent child) fun _ => True
  movable : ∀ id, loose id → movable id

/-- Every edit of a page keeps documents side by side. -/
theorem Leeway.pageEdits (leeway : Leeway) :
    PageEdits leeway.Beside (fun _ => True) (fun _ => True) leeway.names where
  createElement := agrees_createElement
  setAttribute _ permitted := agrees_setAttribute permitted
  setTextContent content _ := agrees_setTextContent _ content
  appendChild _ _ := agrees_appendChild _ _
  movable _ _ := trivial

/-- Whether the attributes of an element that is put into a head give it only identifiers that it may have,
whatever its node is. -/
def AttributesPermitted (names : NodeId → Text → Prop) (attributes : List (Text × Text)) : Prop :=
  ∀ pair ∈ attributes, Text.lowered pair.1 = "id".toList → ∀ node, names node pair.2

/-- Whether the tags that the settings of a head ask for have only identifiers that elements may have. -/
def HeadConfig.Permitted (names : NodeId → Text → Prop) (head : HeadConfig) : Prop :=
  ∀ attributes ∈ head.metaTags, AttributesPermitted names attributes

theorem attributesPermitted_of_ne {names : NodeId → Text → Prop} {attributes : List (Text × Text)}
    (other : ∀ name ∈ attributes.map Prod.fst, Text.lowered name ≠ "id".toList) :
    AttributesPermitted names attributes :=
  fun _ member same => absurd same (other _ (List.mem_map_of_mem member))

namespace RenderStep

/-- The stylesheet is put into the head and taken out of the buffers. -/
def addStyles (node : NodeId) : RenderStep Unit := do
  let style ← addToHead node "style".toList []
  let css := (← get).buffers.styles.text
  modify fun engine => { engine with buffers.styles := [] }
  if !css.isEmpty then
    edit (Edit.setTextContent style css)

/-- What is done to a page that has been emptied, up to the client script. -/
def fillPage (shell : Shell) (roots : List NodeId) (head : HeadConfig) : RenderStep Shell := do
  edit (Edit.setAttribute shell.html "lang".toList (head.language.getD defaultLanguage))
  buildHead shell.head head
  edit (roots.forM fun root => Edit.appendChild shell.body root)
  return shell

/-- A script that has been composed is put at the end of the body, and the page is written. -/
def placeScript (shell : Shell) (source : Text) : RenderStep Text := do
  let script ← edit (Edit.createElement "script".toList)
  edit (Edit.setTextContent script source)
  edit (Edit.appendChild shell.body script)
  modify fun engine => { engine with shell := some { shell with script := some script } }
  let page := (← get).document.page shell.html
  modify (Engine.report (.serialized (Text.utf8Size page)))
  return page

theorem finish_eq (shell : Shell) : finish shell = composeScript >>= placeScript shell := rfl

end RenderStep

namespace Engine.Beside

section Page

variable {related : Document → Document → Prop} {loose movable : NodeId → Prop}
  {names : NodeId → Text → Prop} {origin : Engine.Origin} (edits : PageEdits related loose movable names)

include edits

theorem addToHead {node : NodeId} (inside : loose node) (tag : Text) {attributes : List (Text × Text)}
    (permitted : AttributesPermitted names attributes) :
    Agrees (Engine.Beside related origin) (RenderStep.addToHead node tag attributes)
      (RenderStep.addToHead node tag attributes) loose := by
  refine (edit (edits.createElement tag)).bind fun new fresh => ?_
  refine (edit (edits.appendChild inside (edits.movable new fresh))).andThen fun _ => ?_
  refine (edit (Agrees.loop fun pair member => ?_)).andThen fun _ => Agrees.result fresh
  exact edits.setAttribute fresh fun same => permitted pair member same new

theorem addAll {α : Type} {node : NodeId} (inside : loose node) (tag : Text) (values : List α)
    {attributes : α → List (Text × Text)}
    (permitted : ∀ value ∈ values, AttributesPermitted names (attributes value)) :
    Agrees (Engine.Beside related origin)
      (values.forM fun value => do let _ ← RenderStep.addToHead node tag (attributes value))
      (values.forM fun value => do let _ ← RenderStep.addToHead node tag (attributes value))
      fun _ => True :=
  Agrees.loop fun value member =>
    (addToHead edits inside tag (permitted value member)).andThen fun _ => Agrees.result trivial

theorem addStyles {node : NodeId} (inside : loose node) :
    Agrees (Engine.Beside related origin) (RenderStep.addStyles node) (RenderStep.addStyles node)
      fun _ => True := by
  refine (addToHead edits inside _ (attributesPermitted_of_ne (by decide))).bind fun style fresh => ?_
  refine Matches.read fun first second beside => ?_
  rw [beside.buffers]
  refine (Agrees.update fun first second beside => ?_).andThen fun _ => ?_
  · exact { beside with buffers := by rw [beside.buffers] }
  · exact Agrees.branch (fun _ => edit (edits.setTextContent _ fresh)) fun _ => Agrees.result trivial

theorem buildHead {node : NodeId} (inside : loose node) {head : HeadConfig}
    (permitted : head.Permitted names) :
    Agrees (Engine.Beside related origin) (RenderStep.buildHead node head) (RenderStep.buildHead node head)
      fun _ => True := by
  have plain {attributes : List (Text × Text)}
      (other : ∀ name ∈ attributes.map Prod.fst, Text.lowered name ≠ "id".toList) :
      AttributesPermitted names attributes := attributesPermitted_of_ne other
  have linked (relation reference : Text) :
      AttributesPermitted names (RenderStep.linkAttributes relation reference) :=
    plain (show ∀ name ∈ ["rel".toList, "href".toList], Text.lowered name ≠ "id".toList by decide)
  refine (addToHead edits inside _ (plain (by decide))).andThen fun _ => ?_
  refine (addToHead edits inside _ (plain (by decide))).bind fun title fresh => ?_
  refine Matches.read fun first second beside => ?_
  rw [beside.otherConfig, beside.config]
  refine (edit (edits.setTextContent _ fresh)).andThen fun _ => ?_
  have viewport : AttributesPermitted names RenderStep.defaultViewport :=
    plain (show ∀ name ∈ ["name".toList, "content".toList], Text.lowered name ≠ "id".toList by decide)
  refine Agrees.guarded (addToHead edits inside _ viewport).forget ?_
  refine (addAll edits inside "meta".toList head.metaTags permitted).andThen fun _ => ?_
  have sourced (source : Text) : AttributesPermitted names [("src".toList, source)] :=
    plain (show ∀ name ∈ ["src".toList], Text.lowered name ≠ "id".toList by decide)
  refine (addAll edits inside "script".toList head.scripts fun source _ => sourced source).andThen fun _ => ?_
  refine (addAll edits inside "link".toList head.stylesheets fun reference _ =>
    linked "stylesheet".toList reference).andThen fun _ => ?_
  split
  · exact (addToHead edits inside _ (linked _ _)).andThen fun _ => addStyles edits inside
  · exact addStyles edits inside

theorem fillPage {shell : Shell} {roots : List NodeId} {head : HeadConfig} (html : loose shell.html)
    (inHead : loose shell.head) (body : loose shell.body) (mountable : ∀ root ∈ roots, movable root)
    (permitted : head.Permitted names) :
    Agrees (Engine.Beside related origin) (RenderStep.fillPage shell roots head)
      (RenderStep.fillPage shell roots head) fun result => result = shell := by
  refine (edit (edits.setAttribute html fun same => absurd same (by decide))).andThen fun _ => ?_
  refine (buildHead edits inHead permitted).andThen fun _ => ?_
  refine (edit (Agrees.loop fun root member => ?_)).andThen fun _ => Agrees.result rfl
  exact edits.appendChild body (mountable root member)

/-- One script is put into both pages. -/
theorem placeScript {shell : Shell} (body : loose shell.body) (source : Text) :
    Matches (Engine.Beside related origin) (RenderStep.placeScript shell source)
      (RenderStep.placeScript shell source) (fun _ _ => Engine.Beside related origin)
      (Engine.Beside related origin) := by
  refine (edit (edits.createElement _)).bind fun script fresh => ?_
  refine (edit (edits.setTextContent source fresh)).andThen fun _ => ?_
  refine (edit (edits.appendChild body (edits.movable script fresh))).andThen fun _ => ?_
  exact fun _ _ beside => { beside with shell := rfl }

end Page

/-- Engines with the same settings compose the same script. -/
theorem composeScript {related : Document → Document → Prop} {origin : Engine.Origin}
    (alike : origin.minify = origin.config.minifyScript) :
    Agrees (Engine.Beside related origin) RenderStep.composeScript RenderStep.composeScript
      fun _ => True := by
  intro first second beside
  obtain ⟨journal, run⟩ := RenderStep.composeScript_run first
  obtain ⟨otherJournal, otherRun⟩ := RenderStep.composeScript_run second
  have same : clientScript second.config second.buffers =
      clientScript first.config first.buffers := by
    rw [beside.otherConfig, beside.config, beside.buffers, alike]
  rw [run, otherRun]
  exact ⟨same, trivial, { beside with buffers := congrArg (Buffers.mk ·.styles [] [] []) beside.buffers }⟩

/-! ## Emptying the page -/

section Shells

variable {leeway : Leeway} {origin : Engine.Origin}

theorem createShell : Agrees (Engine.Beside leeway.Beside origin) RenderStep.createShell
    RenderStep.createShell fun _ => True := by
  have created (tag : Text) : Agrees (Engine.Beside leeway.Beside origin)
      (RenderStep.edit (Edit.createElement tag)) (RenderStep.edit (Edit.createElement tag))
      fun _ => True := edit (Leeway.agrees_createElement tag)
  have appended (parent child : NodeId) : Agrees (Engine.Beside leeway.Beside origin)
      (RenderStep.edit (Edit.appendChild parent child)) (RenderStep.edit (Edit.appendChild parent child))
      fun _ => True := edit (Leeway.agrees_appendChild parent child)
  refine (created _).andThen fun html => (created _).andThen fun head => (created _).andThen fun body => ?_
  exact (appended html head).andThen fun _ => (appended html body).andThen fun _ => Agrees.result trivial

theorem emptyPage (shell : Shell) : Agrees (Engine.Beside leeway.Beside origin)
    (RenderStep.emptyPage shell) (RenderStep.emptyPage shell) fun _ => True := by
  have ended : Agrees (Engine.Beside leeway.Beside origin) (do
      modify fun engine => { engine with shell := some { shell with script := none } }
      return { shell with script := none } : RenderStep Shell) (do
      modify fun engine => { engine with shell := some { shell with script := none } }
      return { shell with script := none }) fun _ => True :=
    (Agrees.update fun _ _ beside => { beside with shell := rfl }).andThen fun _ => Agrees.result trivial
  unfold RenderStep.emptyPage
  refine (edit (Leeway.agrees_clearChildren _)).andThen fun former => ?_
  refine (edit (Agrees.loop fun child _ => Leeway.agrees_remove child)).andThen fun _ => ?_
  refine (edit (Leeway.agrees_clearChildren _)).andThen fun _ => ?_
  split
  · exact (edit (Leeway.agrees_remove _)).andThen fun _ => ended
  · exact ended

theorem resetShell : Agrees (Engine.Beside leeway.Beside origin) RenderStep.resetShell
    RenderStep.resetShell fun _ => True := by
  rw [RenderStep.resetShell_eq]
  refine Matches.read fun first second beside => ?_
  rw [beside.shell]
  split
  · exact emptyPage _
  · exact createShell.andThen fun shell => emptyPage shell

theorem mountProblem {first second : Document} (beside : leeway.Beside first second) (body : Option NodeId)
    (before roots : List NodeId) :
    RenderStep.mountProblem second body before roots = RenderStep.mountProblem first body before roots := by
  induction roots generalizing before with
  | nil => rfl
  | cons root rest ih =>
    rw [RenderStep.mountProblem, RenderStep.mountProblem, beside.element?, beside.parents, ih]
    simp only [beside.tag?]

/-- Both pages are prepared, or neither. -/
theorem prepare (roots : List NodeId) {head : HeadConfig} (permitted : head.Permitted leeway.names) :
    Agrees (Engine.Beside leeway.Beside origin) (RenderStep.prepare roots head)
      (RenderStep.prepare roots head) fun _ => True := by
  refine Matches.read fun first second beside => ?_
  rw [beside.shell, mountProblem beside.document]
  split
  · exact Agrees.failure _
  · refine resetShell.andThen fun shell => ?_
    have filled : Agrees (Engine.Beside leeway.Beside origin) (RenderStep.fillPage shell roots head)
        (RenderStep.fillPage shell roots head) fun result => result = shell :=
      fillPage leeway.pageEdits trivial trivial trivial (fun _ _ => trivial) permitted
    exact filled.forget

/-- An engine beside itself stays so through a render. -/
theorem compile (alike : origin.minify = origin.config.minifyScript) (roots : List NodeId)
    {head : HeadConfig} (permitted : head.Permitted leeway.names) :
    Matches (Engine.Beside leeway.Beside origin) (RenderStep.compile roots head)
      (RenderStep.compile roots head) (fun _ _ => Engine.Beside leeway.Beside origin)
      (Engine.Beside leeway.Beside origin) := by
  rw [RenderStep.compile_eq_prepare]
  refine (prepare roots permitted).andThen fun shell => ?_
  exact (composeScript alike).andThen fun source => placeScript leeway.pageEdits trivial source

end Shells

section Renders

variable {leeway : Leeway} {origin : Engine.Origin} {engine : Engine} {mount : List Element}
  {head : HeadConfig}

theorem tryRender (beside : engine.Beside leeway.Beside origin engine)
    (alike : origin.minify = origin.config.minifyScript) (permitted : head.Permitted leeway.names) :
    (Action.leaves (Action.tryRender mount head) engine).Beside leeway.Beside origin
      (Action.leaves (Action.tryRender mount head) engine) := by
  by_cases own : ∀ root ∈ mount, engine.owns root = true
  · have start : Engine.Beside leeway.Beside origin { engine with phase := .compiling }
        { engine with phase := .compiling } := { beside with phase := rfl }
    have ends := compile alike (mount.map Element.node) permitted _ _ start
    rw [Action.leaves, Action.tryRender_eq own]
    generalize RenderStep.compile (mount.map Element.node) head { engine with phase := .compiling } = result
      at ends ⊢
    cases result with
    | ok page after => exact { ends with buffers := rfl, phase := rfl, rendered := rfl }
    | error cause after => exact { ends.2 with buffers := rfl, phase := rfl }
  · obtain ⟨cause, run⟩ := Action.tryRender_run_foreign own head
    rw [Action.leaves, run]
    exact beside

theorem render (beside : engine.Beside leeway.Beside origin engine)
    (alike : origin.minify = origin.config.minifyScript) (permitted : head.Permitted leeway.names) :
    (Action.leaves (Action.render mount head) engine).Beside leeway.Beside origin
      (Action.leaves (Action.render mount head) engine) := by
  have tried := @tryRender _ _ _ mount _ beside alike permitted
  rw [Action.leaves] at tried ⊢
  rw [Action.render]
  cases run : Action.tryRender mount head engine with
  | ok page after =>
    rw [run] at tried
    exact tried
  | error cause after =>
    rw [run] at tried
    exact { tried with }

end Renders

end Engine.Beside

end PageCompiler
