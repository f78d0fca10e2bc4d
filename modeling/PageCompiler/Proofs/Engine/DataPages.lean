import PageCompiler.Proofs.Engine.PageText
import PageCompiler.Proofs.Engine.Wiring
import PageCompiler.Proofs.Script.ClientData

/-!
# Data in pages

A page that is rendered ends with the client script, and the references and the client state that were
pending are read back from it. This takes a body that is still in its page: nothing puts it back there once
it has been appended elsewhere.
-/

namespace PageCompiler

open Markup Steps

/-! ## Keys -/

namespace Buffers

variable {buffers : Buffers}

/-- Buffers that hold no name of a reference and no key of the client state twice. -/
structure Distinct (buffers : Buffers) : Prop where
  references : buffers.references.keys.Nodup
  state : buffers.state.keys.Nodup

theorem Distinct.add (distinct : buffers.Distinct) (what : Registration) :
    (buffers.add what).Distinct := by
  cases what with
  | style rule => exact { distinct with }
  | behavior entry => exact { distinct with }
  | reference name element =>
    exact { distinct with references := Entries.nodup_keys_put distinct.references name element }
  | state key value =>
    refine { distinct with state := ?_ }
    show (buffers.state.set key value).1.keys.Nodup
    rw [ClientState.set]
    split
    · exact distinct.state
    · exact Entries.nodup_keys_put distinct.state key value

theorem Distinct.addAll (distinct : buffers.Distinct) (what : List Registration) :
    (what.foldl Buffers.add buffers).Distinct := by
  induction what generalizing buffers with
  | nil => exact distinct
  | cons first rest ih => exact ih (distinct.add first)

theorem IsSpent.distinct (spent : buffers.IsSpent) : buffers.Distinct where
  references := by
    rw [spent.references]
    exact List.nodup_nil
  state := by
    rw [spent.state]
    exact List.nodup_nil

end Buffers

namespace Engine

variable {start engine : Engine} {given held : Held} {hookings : List Hooking}

theorem distinct_of_command (distinct : engine.buffers.Distinct) (held : Held) (command : Command) :
    (Action.leaves (command.action held) engine).buffers.Distinct := by
  by_cases isRender : command.IsRender
  · rcases buffers_of_isRender isRender held with same | spent
    · rwa [same]
    · exact spent.distinct
  · rw [(Command.adds isRender held engine).buffers]
    exact distinct.addAll _

/-- Whatever a caller does, no name and no key is pending twice. -/
theorem Leads.distinct (distinct : start.buffers.Distinct)
    (leads : start.Leads given hookings engine held) : engine.buffers.Distinct := by
  induction leads with
  | nothing => exact distinct
  | received _ _ ih => exact ih
  | noted _ _ ih => exact ih
  | performed _ run ih =>
    rw [leaves_of_perform run]
    exact distinct_of_command ih _ _

end Engine

/-! ## What is pending during a render -/

namespace RenderStep

variable {claim : Buffers → Prop}

theorem keeps_addToHead (head : NodeId) (tag : Text) (attributes : List (Text × Text)) :
    Preserves (fun engine => claim engine.buffers) (addToHead head tag attributes) fun _ => True :=
  (keeps_edit _).andThen fun _ => (keeps_edit _).andThen fun _ => (keeps_edit _).andThen fun _ =>
    Preserves.result trivial

theorem keeps_resetShell :
    Preserves (fun engine => claim engine.buffers) resetShell fun _ => True := by
  have created : Preserves (fun engine => claim engine.buffers) createShell fun _ => True :=
    (keeps_edit _).andThen fun _ => (keeps_edit _).andThen fun _ => (keeps_edit _).andThen fun _ =>
      (keeps_edit _).andThen fun _ => (keeps_edit _).andThen fun _ => Preserves.result trivial
  have ended (shell : Shell) : Preserves (fun engine => claim engine.buffers) (do
      modify fun engine => { engine with shell := some shell }
      return shell : RenderStep Shell) fun _ => True :=
    (keeps_update fun _ => by rfl).andThen fun _ => Preserves.result trivial
  have emptied (shell : Shell) :
      Preserves (fun engine => claim engine.buffers) (emptyPage shell) fun _ => True := by
    unfold emptyPage
    refine (keeps_edit _).andThen fun former => (keeps_edit _).andThen fun _ =>
      (keeps_edit _).andThen fun _ => ?_
    split
    · exact (keeps_edit _).andThen fun _ => ended _
    · exact ended _
  refine Preserves.state.andThen fun engine => ?_
  split
  · exact emptied _
  · exact created.andThen emptied

theorem keeps_buildHead (styled : ∀ buffers, claim buffers → claim { buffers with styles := [] })
    (node : NodeId) (head : HeadConfig) :
    Preserves (fun engine => claim engine.buffers) (buildHead node head) fun _ => True := by
  have each {α : Type} (values : List α) (tag : Text) (attributes : α → List (Text × Text)) :
      Preserves (fun engine => claim engine.buffers) (values.forM fun value => do
        let _ ← addToHead node tag (attributes value)) fun _ => True :=
    Preserves.loop fun value _ => (keeps_addToHead _ _ _).andThen fun _ => Preserves.result trivial
  have last : Preserves (fun engine => claim engine.buffers) (do
      let style ← addToHead node "style".toList []
      let css := (← get).buffers.styles.text
      modify fun engine => { engine with buffers.styles := [] }
      if !css.isEmpty then
        edit (Edit.setTextContent style css) : RenderStep Unit) fun _ => True := by
    refine (keeps_addToHead _ _ _).andThen fun style => Preserves.state.andThen fun engine => ?_
    refine (Preserves.update fun engine holds => styled engine.buffers holds).andThen fun _ => ?_
    exact Preserves.branch (fun _ => keeps_edit _) fun _ => Preserves.result trivial
  refine (keeps_addToHead _ _ _).andThen fun _ => (keeps_addToHead _ _ _).andThen fun title =>
    Preserves.state.andThen fun engine => (keeps_edit _).andThen fun _ => ?_
  refine Preserves.guarded (keeps_addToHead _ _ _) ?_
  refine (each _ _ _).andThen fun _ => (each _ _ _).andThen fun _ => (each _ _ _).andThen fun _ => ?_
  split
  · exact (keeps_addToHead _ _ _).andThen fun _ => last
  · exact last

/-- Up to the client script, a render changes only the styles that are pending. -/
theorem keeps_prepare (claim : Buffers → Prop)
    (styled : ∀ buffers, claim buffers → claim { buffers with styles := [] }) (roots : List NodeId)
    (head : HeadConfig) :
    Preserves (fun engine => claim engine.buffers) (prepare roots head) fun _ => True := by
  refine Preserves.state.andThen fun engine => ?_
  have rest : Preserves (fun engine => claim engine.buffers) (do
      let shell ← resetShell
      edit (Edit.setAttribute shell.html "lang".toList (head.language.getD defaultLanguage))
      buildHead shell.head head
      edit (roots.forM fun root => Edit.appendChild shell.body root)
      return shell) fun _ => True :=
    keeps_resetShell.andThen fun _ => (keeps_edit _).andThen fun _ =>
      (keeps_buildHead styled _ head).andThen fun _ => (keeps_edit _).andThen fun _ =>
        Preserves.result trivial
  split
  · exact Preserves.failure _
  · exact rest

end RenderStep

/-! ## The end of a page -/

namespace Markup

/-- The last child of an element stands right before the end tag. -/
theorem Tree.markup_concat {data : ElementData} (fillable : isVoidElement data.tag = false)
    (children : List Tree) {last : Tree} (element : last.IsElement) :
    markup (.element data (children ++ [last])) =
      startTag data ++ markupAll data.tag children ++ (markup last ++ endTag data.tag) := by
  obtain ⟨own, inside, rfl⟩ := element
  rw [markup_element fillable, markupAll_append, markupAll, markupAll, markupIn_element, List.append_nil,
    List.append_assoc, List.append_assoc, List.append_assoc]

/-- Two ends of a text that are of the same length are the same. -/
theorem eq_of_suffix {first second whole : Text} (one : first <:+ whole) (other : second <:+ whole)
    (same : first.length = second.length) : first = second :=
  (List.suffix_of_suffix_length_le one other same.le).eq_of_length same

/-- The start tag of a page ends with the value of an attribute, or with its name. -/
theorem Tree.startTag_suffix {data : ElementData} (tag : data.tag = "html".toList) :
    ['"', '>'] <:+ startTag data ∨ ['l', '>'] <:+ startTag data := by
  rw [startTag, tag]
  rcases data.foldedAttributes.eq_nil_or_concat with none | ⟨attributes, ⟨name, value⟩, some⟩
  · rw [none]
    exact Or.inr ⟨"<htm".toList, by decide⟩
  · rw [some]
    refine Or.inl ⟨'<' :: ("html".toList ++ attributes.flatMap (fun pair =>
      attributeText pair.1 pair.2) ++ ' ' :: (name ++ ['=', '"'] ++ escapeAttribute value)), ?_⟩
    simp [attributeText]

/-- The start tag of a page does not end with the end of a body. -/
theorem Tree.not_suffix_startTag {data : ElementData} (tag : data.tag = "html".toList) (before : Text) :
    ¬ "</body>".toList <:+ before ++ startTag data := by
  intro ends
  have last {ending : Text} (ended : ending <:+ startTag data) (two : ending.length = 2) :
      ending = "y>".toList := by
    have inside : "y>".toList <:+ "</body>".toList := by decide
    exact eq_of_suffix (ended.trans (List.suffix_append before _)) (inside.trans ends) two
  rcases Tree.startTag_suffix tag with quoted | plain
  · exact absurd (last quoted rfl) (by decide)
  · exact absurd (last plain rfl) (by decide)

namespace Document

variable {document : Document}

theorem exists_element?_of_tag? {id : NodeId} {tag : Text} (found : document.tag? id = some tag) :
    ∃ data, document.element? id = some data ∧ data.tag = tag :=
  Option.map_eq_some_iff.mp found

theorem Forest.exists_tree?_of_tag? (forest : document.Forest) {id : NodeId} {tag : Text}
    (found : document.tag? id = some tag) :
    ∃ data, data.tag = tag ∧
      document.tree? id = some (.element data (document.trees (document.children id))) := by
  obtain ⟨data, element, same⟩ := exists_element?_of_tag? found
  exact ⟨data, same, forest.tree?_element element⟩

/-- A page up to what is last in its body. -/
def pageStart (html body : ElementData) (before inside : List Tree) : Text :=
  "<!DOCTYPE html>\n".toList ++ (Tree.startTag html ++ Tree.markupAll "html".toList before) ++
    (Tree.startTag body ++ Tree.markupAll "body".toList inside)

/-- A page whose last part is the body is written up to the script that is last in the body. -/
theorem Forest.page_eq (forest : document.Forest) {html body script : NodeId}
    {htmlData bodyData : ElementData}
    (htmlFound : document.element? html = some htmlData) (htmlTag : htmlData.tag = "html".toList)
    (bodyFound : document.element? body = some bodyData) (bodyTag : bodyData.tag = "body".toList)
    {before kids : List NodeId} (parts : document.children html = before ++ [body])
    (inside : document.children body = kids ++ [script]) {source : Text}
    (scriptTree : document.tree? script = some (Tree.filled { tag := "script".toList } source)) :
    document.page html = pageStart htmlData bodyData (document.trees before) (document.trees kids) ++
      "<script>".toList ++ shielded "script".toList source ++ "</script></body></html>".toList := by
  have bodyTree := forest.tree?_element bodyFound
  rw [inside, trees_append, trees_singleton scriptTree] at bodyTree
  have pageTree := forest.tree?_element htmlFound
  rw [parts, trees_append, trees_singleton bodyTree] at pageTree
  have htmlFillable : isVoidElement htmlData.tag = false := by
    rw [htmlTag]
    decide
  have bodyFillable : isVoidElement bodyData.tag = false := by
    rw [bodyTag]
    decide
  have element : (Tree.filled { tag := "script".toList } source).IsElement := ⟨_, _, rfl⟩
  have closing : "</script>".toList ++ (Tree.endTag "body".toList ++ Tree.endTag "html".toList) =
      "</script></body></html>".toList := by decide
  unfold page pageStart
  generalize "<!DOCTYPE html>\n".toList = doctype
  rw [markup_of_tree? pageTree, Tree.markup_concat htmlFillable _ ⟨_, _, rfl⟩,
    Tree.markup_concat bodyFillable _ element, Tree.markup_script, htmlTag, bodyTag, ← closing]
  simp only [List.append_assoc]

end Document

end Markup

/-- A document with the elements around the roots and the client script in the body, which may be
outside of the page. -/
structure Shell.Closes (shell : Shell) (parts : List NodeId) (source : Text) (document : Document) :
    Prop where
  forest : document.Forest
  html : document.tag? shell.html = some "html".toList
  head : document.tag? shell.head = some "head".toList
  body : document.tag? shell.body = some "body".toList
  parts : document.children shell.html = parts
  script : ∃ kids script, document.children shell.body = kids ++ [script] ∧
    document.tree? script = some (Tree.filled { tag := "script".toList } source)

namespace Shell.Closes

variable {shell : Shell} {source : Text} {document : Document}

/-- A page whose last part is the body ends with what is last in the body. -/
theorem exists_page {before : List NodeId}
    (closes : shell.Closes (before ++ [shell.body]) source document) :
    ∃ start, document.page shell.html = start ++ "<script>".toList ++ shielded "script".toList source ++
      "</script></body></html>".toList := by
  obtain ⟨kids, script, inside, scriptTree⟩ := closes.script
  obtain ⟨bodyData, body, bodyTag⟩ := Document.exists_element?_of_tag? closes.body
  obtain ⟨htmlData, html, htmlTag⟩ := Document.exists_element?_of_tag? closes.html
  exact ⟨_, closes.forest.page_eq html htmlTag body bodyTag closes.parts inside scriptTree⟩

/-- A page without its body does not end with the end of a body. -/
theorem not_suffix_page {parts : List NodeId} (closes : shell.Closes parts source document)
    (fewer : parts.Sublist [shell.head]) :
    ¬ "</body></html>".toList <:+ document.page shell.html := by
  obtain ⟨htmlData, htmlTag, pageTree⟩ := closes.forest.exists_tree?_of_tag? closes.html
  have htmlFillable : isVoidElement htmlData.tag = false := by
    rw [htmlTag]
    decide
  have closing : "</body></html>".toList = "</body>".toList ++ Tree.endTag "html".toList := by decide
  rw [closes.parts] at pageTree
  unfold Document.page
  generalize "<!DOCTYPE html>\n".toList = doctype
  rcases List.sublist_singleton.mp fewer with rfl | rfl
  · rw [Document.markup_of_tree? pageTree, Document.trees_nil, Tree.markup_element htmlFillable, htmlTag,
      closing, Tree.markupAll, List.append_nil, ← List.append_assoc, List.suffix_append_inj_of_length_eq rfl]
    exact fun ends => Tree.not_suffix_startTag htmlTag doctype ends.1
  · obtain ⟨headData, headTag, headTree⟩ := closes.forest.exists_tree?_of_tag? closes.head
    have headFillable : isVoidElement headData.tag = false := by
      rw [headTag]
      decide
    rw [Document.trees_singleton headTree, ← List.nil_append [Tree.element _ _]] at pageTree
    rw [Document.markup_of_tree? pageTree, Tree.markup_concat htmlFillable _ ⟨_, _, rfl⟩,
      Tree.markup_element headFillable, htmlTag, headTag, closing, ← List.append_assoc, ← List.append_assoc,
      ← List.append_assoc, List.suffix_append_inj_of_length_eq rfl]
    exact fun ends => absurd (eq_of_suffix ends.1 (List.suffix_append _ _) rfl) (by decide)

end Shell.Closes

/-! ## Renders -/

/-- The body may be watched to stay in its page once it is there. -/
theorem Frame.Fits.watching {frame : Frame} {document : Document} (fits : frame.Fits document)
    (stands : ∀ shell, frame.shell = some shell → document.parent? shell.body = some shell.html) :
    Frame.Fits { frame with whole := True } document :=
  { fits with
    shell := fun shell known => { fits.shell shell known with whole := fun _ => stands shell known } }

/-- The body may be watched not to get back to its page once it is gone. -/
theorem Frame.Fits.losing {frame : Frame} {document : Document} (fits : frame.Fits document)
    {shell : Shell} (known : frame.shell = some shell)
    (gone : document.parent? shell.body ≠ some shell.html) :
    Frame.Fits { frame with lost := True } document :=
  { fits with
    shell := fun shell known => { fits.shell shell known with }
    lost := fun _ => ⟨shell, known, gone⟩ }

/-- A page that has its body has it as its last part. -/
theorem Shell.Remains.exists_parts {shell : Shell} {frame : Frame} {document : Document}
    (remains : shell.Remains frame document) (member : shell.body ∈ document.children shell.html) :
    ∃ before, document.children shell.html = before ++ [shell.body] := by
  have parts := remains.parts
  generalize document.children shell.html = children at member parts
  cases parts with
  | cons _ rest =>
    rcases List.sublist_singleton.mp rest with rfl | rfl
    · cases member
    · exact ⟨[], rfl⟩
  | cons_cons _ rest =>
    rcases List.sublist_singleton.mp rest with rfl | rfl
    · exact absurd (List.mem_singleton.mp member) remains.body_ne_head
    · exact ⟨[shell.head], rfl⟩

/-- A page that does not have its body has at most its head. -/
theorem Shell.Remains.parts_sublist {shell : Shell} {frame : Frame} {document : Document}
    (remains : shell.Remains frame document) (gone : shell.body ∉ document.children shell.html) :
    (document.children shell.html).Sublist [shell.head] := by
  have parts := remains.parts
  generalize document.children shell.html = children at gone parts
  cases parts with
  | cons _ rest =>
    rcases List.sublist_singleton.mp rest with rfl | rfl
    · exact List.nil_sublist _
    · exact absurd (List.mem_singleton_self _) gone
  | cons_cons _ rest =>
    rcases List.sublist_singleton.mp rest with rfl | rfl
    · exact List.Sublist.refl _
    · exact absurd (List.mem_cons_of_mem _ (List.mem_singleton_self _)) gone

namespace Engine

variable {origin engine after : Engine} {frame : Frame} {shell : Shell} {page : Text}

/-- The last part of a render puts the client script into the body. -/
theorem Within.closes (within : origin.Within (frame.around shell) engine)
    (run : RenderStep.finish shell engine = .ok page after) :
    ∃ document : Document, page = document.page shell.html ∧
      shell.Closes (engine.document.children shell.html) (clientScript engine.config engine.buffers)
        document := by
  have known : (frame.around shell).shell = some shell := rfl
  have remains := within.fits.shell shell known
  have old {id : NodeId} (part : (frame.around shell).IsPart id) : id < engine.document.slots.size :=
    within.fits.lt_size_of_kept (Or.inr part)
  have htmlOld := old (Frame.Fits.isPart_html known)
  have bodyOld := old (Frame.Fits.isPart_body known)
  obtain ⟨same, _, forest, kept, scriptTree⟩ := RenderStep.finish_eq_ok within.fits.sound.forest bodyOld run
  refine ⟨after.document, same, forest, ?_, ?_, ?_, ?_, engine.document.children shell.body,
    engine.document.slots.size, ?_, scriptTree⟩
  · exact (Document.tag?_congr (kept _ htmlOld).1).trans remains.html
  · exact (Document.tag?_congr (kept _ (old (Frame.Fits.isPart_head known))).1).trans remains.head
  · exact (Document.tag?_congr (kept _ bodyOld).1).trans remains.body
  · rw [(kept _ htmlOld).2, if_neg remains.body_ne_html.symm, List.append_nil]
  · rw [(kept _ bodyOld).2, if_pos rfl]

/-- What a page ends with: a script that does not end early, in which the references and the client state
that were pending are found. -/
def EndsWithData (engine : Engine) (page : Text) : Prop :=
  ∃ start script, page = start ++ "<script>".toList ++ script ++ "</script></body></html>".toList ∧
    holdsEndTag "script".toList script = false ∧
    Bootstrap.readData script = some (engine.buffers.references.value, engine.buffers.state.value)

theorem EndsWithData.suffix (ends : engine.EndsWithData page) : "</body></html>".toList <:+ page := by
  obtain ⟨start, script, rfl, _⟩ := ends
  have closing : "</script></body></html>".toList = "</script>".toList ++ "</body></html>".toList := by
    decide
  rw [closing, ← List.append_assoc]
  exact List.suffix_append _ _

theorem membersProper_iff {members : List (Text × Json.Value)} :
    Json.Value.membersProper members = true ↔ ∀ member ∈ members, member.2.isProper = true := by
  induction members with
  | nil => simp [Json.Value.membersProper]
  | cons member rest ih => simp [Json.Value.membersProper, ih]

/-- The data of the client script is read from it, shrunk or not. -/
theorem readData_clientScript {buffers : Buffers} (distinct : buffers.Distinct)
    (proper : ∀ entry ∈ buffers.state, entry.2.isProper = true) (config : EngineConfig) :
    Bootstrap.readData (shielded "script".toList (clientScript config buffers)) =
      some (buffers.references.value, buffers.state.value) := by
  have properState : (Json.Value.object buffers.state).isProper = true := by
    rw [Json.Value.isProper, Bool.and_eq_true, decide_eq_true_iff]
    exact ⟨distinct.state, membersProper_iff.mpr proper⟩
  have properReferences : buffers.references.value.isProper = true := by
    rw [References.value, Json.Value.isProper, Bool.and_eq_true, decide_eq_true_iff]
    constructor
    · rw [Entries.keys, List.map_map]
      exact distinct.references
    · rw [membersProper_iff, List.forall_mem_map]
      exact fun _ _ => rfl
  have read := Bootstrap.readData_compose properReferences properState "script".toList
    buffers.behaviors.script config.exposeGlobals
  unfold clientScript
  dsimp only
  split
  · split
    · next short run => exact read.2 short run
    · exact read.1
  · exact read.1

/-- What is prepared stands within the frame of an engine that is watched, and of what is pending only the
styles are taken. -/
theorem Guards.prepared {users : NodeId → Prop} (guards : engine.Guards users) {whole lost : Prop}
    (fits : Frame.Fits { engine.frame users with whole, lost } engine.document) {roots : List NodeId}
    (given : ∀ root ∈ roots, users root) {head : HeadConfig} {shell : Shell} {prepared : Engine}
    (run : RenderStep.prepare roots head { engine with phase := .compiling } = .ok shell prepared) :
    engine.Within (Frame.around { engine.frame users with whole, lost } shell) prepared ∧
      prepared.buffers = { engine.buffers with styles := prepared.buffers.styles } := by
  have start : engine.Within { engine.frame users with whole, lost }
      { engine with phase := .compiling } :=
    { guards.within with fits }
  have kept := RenderStep.keeps_prepare
    (fun buffers => buffers = { engine.buffers with styles := buffers.styles })
    (fun _ same => congrArg (fun buffers : Buffers => { buffers with styles := [] }) same) roots head
    { engine with phase := .compiling } rfl
  rw [run] at kept
  exact ⟨(Within.prepare given head).ok start run, kept.1⟩

/-- A successful render of an engine that is watched prepares a page and finishes it. -/
theorem Guards.exists_prepared {users : NodeId → Prop} (guards : engine.Guards users) {whole lost : Prop}
    (fits : Frame.Fits { engine.frame users with whole, lost } engine.document) {mount : List Element}
    (given : ∀ root ∈ mount, engine.owns root = true → users root.node) {head : HeadConfig}
    (run : Action.tryRender mount head engine = .ok page after) :
    ∃ shell prepared last,
      engine.Within (Frame.around { engine.frame users with whole, lost } shell) prepared ∧
      RenderStep.finish shell prepared = .ok page last ∧
      prepared.buffers.references = engine.buffers.references ∧
      prepared.buffers.state = engine.buffers.state := by
  obtain ⟨own, last, compiled, _⟩ := Action.exists_compiled run
  rw [RenderStep.compile_eq_prepare] at compiled
  obtain ⟨shell, middle, prepareRun, finished⟩ := bind_run_eq_ok.mp compiled
  have roots : ∀ root ∈ mount.map Element.node, users root := by
    rw [List.forall_mem_map]
    exact fun root member => given root member (own root member)
  obtain ⟨within, kept⟩ := guards.prepared fits roots prepareRun
  refine ⟨shell, middle, last, within, finished, ?_, ?_⟩
  · rw [kept]
  · rw [kept]

/-- Whatever a caller does, a page that is rendered ends with the client script, and the references and
the client state that were pending are read back from it, exactly when the body has not been appended to
anything else. -/
theorem Leads.endsWithData_iff {uid : Nat} {config : EngineConfig} {entropy : UInt64} {held : Held}
    {hookings : List Hooking} (leads : (Engine.new uid config entropy).Leads {} hookings engine held)
    (proper : ∀ entry ∈ engine.buffers.state, entry.2.isProper = true)
    {mount : List Element} (given : ∀ root ∈ mount, root ∈ held.elements) {head : HeadConfig}
    (run : Action.tryRender mount head engine = .ok page after) :
    engine.EndsWithData page ↔
      ∀ shell, engine.shell = some shell → engine.document.parent? shell.body = some shell.html := by
  obtain ⟨users, guards, known⟩ := (leads.wired (wired_new uid config entropy)).1.guards
  have users_given : ∀ root ∈ mount, engine.owns root = true → users root.node :=
    fun root member => known root (given root member)
  constructor
  · intro ends shell shellKnown
    by_contra gone
    obtain ⟨later, prepared, last, within, finished, _⟩ :=
      guards.exists_prepared (guards.fits.losing shellKnown gone) users_given run
    obtain ⟨document, rfl, closes⟩ := within.closes finished
    obtain ⟨other, same, apart⟩ := within.fits.lost trivial
    cases same
    have forest := within.fits.sound.forest
    have fewer := (within.fits.shell later rfl).parts_sublist fun member =>
      apart (forest.linked.mp member)
    exact closes.not_suffix_page fewer ends.suffix
  · intro stands
    obtain ⟨shell, prepared, last, within, finished, sameReferences, sameState⟩ :=
      guards.exists_prepared (guards.fits.watching stands) users_given run
    obtain ⟨document, rfl, closes⟩ := within.closes finished
    have forest := within.fits.sound.forest
    have remains := within.fits.shell shell rfl
    obtain ⟨before, parts⟩ := remains.exists_parts (forest.linked.mpr (remains.whole trivial))
    rw [parts] at closes
    obtain ⟨start, ends⟩ := closes.exists_page
    have empty : (Engine.new uid config entropy).buffers.Distinct := ⟨List.nodup_nil, List.nodup_nil⟩
    have distinct : prepared.buffers.Distinct := by
      constructor
      · rw [sameReferences]
        exact (leads.distinct empty).references
      · rw [sameState]
        exact (leads.distinct empty).state
    refine ⟨start, _, ends, holdsEndTag_shielded (by decide) _, ?_⟩
    rw [readData_clientScript distinct, sameReferences, sameState]
    rwa [sameState]

/-- Whether a render gives a page with some property. -/
def rendersTo (mount : List Element) (holds : Text → Bool) (engine : Engine) : Bool :=
  match Action.tryRender mount {} engine with
  | .ok page _ => holds page
  | .error _ _ => false

theorem exists_page_of_rendersTo {mount : List Element} {holds : Text → Bool}
    (renders : engine.rendersTo mount holds = true) :
    ∃ page after, Action.tryRender mount {} engine = .ok page after ∧ holds page = true := by
  rw [rendersTo] at renders
  split at renders
  · next page after run => exact ⟨page, after, run, renders⟩
  · cases renders

/-- A second page ends with a reference and with texts that look like markup and code. -/
theorem endsWithData_iff_secondPage : ∃ hookings engine held page after,
    (Engine.new 0 {} 7).Leads {} hookings engine held ∧
      (∀ entry ∈ engine.buffers.state, entry.2.isProper = true) ∧
      Action.tryRender held.elements {} engine = .ok page after ∧ engine.shell.isSome ∧
      engine.buffers.references.keys = ["title".toList] ∧
      engine.buffers.state.keys = ["\"</script>/*\n".toList] ∧ engine.EndsWithData page := by
  obtain ⟨hookings, engine, held, leads, renders, proper, stands, shown, references, state⟩ :
      ∃ hookings engine held, (Engine.new 0 {} 7).Leads {} hookings engine held ∧
        (engine.rendersTo held.elements fun _ => true) = true ∧
        engine.buffers.state.all (fun entry => entry.2.isProper) = true ∧
        (engine.shell.all fun shell => engine.document.parent? shell.body = some shell.html) = true ∧
        engine.shell.isSome ∧ engine.buffers.references.keys = ["title".toList] ∧
        engine.buffers.state.keys = ["\"</script>/*\n".toList] := by
    let text := "\"</script>/*\n".toList
    have opened : (Engine.new 0 {} 7).Leads {} [] (Engine.new 0 {} 7) {} := .nothing
    obtain ⟨hookings, leads⟩ := opened.performsAll [.createElement "p".toList, .tryRender [0] {},
      .change 0 (.registerReference "title".toList),
      .setState text (.array [.string text, .number (.integer (-1))])]
    exact ⟨hookings, _, _, leads, by decide +kernel⟩
  obtain ⟨page, after, run, _⟩ := exists_page_of_rendersTo renders
  have properState := List.all_eq_true.mp proper
  refine ⟨hookings, engine, held, page, after, leads, properState, run, shown, references, state, ?_⟩
  refine (leads.endsWithData_iff properState (fun _ member => member) run).mpr fun shell known => ?_
  rw [known, Option.all_some, decide_eq_true_iff] at stands
  exact stands

/-- The next page lacks its body, and the script in it, once the body was appended to an element. -/
theorem page_can_lose_data : ∃ hookings engine held page after,
    (Engine.new 0 {} 7).Leads {} hookings engine held ∧ engine.buffers.state = [] ∧
      Action.tryRender [] {} engine = .ok page after ∧ ¬ engine.EndsWithData page := by
  obtain ⟨hookings, engine, held, leads, empty, renders⟩ :
      ∃ hookings engine held, (Engine.new 0 {} 7).Leads {} hookings engine held ∧
        engine.buffers.state.isEmpty = true ∧
        (engine.rendersTo [] fun page => !"</body></html>".toList.isSuffixOf page) = true := by
    have opened : (Engine.new 0 {} 7).Leads {} [] (Engine.new 0 {} 7) {} := .nothing
    obtain ⟨hookings, leads⟩ := (opened.noted 3).performsAll
      [.createElement "div".toList, .tryRender [] {}, .append 0 [.node 0]]
    exact ⟨hookings, _, _, leads, by decide +kernel⟩
  obtain ⟨page, after, run, lost⟩ := exists_page_of_rendersTo renders
  refine ⟨hookings, engine, held, page, after, leads, List.isEmpty_iff.mp empty, run, ?_⟩
  intro ends
  rw [List.isSuffixOf_iff_suffix.mpr ends.suffix] at lost
  cases lost

end Engine

end PageCompiler
