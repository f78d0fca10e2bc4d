import PageCompiler.Proofs.Blueprint.Mirrors

/-!
# Pages of blueprints

Whenever a blueprint is built and rendered, the page reads what its draft says, whatever the engine had been
used for before. By induction on the tree, each part fills the element that it is built in as it is drafted,
and leaves what was there before as it was.
-/

namespace PageCompiler

open Markup Steps

/-! ## Actions that succeed -/

namespace Action

variable {engine after : Engine} {host element : Element} {item : Item}

/-- Whatever becomes of an item, the engine is as the attempt to attach it left it, but for a report. -/
theorem attach_of_appendItem (run : appendItem host item engine = .ok ⟨⟩ after) :
    ∃ problem between, attach host item engine = .ok problem between ∧
      (after = between ∨ ∃ event, after = between.report event) := by
  obtain ⟨problem, between, attached, _⟩ := bind_run_eq_ok.mp run
  refine ⟨problem, between, attached, ?_⟩
  cases problem with
  | none =>
    rw [appendItem_run_accepted attached] at run
    cases run
    exact Or.inl rfl
  | some cause =>
    rcases appendItem_run_refused attached with ⟨error, failed⟩ | ⟨event, reported⟩
    · rw [failed] at run
      cases run
    · rw [reported] at run
      cases run
      exact Or.inr ⟨event, rfl⟩

theorem eq_collect_of_tryDefineStyle {name : Text} {declarations : Declarations} {raw : Bool}
    (run : tryDefineStyle name declarations raw engine = .ok ⟨⟩ after) :
    after = (Registration.ofRule (Style.ruleOf name declarations raw)).foldl Engine.collect engine := by
  cases accepted : Style.ruleOf name declarations raw with
  | ok rule =>
    rw [tryDefineStyle_run accepted] at run
    cases run
    rfl
  | error cause =>
    rw [tryDefineStyle_run_refused accepted] at run
    cases run

theorem eq_collect_of_onLoad {handler : Handler} (run : onLoad handler engine = .ok ⟨⟩ after) :
    after = engine.collect (.behavior (.lifecycle handler)) := by
  cases checked : handler.validate with
  | ok _ =>
    rw [onLoad_run checked] at run
    cases run
    rfl
  | error cause =>
    rw [onLoad_run_invalid checked] at run
    cases run

end Action

namespace Engine

open Blueprint Blueprint.Properties

variable {origin engine after : Engine} {draft : Draft} {data : ElementData} {host element : Element}

theorem Follows.appendItem {item : Item} {document : Document} {problem : Option ChildError}
    (follows : origin.Follows draft engine.document engine)
    (attached : Action.attach host item engine = .ok problem { engine with document := document })
    (run : Action.appendItem host item engine = .ok ⟨⟩ after) : origin.Follows draft document after := by
  obtain ⟨_, _, ran, ends⟩ := Action.attach_of_appendItem run
  rw [attached] at ran
  cases ran
  rcases ends with rfl | ⟨event, rfl⟩
  · exact follows.withDocument document
  · exact (follows.withDocument document).report event

/-- A text that is appended is written out, unless the element can have no content. -/
theorem fills_appendText (forest : engine.document.Forest)
    (follows : origin.Follows draft engine.document engine)
    (found : engine.document.element? host.node = some data)
    (orphan : engine.document.parent? host.node = none) (content : Text)
    (run : Action.append host (.text content) engine = .ok ⟨⟩ after) :
    origin.Fills engine.document host.node data (Tree.contentText (some data.tag) content) draft after := by
  cases content with
  | nil =>
    cases run
    exact follows.fills (.none forest found orphan) fun _ => (Tree.contentText_nil _).symm
  | cons first rest =>
    obtain ⟨_, between, run, ends⟩ := bind_run_eq_ok.mp run
    cases ends
    cases fillable : isVoidElement data.tag with
    | true =>
      have closed : ¬ engine.document.MayHost host.node := by
        rintro ⟨other, same, content⟩
        rw [found, Option.some.injEq] at same
        rw [← same, fillable] at content
        cases content
      obtain ⟨_, refused⟩ := Action.attach_text_run_refused forest closed (first :: rest)
      have still := follows.appendItem refused run
      exact still.fills (forest.grows_discarded found orphan _) (by simp [fillable])
    | false =>
      have grafted := forest.grows_grafted found orphan fillable (first :: rest)
      have still := follows.appendItem
        (Action.attach_text_run forest ⟨data, found, fillable⟩ (first :: rest)) run
      refine still.fills grafted fun _ => ?_
      rw [Document.trees_new_text, Tree.markupAll_singleton, Tree.markupIn]

/-- Whether an engine stands where the draft of an element does, and has built the element without touching
anything that was there before. -/
structure Builds (origin : Engine) (document : Document) (element : Element) (drafted : Text × Draft)
    (engine : Engine) : Prop where
  follows : origin.Follows drafted.2 engine.document engine
  owner : element.owner = origin.uid
  node : element.node = document.slots.size
  grown : ∃ data added, document.Grows element.node data added engine.document
  tree : ∃ tree, engine.document.tree? element.node = some tree ∧ tree.IsElement
  markup : engine.document.markup element.node = drafted.1

/-- An element is built by its parts. -/
theorem builds_of_fills {begun filled : Engine} (properties : Properties) (content : StateM Draft Text)
    (forest : engine.document.Forest) (follows : origin.Follows draft engine.document engine)
    (beginRun : properties.begin engine = .ok element begun)
    (fills : origin.Fills begun.document element.node (properties.data (properties.enter draft).1)
      (content (properties.enter draft).2).1 (content (properties.enter draft).2).2 filled)
    (finishRun : properties.finish element filled = .ok ⟨⟩ after) :
    origin.Builds engine.document element (properties.draftAround content draft) after := by
  obtain ⟨node, owner, begins⟩ := fills_begin properties forest follows beginRun
  obtain ⟨added, grows, _⟩ := fills.grown
  have finishes := fills_finish properties grows.forest fills.follows grows.found grows.orphanStill finishRun
  have whole := (begins.trans fills rfl).trans finishes (tag_leave properties _ _)
  obtain ⟨all, growsAll, _⟩ := whole.grown
  obtain ⟨⟨trees, tree⟩, written⟩ := whole.markup node.ge
  refine ⟨whole.follows, owner, node, ⟨_, all, growsAll⟩, ⟨_, tree, _, _, rfl⟩, ?_⟩
  rw [written, draftAround_run]
  simp only [markupAround, tag_leave, List.append_nil, List.append_assoc]
  rfl

/-- An element that is appended where it was built for is written out there, unless nothing can be. -/
theorem fills_appendElement {document : Document} {built : Text × Draft}
    (builds : origin.Builds document element built engine)
    (found : document.element? host.node = some data) (orphan : document.parent? host.node = none)
    (run : Action.append host (.element element) engine = .ok ⟨⟩ after) :
    origin.Fills document host.node data built.1 built.2 after := by
  obtain ⟨other, added, grows⟩ := builds.grown
  obtain ⟨tree, seen, isElement⟩ := builds.tree
  obtain ⟨_, between, run, ends⟩ := bind_run_eq_ok.mp run
  cases ends
  have own : engine.owns element = true := by
    rw [owns, builds.owner, builds.follows.uid]
    exact decide_eq_true rfl
  have beside := grows.beside builds.node.ge found orphan
  cases fillable : isVoidElement data.tag with
  | true =>
    have attached := (Action.attach_element_run own).trans
      (Action.attach_node_run (Edit.appendProblem_void beside.found fillable element.node))
    exact (builds.follows.appendItem attached run).fills beside (by simp [fillable])
  | false =>
    obtain ⟨possible, adopted, sameTree⟩ := grows.adopted builds.node.ge found orphan fillable
    have attached := (Action.attach_element_run own).trans
      (Action.attach_node_run_accepted grows.forest possible)
    refine (builds.follows.appendItem attached run).fills adopted fun _ => ?_
    obtain ⟨_, _, rfl⟩ := isElement
    rw [Document.trees_singleton (sameTree.trans seen), Tree.markupAll_singleton,
      Tree.markupIn_element, ← builds.markup, Document.markup_of_tree? seen]

end Engine

namespace Blueprint

open Engine Properties

mutual

theorem fills_part {origin engine after : Engine} {draft : Draft} {host : Element} {data : ElementData}
    (part : Part) (forest : engine.document.Forest) (follows : origin.Follows draft engine.document engine)
    (found : engine.document.element? host.node = some data)
    (orphan : engine.document.parent? host.node = none) (run : part.build host engine = .ok ⟨⟩ after) :
    origin.Fills engine.document host.node data (part.draft data.tag draft).1
      (part.draft data.tag draft).2 after := by
  cases part with
  | text content =>
    rw [Part.build] at run
    rw [Part.draft]
    exact fills_appendText forest follows found orphan content run
  | element properties content =>
    rw [Part.build] at run
    rw [Part.draft]
    obtain ⟨element, begun, beginRun, run⟩ := bind_run_eq_ok.mp run
    obtain ⟨_, filled, contentRun, run⟩ := bind_run_eq_ok.mp run
    obtain ⟨_, finished, finishRun, appendRun⟩ := bind_run_eq_ok.mp run
    obtain ⟨_, _, begins⟩ := fills_begin properties forest follows beginRun
    obtain ⟨added, grows, _⟩ := begins.grown
    have fills := fills_content content grows.forest begins.follows grows.found grows.orphanStill contentRun
    exact fills_appendElement (builds_of_fills properties _ forest follows beginRun fills finishRun) found
      orphan appendRun

theorem fills_content {origin engine after : Engine} {draft : Draft} {host : Element} {data : ElementData}
    (content : List Part) (forest : engine.document.Forest)
    (follows : origin.Follows draft engine.document engine)
    (found : engine.document.element? host.node = some data)
    (orphan : engine.document.parent? host.node = none)
    (run : buildContent host content engine = .ok ⟨⟩ after) :
    origin.Fills engine.document host.node data (draftContent data.tag content draft).1
      (draftContent data.tag content draft).2 after := by
  cases content with
  | nil =>
    rw [buildContent] at run
    rw [draftContent]
    cases run
    exact follows.fills (.none forest found orphan) fun _ => rfl
  | cons part rest =>
    rw [buildContent] at run
    rw [draftContent]
    obtain ⟨_, between, partRun, restRun⟩ := bind_run_eq_ok.mp run
    have first := fills_part part forest follows found orphan partRun
    obtain ⟨added, grows, _⟩ := first.grown
    have others := fills_content rest grows.forest first.follows grows.found grows.orphanStill restRun
    exact first.trans others rfl

end

/-! ## Roots -/

section Roots

variable {origin engine after : Engine} {draft : Draft}

theorem builds_root {element : Element} (root : Root) (forest : engine.document.Forest)
    (follows : origin.Follows draft engine.document engine) (run : root.build engine = .ok element after) :
    origin.Builds engine.document element (root.draft draft) after := by
  obtain ⟨element, begun, beginRun, run⟩ := bind_run_eq_ok.mp run
  obtain ⟨_, filled, contentRun, run⟩ := bind_run_eq_ok.mp run
  obtain ⟨_, finished, finishRun, run⟩ := bind_run_eq_ok.mp run
  cases run
  obtain ⟨_, _, begins⟩ := fills_begin root.properties forest follows beginRun
  obtain ⟨added, grows, _⟩ := begins.grown
  have fills := fills_content root.content grows.forest begins.follows grows.found grows.orphanStill contentRun
  exact builds_of_fills root.properties _ forest follows beginRun fills finishRun

/-- One root after another is built as it is drafted. What was there before keeps its tree, so the later roots
leave the earlier ones alone. -/
theorem builds_roots (roots : List Root) {elements : List Element} (forest : engine.document.Forest)
    (follows : origin.Follows draft engine.document engine)
    (run : roots.mapM Root.build engine = .ok elements after) :
    origin.Follows (roots.mapM Root.draft draft).2 after.document after ∧
      elements.map after.markup = (roots.mapM Root.draft draft).1 ∧
      ∀ id < engine.document.slots.size, after.document.tree? id = engine.document.tree? id := by
  induction roots generalizing engine draft elements with
  | nil =>
    cases run
    exact ⟨follows, rfl, fun _ _ => rfl⟩
  | cons root rest ih =>
    rw [List.mapM_cons] at run ⊢
    obtain ⟨element, between, rootRun, run⟩ := bind_run_eq_ok.mp run
    obtain ⟨others, last, restRun, run⟩ := bind_run_eq_ok.mp run
    cases run
    have builds := builds_root root forest follows rootRun
    obtain ⟨data, added, grows⟩ := builds.grown
    obtain ⟨followsAll, written, kept⟩ := ih grows.forest builds.follows restRun
    have inside := Document.lt_size_of_contains (Document.contains_of_element? grows.found)
    have same : after.markup element = between.document.markup element.node := by
      rw [Engine.markup, Document.markup, Document.markup, kept element.node inside]
    refine ⟨followsAll, ?_, fun id old => ?_⟩
    · rw [List.map_cons, same, builds.markup, written]
      rfl
    · have apart : id ≠ element.node := Nat.ne_of_lt (old.trans_eq builds.node.symm)
      rw [kept id (old.trans_le grows.size), grows.tree? forest old apart]

end Roots

/-! ## Pages -/

section Page

variable {origin engine after : Engine}

/-- A loop whose steps do nothing but register. -/
theorem eq_collect_of_loop {α : Type} {step : α → Action PUnit} {what : α → List Registration}
    (each : ∀ value engine after, step value engine = .ok ⟨⟩ after →
      after = (what value).foldl Engine.collect engine)
    (values : List α) (run : values.forM step engine = .ok ⟨⟩ after) :
    after = (values.flatMap what).foldl Engine.collect engine := by
  rw [List.foldl_flatMap]
  refine @forM_ok_induction _ _ _ _ (fun first second : Engine => second = first) _ _ ?_ values _ _ _ rfl run
  rintro value data state last rfl step
  exact each value _ _ step

/-- A page that is built is built as it is drafted. -/
theorem builds_page (page : Blueprint) (forest : engine.document.Forest) {elements : List Element}
    (run : page.build engine = .ok elements after) :
    engine.Follows (page.draft engine.ids).2 after.document after ∧
      elements.map after.markup = (page.draft engine.ids).1 := by
  obtain ⟨_, stated, stateRun, run⟩ := bind_run_eq_ok.mp run
  obtain ⟨_, styled, styleRun, run⟩ := bind_run_eq_ok.mp run
  obtain ⟨_, loaded, loadRun, rootsRun⟩ := bind_run_eq_ok.mp run
  have started : engine.Follows { ids := engine.ids } engine.document engine := ⟨rfl, rfl, rfl, rfl, rfl⟩
  have registered := started.collectAll page.registrations
  have stores : stated = (page.state.flatMap fun pair => [.state pair.1 pair.2]).foldl collect engine := by
    apply eq_collect_of_loop (fun _ _ _ storeRun => ?_) page.state stateRun
    cases storeRun
    rfl
  have defines : styled = (page.styles.flatMap fun rule => Registration.ofRule
      (Style.ruleOf rule.selector (declared rule.declarations) rule.raw)).foldl collect stated := by
    apply eq_collect_of_loop (fun _ _ _ defineRun => ?_) page.styles styleRun
    obtain ⟨_, _, given, acceptRun⟩ := bind_run_eq_ok.mp defineRun
    obtain ⟨rfl, rfl⟩ := declarations_ok given
    exact Action.eq_collect_of_tryDefineStyle acceptRun
  have records : loaded = (page.lifecycle.flatMap fun source =>
      [.behavior (.lifecycle (.body source))]).foldl collect styled := by
    apply eq_collect_of_loop (fun _ _ _ recordRun => ?_) page.lifecycle loadRun
    exact Action.eq_collect_of_onLoad recordRun
  have same : page.registrations.foldl collect engine = loaded := by
    rw [records, defines, stores, registrations, List.foldl_append, List.foldl_append, List.map_eq_flatMap,
      List.map_eq_flatMap]
  rw [same, List.nil_append] at registered
  rw [← registered.document] at forest
  obtain ⟨follows, written, _⟩ := builds_roots page.body forest (registered.document ▸ registered) rootsRun
  exact ⟨follows, written⟩

/-- A page that is built and rendered reads as it is drafted. -/
theorem text_of_buildAndRender (page : Blueprint) (sound : engine.Sound) {html : Text}
    (run : page.buildAndRender engine = .ok html after) :
    html = page.text engine.config engine.ids engine.buffers := by
  obtain ⟨roots, built, buildRun, renderRun⟩ := bind_run_eq_ok.mp run
  obtain ⟨soundAfter, users⟩ := sound_of_build sound page buildRun
  obtain ⟨follows, written⟩ := builds_page page sound.document.forest buildRun
  have renderable : built.Renderable roots page.head := by
    by_contra refused
    obtain ⟨cause, last, failed, _⟩ := Action.tryRender_run_refused soundAfter refused
    rw [failed] at renderRun
    cases renderRun
  obtain ⟨last, rendered, _⟩ :=
    Action.tryRender_run soundAfter (fun root member _ => (users root member).2) renderable
  rw [rendered] at renderRun
  cases renderRun
  rw [text, written, follows.config, follows.buffers]

end Page

/-- A form with an element inside its input field, where it is left out. -/
def form : Blueprint where
  config := { append := .lenient }
  state := [("count".toList, .number (.integer 0))]
  body := [{
    properties := {
      tag := "Div".toList
      scopedStyle := [("color".toList, .string "red".toList)]
      reference := some "box".toList }
    content := [
      .element { tag := "p".toList, binding := some ⟨"count".toList, none⟩ } [],
      .text "a < b".toList,
      .element { tag := "input".toList, listeners := [("change".toList, "save()".toList)] }
        [.element { tag := "b".toList, reference := some "lost".toList } []]] }]

/-- What is left out has drawn the second identifier all the same, and the element around it all draws the
last one. -/
example : (form.draft (form.engine 7).ids).1 =
    [("<div id=\"sc-id-4-s8w1\" class=\"sc-c-1-1b5j\"><p id=\"sc-id-1-y694\"></p>a &lt; b" ++
      "<input id=\"sc-id-3-kinh\"></div>").toList] := by
  decide +kernel

end Blueprint

end PageCompiler
