import PageCompiler.Proofs.Engine.DataPages
import PageCompiler.Proofs.Engine.EnclosedSteps

/-!
# Pages that stay whole

A caller knows the numbers of all nodes of an engine, those of the html element, the head and the body
among them, and an append takes any number. The page stays in one piece exactly until one of these three
is appended to an element; as long as it is, a render writes its roots into the body.
-/

namespace PageCompiler

open Markup Steps

namespace Engine

/-- Whether the page of an engine is in one piece, or not made yet. -/
def IsWhole (engine : Engine) : Prop :=
  ∀ shell, engine.shell = some shell → shell.IsWhole engine.document

variable {engine after : Engine} {users : NodeId → Prop}

theorem Guards.encloses (guards : engine.Guards users) (whole : engine.IsWhole) :
    engine.Encloses { shell := engine.shell } engine where
  fits := ⟨guards.fits.sound, whole, False.elim, (fun _ none => nomatch none)⟩
  shell := rfl
  uid := rfl

theorem Encloses.isWhole {origin : Engine} {enclosure : Enclosure}
    (encloses : origin.Encloses enclosure engine) : engine.IsWhole :=
  fun shell known => encloses.fits.whole shell (encloses.shell.symm.trans known)

/-- Preparing a page whose parts are in one piece puts the roots into its body. -/
theorem Guards.prepares (guards : engine.Guards users) {roots : List NodeId}
    (given : ∀ root ∈ roots, users root) (head : HeadConfig) :
    Meets (fun state => engine.Within (engine.frame users) state ∧
        engine.Encloses { shell := engine.shell } state)
      (RenderStep.prepare roots head)
      (fun shell state =>
        engine.Encloses ⟨some shell, False, some (head.language.getD RenderStep.defaultLanguage)⟩ state ∧
        state.document.children shell.body = roots)
      (fun state => ∃ shell, engine.Encloses { shell } state) := by
  have loose : ∀ shell, engine.shell = some shell → ∀ script, shell.script = some script →
      ¬ Enclosure.IsPart { shell := some shell } script := by
    rintro shell known script scriptKnown ⟨_, ⟨⟩, place⟩
    exact ((guards.fits.shell shell known).script script scriptKnown).2 (Or.inr ⟨shell, known, place⟩)
  have reset := (@Within.resetShell engine (engine.frame users)).both
    (@Encloses.resetShell engine engine.shell loose)
  have rest (shell : Shell) (distinct : roots.Nodup)
      (apart : ∀ root ∈ roots, ¬ Enclosure.IsPart { shell := some shell } root) :
      Meets (engine.Encloses { shell := some shell, empty := True }) (do
        RenderStep.edit (Edit.setAttribute shell.html "lang".toList
          (head.language.getD RenderStep.defaultLanguage))
        RenderStep.buildHead shell.head head
        RenderStep.edit (roots.forM fun root => Edit.appendChild shell.body root)
        return shell)
        (fun shell state =>
          engine.Encloses ⟨some shell, False, some (head.language.getD RenderStep.defaultLanguage)⟩ state ∧
          state.document.children shell.body = roots)
        (fun state => ∃ shell, engine.Encloses { shell } state) := by
    refine Meets.bind ((Encloses.writeLanguage _).weaken (fun _ start => start) (fun _ _ ends => ends.1)
      fun state ends => ⟨some shell, ends.simply⟩) fun _ => ?_
    refine Meets.bind (Meets.weaken (Encloses.buildHead head) (fun _ start => start)
      (fun _ _ ends => ends.1) fun state ends => ⟨some shell, ends.simply⟩) fun _ => ?_
    refine Meets.bind ((Encloses.mountRoots apart distinct).weaken (fun _ start => start)
      (fun _ _ ends => ends) fun state ends => ⟨some shell, ends.simply⟩) fun _ => ?_
    exact fun state ends => ends
  rintro state ⟨within, encloses⟩
  rw [RenderStep.prepare, bind_of_ok (get_run state)]
  dsimp only
  cases problem : RenderStep.mountProblem state.document (state.shell.map Shell.body) [] roots with
  | some cause => exact ⟨engine.shell, encloses⟩
  | none =>
    have distinct := ((RenderStep.mountProblem_eq_none_iff _ _ _ _).mp problem).2.1
    refine Meets.bind (reset.weaken (fun _ start => start) (fun _ _ ends => ends)
      fun state ends => ⟨engine.shell, ends.2⟩) (fun shell => ?_) state ⟨within, encloses⟩
    rintro last ⟨watched, prepared⟩
    apply rest shell distinct _ last prepared
    rintro root member ⟨_, ⟨⟩, place⟩
    exact (watched.fits.users root (given root member)).2 ⟨shell, rfl, place⟩

/-- The text of a page with a head, the markup of the roots in the body, and a script behind them. -/
def pageAround (language inHead script : Text) (roots : List Text) : Text :=
  "<!DOCTYPE html>\n<html lang=\"".toList ++ escapeAttribute language ++ "\"><head>".toList ++ inHead ++
    "</head><body>".toList ++ roots.flatten ++ "<script>".toList ++ script ++
    "</script></body></html>".toList

/-- Whether a page that was rendered has the roots in its body, between its head and its script. -/
def PageEncloses (after : Engine) (language : Text) (mount : List Element) (page : Text) : Prop :=
  ∃ shell script, after.shell = some shell ∧ holdsEndTag "script".toList script = false ∧
    page = pageAround language
      (Tree.markupAll "head".toList (after.document.trees (after.document.children shell.head))) script
      (mount.map after.markup)

/-- A page in one piece is written around its roots. -/
theorem Guards.pageEncloses (guards : engine.Guards users) (whole : engine.IsWhole) {mount : List Element}
    (given : ∀ root ∈ mount, engine.owns root = true → users root.node) {head : HeadConfig} {page : Text}
    (run : Action.tryRender mount head engine = .ok page after) :
    after.PageEncloses (head.language.getD RenderStep.defaultLanguage) mount page := by
  obtain ⟨own, last, compiled, sameDocument, sameShell⟩ := Action.exists_compiled run
  rw [RenderStep.compile_eq_prepare] at compiled
  obtain ⟨shell, middle, prepared, finished⟩ := bind_run_eq_ok.mp compiled
  have roots : ∀ root ∈ mount.map Element.node, users root := by
    rw [List.forall_mem_map]
    exact fun root member => given root member (own root member)
  have within : engine.Within (engine.frame users) { engine with phase := .compiling } :=
    { guards.within with }
  have encloses : engine.Encloses { shell := engine.shell } { engine with phase := .compiling } :=
    { guards.encloses whole with }
  have watched := (Within.prepare roots head).ok within prepared
  obtain ⟨standing, inBody⟩ := (guards.prepares roots head).ok ⟨within, encloses⟩ prepared
  have stands := standing.fits.whole shell rfl
  have inside {id : NodeId} (live : middle.document.contains id = true) :
      id < middle.document.slots.size := Document.lt_size_of_contains live
  obtain ⟨written, shellAfter, forest, kept, scriptTree⟩ := RenderStep.finish_eq_ok
    standing.fits.sound.forest (inside stands.contains_body) finished
  have elements {id : NodeId} {data : ElementData} (found : middle.document.element? id = some data) :
      last.document.element? id = some data := by
    rw [Document.element?_congr (kept id (inside (Document.contains_of_element? found))).1, found]
  have live : ∀ root ∈ mount.map Element.node, (last.document.element? root).isSome := by
    intro root member
    obtain ⟨data, found⟩ := Option.isSome_iff_exists.mp (watched.fits.users root (roots root member)).1
    rw [elements found]
    rfl
  obtain ⟨rootElements, rootMarkup⟩ := forest.markup_elements live
  have headTree := forest.tree?_element (elements stands.head)
  have bodyTree := forest.tree?_element (elements stands.body)
  rw [(kept _ (inside stands.contains_body)).2, if_pos rfl, inBody, Document.trees_append,
    Document.trees_singleton scriptTree] at bodyTree
  have pageTree := forest.tree?_element (elements (standing.fits.language _ rfl shell rfl))
  rw [(kept _ (inside stands.contains_html)).2, if_neg (stands.html_ne_body standing.fits.sound.forest),
    List.append_nil, stands.parts, Document.trees, List.filterMap_cons_some headTree,
    List.filterMap_cons_some bodyTree, List.filterMap_nil] at pageTree
  have bodyElements : ∀ tree ∈ last.document.trees (mount.map Element.node) ++
      [Tree.filled { tag := "script".toList } (clientScript middle.config middle.buffers)],
      tree.IsElement := by
    rw [List.forall_mem_append, List.forall_mem_singleton]
    exact ⟨rootElements, ⟨_, _, rfl⟩⟩
  have headMarkup := @Tree.markup_element { tag := "head".toList } (by decide)
    (last.document.trees (last.document.children shell.head))
  have bodyMarkup := Tree.markup_around (show isVoidElement "body".toList = false by decide) bodyElements
  rw [List.flatMap_append, List.flatMap_singleton, rootMarkup, Tree.markup_script] at bodyMarkup
  have pageMarkup := Tree.markup_page (head.language.getD RenderStep.defaultLanguage) headMarkup bodyMarkup
  refine ⟨_, shielded "script".toList (clientScript middle.config middle.buffers),
    sameShell.trans shellAfter, holdsEndTag_shielded (by decide) _, ?_⟩
  have markups : mount.map after.markup = (mount.map Element.node).map last.document.markup := by
    rw [List.map_map, ← sameDocument]
    rfl
  rw [markups, sameDocument, written]
  unfold Document.page pageAround
  rw [Document.markup_of_tree? pageTree, pageMarkup, Tree.startTag_plain]
  exact text_of_parts _ _ _ _

/-- A render leaves the page in one piece, whether it succeeds or fails. -/
theorem Guards.isWhole_tryRender (guards : engine.Guards users) (whole : engine.IsWhole)
    {mount : List Element} (given : ∀ root ∈ mount, engine.owns root = true → users root.node)
    (head : HeadConfig) : (Action.leaves (Action.tryRender mount head) engine).IsWhole := by
  by_cases own : ∀ root ∈ mount, engine.owns root = true
  · have roots : ∀ root ∈ mount.map Element.node, users root := by
      rw [List.forall_mem_map]
      exact fun root member => given root member (own root member)
    have within : engine.Within (engine.frame users) { engine with phase := .compiling } :=
      { guards.within with }
    have encloses : engine.Encloses { shell := engine.shell } { engine with phase := .compiling } :=
      { guards.encloses whole with }
    have compiles : Meets (fun state => engine.Within (engine.frame users) state ∧
        engine.Encloses { shell := engine.shell } state) (RenderStep.compile (mount.map Element.node) head)
        (fun _ state => ∃ shell, engine.Encloses { shell } state)
        (fun state => ∃ shell, engine.Encloses { shell } state) := by
      rw [RenderStep.compile_eq_prepare]
      refine (guards.prepares roots head).bind fun shell => Encloses.finish.weaken
        (fun _ start => start.1) ?_ fun _ ends => ⟨some shell, ends.simply⟩
      rintro _ _ ⟨shell, ends⟩
      exact ⟨some shell, ends⟩
    rw [Action.leaves, Action.tryRender_eq own]
    cases run : RenderStep.compile (mount.map Element.node) head { engine with phase := .compiling } with
    | ok page last =>
      obtain ⟨shell, ends⟩ := compiles.ok ⟨within, encloses⟩ run
      exact ends.isWhole
    | error cause last =>
      obtain ⟨shell, ends⟩ := compiles.error ⟨within, encloses⟩ run
      exact ends.isWhole
  · obtain ⟨cause, run⟩ := Action.tryRender_run_foreign own head
    rw [Action.leaves, run]
    exact whole

theorem Guards.isWhole_render (guards : engine.Guards users) (whole : engine.IsWhole)
    {mount : List Element} (given : ∀ root ∈ mount, engine.owns root = true → users root.node)
    (head : HeadConfig) : (Action.leaves (Action.render mount head) engine).IsWhole := by
  have tried := guards.isWhole_tryRender whole given head
  rw [Action.leaves] at tried ⊢
  rw [Action.render]
  cases run : Action.tryRender mount head engine with
  | ok page last =>
    rw [run] at tried
    exact tried
  | error cause last =>
    rw [run] at tried
    exact tried

end Engine

/-! ## Taking a part -/

/-- Whether appending the items puts an element around the roots below an element: when its turn comes,
its raw number is accepted. -/
def Action.TakesPart (host : Element) (items : List Item) (engine : Engine) : Prop :=
  ∃ before id rest after, items = before ++ .node id :: rest ∧
    (before.forM (Action.appendItem host)) engine = .ok ⟨⟩ after ∧
    Enclosure.IsPart { shell := after.shell } id ∧
    Edit.appendProblem after.document host.node id = none

/-- Whether a command puts an element around the roots below an element. -/
def Command.TakesPart (held : Held) (engine : Engine) : Command → Prop
  | .append host pieces => ∃ element, held.elements[host]? = some element ∧
    engine.owns element = true ∧ Action.TakesPart element (Piece.items held pieces) engine
  | _ => False

namespace Action

variable {origin engine : Engine} {given : Option Shell} {host : Element} {items : List Item}

/-- As long as no part is taken, appending leaves the page in one piece. -/
theorem encloses_appendItems (encloses : origin.Encloses { shell := given } engine)
    (apart : ¬ Enclosure.IsPart { shell := given } host.node)
    (elements : ∀ element, .element element ∈ items → element.owner = origin.uid →
      ¬ Enclosure.IsPart { shell := given } element.node)
    (untaken : ¬ TakesPart host items engine) :
    origin.Encloses { shell := given } (leaves (items.forM (appendItem host)) engine) := by
  induction items generalizing engine with
  | nil => exact encloses
  | cons item rest ih =>
    have first : origin.Encloses { shell := given } (leaves (appendItem host item) engine) := by
      by_cases part : ∃ id, item = .node id ∧ Enclosure.IsPart { shell := given } id
      · obtain ⟨id, rfl, isPart⟩ := part
        have refused : ∃ cause, Edit.appendProblem engine.document host.node id = some cause := by
          rw [← Option.ne_none_iff_exists']
          intro possible
          refine untaken ⟨[], id, rest, engine, rfl, rfl, ?_, possible⟩
          rwa [encloses.shell]
        obtain ⟨cause, problem⟩ := refused
        rcases appendItem_run_refused (attach_node_run problem) with ⟨error, run⟩ | ⟨event, run⟩
        · rw [leaves, run]
          exact encloses
        · rw [leaves, run]
          exact { encloses with }
      · have kept := Engine.Encloses.appendItem apart
          (fun element same => elements element (same ▸ List.mem_cons_self))
          (fun id same isPart => part ⟨id, same, isPart⟩)
        rw [leaves]
        cases run : appendItem host item engine with
        | ok value after => exact (kept.ok encloses run).1
        | error cause after => exact kept.error encloses run
    rw [leaves] at first ⊢
    cases run : appendItem host item engine with
    | error cause after =>
      rw [run] at first
      rw [forM_cons_of_error item rest run]
      exact first
    | ok value after =>
      rw [run] at first
      rw [forM_cons_of_ok item rest run]
      apply ih first
      · exact fun element member => elements element (List.mem_cons_of_mem _ member)
      · rintro ⟨before, id, later, last, rfl, ran, isPart, possible⟩
        refine untaken ⟨item :: before, id, later, last, rfl, ?_, isPart, possible⟩
        rw [forM_cons_of_ok item before run, ran]

end Action

/-- An engine in which a node is below an element that takes more. -/
structure Engine.HasTaken (given : Option Shell) (host part : NodeId) (engine : Engine) : Prop where
  sound : engine.document.Sound
  shell : engine.shell = given
  mayHost : engine.document.MayHost host
  step : engine.document.parent? part = some host

namespace Engine.HasTaken

variable {engine : Engine} {given : Option Shell} {host : Element} {part : NodeId}

theorem appended (taken : engine.HasTaken given host.node part) {child : NodeId}
    (possible : Edit.appendProblem engine.document host.node child = none) :
    Engine.HasTaken given host.node part
      { engine with document := engine.document.moved host.node child } where
  sound := taken.sound.moved possible
  shell := taken.shell
  mayHost := Document.mayHost_of_element?_eq (Document.element?_relinked _ _ _) taken.mayHost
  step := by
    obtain ⟨_, live, _⟩ := (Edit.appendProblem_eq_none_iff taken.sound.forest).mp possible
    rw [Document.parent?_moved live]
    split
    · rfl
    · exact taken.step

/-- Whatever is appended after it, a node stays below the element that took it. -/
theorem appendItem (item : Item) :
    Preserves (Engine.HasTaken given host.node part) (Action.appendItem host item) fun _ => True := by
  have append (child : NodeId) : Preserves (Engine.HasTaken given host.node part)
      (Action.attempt (Edit.appendChild host.node child)) fun _ => True := by
    intro engine taken
    cases problem : Edit.appendProblem engine.document host.node child with
    | some cause =>
      rw [Action.attempt_of_error (Edit.appendChild_run_problem problem)]
      exact ⟨taken, trivial⟩
    | none =>
      rw [Action.attempt_of_ok (Edit.appendChild_run taken.sound.forest problem)]
      exact ⟨taken.appended problem, trivial⟩
  have attached : Preserves (Engine.HasTaken given host.node part) (Action.attach host item)
      fun _ => True := by
    cases item with
    | element element =>
      refine Preserves.state.andThen fun engine => ?_
      refine Preserves.branch (fun own => ?_) fun _ => Preserves.result trivial
      refine (append _).andThen fun outcome => ?_
      split <;> exact Preserves.result trivial
    | node id =>
      refine (append _).andThen fun outcome => ?_
      split <;> exact Preserves.result trivial
    | text content =>
      intro engine taken
      have old := Document.lt_size_of_contains (Document.contains_of_parent? taken.step)
      obtain ⟨data, found, _⟩ := taken.mayHost
      have inside := Document.lt_size_of_contains (Document.contains_of_element? found)
      rw [Action.attach_text_run taken.sound.forest taken.mayHost]
      refine ⟨⟨taken.sound.grafted taken.mayHost (by simp), taken.shell, ?_, ?_⟩, trivial⟩
      · refine Document.mayHost_of_element?_eq (Document.element?_congr ?_) taken.mayHost
        rw [Document.kind?_grafted, if_neg (Nat.ne_of_lt inside)]
      · rw [Document.parent?_grafted, if_neg (Nat.ne_of_lt old), taken.step]
  refine attached.andThen fun problem => ?_
  split
  · exact Preserves.result trivial
  · refine Preserves.state.andThen fun engine => ?_
    split
    · exact Preserves.failure _
    · exact Preserves.update fun _ taken => { taken with }

/-- A page whose part was taken is not in one piece. -/
theorem not_isWhole (taken : engine.HasTaken given host.node part)
    (isPart : Enclosure.IsPart { shell := given } part)
    (apart : ¬ Enclosure.IsPart { shell := given } host.node) : ¬ engine.IsWhole := by
  intro whole
  obtain ⟨shell, known, place⟩ := isPart
  have stands := whole shell (taken.shell.trans known)
  have step := taken.step
  rcases place with rfl | rfl | rfl
  · rw [stands.top] at step
    cases step
  · rw [stands.parent_head taken.sound.forest] at step
    exact apart ⟨shell, known, Or.inl (Option.some.inj step).symm⟩
  · rw [stands.parent_body taken.sound.forest] at step
    exact apart ⟨shell, known, Or.inl (Option.some.inj step).symm⟩

end Engine.HasTaken

/-! ## Sessions -/

namespace Engine

variable {engine after : Engine} {users : NodeId → Prop} {held heldAfter : Held} {command : Command}
  {answer : Answer}

/-- Appending leaves the page in one piece exactly when no part is taken. -/
theorem Guards.isWhole_append_iff (guards : engine.Guards users) (whole : engine.IsWhole) {host : Element}
    (user : users host.node) {items : List Item}
    (given : ∀ element, .element element ∈ items → engine.owns element = true → users element.node) :
    (Action.leaves (items.forM (Action.appendItem host)) engine).IsWhole ↔
      ¬ Action.TakesPart host items engine := by
  have apart {id : NodeId} (user : users id) : ¬ Enclosure.IsPart { shell := engine.shell } id :=
    (guards.fits.users id user).2
  constructor
  · rintro wholeAfter ⟨before, id, rest, last, rfl, ran, isPart, possible⟩
    have appends : Preserves (engine.Within (engine.frame users))
        (before.forM (Action.appendItem host)) fun _ => True :=
      Preserves.loop fun item _ => Within.appendItem user not_false item
    obtain ⟨within, _⟩ := appends.ok guards.within ran
    have forest := within.fits.sound.forest
    obtain ⟨mayHost, live, _⟩ := (Edit.appendProblem_eq_none_iff forest).mp possible
    have taken : Engine.HasTaken engine.shell host.node id
        { last with document := last.document.moved host.node id } := by
      refine ⟨within.fits.sound.moved possible, within.shell, ?_, ?_⟩
      · exact Document.mayHost_of_element?_eq (Document.element?_relinked _ _ _) mayHost
      · rw [Document.parent?_moved live, if_pos rfl]
    have run := Action.appendItem_run_accepted (Action.attach_node_run_accepted forest possible)
    rw [Action.leaves, forM_append_of_ok _ ran, forM_cons_of_ok _ _ run] at wholeAfter
    have kept : Preserves (Engine.HasTaken engine.shell host.node id)
        (rest.forM (Action.appendItem host)) fun _ => True :=
      Preserves.loop fun item _ => Engine.HasTaken.appendItem item
    rw [within.shell] at isPart
    have broken : ¬ (Action.leaves (rest.forM (Action.appendItem host))
        { last with document := last.document.moved host.node id }).IsWhole := by
      rw [Action.leaves]
      cases ended : (rest.forM (Action.appendItem host))
          { last with document := last.document.moved host.node id } with
      | ok value state => exact (kept.ok taken ended).1.not_isWhole isPart (apart user)
      | error cause state => exact (kept.error taken ended).not_isWhole isPart (apart user)
    exact broken wholeAfter
  · intro untaken
    refine (Action.encloses_appendItems (guards.encloses whole) (apart user) ?_ untaken).isWhole
    exact fun element member own => apart (given element member (decide_eq_true own))

/-- A command leaves the page in one piece exactly when it takes no part of it. -/
theorem Guards.isWhole_perform_iff (guards : engine.Guards users)
    (known : ∀ element ∈ held.elements, engine.owns element = true → users element.node)
    (whole : engine.IsWhole) (run : command.perform held engine = (answer, heldAfter, after)) :
    after.IsWhole ↔ ¬ command.TakesPart held engine := by
  have mounted (mount : List Nat) : ∀ root ∈ mount.filterMap fun place => held.elements[place]?,
      engine.owns root = true → users root.node := by
    intro root member
    obtain ⟨place, _, found⟩ := List.mem_filterMap.mp member
    exact known root (List.mem_of_getElem? found)
  rw [leaves_of_perform run]
  have enclosed (appends : ∀ host pieces, command ≠ .append host pieces) (renders : ¬ command.IsRender) :
      (Action.leaves (command.action held) engine).IsWhole := by
    have apart : ∀ element ∈ held.elements, element.owner = engine.uid →
        ¬ Enclosure.IsPart { shell := engine.shell } element.node := fun element member own =>
      (guards.fits.users _ (known element member (decide_eq_true own))).2
    have kept := Encloses.command apart appends renders
    rw [Action.leaves]
    cases ran : command.action held engine with
    | ok reply last => exact (kept.ok (guards.encloses whole) ran).1.isWhole
    | error cause last => exact (kept.error (guards.encloses whole) ran).isWhole
  cases command with
  | append host pieces =>
    by_cases found : ∃ element, held.elements[host]? = some element ∧ engine.owns element = true
    · obtain ⟨element, place, own⟩ := found
      have same : Action.leaves ((Command.append host pieces).action held) engine =
          Action.leaves ((Piece.items held pieces).forM (Action.appendItem element)) engine := by
        rw [Action.leaves, Command.action, Held.use_run place own, ← Action.leaves, Action.leaves_of]
        rfl
      rw [same, guards.isWhole_append_iff whole (known element (List.mem_of_getElem? place) own)
        fun other member => known other (Piece.mem_items pieces member)]
      refine not_congr ⟨fun taken => ⟨element, place, own, taken⟩, ?_⟩
      rintro ⟨other, otherPlace, _, taken⟩
      rw [place, Option.some.injEq] at otherPlace
      rwa [otherPlace]
    · rw [Action.leaves, Command.action, Held.use_run_elsewhere found]
      refine iff_of_true whole ?_
      rintro ⟨element, place, own, _⟩
      exact found ⟨element, place, own⟩
  | tryRender mount head =>
    rw [Command.action, Action.leaves_of]
    exact iff_of_true (guards.isWhole_tryRender whole (mounted mount) head) not_false
  | render mount head =>
    rw [Command.action, Action.leaves_of]
    exact iff_of_true (guards.isWhole_render whole (mounted mount) head) not_false
  | _ => exact iff_of_true (enclosed (by simp) not_false) not_false

end Engine

/-- A command with the engine it is given to and what is held then. -/
structure Turn where
  engine : Engine
  held : Held
  command : Command

/-- Where a caller can bring an engine, and the commands on the way: any commands are given in any order,
and elements of other engines and any numbers of nodes may come in from outside. -/
inductive Engine.Tour (start : Engine) : List Turn → Engine → Held → Prop where
  | opened : Tour start [] start {}
  | received {turns : List Turn} {engine : Engine} {held : Held} {element : Element}
    (tour : Tour start turns engine held) (foreign : engine.owns element = false) :
    Tour start turns engine { held with elements := held.elements ++ [element] }
  | noted {turns : List Turn} {engine : Engine} {held : Held} (tour : Tour start turns engine held)
    (id : NodeId) : Tour start turns engine { held with nodes := held.nodes ++ [id] }
  | performed {turns : List Turn} {engine after : Engine} {held heldAfter : Held} {command : Command}
    {answer : Answer} (tour : Tour start turns engine held)
    (run : command.perform held engine = (answer, heldAfter, after)) :
    Tour start (turns ++ [⟨engine, held, command⟩]) after heldAfter

namespace Engine

variable {start engine : Engine} {turns : List Turn} {held : Held}

theorem Tour.leads (tour : start.Tour turns engine held) :
    ∃ hookings, start.Leads {} hookings engine held := by
  induction tour with
  | opened => exact ⟨[], .nothing⟩
  | received _ foreign ih => exact ih.imp fun _ leads => leads.received foreign
  | noted _ id ih => exact ih.imp fun _ leads => leads.noted id
  | performed _ run ih =>
    obtain ⟨hookings, leads⟩ := ih
    exact ⟨_, leads.performed run⟩

theorem Tour.performsAll (tour : start.Tour turns engine held) (commands : List Command) :
    ∃ more, more.map Turn.command = commands ∧
      start.Tour (turns ++ more) (Command.performAll commands held engine).2
        (Command.performAll commands held engine).1 := by
  induction commands generalizing turns held engine with
  | nil => exact ⟨[], rfl, (List.append_nil turns).symm ▸ tour⟩
  | cons command rest ih =>
    have next : start.Tour (turns ++ [⟨engine, held, command⟩]) (command.perform held engine).2.2
        (command.perform held engine).2.1 := tour.performed rfl
    obtain ⟨more, same, further⟩ := ih next
    refine ⟨⟨engine, held, command⟩ :: more, by rw [List.map_cons, same], ?_⟩
    rw [List.append_cons]
    exact further

section New

variable {uid : Nat} {config : EngineConfig} {entropy : UInt64}
  (tour : (Engine.new uid config entropy).Tour turns engine held)

include tour

theorem Tour.guards : ∃ users, engine.Guards users ∧
    ∀ element ∈ held.elements, engine.owns element = true → users element.node := by
  obtain ⟨hookings, leads⟩ := tour.leads
  exact (leads.wired (wired_new uid config entropy)).1.guards

/-- The page stays in one piece as long as no part of it is taken. -/
theorem Tour.isWhole_iff_untaken :
    (engine.IsWhole ∧ ∀ turn ∈ turns, turn.engine.IsWhole) ↔
      ∀ turn ∈ turns, ¬ turn.command.TakesPart turn.held turn.engine := by
  induction tour with
  | opened =>
    refine iff_of_true ⟨?_, List.forall_mem_nil _⟩ (List.forall_mem_nil _)
    intro shell known
    cases known
  | received _ _ ih => exact ih
  | noted _ _ ih => exact ih
  | performed tour run ih =>
    obtain ⟨users, guards, known⟩ := tour.guards
    rw [List.forall_mem_append, List.forall_mem_singleton, List.forall_mem_append,
      List.forall_mem_singleton, ← ih]
    have last (whole : _) := guards.isWhole_perform_iff known whole run
    tauto

/-- Whatever a caller does, the page of an engine is in one piece at every moment exactly when none of its
three elements is ever appended to an element; its head and body are there in any case, and a render of a
page in one piece writes its roots into the body. -/
theorem Tour.isWhole_iff :
    ((engine.IsWhole ∧ ∀ turn ∈ turns, turn.engine.IsWhole) ↔
        ∀ turn ∈ turns, ¬ turn.command.TakesPart turn.held turn.engine) ∧
      (∀ shell, engine.shell = some shell → engine.document.tag? shell.html = some "html".toList ∧
        engine.document.tag? shell.head = some "head".toList ∧
        engine.document.tag? shell.body = some "body".toList) ∧
      (engine.IsWhole → ∀ mount head page after, (∀ root ∈ mount, root ∈ held.elements) →
        Action.tryRender mount head engine = .ok page after →
          after.PageEncloses (head.language.getD RenderStep.defaultLanguage) mount page) := by
  obtain ⟨users, guards, known⟩ := tour.guards
  refine ⟨tour.isWhole_iff_untaken, ?_, ?_⟩
  · intro shell shellKnown
    have remains := guards.fits.shell shell shellKnown
    exact ⟨remains.html, remains.head, remains.body⟩
  · intro whole mount head page after given run
    exact guards.pageEncloses whole (fun root member => known root (given root member)) run

end New

/-- A second page is written around an element that has got a text since the first one. -/
theorem isWhole_iff_secondPage : ∃ turns engine held page after,
    (Engine.new 0 {} 7).Tour turns engine held ∧ engine.shell.isSome ∧ engine.IsWhole ∧
      Action.tryRender held.elements {} engine = .ok page after ∧
      after.PageEncloses "en".toList held.elements page := by
  obtain ⟨turns, engine, held, tour, commands, shown, renders⟩ :
      ∃ turns engine held, (Engine.new 0 {} 7).Tour turns engine held ∧
        turns.map Turn.command =
          [.createElement "p".toList, .tryRender [0] {}, .append 0 [.text "second".toList]] ∧
        engine.shell.isSome ∧ (engine.rendersTo held.elements fun _ => true) = true := by
    have start : (Engine.new 0 {} 7).Tour [] (Engine.new 0 {} 7) {} := .opened
    obtain ⟨turns, commands, tour⟩ := start.performsAll
      [.createElement "p".toList, .tryRender [0] {}, .append 0 [.text "second".toList]]
    exact ⟨_, _, _, tour, commands, by decide +kernel⟩
  have untaken : ∀ turn ∈ turns, ¬ turn.command.TakesPart turn.held turn.engine := by
    intro turn member
    have given : turn.command ∈ turns.map Turn.command := List.mem_map_of_mem member
    rw [commands, List.mem_cons, List.mem_cons, List.mem_singleton] at given
    rcases given with same | same | same
    · rw [same]
      exact not_false
    · rw [same]
      exact not_false
    · rw [same]
      rintro ⟨_, _, _, before, id, rest, _, items, _⟩
      have listed : Item.node id ∈ before ++ .node id :: rest :=
        List.mem_append_right _ List.mem_cons_self
      rw [← items] at listed
      exact absurd (List.mem_singleton.mp listed) nofun
  obtain ⟨page, after, run, _⟩ := exists_page_of_rendersTo renders
  obtain ⟨whole, _⟩ := tour.isWhole_iff.1.mpr untaken
  exact ⟨turns, engine, held, page, after, tour, shown, whole, run,
    tour.isWhole_iff.2.2 whole held.elements {} page after (fun _ member => member) run⟩

/-- The head is no longer below the html element once it was appended to an element. -/
theorem page_can_come_apart : ∃ turns engine held shell,
    (Engine.new 0 {} 7).Tour turns engine held ∧ engine.shell = some shell ∧
      engine.document.children shell.html = [shell.body] := by
  have start : (Engine.new 0 {} 7).Tour [] (Engine.new 0 {} 7) {} := .opened
  obtain ⟨turns, _, tour⟩ := (start.noted 2).performsAll
    [.createElement "div".toList, .tryRender [] {}, .append 0 [.node 0]]
  exact ⟨_, _, _, ⟨1, 2, 3, some 9⟩, tour, by decide +kernel⟩

end Engine

end PageCompiler
