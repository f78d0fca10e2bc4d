import PageCompiler.Proofs.Engine.WholePages

/-!
# Heads of pages

A render that succeeds fills the head with the trees that the settings ask for, in order, wherever the
elements around the roots have been put by then: it empties the head, puts new elements at its end, and
nothing that it does afterwards reaches into the head, as neither the roots nor the body stand in it.
-/

namespace PageCompiler

open Markup Steps

/-! ## What a head is made of -/

theorem Markup.Document.mayHost_of_tag? {document : Document} {id : NodeId} {tag : Text}
    (found : document.tag? id = some tag) (content : isVoidElement tag = false) : document.MayHost id := by
  obtain ⟨data, element, rfl⟩ := exists_element?_of_tag? found
  exact ⟨data, element, content⟩

namespace RenderStep

variable {engine after : Engine} {host node : NodeId} {made : List Tree} {tag : Text}

/-- An element gets to the end of the head with all its attributes or the step fails. -/
theorem addToHead_eq_ok (holds : engine.document.Contains host made) (validTag : isTagName tag = true)
    (small : Text.lowered tag = tag) {attributes : List (Text × Text)}
    (run : addToHead host tag attributes engine = .ok node after) :
    (∀ pair ∈ attributes, isAttributeName pair.1 = true) ∧ node = engine.document.slots.size ∧
      after = { engine with
        document := engine.document.grafted host
          (.element (ElementData.setAttributes { tag } attributes)) } := by
  rw [addToHead_eq holds validTag small] at run
  by_cases valid : ∀ pair ∈ attributes, isAttributeName pair.1 = true
  · rw [bind_of_ok (edit_of_ok (Edit.setAttributes_run host _ valid))] at run
    cases run
    exact ⟨valid, rfl, rfl⟩
  · obtain ⟨cause, written, _, failed⟩ := Edit.setAttributes_run_invalid host { tag } valid
    rw [bind_of_error (edit_of_error failed)] at run
    cases run

/-- An engine in whose document something holds, with the settings and the stylesheet of another one. -/
structure Resumes (origin : Engine) (holds : Document → Prop) (engine : Engine) : Prop where
  document : holds engine.document
  config : engine.config = origin.config
  styles : engine.buffers.styles = origin.buffers.styles

theorem Resumes.imp {origin engine : Engine} {holds weaker : Document → Prop}
    (resumes : Resumes origin holds engine) (weaken : ∀ document, holds document → weaker document) :
    Resumes origin weaker engine :=
  { resumes with document := weaken _ resumes.document }

theorem meets_edit_resumes {α : Type} {origin : Engine} {before failed : Document → Prop}
    {holds : α → Document → Prop} {change : Edit α} (meets : Meets before change holds failed) :
    Meets (Resumes origin before) (edit change) (fun value => Resumes origin (holds value))
      (Resumes origin failed) := by
  intro engine start
  have ends := meets engine.document start.document
  rw [edit, Engine.edit]
  generalize change engine.document = result at ends ⊢
  cases result with
  | ok value document => exact { start with document := ends }
  | error cause document => exact { start with document := ends }

/-- A head that is made up to here. -/
abbrev HeadMade (origin : Engine) (host : NodeId) (made : List Tree) : Engine → Prop :=
  Resumes origin fun document => document.Contains host made

namespace HeadMade

variable {origin : Engine}

theorem added (holds : HeadMade origin host made engine) (tag : Text) (attributes : List (Text × Text))
    (validTag : isTagName tag = true) (small : Text.lowered tag = tag)
    (run : addToHead host tag attributes engine = .ok node after) :
    HeadMade origin host (made ++ [Tree.leaf tag attributes]) after := by
  obtain ⟨_, _, rfl⟩ := addToHead_eq_ok holds.document validTag small run
  exact ⟨holds.document.grafted _, holds.config, holds.styles⟩

theorem filled (holds : HeadMade origin host made engine) (tag : Text) (content : Text)
    (validTag : isTagName tag = true) (small : Text.lowered tag = tag) (fillable : isVoidElement tag = false)
    {between : Engine} (added : addToHead host tag [] engine = .ok node between)
    (run : edit (Edit.setTextContent node content) between = .ok ⟨⟩ after) :
    HeadMade origin host (made ++ [Tree.filled { tag } content]) after := by
  obtain ⟨_, rfl, rfl⟩ := addToHead_eq_ok holds.document validTag small added
  have fillable : isVoidElement (ElementData.setAttributes { tag } []).tag = false := fillable
  rw [edit_of_ok (holds.document.setTextContent_run fillable content)] at run
  cases run
  exact ⟨holds.document.filled fillable content, holds.config, holds.styles⟩

theorem addedAll {α : Type} (holds : HeadMade origin host made engine) (tag : Text)
    (attributesOf : α → List (Text × Text)) (validTag : isTagName tag = true)
    (small : Text.lowered tag = tag) (values : List α)
    (run : (values.forM fun value => do
      let _ ← addToHead host tag (attributesOf value)) engine = .ok ⟨⟩ after) :
    HeadMade origin host (made ++ values.map fun value => Tree.leaf tag (attributesOf value)) after ∧
      ∀ value ∈ values, ∀ pair ∈ attributesOf value, isAttributeName pair.1 = true := by
  induction values generalizing engine made with
  | nil =>
    cases run
    rw [List.map_nil, List.append_nil]
    exact ⟨holds, List.forall_mem_nil _⟩
  | cons first rest ih =>
    obtain ⟨_, between, firstRun, restRun⟩ := bind_run_eq_ok.mp run
    obtain ⟨_, _, added, ends⟩ := bind_run_eq_ok.mp firstRun
    cases ends
    obtain ⟨valid, _⟩ := addToHead_eq_ok holds.document validTag small added
    obtain ⟨all, validRest⟩ := ih (holds.added tag _ validTag small added) restRun
    rw [List.map_cons, List.append_cons]
    exact ⟨all, List.forall_mem_cons.mpr ⟨valid, validRest⟩⟩

/-- The head up to the meta tags from the settings. -/
theorem beginning (holds : HeadMade origin host [] engine) (head : HeadConfig) {rest : RenderStep Unit}
    (run : (do
      let _ ← addToHead host "meta".toList [("charset".toList, "utf-8".toList)]
      let title ← addToHead host "title".toList []
      edit (Edit.setTextContent title (head.title.getD (← get).config.defaultTitle))
      if !head.hasViewport then
        let _ ← addToHead host "meta".toList defaultViewport
      rest) engine = .ok ⟨⟩ after) :
    ∃ between, HeadMade origin host
        ([Tree.leaf "meta".toList [("charset".toList, "utf-8".toList)]] ++
          [Tree.filled { tag := "title".toList } (head.title.getD origin.config.defaultTitle)] ++
          if head.hasViewport then [] else [Tree.leaf "meta".toList defaultViewport]) between ∧
      rest between = .ok ⟨⟩ after := by
  obtain ⟨_, one, charsetRun, run⟩ := bind_run_eq_ok.mp run
  have first := holds.added _ _ (by decide) (by decide) charsetRun
  obtain ⟨_, two, titleRun, run⟩ := bind_run_eq_ok.mp run
  obtain ⟨_, _, got, run⟩ := bind_run_eq_ok.mp run
  cases got
  obtain ⟨_, three, textRun, run⟩ := bind_run_eq_ok.mp run
  have second := first.filled _ _ (by decide) (by decide) (by decide) titleRun textRun
  have titled := first.added _ _ (by decide) (by decide) titleRun
  rw [titled.config] at second
  by_cases viewport : head.hasViewport = true
  · rw [viewport] at run
    refine ⟨three, ?_, run⟩
    rw [if_pos viewport, List.append_nil]
    exact second
  · rw [Bool.not_eq_true] at viewport
    rw [viewport] at run
    obtain ⟨_, four, viewportRun, run⟩ := bind_run_eq_ok.mp run
    refine ⟨four, ?_, run⟩
    rw [viewport]
    exact second.added _ _ (by decide) (by decide) viewportRun

/-- The stylesheet, which is taken out of the buffers. -/
theorem styled (holds : HeadMade origin host made engine)
    (run : (do
      let style ← addToHead host "style".toList []
      let css := (← get).buffers.styles.text
      modify fun engine => { engine with buffers.styles := [] }
      if !css.isEmpty then
        edit (Edit.setTextContent style css) : RenderStep Unit) engine = .ok ⟨⟩ after) :
    after.document.Contains host
      (made ++ [Tree.filled { tag := "style".toList } origin.buffers.styles.text]) := by
  obtain ⟨style, one, styleRun, run⟩ := bind_run_eq_ok.mp run
  have leaf := holds.added _ _ (by decide) (by decide) styleRun
  obtain ⟨_, _, got, run⟩ := bind_run_eq_ok.mp run
  cases got
  obtain ⟨_, two, taken, run⟩ := bind_run_eq_ok.mp run
  cases taken
  rw [leaf.styles] at run
  by_cases empty : origin.buffers.styles.text.isEmpty = true
  · rw [empty] at run
    cases run
    rw [Tree.filled, if_pos empty]
    exact leaf.document
  · rw [if_pos (by simpa using empty)] at run
    obtain ⟨_, rfl, rfl⟩ := addToHead_eq_ok holds.document (by decide) (by decide) styleRun
    have fillable : isVoidElement "style".toList = false := by decide
    rw [edit_of_ok (Document.Contains.setTextContent_run holds.document fillable _)] at run
    cases run
    exact Document.Contains.filled holds.document fillable _

/-- The whole head is made as the settings ask for it. -/
theorem buildHead (holds : HeadMade origin host [] engine) (head : HeadConfig)
    (run : RenderStep.buildHead host head engine = .ok ⟨⟩ after) :
    head.NamesValid ∧
      after.document.Contains host (headTrees origin.config origin.buffers.styles head) := by
  obtain ⟨one, holds, run⟩ := holds.beginning head run
  obtain ⟨_, two, metaRun, run⟩ := bind_run_eq_ok.mp run
  obtain ⟨holds, valid⟩ := holds.addedAll "meta".toList id (by decide) (by decide) head.metaTags metaRun
  obtain ⟨_, three, scriptRun, run⟩ := bind_run_eq_ok.mp run
  obtain ⟨holds, _⟩ := holds.addedAll "script".toList (fun source => [("src".toList, source)]) (by decide)
    (by decide) head.scripts scriptRun
  obtain ⟨_, four, linkRun, run⟩ := bind_run_eq_ok.mp run
  obtain ⟨holds, _⟩ := holds.addedAll "link".toList (linkAttributes "stylesheet".toList) (by decide)
    (by decide) head.stylesheets linkRun
  refine ⟨valid, ?_⟩
  unfold headTrees
  cases icon : head.icon with
  | none =>
    rw [icon] at run
    rw [Option.map_none, Option.toList_none, List.append_nil]
    exact holds.styled run
  | some reference =>
    rw [icon] at run
    obtain ⟨_, five, iconRun, run⟩ := bind_run_eq_ok.mp run
    exact (holds.added _ _ (by decide) (by decide) iconRun).styled run

end HeadMade

end RenderStep

/-! ## The head before it is built -/

/-- A document in which a node has nothing below it. -/
structure Markup.Document.Bare (host : NodeId) (document : Document) : Prop where
  forest : document.Forest
  empty : document.children host = []

namespace Markup.Document.Bare

variable {host id : NodeId} {document : Document}

theorem preserves_clearChildren : Preserves (Bare host) (Edit.clearChildren id) fun _ => True := by
  intro document bare
  cases found : document.node? id with
  | none =>
    rw [Edit.clearChildren_run_missing found]
    exact bare
  | some node =>
    rw [Edit.clearChildren_run bare.forest (contains_iff.mpr ⟨node, found⟩)]
    refine ⟨⟨bare.forest.cleared id, ?_⟩, trivial⟩
    rw [children_cleared, bare.empty, ite_self]

theorem preserves_remove : Preserves (Bare host) (Edit.remove id) fun _ => True := by
  intro document bare
  cases found : document.node? id with
  | none =>
    rw [Edit.remove_run_missing found]
    exact bare
  | some node =>
    rw [Edit.remove_run bare.forest (contains_iff.mpr ⟨node, found⟩)]
    have orphan : (document.detached id).parent? id = none := by
      rw [parent?_detached, if_pos rfl]
    refine ⟨⟨(bare.forest.detached id).freed_family orphan, ?_⟩, trivial⟩
    rw [children_free, children_detached, bare.empty, List.filter_nil, ite_self]

theorem preserves_setAttribute {name value : Text} :
    Preserves (Bare host) (Edit.setAttribute id name value) fun _ => True := by
  intro document bare
  by_cases valid : isAttributeName name = true
  · cases found : document.element? id with
    | none =>
      rw [Edit.setAttribute_run_missing found valid]
      exact bare
    | some data =>
      rw [Edit.setAttribute_run found valid]
      refine ⟨⟨bare.forest.withData found (ElementData.tag_setAttribute _ _), ?_⟩, trivial⟩
      rw [children_withData, bare.empty]
  · rw [Edit.setAttribute_run_invalid valid]
    exact bare

/-- Whatever a node has below it, it has nothing below it when it was cleared. -/
theorem meets_clearChildren : Meets Forest (Edit.clearChildren host) (fun _ => Bare host) Forest := by
  intro document forest
  cases found : document.node? host with
  | none =>
    rw [Edit.clearChildren_run_missing found]
    exact forest
  | some node =>
    rw [Edit.clearChildren_run forest (contains_iff.mpr ⟨node, found⟩)]
    refine ⟨forest.cleared host, ?_⟩
    rw [children_cleared, if_pos rfl]

end Markup.Document.Bare

namespace RenderStep

variable {origin engine after : Engine} {shell : Shell}

/-- When a page is emptied, nothing is left in its head. -/
theorem meets_emptyPage (shell : Shell) :
    Meets (Resumes origin Document.Forest) (emptyPage shell)
      (fun emptied engine => emptied.head = shell.head ∧ Resumes origin (Document.Bare shell.head) engine)
      (Resumes origin Document.Forest) := by
  have kept {α : Type} {change : Edit α}
      (preserves : Preserves (Document.Bare shell.head) change fun _ => True) :
      Preserves (Resumes origin (Document.Bare shell.head)) (edit change) fun _ => True :=
    (meets_edit_resumes preserves).weaken (fun _ start => start)
      (fun _ _ ends => ⟨ends.imp fun _ => And.left, trivial⟩) fun _ ends => ends
  have ended : Meets (Resumes origin (Document.Bare shell.head)) (do
      modify fun engine => { engine with shell := some { shell with script := none } }
      return { shell with script := none } : RenderStep Shell)
      (fun emptied engine => emptied.head = shell.head ∧ Resumes origin (Document.Bare shell.head) engine)
      (Resumes origin (Document.Bare shell.head)) :=
    fun _ bare => ⟨rfl, { bare with }⟩
  have forests (last : Engine) (bare : Resumes origin (Document.Bare shell.head) last) :
      Resumes origin Document.Forest last := bare.imp fun _ => Document.Bare.forest
  unfold emptyPage
  refine (meets_edit_resumes Document.Bare.meets_clearChildren).bind fun former => ?_
  refine Meets.weaken ?_ (fun _ start => start) (fun _ _ ends => ends) forests
  refine (kept (Preserves.loop fun child _ => Document.Bare.preserves_remove)).meets_bind fun _ _ => ?_
  refine (kept Document.Bare.preserves_clearChildren).meets_bind fun _ _ => ?_
  cases shell.script with
  | none => exact ended
  | some script => exact (kept Document.Bare.preserves_remove).meets_bind fun _ _ => ended

/-- A render starts with a head that has nothing in it. -/
theorem bare_of_resetShell (sound : engine.document.Sound) (run : resetShell engine = .ok shell after) :
    Resumes engine (Document.Bare shell.head) after := by
  cases known : engine.shell with
  | none =>
    rw [Engine.Within.resetShell_run sound known] at run
    cases run
    have forest := (Document.Sound.withShell sound).forest
    refine ⟨⟨(forest.cleared _).cleared _, ?_⟩, rfl, rfl⟩
    have head : (Shell.next engine.document).head = engine.document.slots.size + 1 := rfl
    rw [Document.children_cleared, Document.children_cleared, if_pos head, ite_self]
  | some former =>
    rw [resetShell_eq, bind_of_ok (get_run engine), known] at run
    obtain ⟨same, bare⟩ := (meets_emptyPage former).ok ⟨sound.forest, rfl, rfl⟩ run
    rw [same]
    exact bare

end RenderStep

/-! ## Heads that stay -/

namespace Frame.Fits

variable {frame : Frame} {document changed : Document} {shell : Shell} {id child : NodeId}

/-- Nothing below the head is to be kept. -/
theorem not_kept_of_below_head (fits : frame.Fits document) (known : frame.shell = some shell)
    (below : document.Below id shell.head) : id = shell.head ∨ ¬ frame.IsKept id := by
  induction below using Relation.ReflTransGen.head_induction_on with
  | refl => exact Or.inl rfl
  | head step _ ih =>
    right
    rcases ih with rfl | loose
    · exact (fits.shell shell known).inHead _ step
    · exact fun kept => loose (fits.hosts _ _ step kept)

theorem ne_body_of_below_head (fits : frame.Fits document) (known : frame.shell = some shell)
    (below : document.Below id shell.head) : id ≠ shell.body := by
  rintro rfl
  rcases fits.not_kept_of_below_head known below with same | loose
  · exact (fits.shell shell known).body_ne_head same
  · exact loose (Or.inr (isPart_body known))

/-- The trees in the head stay when nothing below the head changes. -/
theorem trees_head_kept (fits : frame.Fits document) (forest : changed.Forest)
    (kinds : ∀ id, document.Below id shell.head → changed.kind? id = document.kind? id)
    (lists : ∀ id, document.Below id shell.head → changed.children id = document.children id) :
    changed.trees (changed.children shell.head) = document.trees (document.children shell.head) := by
  have closed {id child : NodeId} (below : document.Below id shell.head)
      (listed : child ∈ document.children id) : document.Below child shell.head :=
    Document.below_trans (Document.below_of_parent? (fits.sound.forest.linked.mp listed)) below
  rw [lists _ (Document.below_refl _)]
  apply Document.trees_congr
  intro child listed
  exact Document.tree?_eq_of_kept fits.sound.forest forest (kinds _) (lists _) closed
    (closed (Document.below_refl _) listed)

/-- What is to be kept gets into the body without a change to the head. -/
theorem trees_head_moved (fits : frame.Fits document) (known : frame.shell = some shell) {root : NodeId}
    (kept : frame.IsKept root) (possible : Edit.appendProblem document shell.body root = none) :
    (document.moved shell.body root).trees ((document.moved shell.body root).children shell.head) =
      document.trees (document.children shell.head) := by
  obtain ⟨host, live, _⟩ := (Edit.appendProblem_eq_none_iff fits.sound.forest).mp possible
  obtain ⟨data, found, _⟩ := host
  refine fits.trees_head_kept (fits.sound.moved possible).forest (fun _ _ => Document.kind?_relinked _ _ _) ?_
  intro id below
  rw [Document.children_moved (Document.contains_of_element? found),
    if_neg (fits.ne_body_of_below_head known below), List.append_nil, List.filter_eq_self]
  intro child listed
  have step := fits.sound.forest.linked.mp listed
  rw [bne_iff_ne]
  rintro rfl
  rcases fits.not_kept_of_below_head known (Document.below_trans (Document.below_of_parent? step) below) with
    rfl | loose
  · exact fits.sound.forest.not_below_child step below
  · exact loose kept

/-- The roots get into the body without a change to the head. -/
theorem preserves_mountRoots (known : frame.shell = some shell) {roots : List NodeId} {made : List Tree}
    (users : ∀ root ∈ roots, frame.users root) :
    Preserves (fun document => frame.Fits document ∧ document.trees (document.children shell.head) = made)
      (roots.forM fun root => Edit.appendChild shell.body root) fun _ => True := by
  refine Preserves.loop fun root member => ?_
  rintro document ⟨fits, trees⟩
  cases problem : Edit.appendProblem document shell.body root with
  | some cause =>
    rw [Edit.appendChild_run_problem problem]
    exact ⟨fits, trees⟩
  | none =>
    have remains := fits.shell shell known
    have user := users root member
    rw [Edit.appendChild_run fits.sound.forest problem]
    refine ⟨⟨fits.moved problem (fun _ => Or.inr (isPart_body known)) ?_, ?_⟩, trivial⟩
    · intro other otherKnown
      rw [known, Option.some.injEq] at otherKnown
      rw [← otherKnown]
      exact ⟨remains.body_ne_html, fun same => absurd same remains.body_ne_head,
        fun _ => fits.user_ne_body user known⟩
    · rw [fits.trees_head_moved known (Or.inl user) problem, trees]

end Frame.Fits

namespace Engine

variable {origin engine after : Engine} {frame : Frame} {shell : Shell} {users : NodeId → Prop}

/-- When a page is prepared, its head is as the settings ask for it. -/
theorem Within.head_of_prepare (within : origin.Within frame engine) {roots : List NodeId}
    (given : ∀ root ∈ roots, frame.users root) {head : HeadConfig}
    (run : RenderStep.prepare roots head engine = .ok shell after) :
    head.NamesValid ∧ after.document.trees (after.document.children shell.head) =
      headTrees engine.config engine.buffers.styles head := by
  rw [RenderStep.prepare, bind_of_ok (get_run engine)] at run
  dsimp only at run
  cases problem : RenderStep.mountProblem engine.document (engine.shell.map Shell.body) [] roots with
  | some cause =>
    rw [problem] at run
    cases run
  | none =>
    rw [problem] at run
    obtain ⟨made, one, resetRun, run⟩ := bind_run_eq_ok.mp run
    obtain ⟨_, two, languageRun, run⟩ := bind_run_eq_ok.mp run
    obtain ⟨_, three, headRun, run⟩ := bind_run_eq_ok.mp run
    obtain ⟨_, four, mountRun, ends⟩ := bind_run_eq_ok.mp run
    cases ends
    have bare := RenderStep.bare_of_resetShell within.fits.sound resetRun
    have known : (frame.around shell).shell = some shell := rfl
    have withinOne := Within.resetShell.ok within resetRun
    have bareTwo := (RenderStep.meets_edit_resumes Document.Bare.preserves_setAttribute).ok bare languageRun
    obtain ⟨withinTwo, _⟩ := (Within.render (Frame.preserves_setAttribute
      (fun same => absurd same (by decide)))).ok withinOne languageRun
    obtain ⟨withinThree, _⟩ := (Within.buildHead known head).ok withinTwo headRun
    have mayHost := Document.mayHost_of_tag? (withinTwo.fits.shell shell rfl).head (by decide)
    have bareTwo := bareTwo.imp fun _ => And.left
    have empty : two.document.trees (two.document.children shell.head) = [] := by
      rw [bareTwo.document.empty]
      rfl
    have headMade : RenderStep.HeadMade engine shell.head [] two :=
      { bareTwo with document := ⟨bareTwo.document.forest, mayHost, empty⟩ }
    obtain ⟨valid, contains⟩ := headMade.buildHead head headRun
    have mounted := (RenderStep.meets_edit_resumes (Frame.Fits.preserves_mountRoots known given)).ok
      ⟨⟨withinThree.fits, contains.trees⟩, rfl, rfl⟩ mountRun
    exact ⟨valid, mounted.document.1.2⟩

/-- After a render, the head is as the settings ask for it, wherever it is in the page. -/
theorem Guards.head_of_tryRender (guards : engine.Guards users) {mount : List Element}
    (given : ∀ root ∈ mount, engine.owns root = true → users root.node) {head : HeadConfig} {page : Text}
    (run : Action.tryRender mount head engine = .ok page after) :
    head.NamesValid ∧ after.document.Forest ∧ ∃ shell data, after.shell = some shell ∧
      page = after.document.page shell.html ∧ after.document.element? shell.head = some data ∧
      data.tag = "head".toList ∧ after.document.trees (after.document.children shell.head) =
        headTrees engine.config engine.buffers.styles head := by
  obtain ⟨own, last, compiled, sameDocument, sameShell⟩ := Action.exists_compiled run
  rw [RenderStep.compile_eq_prepare] at compiled
  obtain ⟨shell, middle, prepared, finished⟩ := bind_run_eq_ok.mp compiled
  have roots : ∀ root ∈ mount.map Element.node, users root := by
    rw [List.forall_mem_map]
    exact fun root member => given root member (own root member)
  have within : engine.Within (engine.frame users) { engine with phase := .compiling } :=
    { guards.within with }
  have watched := (Within.prepare roots head).ok within prepared
  have remains := watched.fits.shell shell rfl
  have inside {id : NodeId} {tag : Text} (found : middle.document.tag? id = some tag) :
      id < middle.document.slots.size :=
    Document.lt_size_of_contains (Document.contains_of_tag? (Option.isSome_of_eq_some found))
  have insideHead {id : NodeId} (below : middle.document.Below id shell.head) :
      id < middle.document.slots.size := by
    rcases Document.below_iff_eq_or_parent.mp below with rfl | ⟨_, step, _⟩
    · exact inside remains.head
    · exact Document.lt_size_of_contains (Document.contains_of_parent? step)
  obtain ⟨written, shellAfter, forest, kept, _⟩ :=
    RenderStep.finish_eq_ok watched.fits.sound.forest (inside remains.body) finished
  have same : last.document.trees (last.document.children shell.head) =
      middle.document.trees (middle.document.children shell.head) := by
    refine watched.fits.trees_head_kept forest (fun id below => (kept id (insideHead below)).1) ?_
    intro id below
    rw [(kept id (insideHead below)).2, if_neg (watched.fits.ne_body_of_below_head rfl below),
      List.append_nil]
  obtain ⟨data, found, tag⟩ := Document.exists_element?_of_tag?
    ((Document.tag?_congr (kept _ (inside remains.head)).1).trans remains.head)
  obtain ⟨valid, headMade⟩ := within.head_of_prepare roots prepared
  rw [sameDocument]
  exact ⟨valid, forest, _, data, sameShell.trans shellAfter, written, found, tag, same.trans headMade⟩

end Engine

end PageCompiler
