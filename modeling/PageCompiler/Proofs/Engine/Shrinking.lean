import PageCompiler.Proofs.Engine.Identifiers
import PageCompiler.Proofs.Engine.TakenTexts
import PageCompiler.Proofs.Markup.Subtrees

/-!
# Shrinking scripts

Whether an engine shrinks its scripts matters to the texts of these scripts alone: what a render comes to,
what is pending after it and the rest of the page are the same, also when a script cannot be shrunk. A
script of an earlier page is removed with its text, unless its text was appended elsewhere in between; a page
that shows such a text shows it as it was written then.
-/

namespace PageCompiler

open Markup Steps

/-- A script, shrunk if that is possible. -/
def Script.shrunk (source : Text) : Text :=
  match minify source with
  | .ok short => short
  | .error _ => source

/-- The client script is what is composed, shrunk if that is wanted. -/
theorem clientScript_eq (engine : Engine) : clientScript engine.config engine.buffers =
    if engine.config.minifyScript then Script.shrunk (RenderStep.scriptSource engine)
    else RenderStep.scriptSource engine := by
  unfold clientScript RenderStep.scriptSource
  generalize Bootstrap.compose _ _ _ _ = source
  rfl

/-- A line in front of others, character by character. -/
theorem map_toList_cons {line : Text} {rest : List String} {lines : List Text}
    (same : rest.map String.toList = lines) :
    (String.ofList line :: rest).map String.toList = line :: lines := by
  rw [List.map_cons, String.toList_ofList, same]

/-- A client script without any data is another one when it is shrunk. -/
theorem shrunk_scriptSource_ne : Script.shrunk (RenderStep.scriptSource (Engine.new 0 {} 7)) ≠
    RenderStep.scriptSource (Engine.new 0 {} 7) := by
  let around (helpers : Text) : Text := Bootstrap.beforeReferences ++ (Json.Value.object []).text ++
    Bootstrap.beforeState ++ (Json.Value.object []).text ++ helpers ++ [] ++ Bootstrap.beforeBehavior ++ [] ++
      Bootstrap.afterBehavior
  -- The lines are spelled out first: the kernel is slow at reading a literal, and fast at comparing one.
  have spelled : ∃ lines, Bootstrap.helpers = List.intercalate ['\n'] lines ∧
      Script.shrunk (around (List.intercalate ['\n'] lines)) ≠ around (List.intercalate ['\n'] lines) := by
    apply Exists.intro
    apply And.intro
    · apply congrArg
      change List.map String.toList (_ :: _) = _
      repeat apply map_toList_cons
      rfl
    · decide +kernel
  obtain ⟨lines, same, differ⟩ := spelled
  rw [← same] at differ
  exact differ

/-- Whether two pages are the same up to the client scripts at their ends, of which the second one is the
first one shrunk. -/
def SameButScript (source page otherPage : Text) : Prop :=
  ∃ start, page = start ++ "<script>".toList ++ shielded "script".toList source ++
      "</script></body></html>".toList ∧
    otherPage = start ++ "<script>".toList ++ shielded "script".toList (Script.shrunk source) ++
      "</script></body></html>".toList

/-- Pages that are the same but for their scripts have the same roots. -/
theorem roots_of_sameButScript {config : EngineConfig} {buffers : Buffers} {head : HeadConfig}
    {roots otherRoots : List Text} {source : Text} (plain : clientScript config buffers = source)
    (shrunk : clientScript { config with minifyScript := true } buffers = Script.shrunk source)
    (same : SameButScript source (pageText config buffers head roots)
      (pageText { config with minifyScript := true } buffers head otherRoots)) :
    roots.flatten = otherRoots.flatten := by
  obtain ⟨start, first, second⟩ := same
  unfold pageText at first second
  rw [plain] at first
  rw [shrunk] at second
  have front := List.append_cancel_right (List.append_cancel_right (List.append_cancel_right first))
  have otherFront := List.append_cancel_right (List.append_cancel_right (List.append_cancel_right second))
  exact List.append_cancel_left (front.trans otherFront.symm)

/-- Whether the body, if there is one, stands in its page. -/
def Engine.HasBody (engine : Engine) : Prop :=
  ∀ shell, engine.shell = some shell → engine.document.parent? shell.body = some shell.html

/-- Whether a node is in the page of the last render. -/
def Engine.Shows (engine : Engine) (id : NodeId) : Prop :=
  ∃ shell, engine.shell = some shell ∧ engine.document.Below id shell.html

/-! ## Pages -/

/-- A body that was appended elsewhere is not below the page by another way. -/
theorem Frame.Fits.not_below_html {frame : Frame} {document : Document} (fits : frame.Fits document)
    {shell : Shell} (known : frame.shell = some shell)
    (gone : document.parent? shell.body ≠ some shell.html) : ¬ document.Below shell.body shell.html := by
  intro below
  have forest := fits.sound.forest
  have remains := fits.shell shell known
  obtain ⟨child, lower, step⟩ := (Document.below_iff_eq_or_child.mp below).resolve_left
    remains.body_ne_html.symm
  have parts := remains.parts_sublist fun member => gone (forest.linked.mp member)
  have inHead : child = shell.head := List.mem_singleton.mp (parts.subset (forest.linked.mpr step))
  subst inHead
  obtain ⟨inner, innerLower, innerStep⟩ := (Document.below_iff_eq_or_child.mp lower).resolve_left
    remains.body_ne_head.symm
  exact fits.not_kept_of_below (remains.inHead inner innerStep) innerLower
    (Or.inr (Frame.Fits.isPart_body known))

namespace Engine.Beside

section Finished

variable {loose : NodeId → Prop} {origin : Engine.Origin} {first engine other after otherAfter : Engine}
  {frame : Frame} {shell : Shell} {page otherPage : Text} {id : NodeId}
  (beside : engine.Beside (Leeway.differing loose).Beside origin other)
  (within : first.Within (frame.around shell) engine)
  (run : RenderStep.finish shell engine = .ok page after)
  (otherRun : RenderStep.finish shell other = .ok otherPage otherAfter)
  (apart : ∀ id, loose id → ¬ after.Shows id)

include within in
theorem body_lt_size : shell.body < engine.document.slots.size :=
  within.fits.lt_size_of_kept (Or.inr (Frame.Fits.isPart_body rfl))

include beside within run otherRun apart

/-- What is in the page is the same in both engines when they are finished, with the script put last into
the body. -/
theorem alike_shown (shown : engine.document.Below id shell.html) :
    otherAfter.document.kind? id = after.document.kind? id ∧
      otherAfter.document.children id = after.document.children id ∧
      after.document.children id =
        engine.document.children id ++ if id = shell.body then [engine.document.slots.size] else [] := by
  have forest := within.fits.sound.forest
  have size := beside.document.size
  have inside : id < engine.document.slots.size := by
    have html := within.fits.contains_of_kept (Or.inr (Frame.Fits.isPart_html rfl))
    exact Document.lt_size_of_contains (Document.contains_of_below html shown)
  obtain ⟨_, known, afterForest, kept, _⟩ := RenderStep.finish_eq_ok forest (body_lt_size within) run
  obtain ⟨_, _, _, otherKept, _⟩ := RenderStep.finish_eq_ok beside.document.otherForest
    (size ▸ body_lt_size within) otherRun
  have stillShown : after.Shows id := by
    refine ⟨_, known, Document.below_of_fewer (fun child parent step => ?_) shown⟩
    rw [← afterForest.linked, (kept parent (Document.lt_size_of_contains (forest.contains_parent step))).2]
    exact List.mem_append_left _ (forest.linked.mpr step)
  have kinds := (beside.document.kinds id).resolve_right fun differs => apart id differs.1 stillShown
  obtain ⟨kind, list⟩ := kept id inside
  obtain ⟨otherKind, otherList⟩ := otherKept id (size ▸ inside)
  refine ⟨?_, ?_, list⟩
  · rw [otherKind, kinds, kind]
  · rw [otherList, beside.document.lists, size, list]

/-- The trees in the page that the script is not put into are the same. -/
theorem tree?_shown (shown : engine.document.Below id shell.html)
    (outside : ¬ engine.document.Below shell.body id) :
    otherAfter.document.tree? id = after.document.tree? id := by
  have forest := within.fits.sound.forest
  obtain ⟨_, _, afterForest, _, _⟩ := RenderStep.finish_eq_ok forest (body_lt_size within) run
  obtain ⟨_, _, otherForest, _, _⟩ := RenderStep.finish_eq_ok beside.document.otherForest
    (beside.document.size ▸ body_lt_size within) otherRun
  let kept (id : NodeId) : Prop :=
    engine.document.Below id shell.html ∧ ¬ engine.document.Below shell.body id
  have member : kept id := ⟨shown, outside⟩
  refine Document.tree?_eq_of_kept afterForest otherForest ?_ ?_ ?_ member
  · exact fun ⟨shown, _⟩ => (beside.alike_shown within run otherRun apart shown).1
  · exact fun ⟨shown, _⟩ => (beside.alike_shown within run otherRun apart shown).2.1
  · rintro other child ⟨shown, outside⟩ listed
    rw [(beside.alike_shown within run otherRun apart shown).2.2, if_neg, List.append_nil] at listed
    · have step := Document.below_of_parent? (forest.linked.mp listed)
      exact ⟨Document.below_trans step shown, fun below => outside (Document.below_trans below step)⟩
    · rintro rfl
      exact outside (Document.below_refl _)

/-- Pages with their bodies are the same up to the scripts at their ends. -/
theorem pages_of_body (stands : engine.document.parent? shell.body = some shell.html) :
    ∃ start, page = start ++ "<script>".toList ++
        shielded "script".toList (clientScript engine.config engine.buffers) ++
          "</script></body></html>".toList ∧
      otherPage = start ++ "<script>".toList ++
        shielded "script".toList (clientScript other.config other.buffers) ++
          "</script></body></html>".toList := by
  have forest := within.fits.sound.forest
  have remains := within.fits.shell shell rfl
  obtain ⟨written, _, afterForest, kept, scriptTree⟩ :=
    RenderStep.finish_eq_ok forest (body_lt_size within) run
  obtain ⟨otherWritten, _, otherForest, _, otherTree⟩ := RenderStep.finish_eq_ok beside.document.otherForest
    (beside.document.size ▸ body_lt_size within) otherRun
  obtain ⟨before, parts⟩ := remains.exists_parts (forest.linked.mpr stands)
  have bodyShown := Document.below_of_parent? stands
  obtain ⟨htmlKind, htmlList, htmlParts⟩ :=
    beside.alike_shown within run otherRun apart (Document.below_refl shell.html)
  obtain ⟨bodyKind, bodyList, bodyKids⟩ := beside.alike_shown within run otherRun apart bodyShown
  rw [if_neg remains.body_ne_html.symm, List.append_nil, parts] at htmlParts
  rw [if_pos rfl] at bodyKids
  have html := (Document.tag?_congr (kept _ (within.fits.lt_size_of_kept
    (Or.inr (Frame.Fits.isPart_html rfl)))).1).trans remains.html
  have body := (Document.tag?_congr (kept _ (body_lt_size within)).1).trans remains.body
  obtain ⟨htmlData, htmlFound, htmlTag⟩ := Document.exists_element?_of_tag? html
  obtain ⟨bodyData, bodyFound, bodyTag⟩ := Document.exists_element?_of_tag? body
  have trees {ids : List NodeId} (shown : ∀ id ∈ ids, engine.document.Below id shell.html ∧
      ¬ engine.document.Below shell.body id) : otherAfter.document.trees ids = after.document.trees ids :=
    Document.trees_congr fun id member =>
      beside.tree?_shown within run otherRun apart (shown id member).1 (shown id member).2
  have beforeTrees : otherAfter.document.trees before = after.document.trees before := by
    have distinct := forest.listedOnce shell.html
    rw [parts, List.nodup_append] at distinct
    refine trees fun id member => ?_
    have step : engine.document.parent? id = some shell.html := by
      rw [← forest.linked, parts]
      exact List.mem_append_left _ member
    have different : shell.body ≠ id := fun same =>
      distinct.2.2 id member shell.body (List.mem_singleton_self _) same.symm
    exact ⟨Document.below_of_parent? step, forest.not_below_sibling stands step different⟩
  have kidTrees : otherAfter.document.trees (engine.document.children shell.body) =
      after.document.trees (engine.document.children shell.body) := by
    refine trees fun id listed => ?_
    have step := forest.linked.mp listed
    exact ⟨Document.below_trans (Document.below_of_parent? step) bodyShown, forest.not_below_child step⟩
  rw [beside.document.size] at otherTree
  have pageText := afterForest.page_eq htmlFound htmlTag bodyFound bodyTag htmlParts bodyKids scriptTree
  have otherPageText := otherForest.page_eq ((Document.element?_congr htmlKind).trans htmlFound) htmlTag
    ((Document.element?_congr bodyKind).trans bodyFound) bodyTag (htmlList.trans htmlParts)
    (bodyList.trans bodyKids) otherTree
  rw [beforeTrees, kidTrees] at otherPageText
  exact ⟨_, written.trans pageText, otherWritten.trans otherPageText⟩

/-- Pages without their bodies are the same. -/
theorem pages_of_bodyless (gone : engine.document.parent? shell.body ≠ some shell.html) :
    otherPage = page := by
  obtain ⟨written, _, _, _, _⟩ :=
    RenderStep.finish_eq_ok within.fits.sound.forest (body_lt_size within) run
  obtain ⟨otherWritten, _, _, _, _⟩ := RenderStep.finish_eq_ok beside.document.otherForest
    (beside.document.size ▸ body_lt_size within) otherRun
  have tree := beside.tree?_shown within run otherRun apart (Document.below_refl shell.html)
    (within.fits.not_below_html rfl gone)
  have markup : otherAfter.document.markup shell.html = after.document.markup shell.html := by
    rw [Document.markup, Document.markup, tree]
  rw [written, otherWritten]
  unfold Document.page
  generalize "<!DOCTYPE html>\n".toList = doctype
  rw [markup]

end Finished

end Engine.Beside

/-- Engines side by side compose the same script. -/
theorem Engine.Beside.scriptSource {related : Document → Document → Prop} {origin : Engine.Origin}
    {first second : Engine} (beside : first.Beside related origin second) :
    RenderStep.scriptSource second = RenderStep.scriptSource first := by
  rw [RenderStep.scriptSource, RenderStep.scriptSource, beside.buffers, beside.otherConfig, beside.config]

/-- Pages of two engines, of which the second one shrinks its scripts, are the same up to the scripts at
their ends; pages without their bodies have no scripts there. -/
theorem Engine.Differ.pages {loose : NodeId → Prop} {origin : Engine.Origin}
    {engine other after otherAfter : Engine} {users : NodeId → Prop}
    (differ : engine.Differ loose origin other) (guards : engine.Guards users)
    (plain : origin.config.minifyScript = false) (shrinks : origin.minify = true)
    {mount : List Element} (given : ∀ root ∈ mount, engine.owns root = true → users root.node)
    {head : HeadConfig} {page otherPage : Text} (run : Action.tryRender mount head engine = .ok page after)
    (otherRun : Action.tryRender mount head other = .ok otherPage otherAfter)
    (apart : ∀ id, loose id → ¬ after.Shows id) :
    (engine.HasBody → SameButScript (RenderStep.scriptSource engine) page otherPage) ∧
      (¬ engine.HasBody → otherPage = page) := by
  obtain ⟨own, last, compiled, sameDocument, sameShell⟩ := Action.exists_compiled run
  obtain ⟨_, otherLast, otherCompiled, _⟩ := Action.exists_compiled otherRun
  rw [RenderStep.compile_eq_prepare] at compiled otherCompiled
  obtain ⟨shell, prepared, prepareRun, finishRun⟩ := bind_run_eq_ok.mp compiled
  obtain ⟨otherShell, otherPrepared, otherPrepareRun, otherFinishRun⟩ := bind_run_eq_ok.mp otherCompiled
  have roots : ∀ root ∈ mount.map Element.node, users root := by
    rw [List.forall_mem_map]
    exact fun root member => given root member (own root member)
  have compiling : Guards { engine with phase := .compiling } users := ⟨guards.fits, guards.hooked⟩
  have start : Differ loose origin { engine with phase := .compiling } { other with phase := .compiling } :=
    { differ with phase := rfl }
  have both := start.prepare compiling (mount.map Element.node) head _ _ ⟨rfl, rfl⟩
  rw [prepareRun, otherPrepareRun] at both
  obtain ⟨rfl, beside⟩ := both
  have lastApart : ∀ id, loose id → ¬ last.Shows id := by
    unfold Shows at apart ⊢
    rwa [← sameDocument, ← sameShell]
  have collected := (guards.prepared guards.fits roots prepareRun).2
  have source : RenderStep.scriptSource prepared = RenderStep.scriptSource engine := by
    rw [RenderStep.scriptSource, RenderStep.scriptSource, collected, beside.config, differ.config]
  have script : clientScript prepared.config prepared.buffers = RenderStep.scriptSource engine := by
    rw [clientScript_eq, beside.config, plain, source]
    exact if_neg Bool.false_ne_true
  have otherScript : clientScript otherPrepared.config otherPrepared.buffers =
      Script.shrunk (RenderStep.scriptSource engine) := by
    rw [clientScript_eq, beside.otherConfig, shrinks, if_pos rfl, beside.scriptSource, source]
  constructor
  · intro stands
    have watched := (guards.prepared (guards.fits.watching stands) roots prepareRun).1
    have pages := beside.pages_of_body watched finishRun otherFinishRun lastApart
      ((watched.fits.shell otherShell rfl).whole trivial)
    rwa [script, otherScript] at pages
  · intro bodyless
    simp only [HasBody, not_forall] at bodyless
    obtain ⟨former, known, gone⟩ := bodyless
    have watched := (guards.prepared (guards.fits.losing known gone) roots prepareRun).1
    obtain ⟨later, same, stillGone⟩ := watched.fits.lost trivial
    cases same
    exact beside.pages_of_bodyless watched finishRun otherFinishRun lastApart stillGone

/-! ## Two engines -/

/-- Whether a caller takes a node out of the script of the last render with a command. -/
def Turn.Takes (turn : Turn) (id : NodeId) : Prop :=
  ¬ turn.command.IsRender ∧ turn.engine.InScript id ∧ ¬ turn.after.InScript id

/-- Where a caller can bring two engines by the same commands, and what is held of each then: elements of
other engines and any numbers of nodes may come in from outside, the same for both. -/
inductive Engine.Tandem (start otherStart : Engine) : List Turn → Engine → Held → Engine → Held → Prop where
  | opened : Tandem start otherStart [] start {} otherStart {}
  | received {turns : List Turn} {engine other : Engine} {held otherHeld : Held} {element : Element}
    (tandem : Tandem start otherStart turns engine held other otherHeld)
    (foreign : engine.owns element = false) :
    Tandem start otherStart turns engine { held with elements := held.elements ++ [element] } other
      { otherHeld with elements := otherHeld.elements ++ [element] }
  | noted {turns : List Turn} {engine other : Engine} {held otherHeld : Held}
    (tandem : Tandem start otherStart turns engine held other otherHeld) (id : NodeId) :
    Tandem start otherStart turns engine { held with nodes := held.nodes ++ [id] } other
      { otherHeld with nodes := otherHeld.nodes ++ [id] }
  | performed {turns : List Turn} {engine after other otherAfter : Engine}
    {held heldAfter otherHeld otherHeldAfter : Held} {command : Command} {answer otherAnswer : Answer}
    (tandem : Tandem start otherStart turns engine held other otherHeld)
    (run : command.perform held engine = (answer, heldAfter, after))
    (otherRun : command.perform otherHeld other = (otherAnswer, otherHeldAfter, otherAfter)) :
    Tandem start otherStart (turns ++ [⟨engine, held, command⟩]) after heldAfter otherAfter otherHeldAfter

namespace Engine.Tandem

variable {start otherStart engine other : Engine} {turns : List Turn} {held otherHeld : Held}

theorem tour (tandem : start.Tandem otherStart turns engine held other otherHeld) :
    start.Tour turns engine held := by
  induction tandem with
  | opened => exact .opened
  | received _ foreign ih => exact ih.received foreign
  | noted _ id ih => exact ih.noted id
  | performed _ run _ ih => exact ih.performed run

theorem performs (tandem : start.Tandem otherStart turns engine held other otherHeld) (command : Command) :
    start.Tandem otherStart (turns ++ [⟨engine, held, command⟩]) (command.perform held engine).2.2
      (command.perform held engine).2.1 (command.perform otherHeld other).2.2
      (command.perform otherHeld other).2.1 :=
  tandem.performed rfl rfl

section New

variable {uid : Nat} {config : EngineConfig} {entropy : UInt64}
  (tandem : (Engine.new uid { config with minifyScript := false } entropy).Tandem
    (Engine.new uid { config with minifyScript := true } entropy) turns engine held other otherHeld)

include tandem

/-- The engines differ at most in the script of the last render and in what was taken out of scripts. -/
theorem differ {loose : NodeId → Prop} (taken : ∀ turn ∈ turns, ∀ id, turn.Takes id → loose id) :
    otherHeld = held ∧ engine.Differ loose
      { config := { config with minifyScript := false }, minify := true,
        ids := (Engine.new uid config entropy).ids } other := by
  induction tandem with
  | opened =>
    have forest := Document.Sound.empty.forest
    exact ⟨rfl, ⟨⟨forest, forest, rfl, fun _ => rfl, fun _ => rfl, fun _ => Or.inl rfl,
      fun _ _ _ => trivial⟩, rfl, rfl, rfl, rfl, Identifier.Allocator.reaches_self _, rfl, rfl, rfl, rfl,
      rfl⟩⟩
  | received _ _ ih =>
    obtain ⟨rfl, differ⟩ := ih taken
    exact ⟨rfl, differ⟩
  | noted _ _ ih =>
    obtain ⟨rfl, differ⟩ := ih taken
    exact ⟨rfl, differ⟩
  | @performed turns engine after other otherAfter held heldAfter otherHeld otherHeldAfter command answer
      otherAnswer tandem run otherRun ih =>
    rw [List.forall_mem_append, List.forall_mem_singleton] at taken
    obtain ⟨rfl, differ⟩ := ih taken.1
    obtain ⟨users, guards, known⟩ := tandem.tour.guards
    by_cases isRender : command.IsRender
    · have ends := differ.perform_render guards known isRender
      rwa [run, otherRun] at ends
    · have ends := differ.perform isRender fun id inside out => taken.2 id ⟨isRender, inside, out⟩
      rwa [run, otherRun] at ends

/-- Whatever a caller does with two engines of which the second one shrinks its scripts, both hand out the
same, and both render or neither does, for one reason and with the same buffers afterwards. The pages are the
same up to the client scripts at their ends, as long as no text that the caller has taken out of an earlier
script is shown in them. A page without its body has no client script. -/
theorem renders_alike : otherHeld = held ∧
    ∀ mount : List Element, (∀ root ∈ mount, root ∈ held.elements) → ∀ head,
      match Action.tryRender mount head engine, Action.tryRender mount head other with
      | .ok page after, .ok otherPage otherAfter => otherAfter.buffers = after.buffers ∧
        ((∀ turn ∈ turns, ∀ id, turn.Takes id → ¬ after.Shows id) →
          (engine.HasBody → SameButScript (RenderStep.scriptSource engine) page otherPage) ∧
            (¬ engine.HasBody → otherPage = page))
      | .error cause after, .error otherCause otherAfter =>
        otherCause = cause ∧ otherAfter.buffers = after.buffers
      | _, _ => False := by
  obtain ⟨users, guards, known⟩ := tandem.tour.guards
  refine ⟨(tandem.differ fun _ _ _ _ => trivial).1, fun mount member head => ?_⟩
  have given : ∀ root ∈ mount, engine.owns root = true → users root.node :=
    fun root listed => known root (member root listed)
  have always : engine.Differ (fun _ => True) _ other := (tandem.differ fun _ _ _ _ => trivial).2
  have ends := always.tryRender guards given head engine other ⟨rfl, rfl⟩
  cases run : Action.tryRender mount head engine with
  | ok page after =>
    cases otherRun : Action.tryRender mount head other with
    | ok otherPage otherAfter =>
      rw [run, otherRun] at ends
      refine ⟨ends.buffers, fun hidden => ?_⟩
      exact (tandem.differ hidden).2.pages guards rfl rfl given run otherRun fun _ out => out
    | error cause otherAfter =>
      rw [run, otherRun] at ends
      exact ends
  | error cause after =>
    cases otherRun : Action.tryRender mount head other with
    | ok otherPage otherAfter =>
      rw [run, otherRun] at ends
      exact ends
    | error otherCause otherAfter =>
      rw [run, otherRun] at ends
      exact ⟨ends.1, ends.2.buffers⟩

end New

/-- A second page, with a paragraph in it that was in the first one. -/
theorem renders_alike_paragraph : ∃ turns engine held other otherHeld page after otherPage otherAfter,
    (Engine.new 0 {} 7).Tandem (Engine.new 0 { minifyScript := true } 7) turns engine held other otherHeld ∧
      engine.shell.isSome ∧ Action.tryRender held.elements {} engine = .ok page after ∧
      Action.tryRender held.elements {} other = .ok otherPage otherAfter ∧
      otherAfter.buffers = after.buffers ∧
      SameButScript (RenderStep.scriptSource engine) page otherPage := by
  let opening : Command := .createElement "p".toList
  have start : (Engine.new 0 {} 7).Tandem (Engine.new 0 { minifyScript := true } 7) [] _ {} _ {} := .opened
  obtain ⟨turns, engine, held, other, otherHeld, tandem, taken, shown, stands, renders⟩ :
      ∃ turns engine held other otherHeld,
        (Engine.new 0 {} 7).Tandem (Engine.new 0 { minifyScript := true } 7) turns engine held other
          otherHeld ∧
        (∀ turn ∈ turns, ∀ id, ¬ turn.Takes id) ∧ engine.shell.isSome ∧
        (engine.shell.all fun shell => engine.document.parent? shell.body = some shell.html) = true ∧
        (engine.rendersTo held.elements fun _ => true) = true := by
    refine ⟨_, _, _, _, _, (start.performs opening).performs (.tryRender [0] {}), ?_, by decide +kernel⟩
    rintro turn member id ⟨renders, ⟨shell, script, known, _⟩, _⟩
    rcases List.mem_append.mp member with first | last
    · cases List.mem_singleton.mp first
      cases known
    · cases List.mem_singleton.mp last
      exact renders trivial
  obtain ⟨page, after, run, _⟩ := exists_page_of_rendersTo renders
  have hasBody : engine.HasBody := by
    intro shell known
    rw [known, Option.all_some, decide_eq_true_iff] at stands
    exact stands
  have alike := (@renders_alike _ _ _ _ _ 0 {} 7 tandem).2 held.elements (fun _ member => member) {}
  rw [run] at alike
  cases otherRun : Action.tryRender held.elements {} other with
  | ok otherPage otherAfter =>
    rw [otherRun] at alike
    obtain ⟨buffers, pages⟩ := alike
    have same := (pages fun turn member id takes => absurd takes (taken turn member id)).1 hasBody
    exact ⟨turns, engine, held, other, otherHeld, page, after, otherPage, otherAfter, tandem, shown, run,
      otherRun, buffers, same⟩
  | error cause otherAfter =>
    rw [otherRun] at alike
    exact alike.elim

/-- The text of an earlier script that a caller has put into an element is shown as it was written. -/
theorem taken_script_differs : ∃ turns engine held other otherHeld page after otherPage otherAfter,
    (Engine.new 0 {} 7).Tandem (Engine.new 0 { minifyScript := true } 7) turns engine held other otherHeld ∧
      Action.tryRender held.elements {} engine = .ok page after ∧
      Action.tryRender held.elements {} other = .ok otherPage otherAfter ∧
      ¬ SameButScript (RenderStep.scriptSource engine) page otherPage := by
  have start : (Engine.new 0 {} 7).Tandem (Engine.new 0 { minifyScript := true } 7) [] _ {} _ {} := .opened
  have created := start.performs (.createElement "div".toList)
  obtain ⟨_, after, shell, script, text, taken, last, run, own, known, body, inside, appended, config,
    buffers, next⟩ := Engine.exists_division_page {}
  obtain ⟨_, otherAfter, otherShell, otherScript, otherText, otherTaken, otherLast, otherRun, otherOwn,
    otherKnown, otherBody, otherInside, otherAppended, otherConfig, otherBuffers, otherNext⟩ :=
      Engine.exists_division_page { minifyScript := true }
  have action (held : Held) (engine : Engine) : (Command.tryRender [] {}).action held engine =
      Reply.of Answer.text (Action.tryRender [] {}) engine := rfl
  have rendered := created.performed (Command.perform_of_ok (action _ _) run)
    (Command.perform_of_ok (action _ _) otherRun)
  obtain ⟨_, differ⟩ := @differ _ _ _ _ _ 0 {} 7 rendered (fun _ => True) fun _ _ _ _ => trivial
  obtain rfl : otherShell = shell := by
    rw [differ.shell, known, Option.some.injEq] at otherKnown
    exact otherKnown.symm
  obtain rfl : otherScript = script := by
    rw [differ.document.lists, body, List.singleton_inj] at otherBody
    exact otherBody.symm
  obtain rfl : otherText = text := by
    rw [differ.document.lists, inside, List.singleton_inj] at otherInside
    exact otherInside.symm
  have tandem := (rendered.noted otherText).performed (Command.perform_appendNode 0 0 own rfl rfl appended)
    (Command.perform_appendNode 0 0 otherOwn rfl rfl otherAppended)
  have plain : clientScript {} {} = RenderStep.scriptSource (Engine.new 0 {} 7) :=
    (clientScript_eq (Engine.new 0 {} 7)).trans (if_neg Bool.false_ne_true)
  have shrunk : clientScript { minifyScript := true } {} =
      Script.shrunk (RenderStep.scriptSource (Engine.new 0 {} 7)) :=
    (clientScript_eq (Engine.new 0 { minifyScript := true } 7)).trans (if_pos rfl)
  have source : RenderStep.scriptSource taken = RenderStep.scriptSource (Engine.new 0 {} 7) := by
    rw [RenderStep.scriptSource, config, buffers]
    rfl
  rw [config, buffers] at next
  rw [otherConfig, otherBuffers] at otherNext
  refine ⟨_, taken, _, otherTaken, _, _, _, _, _, tandem, next, otherNext, fun same => ?_⟩
  rw [source] at same
  have roots := roots_of_sameButScript plain shrunk same
  rw [List.flatten_singleton, List.flatten_singleton, plain, shrunk] at roots
  have texts := List.append_cancel_left (List.append_cancel_right roots)
  have both := escapeText_append_inj (congrArg (· ++ []) texts) (Or.inl rfl) (Or.inl rfl)
  exact shrunk_scriptSource_ne both.1.symm

end Engine.Tandem

end PageCompiler
