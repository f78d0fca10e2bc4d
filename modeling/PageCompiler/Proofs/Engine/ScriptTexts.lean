import PageCompiler.Proofs.Engine.DataPages
import PageCompiler.Proofs.Engine.LockstepRenders

/-!
# Texts of scripts

Two engines that do the same may put scripts with different texts into their pages. A render removes the
script of the render before, with its text, so that the documents agree again while a page is filled. They
stay apart only in texts that were taken out of their scripts in between.
-/

namespace PageCompiler

open Markup Steps

/-- Whether a node is in the script of the last render. -/
def Engine.InScript (engine : Engine) (id : NodeId) : Prop :=
  ∃ shell script, engine.shell = some shell ∧ shell.script = some script ∧
    engine.document.parent? id = some script

/-- Some texts may differ, and elements may have any identifiers. -/
def Leeway.differing (texts : NodeId → Prop) : Leeway where
  texts := texts
  names _ _ := True

/-- Two engines that differ, besides, at most in the script of the last render and in some loose texts. -/
def Engine.Differ (loose : NodeId → Prop) (origin : Engine.Origin) (first second : Engine) : Prop :=
  first.Beside (Leeway.differing fun id => first.InScript id ∨ loose id).Beside origin second

/-- What differs between two engines may be said to differ in more texts. -/
theorem Engine.Beside.widen {texts wider : NodeId → Prop} {origin : Engine.Origin} {first second : Engine}
    (beside : first.Beside (Leeway.differing texts).Beside origin second)
    (more : ∀ id, texts id → first.document.contains id = true → wider id) :
    first.Beside (Leeway.differing wider).Beside origin second :=
  { beside with
    document := beside.document.weaken
      (fun id texts text => more id texts (Document.contains_of_isText text)) fun _ _ _ => trivial }

/-! ## Removing a script -/

namespace Markup.Document

/-- Whether some nodes are in a script as long as they are there at all. -/
structure Confines (document : Document) (script : NodeId) (ids : NodeId → Prop) : Prop where
  forest : document.Forest
  inside : ∀ id, ids id → document.contains id = true → document.parent? id = some script

namespace Confines

variable {document : Document} {script id other : NodeId} {ids : NodeId → Prop}

theorem preserves_clearChildren (apart : id ≠ script) :
    Preserves (fun document => document.Confines script ids) (Edit.clearChildren id) fun _ => True := by
  intro document confines
  cases found : document.node? id with
  | none =>
    rw [Edit.clearChildren_run_missing found]
    exact confines
  | some node =>
    rw [Edit.clearChildren_run confines.forest (contains_iff.mpr ⟨node, found⟩)]
    refine ⟨⟨confines.forest.cleared id, fun other listed live => ?_⟩, trivial⟩
    rw [cleared, contains_relinked] at live
    have step := confines.inside other listed live
    rw [parent?_cleared, if_neg, step]
    rw [step, Option.some.injEq]
    exact apart.symm

/-- A node that is there after another one was removed was not below it. -/
theorem outside_of_contains {document : Document} {removed : List NodeId}
    (live : (document.free removed).contains other = true) :
    other ∉ removed ∧ document.contains other = true := by
  have outside : other ∉ removed := by
    intro member
    obtain ⟨node, found⟩ := contains_iff.mp live
    have gone : (document.free removed).kind? other = none := by
      rw [kind?_free, if_pos member]
    rw [kind?_eq_none_iff.mp gone] at found
    cases found
  refine ⟨outside, ?_⟩
  rw [← live]
  exact contains_congr (by rw [kind?_free, if_neg outside])

theorem removed (confines : document.Confines script ids) (id : NodeId) :
    ((document.detached id).free ((document.detached id).family id)).Confines script ids := by
  have forest := confines.forest.detached id
  have orphan : (document.detached id).parent? id = none := by
    rw [parent?_detached, if_pos rfl]
  refine ⟨forest.freed_family orphan, fun other listed live => ?_⟩
  obtain ⟨outside, former⟩ := outside_of_contains live
  have apart : other ≠ id := by
    rintro rfl
    exact outside ((forest.mem_family_iff _ _).mpr (below_refl _))
  rw [detached, contains_relinked] at former
  rw [parent?_free, if_neg outside, parent?_detached, if_neg apart, confines.inside other listed former]

theorem preserves_remove (id : NodeId) :
    Preserves (fun document => document.Confines script ids) (Edit.remove id) fun _ => True := by
  intro document confines
  cases found : document.node? id with
  | none =>
    rw [Edit.remove_run_missing found]
    exact confines
  | some node =>
    rw [Edit.remove_run confines.forest (contains_iff.mpr ⟨node, found⟩)]
    exact ⟨confines.removed id, trivial⟩

/-- The nodes in a script are removed together with it. -/
theorem meets_remove : Meets (fun document => document.Confines script ids) (Edit.remove script)
    (fun _ document => ∀ id, ids id → document.contains id = false)
    fun document => document.Confines script ids := by
  intro document confines
  cases found : document.node? script with
  | none =>
    rw [Edit.remove_run_missing found]
    exact confines
  | some node =>
    rw [Edit.remove_run confines.forest (contains_iff.mpr ⟨node, found⟩)]
    intro id listed
    rw [Bool.eq_false_iff]
    intro live
    have forest := confines.forest.detached script
    obtain ⟨outside, former⟩ := outside_of_contains live
    rw [detached, contains_relinked] at former
    have step := confines.inside id listed former
    have apart : id ≠ script := by
      rintro rfl
      exact confines.forest.not_below_child step (below_refl _)
    refine outside ((forest.mem_family_iff _ _).mpr (below_of_parent? ?_))
    rw [parent?_detached, if_neg apart, step]

end Confines

end Markup.Document

namespace RenderStep

/-- Edits of the document leave the elements around the roots known as they are. -/
theorem meets_edit {α : Type} {shell : Option Shell} {before failed : Document → Prop}
    {after : α → Document → Prop} {change : Edit α} (meets : Meets before change after failed) :
    Meets (fun engine => engine.shell = shell ∧ before engine.document) (edit change)
      (fun value engine => engine.shell = shell ∧ after value engine.document)
      fun engine => engine.shell = shell ∧ failed engine.document := by
  rintro engine ⟨known, start⟩
  have ends := meets engine.document start
  rw [edit, Engine.edit]
  generalize change engine.document = result at ends ⊢
  cases result with
  | ok value document => exact ⟨known, ends⟩
  | error cause document => exact ⟨known, ends⟩

/-- When a page is emptied, nothing of what was in its script remains. -/
theorem emptyPage_removes {shell : Shell} {script : NodeId} {ids : NodeId → Prop}
    (known : shell.script = some script) (head : shell.head ≠ script) (body : shell.body ≠ script) :
    Meets (fun engine => engine.shell = some shell ∧ engine.document.Confines script ids) (emptyPage shell)
      (fun _ engine => ∀ id, ids id → engine.document.contains id = false)
      fun engine => engine.shell = some shell ∧ engine.document.Confines script ids := by
  have kept {α : Type} {change : Edit α}
      (preserves : Preserves (fun document => document.Confines script ids) change fun _ => True) :
      Preserves (fun engine => engine.shell = some shell ∧ engine.document.Confines script ids)
        (edit change) fun _ => True :=
    (meets_edit preserves).weaken (fun _ start => start)
      (fun _ _ ⟨same, confines, _⟩ => ⟨⟨same, confines⟩, trivial⟩) fun _ ends => ends
  unfold emptyPage
  refine (kept (Document.Confines.preserves_clearChildren head)).meets_bind fun former _ => ?_
  refine (kept (Preserves.loop fun child _ => Document.Confines.preserves_remove child)).meets_bind
    fun _ _ => ?_
  refine (kept (Document.Confines.preserves_clearChildren body)).meets_bind fun _ _ => ?_
  rw [known]
  exact (meets_edit Document.Confines.meets_remove).bind fun _ _ ends => ends.2

end RenderStep

namespace Engine

variable {loose : NodeId → Prop} {origin : Engine.Origin} {first second engine : Engine}
  {users : NodeId → Prop}

/-- What was in the script of the last render is gone when the page has been emptied; before, it stays
there. -/
theorem Guards.resetShell_removes (guards : engine.Guards users) :
    Meets (fun state => state = engine) RenderStep.resetShell
      (fun _ state => ∀ id, engine.InScript id → state.document.contains id = false)
      fun state => ∀ id, engine.InScript id → state.document.contains id = true → state.InScript id := by
  by_cases scripted : ∃ shell script, engine.shell = some shell ∧ shell.script = some script
  · obtain ⟨shell, script, known, scriptKnown⟩ := scripted
    have remains := guards.fits.shell shell known
    have loose := (remains.script script scriptKnown).2
    have head : shell.head ≠ script := by
      rintro rfl
      exact loose (Or.inr (Frame.Fits.isPart_head known))
    have body : shell.body ≠ script := by
      rintro rfl
      exact loose (Or.inr (Frame.Fits.isPart_body known))
    have start : engine.document.Confines script engine.InScript := by
      refine ⟨guards.fits.sound.forest, ?_⟩
      rintro id ⟨other, otherScript, otherKnown, otherScriptKnown, step⟩ _
      rw [known, Option.some.injEq] at otherKnown
      subst otherKnown
      rw [scriptKnown, Option.some.injEq] at otherScriptKnown
      rwa [otherScriptKnown]
    intro state same
    obtain rfl : engine = state := same.symm
    rw [RenderStep.resetShell_eq, bind_of_ok (get_run engine), known]
    refine (RenderStep.emptyPage_removes scriptKnown head body).weaken (fun _ start => start)
      (fun _ _ ends => ends) ?_ engine ⟨known, start⟩
    rintro last ⟨same, confines⟩ id listed live
    exact ⟨shell, script, same, scriptKnown, confines.inside id listed live⟩
  · have none (id : NodeId) : ¬ engine.InScript id :=
      fun ⟨shell, script, known, scriptKnown, _⟩ => scripted ⟨shell, script, known, scriptKnown⟩
    intro state _
    cases RenderStep.resetShell state with
    | ok shell last => exact fun id inside => (none id inside).elim
    | error cause last => exact fun id inside => (none id inside).elim

namespace Differ

/-- Emptying the page removes what differs in its script. -/
theorem resetShell (differ : first.Differ loose origin second) (guards : first.Guards users) :
    Matches (fun engine other => engine = first ∧ other = second) RenderStep.resetShell
      RenderStep.resetShell
      (fun shell otherShell engine other => otherShell = shell ∧
        engine.Beside (Leeway.differing loose).Beside origin other) (Differ loose origin) := by
  have agreed : Agrees
      (Beside (Leeway.differing fun id => first.InScript id ∨ loose id).Beside origin)
      RenderStep.resetShell RenderStep.resetShell fun _ => True := Beside.resetShell
  refine (agreed.meets guards.resetShell_removes).weaken ?_ ?_ ?_
  · rintro _ _ ⟨rfl, rfl⟩
    exact ⟨differ, rfl⟩
  · rintro shell otherShell engine other ⟨⟨same, _, beside⟩, gone⟩
    refine ⟨same, beside.widen fun id differs live => differs.resolve_left fun inside => ?_⟩
    rw [gone id inside] at live
    cases live
  · rintro engine other ⟨beside, stays⟩
    exact beside.widen fun id differs live => differs.imp_left fun inside => stays id inside live

/-- Both pages are prepared, and then nothing differs but loose texts, or neither is. -/
theorem prepare (differ : first.Differ loose origin second) (guards : first.Guards users)
    (roots : List NodeId) (head : HeadConfig) :
    Matches (fun engine other => engine = first ∧ other = second) (RenderStep.prepare roots head)
      (RenderStep.prepare roots head)
      (fun shell otherShell engine other => otherShell = shell ∧
        engine.Beside (Leeway.differing loose).Beside origin other) (Differ loose origin) := by
  have filled (shell : Shell) : Agrees (Beside (Leeway.differing loose).Beside origin)
      (RenderStep.fillPage shell roots head) (RenderStep.fillPage shell roots head)
      fun result => result = shell :=
    Beside.fillPage (Leeway.differing loose).pageEdits trivial trivial trivial (fun _ _ => trivial)
      fun _ _ _ _ _ _ => trivial
  rintro engine other ⟨same, otherSame⟩
  obtain rfl : first = engine := same.symm
  obtain rfl : second = other := otherSame.symm
  rw [RenderStep.prepare, bind_of_ok (get_run first), bind_of_ok (get_run second), differ.shell,
    Beside.mountProblem differ.document]
  cases RenderStep.mountProblem first.document (first.shell.map Shell.body) [] roots with
  | some cause => exact ⟨rfl, differ⟩
  | none =>
    refine (differ.resetShell guards).bind (fun shell otherShell => ?_) first second ⟨rfl, rfl⟩
    rintro engine other ⟨rfl, beside⟩
    refine Matches.weaken (filled otherShell) (fun _ _ start => start) ?_ (fun _ _ ends => ?_) engine other
      beside
    · rintro result otherResult last otherLast ⟨same, _, ends⟩
      exact ⟨same, ends⟩
    · exact ends.widen fun id differs _ => Or.inr differs

end Differ

end Engine

/-! ## Placing a script -/

namespace Markup.Document

variable {document : Document} {host : NodeId}

/-- A new script can be put below any element that may have content. -/
theorem Forest.appendProblem_scripted (forest : document.Forest) (possible : document.MayHost host)
    (source : Text) : Edit.appendProblem (document.scripted source) host document.slots.size = none := by
  have inside : host < document.slots.size := by
    obtain ⟨data, found, _⟩ := possible
    exact lt_size_of_contains (contains_of_element? found)
  have old {id : NodeId} (below : (document.scripted source).Below host id) : id < document.slots.size := by
    induction below with
    | refl => exact inside
    | tail _ step ih =>
      rw [parent?_scripted source (Nat.lt_succ_of_lt ih)] at step
      exact lt_size_of_contains (forest.contains_parent step)
  rw [Edit.appendProblem_eq_none_iff (forest.scripted source)]
  refine ⟨mayHost_of_element?_eq (element?_congr ?_) possible,
    contains_of_element? (element?_scripted source), fun below => Nat.lt_irrefl _ (old below)⟩
  rw [kind?_scripted source (Nat.lt_succ_of_lt inside), kind?_push, if_neg (Nat.ne_of_lt inside)]

/-- The text of a script that has been placed is in it. -/
theorem parent?_scripted_text {source : Text} (filled : source.isEmpty = false) (host : NodeId) :
    ((document.scripted source).moved host document.slots.size).parent? (document.slots.size + 1) =
      some document.slots.size := by
  have live : (document.scripted source).contains document.slots.size = true :=
    contains_of_element? (element?_scripted source)
  rw [parent?_moved live, if_neg (Nat.succ_ne_self _), scripted, filled, if_neg (by simp), parent?_grafted,
    size_push, if_pos rfl]

end Markup.Document

/-- Scripts with different texts in them are put into both documents. -/
theorem Leeway.Beside.scripted {texts : NodeId → Prop} {first second : Document}
    (beside : (Leeway.differing texts).Beside first second) {source otherSource : Text}
    (filled : source.isEmpty = false) (otherFilled : otherSource.isEmpty = false) :
    (Leeway.differing fun id => id = first.slots.size + 1 ∨ texts id).Beside (first.scripted source)
      (second.scripted otherSource) := by
  have wider : (Leeway.differing fun id => id = first.slots.size + 1 ∨ texts id).Beside first second :=
    beside.weaken (fun _ differs _ => Or.inr differs) fun _ _ _ => trivial
  have unnamed : ∀ data, NodeKind.element { tag := "script".toList } = .element data →
      data.attributes.get? "id".toList = none := by
    rintro data same
    cases same
    rfl
  have text := (wider.pushed unnamed).pushedBoth
    (Or.inr ⟨Or.inl (Document.size_push _), source, otherSource, rfl, rfl⟩) (by simp)
  have forest := beside.forest.scripted source
  have otherForest := beside.otherForest.scripted otherSource
  have size : (second.push { kind := .element { tag := "script".toList } }).slots.size =
      (first.push { kind := .element { tag := "script".toList } }).slots.size := by
    rw [Document.size_push, Document.size_push, beside.size]
  rw [Document.scripted, filled, if_neg (by simp), Document.grafted] at forest ⊢
  rw [Document.scripted, otherFilled, if_neg (by simp), Document.grafted, size, beside.size] at otherForest ⊢
  exact text.relinked forest otherForest

/-- They are put below an element that may have content. -/
theorem Leeway.Beside.placed {texts : NodeId → Prop} {first second : Document} {host : NodeId}
    (beside : (Leeway.differing texts).Beside first second) {source otherSource : Text}
    (filled : source.isEmpty = false) (otherFilled : otherSource.isEmpty = false)
    (possible : first.MayHost host) :
    (Leeway.differing fun id => id = first.slots.size + 1 ∨ texts id).Beside
      ((first.scripted source).moved host first.slots.size)
      ((second.scripted otherSource).moved host second.slots.size) := by
  have otherPossible := Document.mayHost_of_element?_eq (beside.element? host) possible
  have forest := beside.forest.scripted source
  have otherForest := beside.otherForest.scripted otherSource
  obtain ⟨hosts, live, apart⟩ := (Edit.appendProblem_eq_none_iff forest).mp
    (beside.forest.appendProblem_scripted possible source)
  obtain ⟨otherHosts, otherLive, otherApart⟩ := (Edit.appendProblem_eq_none_iff otherForest).mp
    (beside.otherForest.appendProblem_scripted otherPossible otherSource)
  have moved := otherForest.moved otherHosts otherLive otherApart
  rw [beside.size] at moved ⊢
  exact (beside.scripted filled otherFilled).relinked (forest.moved hosts live apart) moved

namespace RenderStep

/-- A script can be placed in every body that may have content. -/
theorem placeScript_run {engine : Engine} (forest : engine.document.Forest) {shell : Shell}
    (possible : engine.document.MayHost shell.body) (source : Text) :
    ∃ page journal, placeScript shell source engine = .ok page { engine with
      document := (engine.document.scripted source).moved shell.body engine.document.slots.size
      shell := some { shell with script := some engine.document.slots.size }
      journal } := by
  have created : Edit.createElement "script".toList engine.document = .ok engine.document.slots.size
      (engine.document.push { kind := .element { tag := "script".toList } }) :=
    Edit.createElement_run (by decide)
  have appended := Edit.appendChild_run (forest.scripted source)
    (forest.appendProblem_scripted possible source)
  rw [placeScript, bind_of_ok (edit_of_ok created), bind_of_ok (edit_of_ok (forest.scripted_run source)),
    bind_of_ok (edit_of_ok appended)]
  exact ⟨_, _, rfl⟩

end RenderStep

/-- A script that begins with a character of code does not shrink to nothing. -/
theorem Script.minify_ne_nil {first : Char} (plain : isPlain first = true) {rest short : Text}
    (run : minify (first :: rest) = .ok short) : short ≠ [] := by
  rw [isPlain, Bool.and_eq_true, Bool.and_eq_true, Bool.not_eq_true', Bool.not_eq_true', bne_iff_ne] at plain
  obtain ⟨⟨unquoted, noSlash⟩, solid⟩ := plain
  obtain ⟨bare, stripped, collapsed⟩ := bind_eq_ok.mp run
  rw [stripComments, stripFrom] at stripped
  dsimp only at stripped
  rw [unquoted, if_neg (by simp), if_neg noSlash] at stripped
  obtain ⟨more, _, same⟩ := bind_eq_ok.mp stripped
  cases same
  rw [collapseWhitespace, collapseFrom] at collapsed
  dsimp only at collapsed
  rw [solid, if_neg (by simp)] at collapsed
  obtain ⟨last, _, same⟩ := bind_eq_ok.mp collapsed
  cases same
  simp

/-- The client script is never empty, shrunk or not. -/
theorem clientScript_filled (config : EngineConfig) (buffers : Buffers) :
    (clientScript config buffers).isEmpty = false := by
  obtain ⟨rest, opens⟩ : ∃ rest, Bootstrap.compose buffers.references.text buffers.state.text
      buffers.behaviors.script config.exposeGlobals = '(' :: rest := ⟨_, rfl⟩
  unfold clientScript
  dsimp only
  rw [opens]
  split
  · split
    · next short run => exact List.isEmpty_eq_false_iff.mpr (Script.minify_ne_nil (by decide) run)
    · rfl
  · rfl

namespace Engine.Beside

variable {loose : NodeId → Prop} {origin : Engine.Origin} {first : Engine} {frame : Frame} {shell : Shell}

/-- The scripts that are composed may differ in both pages, and then nothing else does. -/
theorem finish :
    Matches (fun engine other => engine.Beside (Leeway.differing loose).Beside origin other ∧
        first.Within (frame.around shell) engine) (RenderStep.finish shell) (RenderStep.finish shell)
      (fun _ _ => Differ loose origin) fun _ _ => False := by
  rintro engine other ⟨beside, within⟩
  have forest := beside.document.forest
  have otherForest := beside.document.otherForest
  have host : engine.document.MayHost shell.body := by
    obtain ⟨data, found, tag⟩ := Document.exists_element?_of_tag? (within.fits.shell shell rfl).body
    exact ⟨data, found, by rw [tag]; decide⟩
  have otherHost := Document.mayHost_of_element?_eq (beside.document.element? shell.body) host
  obtain ⟨journal, run⟩ := RenderStep.composeScript_run engine
  obtain ⟨otherJournal, otherRun⟩ := RenderStep.composeScript_run other
  have filled := clientScript_filled engine.config engine.buffers
  have otherFilled := clientScript_filled other.config other.buffers
  generalize clientScript engine.config engine.buffers = source at run filled
  generalize clientScript other.config other.buffers = otherSource at otherRun otherFilled
  have composed : Beside (Leeway.differing loose).Beside origin
      { engine with buffers := { styles := engine.buffers.styles }, journal }
      { other with buffers := { styles := other.buffers.styles }, journal := otherJournal } :=
    { beside with buffers := congrArg (Buffers.mk ·.styles [] [] []) beside.buffers }
  rw [RenderStep.finish_eq, bind_of_ok run, bind_of_ok otherRun]
  obtain ⟨page, last, placed⟩ := @RenderStep.placeScript_run
    { engine with buffers := { styles := engine.buffers.styles }, journal } forest shell host source
  obtain ⟨otherPage, otherLast, otherPlaced⟩ := @RenderStep.placeScript_run
    { other with buffers := { styles := other.buffers.styles }, journal := otherJournal } otherForest shell
    otherHost otherSource
  rw [placed, otherPlaced]
  refine { composed with document := ?_, shell := ?_ }
  · refine (beside.document.placed filled otherFilled host).weaken ?_ fun _ _ _ => trivial
    rintro id (rfl | differs) _
    · exact Or.inl ⟨_, _, rfl, rfl, Document.parent?_scripted_text filled shell.body⟩
    · exact Or.inr differs
  · rw [beside.document.size]

end Engine.Beside

/-! ## Renders -/

/-- What matching actions leave in both cases. -/
theorem Steps.Matches.leaves {α : Type} {before related : Engine → Engine → Prop} {action other : Action α}
    (matched : Matches before action other (fun _ _ => related) related) {first second : Engine}
    (start : before first second) : related (Action.leaves action first) (Action.leaves other second) := by
  have ends := matched first second start
  rw [Action.leaves, Action.leaves]
  generalize action first = result at ends ⊢
  generalize other second = otherResult at ends ⊢
  cases result <;> cases otherResult
  · exact ends
  · exact ends.elim
  · exact ends.elim
  · exact ends.2

namespace Engine.Differ

variable {loose : NodeId → Prop} {origin : Engine.Origin} {first second : Engine} {users : NodeId → Prop}

theorem compile (differ : first.Differ loose origin second) (guards : first.Guards users)
    {roots : List NodeId} (given : ∀ root ∈ roots, users root) (head : HeadConfig) :
    Matches (fun engine other => engine = first ∧ other = second) (RenderStep.compile roots head)
      (RenderStep.compile roots head) (fun _ _ => Differ loose origin) (Differ loose origin) := by
  have within := @Within.prepare first (first.frame users) roots given head
  have prepared := (differ.prepare guards roots head).meets within
  rw [RenderStep.compile_eq_prepare]
  refine Matches.bind (prepared.weaken ?_ (fun _ _ _ _ ends => ends) fun _ _ ends => ends.1)
    fun shell otherShell => ?_
  · rintro _ _ ⟨rfl, rfl⟩
    exact ⟨⟨rfl, rfl⟩, guards.within⟩
  · rintro engine other ⟨⟨rfl, beside⟩, inFrame⟩
    exact Matches.weaken Beside.finish (fun _ _ start => start) (fun _ _ _ _ ends => ends)
      (fun _ _ ends => ends.elim) engine other ⟨beside, inFrame⟩

/-- Both engines render, or neither does for one reason, and they differ as before. -/
theorem tryRender (differ : first.Differ loose origin second) (guards : first.Guards users)
    {mount : List Element} (given : ∀ root ∈ mount, first.owns root = true → users root.node)
    (head : HeadConfig) :
    Matches (fun engine other => engine = first ∧ other = second) (Action.tryRender mount head)
      (Action.tryRender mount head) (fun _ _ => Differ loose origin) (Differ loose origin) := by
  rintro engine other ⟨same, otherSame⟩
  obtain rfl : first = engine := same.symm
  obtain rfl : second = other := otherSame.symm
  have owns : (fun root => !second.owns root) = fun root => !first.owns root :=
    funext fun root => congrArg not (differ.owns root)
  rw [Action.tryRender, Action.tryRender, owns]
  cases foreign : mount.find? fun root => !first.owns root with
  | some root => exact ⟨rfl, differ⟩
  | none =>
    have own : ∀ root ∈ mount, first.owns root = true := by
      simpa using foreign
    have roots : ∀ root ∈ mount.map Element.node, users root := by
      rw [List.forall_mem_map]
      exact fun root member => given root member (own root member)
    have compiling : Guards { first with phase := .compiling } users := ⟨guards.fits, guards.hooked⟩
    have start : Differ loose origin { first with phase := .compiling } { second with phase := .compiling } :=
      { differ with phase := rfl }
    have flush : second.config.flush = first.config.flush := by
      rw [differ.otherConfig, differ.config]
    have ends := start.compile compiling roots head _ _ ⟨rfl, rfl⟩
    dsimp only
    generalize RenderStep.compile (mount.map Element.node) head { first with phase := .compiling } =
      result at ends ⊢
    generalize RenderStep.compile (mount.map Element.node) head { second with phase := .compiling } =
      otherResult at ends ⊢
    cases result <;> cases otherResult
    · refine { ends with buffers := ?_, phase := rfl, rendered := rfl }
      dsimp only
      rw [flush, differ.buffers, ends.buffers]
    · exact ends.elim
    · exact ends.elim
    · exact ⟨congrArg Error.render ends.1, { ends.2 with buffers := differ.buffers, phase := differ.phase }⟩

theorem render (differ : first.Differ loose origin second) (guards : first.Guards users)
    {mount : List Element} (given : ∀ root ∈ mount, first.owns root = true → users root.node)
    (head : HeadConfig) :
    Matches (fun engine other => engine = first ∧ other = second) (Action.render mount head)
      (Action.render mount head) (fun _ _ => Differ loose origin) (Differ loose origin) := by
  intro engine other start
  have tried := differ.tryRender guards given head engine other start
  obtain ⟨rfl, rfl⟩ := start
  rw [Action.render, Action.render]
  generalize Action.tryRender mount head engine = result at tried ⊢
  generalize Action.tryRender mount head other = otherResult at tried ⊢
  cases result <;> cases otherResult
  · exact tried
  · exact tried.elim
  · exact tried.elim
  · exact { tried.2 with }

/-! ## Commands -/

/-- Other commands keep what differs, as long as all that they take out of the script is loose. -/
theorem perform (differ : first.Differ loose origin second) {held : Held} {command : Command}
    (renders : ¬ command.IsRender)
    (taken : ∀ id, first.InScript id → ¬ (command.perform held first).2.2.InScript id → loose id) :
    (command.perform held second).2.1 = (command.perform held first).2.1 ∧
      (command.perform held first).2.2.Differ loose origin (command.perform held second).2.2 := by
  have permitted :
      command.Permitted (Leeway.differing fun id => first.InScript id ∨ loose id) held first := by
    cases command with
    | change place what =>
      intro element _ _
      cases what with
      | setAttribute name value => exact fun _ => trivial
      | bindText key transform => exact fun _ => trivial
      | registerReference name => exact fun _ => trivial
      | on event handler => exact fun _ => trivial
      | _ => trivial
    | _ => trivial
  have ends := Beside.perform differ permitted renders
  refine ⟨ends.1, ends.2.widen ?_⟩
  rintro id (inside | differs) _
  · exact Classical.or_iff_not_imp_left.mpr (taken id inside)
  · exact Or.inr differs

/-- Renders keep what differs, and hand out nothing. -/
theorem perform_render (differ : first.Differ loose origin second) (guards : first.Guards users) {held : Held}
    (given : ∀ element ∈ held.elements, first.owns element = true → users element.node) {command : Command}
    (isRender : command.IsRender) :
    (command.perform held second).2.1 = (command.perform held first).2.1 ∧
      (command.perform held first).2.2.Differ loose origin (command.perform held second).2.2 := by
  have mounted (mount : List Nat) : ∀ root ∈ mount.filterMap fun place => held.elements[place]?,
      first.owns root = true → users root.node := by
    intro root member
    obtain ⟨place, _, found⟩ := List.mem_filterMap.mp member
    exact given root (List.mem_of_getElem? found)
  cases command with
  | tryRender mount head =>
    rw [Command.perform_of rfl, Command.perform_of rfl]
    exact ⟨rfl, (differ.tryRender guards (mounted mount) head).leaves ⟨rfl, rfl⟩⟩
  | render mount head =>
    rw [Command.perform_of rfl, Command.perform_of rfl]
    exact ⟨rfl, (differ.render guards (mounted mount) head).leaves ⟨rfl, rfl⟩⟩
  | _ => exact isRender.elim

end Engine.Differ

end PageCompiler
