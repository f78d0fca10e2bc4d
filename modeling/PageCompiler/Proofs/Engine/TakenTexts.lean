import PageCompiler.Proofs.Engine.Reached
import PageCompiler.Proofs.Engine.ScriptTexts
import PageCompiler.Proofs.Markup.Reading

/-!
# Texts that are taken out of a script

The text of the last script is a node like any other: a caller who has its number can append it to an
element. The elements around the roots stand as before, and the next page shows the text as it was written,
escaped and not shielded.
-/

namespace PageCompiler

open Markup Steps

namespace Markup.Document

variable {document : Document} {host id other top : NodeId} {content : Text}

/-- What is written of a node tells what the node is. -/
theorem Forest.tree?_cases (forest : document.Forest) {tree : Tree} (found : document.tree? id = some tree) :
    (∃ content, document.kind? id = some (.text content) ∧ tree = .text content) ∨
      ∃ data, document.kind? id = some (.element data) ∧
        tree = .element data (document.trees (document.children id)) := by
  cases kind : document.kind? id with
  | none =>
    rw [tree?_missing (kind?_eq_none_iff.mp kind)] at found
    cases found
  | some sort =>
    cases sort with
    | text content =>
      rw [tree?_text kind, Option.some.injEq] at found
      exact Or.inl ⟨content, rfl, found.symm⟩
    | element data =>
      rw [forest.tree?_element (element?_eq_some_iff_kind?.mpr kind), Option.some.injEq] at found
      exact Or.inr ⟨data, rfl, found.symm⟩

/-- The only child of an element that is written with one text in it. -/
theorem Sound.exists_text_of_tree? (sound : document.Sound) {data : ElementData}
    (found : document.tree? id = some (.element data [.text content])) :
    ∃ text, document.children id = [text] ∧ document.kind? text = some (.text content) := by
  have trees : document.trees (document.children id) = [.text content] := by
    rcases sound.forest.tree?_cases found with ⟨_, _, other⟩ | ⟨_, _, same⟩
    · cases other
    · exact (Tree.element.inj same).2.symm
  have written : ∀ child ∈ document.children id, (document.tree? child).isSome := fun child listed =>
    Option.isSome_iff_exists.mpr (sound.exists_tree (sound.forest.contains_child listed))
  have length : (document.trees (document.children id)).length = (document.children id).length :=
    List.filterMap_length_eq_length.mpr written
  rw [trees] at length
  obtain ⟨text, list⟩ := List.length_eq_one_iff.mp length.symm
  obtain ⟨tree, same⟩ := Option.isSome_iff_exists.mp (written text (list ▸ List.mem_singleton_self _))
  rw [list, trees_singleton same] at trees
  cases trees
  rcases sound.forest.tree?_cases same with ⟨_, kind, equal⟩ | ⟨_, _, other⟩
  · exact ⟨text, list, Tree.text.inj equal ▸ kind⟩
  · cases other

/-- Moving a text changes nothing in what other nodes are below of. -/
theorem Forest.below_of_moved (forest : document.Forest) (text : document.isText id = true)
    (apart : other ≠ id) (below : (document.moved host id).Below other top) : document.Below other top := by
  have live := contains_of_isText text
  suffices still : document.Below other top ∧ top ≠ id from still.1
  induction below with
  | refl => exact ⟨below_refl _, apart⟩
  | tail _ step ih =>
    rw [parent?_moved live, if_neg ih.2] at step
    refine ⟨below_trans ih.1 (below_of_parent? step), ?_⟩
    rintro rfl
    have listed := forest.linked.mpr step
    rw [forest.children_of_text text] at listed
    cases listed

end Markup.Document

namespace Engine.Sound

section Taken

variable {engine : Engine} {host id : NodeId} (sound : engine.Sound)
  (text : engine.document.isText id = true) (user : engine.IsUserNode host)
  (possible : engine.document.MayHost host)

include sound text possible

theorem appendProblem_text : Edit.appendProblem engine.document host id = none := by
  have forest := sound.document.forest
  obtain ⟨data, found, content⟩ := possible
  refine (Edit.appendProblem_eq_none_iff forest).mpr
    ⟨⟨data, found, content⟩, Document.contains_of_isText text, fun below => ?_⟩
  rcases Document.below_iff_eq_or_child.mp below with rfl | ⟨child, _, step⟩
  · rw [Document.not_isText_of_element? found] at text
    cases text
  · have listed := forest.linked.mpr step
    rw [forest.children_of_text text] at listed
    cases listed

include user

theorem isUserNode_moved {other : NodeId} (free : engine.IsUserNode other) :
    { engine with document := engine.document.moved host id }.IsUserNode other := by
  have forest := sound.document.forest
  have apart : host ≠ id := by
    rintro rfl
    obtain ⟨data, found, _⟩ := possible
    rw [Document.not_isText_of_element? found] at text
    cases text
  have lower {top : NodeId} (below : (engine.document.moved host id).Below other top) :
      engine.document.Below other top ∨ engine.document.Below host top := by
    by_cases same : other = id
    · subst same
      rcases Document.below_iff_eq_or_parent.mp below with rfl | ⟨parent, step, above⟩
      · exact Or.inl (Document.below_refl _)
      · rw [Document.parent?_moved (Document.contains_of_isText text), if_pos rfl] at step
        cases step
        exact Or.inr (forest.below_of_moved text apart above)
    · exact Or.inl (forest.below_of_moved text same below)
  refine ⟨(Document.size_moved host id).symm ▸ free.1, ?_⟩
  rintro ⟨shell, known, rfl | rfl | inHead | ⟨script, scriptKnown, inScript⟩⟩
  · exact free.2 (isShellNode_html known)
  · exact free.2 (isShellNode_body (body?_of_shell known))
  · rcases lower inHead with still | above
    · exact free.2 ⟨shell, known, Or.inr (Or.inr (Or.inl still))⟩
    · exact user.2 ⟨shell, known, Or.inr (Or.inr (Or.inl above))⟩
  · rcases lower inScript with still | above
    · exact free.2 ⟨shell, known, Or.inr (Or.inr (Or.inr ⟨script, scriptKnown, still⟩))⟩
    · exact user.2 ⟨shell, known, Or.inr (Or.inr (Or.inr ⟨script, scriptKnown, above⟩))⟩

/-- A text that is not in the body can be appended to an element of a user. -/
theorem movedText
    (outside : ∀ shell, engine.shell = some shell → engine.document.parent? id ≠ some shell.body) :
    { engine with document := engine.document.moved host id }.Sound := by
  have live := Document.contains_of_isText text
  have element {other : NodeId} {data : ElementData} (found : engine.document.element? other = some data) :
      other ≠ id := by
    rintro rfl
    rw [Document.not_isText_of_element? found] at text
    cases text
  refine ⟨sound.document.moved (sound.appendProblem_text text possible), fun shell known => ?_, sound.styles,
    fun other member => sound.isUserNode_moved text user possible (sound.hooked other member),
    sound.settled⟩
  have stands := sound.shell shell known
  obtain ⟨attributes, html, _⟩ := stands.html
  refine stands.kept (Document.kind?_relinked _ _ _) (Document.kind?_relinked _ _ _)
    (Document.kind?_relinked _ _ _) ?_ ?_ fun script scriptKnown => ?_
  · rw [Document.parent?_moved live, if_neg (element html)]
  · obtain ⟨data, found, _⟩ := possible
    rw [Document.children_moved (Document.contains_of_element? found), if_neg, List.append_nil]
    · refine Document.filter_children_eq_self sound.document.forest fun step => ?_
      have listed := sound.document.forest.linked.mpr step
      rw [stands.parts, List.mem_pair] at listed
      exact listed.elim (Ne.symm (element stands.head)) (Ne.symm (element stands.body))
    · rintro same
      exact user.2 (same ▸ isShellNode_html known)
  · rw [Document.parent?_moved live, if_neg]
    rintro rfl
    exact outside shell known (stands.script script scriptKnown)

end Taken

end Engine.Sound

/-- After a render the script stands behind the roots, with its text in it. -/
theorem Action.exists_scriptText {engine after : Engine} {mount : List Element} {head : HeadConfig}
    {page : Text} (sound : engine.Sound)
    (users : ∀ root ∈ mount, engine.owns root = true → engine.IsUserNode root.node)
    (renderable : engine.Renderable mount head) (run : tryRender mount head engine = .ok page after) :
    ∃ shell script text, after.shell = some shell ∧
      after.document.children shell.body = mount.map Element.node ++ [script] ∧
      after.document.children script = [text] ∧
      after.document.kind? text = some (.text (clientScript engine.config engine.buffers)) := by
  obtain ⟨own, mountable, names⟩ := Engine.renderable_iff.mp renderable
  have userRoots : ∀ root ∈ mount.map Element.node, engine.IsUserNode root :=
    List.forall_mem_map.mpr fun root member => users root member (own root member)
  obtain ⟨shell, document, journal, compiled, finished⟩ :=
    RenderStep.compile_run sound mountable userRoots names
  obtain ⟨_, last, lastRun, sameDocument, sameShell⟩ := exists_compiled run
  rw [lastRun] at compiled
  cases compiled
  obtain ⟨script, list, tree⟩ := finished.body
  rw [Tree.filled, clientScript_filled] at tree
  obtain ⟨text, inside, kind⟩ := finished.stage.sound.exists_text_of_tree? tree
  rw [sameDocument, sameShell]
  exact ⟨shell, script, text, rfl, list, inside, kind⟩

/-- An element that a text is appended to shows it, escaped, in the next page. -/
theorem Action.exists_page_of_movedText {engine : Engine} {host : Element} {id : NodeId} {content : Text}
    {data : ElementData} (sound : engine.Sound) (own : engine.owns host = true)
    (user : engine.IsUserNode host.node) (found : engine.document.element? host.node = some data)
    (possible : isVoidElement data.tag = false) (escapes : isRawTextElement data.tag = false)
    (empty : engine.document.children host.node = []) (free : engine.host? host.node = none)
    (kind : engine.document.kind? id = some (.text content))
    (outside : ∀ shell, engine.shell = some shell → engine.document.parent? id ≠ some shell.body) :
    let taken := { engine with document := engine.document.moved host.node id }
    appendItem host (.node id) engine = .ok ⟨⟩ taken ∧
      ∃ after, tryRender [host] {} taken = .ok (pageText engine.config engine.buffers {}
        [Tree.startTag data ++ escapeText content ++ Tree.endTag data.tag]) after := by
  have text := Document.isText_iff_kind?.mpr ⟨content, kind⟩
  have mayHost : engine.document.MayHost host.node := ⟨data, found, possible⟩
  have moved := sound.movedText text user mayHost outside
  intro taken
  have foundStill : taken.document.element? host.node = some data := by
    rw [← found]
    exact Document.element?_relinked _ _ _
  have list : taken.document.children host.node = [id] := by
    refine (Document.children_moved (Document.contains_of_element? found) id host.node).trans ?_
    rw [empty, if_pos rfl]
    rfl
  have textTree : taken.document.tree? id = some (.text content) := by
    refine Document.tree?_text ?_
    rw [← kind]
    exact Document.kind?_relinked _ _ _
  have markup : taken.markup host = Tree.startTag data ++ escapeText content ++ Tree.endTag data.tag := by
    rw [Engine.markup, Document.markup_of_tree? (moved.document.forest.tree?_element foundStill), list,
      Document.trees_singleton textTree, Tree.markup_element possible, Tree.markupAll_singleton,
      Tree.markupIn, Tree.contentText_escaped]
    rintro tag same
    cases same
    exact escapes
  refine ⟨appendItem_run_accepted (attach_node_run_accepted sound.document.forest
    (sound.appendProblem_text text mayHost)), ?_⟩
  have renderable : taken.Renderable [host] {} := by
    refine ⟨?_, ?_, ?_, ?_, ?_⟩
    · exact List.forall_mem_singleton.mpr own
    · exact List.forall_mem_singleton.mpr (Option.isSome_of_eq_some foundStill)
    · exact List.nodup_singleton _
    · refine List.forall_mem_singleton.mpr (Engine.host?_eq_none_iff.mp ?_)
      rw [← free, Engine.host?, Engine.host?]
      refine congrArg (Option.filter _) ?_
      rw [Document.parent?_moved (Document.contains_of_isText text), if_neg]
      rintro same
      rw [← same, Document.not_isText_of_element? found] at text
      cases text
    · simp
  obtain ⟨after, run, _⟩ := tryRender_run moved
    (List.forall_mem_singleton.mpr fun _ => sound.isUserNode_moved text user mayHost user) renderable
  rw [List.map_singleton, markup] at run
  exact ⟨after, run⟩

/-- The text of the script in a page without roots can be taken into an element, which shows it in the next
page. -/
theorem Action.exists_page_of_scriptText {engine : Engine} {host : Element} {data : ElementData}
    (sound : engine.Sound) (own : engine.owns host = true) (user : engine.IsUserNode host.node)
    (found : engine.document.element? host.node = some data) (possible : isVoidElement data.tag = false)
    (escapes : isRawTextElement data.tag = false) (empty : engine.document.children host.node = [])
    (free : engine.host? host.node = none) :
    ∃ page after shell script text taken last, tryRender [] {} engine = .ok page after ∧
      after.owns host = true ∧ after.shell = some shell ∧ after.document.children shell.body = [script] ∧
      after.document.children script = [text] ∧
      appendItem host (.node text) after = .ok ⟨⟩ taken ∧ taken.config = engine.config ∧
      taken.buffers = (if engine.config.flush = .retain then engine.buffers else {}) ∧
      tryRender [host] {} taken = .ok (pageText taken.config taken.buffers {}
        [Tree.startTag data ++ escapeText (clientScript engine.config engine.buffers) ++
          Tree.endTag data.tag]) last := by
  have renderable : engine.Renderable [] {} := ⟨by simp, by simp, List.nodup_nil, by simp, by simp⟩
  obtain ⟨after, run, rendered⟩ := tryRender_run sound (by simp) renderable
  obtain ⟨shell, script, text, known, body, inside, kind⟩ := exists_scriptText sound (by simp) renderable run
  have keeps := rendered.keeps
  have forest := keeps.sound.document.forest
  have ownStill : after.owns host = true := by
    rw [← own, Engine.owns, Engine.owns, keeps.uid]
  have outside : ∀ other, after.shell = some other → after.document.parent? text ≠ some other.body := by
    intro other otherKnown step
    rw [known, Option.some.injEq] at otherKnown
    subst otherKnown
    have inScript : after.document.parent? text = some script :=
      forest.linked.mp (inside ▸ List.mem_singleton_self _)
    have inBody : after.document.parent? script = some shell.body :=
      forest.linked.mp (body ▸ List.mem_singleton_self _)
    rw [inScript, Option.some.injEq] at step
    exact forest.ne_of_parent? inBody step.symm
  obtain ⟨appended, last, next⟩ := exists_page_of_movedText keeps.sound ownStill (keeps.users user)
    ((Document.element?_congr (keeps.kinds user)).trans found) possible escapes
    ((keeps.lists user).trans empty) ((keeps.hosts user).trans free) kind outside
  exact ⟨_, after, shell, script, text, _, last, run, ownStill, known, body, inside, appended,
    keeps.config, rendered.buffers, next⟩

/-! ## Commands -/

/-- A command whose result is all that is answered, when it succeeds. -/
theorem Command.perform_of_ok {α : Type} {engine after : Engine} {held : Held} {command : Command}
    {answer : α → Answer} {action : Action α} {value : α}
    (same : command.action held engine = Reply.of answer action engine)
    (run : action engine = .ok value after) : command.perform held engine = (answer value, held, after) := by
  rw [perform, same, Reply.of, bind_of_ok run]
  exact congrArg (fun last => (answer value, last, after)) (held.receive_answer (answer value))

theorem Command.perform_appendNode {engine after : Engine} {held : Held} {host : Element} {id : NodeId}
    (place number : Nat) (own : engine.owns host = true) (first : held.elements[place]? = some host)
    (node : held.nodes[number]? = some id) (run : Action.appendItem host (.node id) engine = .ok ⟨⟩ after) :
    (append place [.node number]).perform held engine = (.done, held, after) := by
  have items : Child.itemsOfAll (Piece.children held [.node number]) = [.node id] := by
    simp [Piece.children, Piece.child, node, Child.itemsOfAll, Child.items]
  have appended : Action.appendChildren host (Piece.children held [.node number]) engine = .ok ⟨⟩ after := by
    rw [Action.appendChildren, items, forM_cons_of_ok _ _ run, forM_nil_run]
  have same : (append place [.node number]).action held engine = Reply.of (fun _ => Answer.done)
      (Action.appendChildren host (Piece.children held [.node number])) engine := Held.use_run first own
  exact perform_of_ok same appended

/-- The first element of an engine. -/
def division : Element := { owner := 0, node := 0, tag := "div".toList }

/-- Every new engine can show the text of the script of its first page in the second one. -/
theorem Engine.exists_division_page (config : EngineConfig) :
    let engine := ((Command.createElement "div".toList).perform {} (Engine.new 0 config 7)).2.2
    ∃ page after shell script text taken last, Action.tryRender [] {} engine = .ok page after ∧
      after.owns division = true ∧ after.shell = some shell ∧ after.document.children shell.body = [script] ∧
      after.document.children script = [text] ∧
      Action.appendItem division (.node text) after = .ok ⟨⟩ taken ∧ taken.config = config ∧
      taken.buffers = {} ∧ Action.tryRender [division] {} taken = .ok (pageText taken.config taken.buffers {}
        ["<div>".toList ++ escapeText (clientScript config {}) ++ "</div>".toList]) last := by
  have opened : Engine.Reachable (Engine.new 0 config 7) {} := .opened 0 config 7
  have created : (Command.createElement "div".toList).perform {} (Engine.new 0 config 7) =
      (.text "div".toList, { elements := [division] },
        ((Command.createElement "div".toList).perform {} (Engine.new 0 config 7)).2.2) := rfl
  have fits := (opened.performed created not_false).fits
  intro engine
  have user : engine.IsUserNode division.node := fits.users division (List.mem_singleton_self _) rfl
  have found : engine.document.element? division.node = some { tag := "div".toList } := rfl
  obtain ⟨page, after, shell, script, text, taken, last, run, own, known, body, inside, appended, same, kept,
    next⟩ := Action.exists_page_of_scriptText fits.sound rfl user found rfl rfl rfl rfl
  exact ⟨page, after, shell, script, text, taken, last, run, own, known, body, inside, appended, same,
    kept.trans (ite_self _), next⟩

end PageCompiler
