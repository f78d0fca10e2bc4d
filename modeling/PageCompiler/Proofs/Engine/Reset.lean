import PageCompiler.Proofs.Engine.Stage

/-!
# Emptying the page

Before a render builds the page, it makes the elements around the roots if there are none yet, and
empties head and body. Nothing of this can fail, whatever earlier renders have left there.
-/

namespace PageCompiler

open Markup Steps

namespace RenderStep

variable {α : Type} {change : Edit α} {engine : Engine} {changed : Document}

theorem edit_of_ok {value : α} (run : change engine.document = .ok value changed) :
    RenderStep.edit change engine = .ok value { engine with document := changed } := by
  rw [RenderStep.edit, Engine.edit, run]

theorem edit_of_error {cause : DomError} (run : change engine.document = .error cause changed) :
    RenderStep.edit change engine = .error (.document cause) { engine with document := changed } := by
  rw [RenderStep.edit, Engine.edit, run]

/-- Empties the page around the roots, which is known. -/
def emptyPage (shell : Shell) : RenderStep Shell := do
  let former ← RenderStep.edit (Edit.clearChildren shell.head)
  RenderStep.edit (former.forM Edit.remove)
  let _ ← RenderStep.edit (Edit.clearChildren shell.body)
  match shell.script with
  | some script => RenderStep.edit (Edit.remove script)
  | none => pure ()
  modify fun engine => { engine with shell := some { shell with script := none } }
  return { shell with script := none }

/-- The page is emptied once the elements around the roots are known or made. -/
theorem resetShell_eq : resetShell = (do
    let shell ←
      match (← get).shell with
      | some shell => pure shell
      | none => createShell
    emptyPage shell) :=
  rfl

end RenderStep

namespace Stage

variable {origin : Engine} {shell : Shell} {document : Document}

/-- What was in the head is removed, one child after another. -/
theorem removeFormer_run (stage : Stage origin shell document) (sound : origin.Sound)
    (former : List NodeId) (distinct : former.Nodup)
    (orphans : ∀ id ∈ former, document.contains id = true ∧ document.parent? id = none ∧
      ¬ origin.IsUserNode id ∧ id ≠ shell.html) (emptyHead : document.children shell.head = []) :
    ∃ changed, former.forM Edit.remove document = .ok () changed ∧ Stage origin shell changed ∧
      changed.children shell.head = [] := by
  induction former generalizing document with
  | nil => exact ⟨document, rfl, stage, emptyHead⟩
  | cons first rest ih =>
    have forest := stage.sound.forest
    rw [List.nodup_cons] at distinct
    rw [List.forall_mem_cons] at orphans
    obtain ⟨⟨live, orphan, apart, notHtml⟩, others⟩ := orphans
    have run : Edit.remove first document = .ok () (document.free (document.family first)) := by
      rw [Edit.remove_run forest live, Document.detached_of_orphan forest orphan]
    rw [forM_cons_of_ok first rest run]
    apply ih (stage.removed sound orphan apart notHtml) distinct.2
    · intro id member
      obtain ⟨otherLive, otherOrphan, otherRest⟩ := others id member
      have outside : id ∉ document.family first := by
        rw [forest.mem_family_iff]
        intro below
        have same := Document.eq_of_below_top below otherOrphan
        rw [same] at member
        exact distinct.1 member
      refine ⟨?_, ?_, otherRest⟩
      · rw [← otherLive]
        apply Document.contains_congr
        rw [Document.kind?_free, if_neg outside]
      · rw [Document.parent?_free, if_neg outside, otherOrphan]
    · rw [Document.children_free, emptyHead, ite_self]

/-- The head is emptied and what was in it removed. -/
theorem emptyHead_run (stage : Stage origin shell document) (sound : origin.Sound) :
    ∃ cleared changed, Edit.clearChildren shell.head document =
        .ok (document.children shell.head) cleared ∧
      (document.children shell.head).forM Edit.remove cleared = .ok () changed ∧
      Stage origin shell changed ∧ changed.children shell.head = [] := by
  have forest := stage.sound.forest
  have run := Edit.clearChildren_run forest stage.stands.contains_head
  have emptyHead : (document.cleared shell.head).children shell.head = [] := by
    rw [Document.children_cleared, if_pos rfl]
  have orphans : ∀ id ∈ document.children shell.head,
      (document.cleared shell.head).contains id = true ∧
        (document.cleared shell.head).parent? id = none ∧ ¬ origin.IsUserNode id ∧
          id ≠ shell.html := by
    intro id listed
    have step := forest.linked.mp listed
    refine ⟨?_, ?_, ?_, ?_⟩
    · rw [Document.cleared, Document.contains_relinked]
      exact Document.contains_of_parent? step
    · rw [Document.parent?_cleared, if_pos step]
    · intro user
      rcases stage.parent_of_user sound user step with userHead | body
      · exact stage.headApart userHead
      · exact stage.stands.head_ne_body body
    · rintro rfl
      rw [stage.stands.top] at step
      cases step
  obtain ⟨changed, removed, stageAfter, emptyAfter⟩ := (stage.clearedHead sound).removeFormer_run sound
    (document.children shell.head) (forest.listedOnce shell.head) orphans emptyHead
  exact ⟨_, changed, run, removed, stageAfter, emptyAfter⟩

/-- The body is emptied and the script of the last render removed. -/
theorem emptyBody_run (stage : Stage origin shell document) (sound : origin.Sound)
    (emptyHead : document.children shell.head = []) :
    ∃ cleared changed, Edit.clearChildren shell.body document =
        .ok (document.children shell.body) cleared ∧
      (∀ script, shell.script = some script → Edit.remove script cleared = .ok () changed) ∧
      (shell.script = none → changed = cleared) ∧
      Stage origin { shell with script := none } changed ∧
      changed.children shell.head = [] ∧ changed.children shell.body = [] := by
  have forest := stage.sound.forest
  have run := Edit.clearChildren_run forest stage.stands.contains_body
  have stageAfter := stage.bare.clearedBody rfl
  have emptyHeadAfter : (document.cleared shell.body).children shell.head = [] := by
    rw [Document.children_cleared, emptyHead, ite_self]
  have emptyBody : (document.cleared shell.body).children shell.body = [] := by
    rw [Document.children_cleared, if_pos rfl]
  cases known : shell.script with
  | none => exact ⟨_, _, run, (by simp), fun _ => rfl, stageAfter, emptyHeadAfter, emptyBody⟩
  | some script =>
    have step := stage.stands.script script known
    have orphan : (document.cleared shell.body).parent? script = none := by
      rw [Document.parent?_cleared, if_pos step]
    have live : (document.cleared shell.body).contains script = true := by
      rw [Document.cleared, Document.contains_relinked]
      exact Document.contains_of_parent? step
    have notHtml : script ≠ shell.html := by
      rintro rfl
      rw [stage.stands.top] at step
      cases step
    have removed := Edit.remove_run stageAfter.sound.forest live
    rw [Document.detached_of_orphan stageAfter.sound.forest orphan] at removed
    refine ⟨_, _, run, ?_, (by simp),
      stageAfter.removed sound orphan (stage.scriptApart script known) notHtml, ?_, ?_⟩
    · intro other same
      rw [← Option.some.inj same]
      exact removed
    · rw [Document.children_free, emptyHeadAfter, ite_self]
    · rw [Document.children_free, emptyBody, ite_self]

end Stage

/-! ## The elements around the roots -/

/-- The elements around the roots that a first render makes. -/
def Shell.next (document : Document) : Shell where
  html := document.slots.size
  head := document.slots.size + 1
  body := document.slots.size + 2

namespace Markup.Document

/-- A document with three new elements: page, head and body, not linked yet. -/
def withParts (document : Document) : Document :=
  ((document.push { kind := .element { tag := "html".toList } }).push
    { kind := .element { tag := "head".toList } }).push { kind := .element { tag := "body".toList } }

/-- A document with a new page that has a head and a body. -/
def withShell (document : Document) : Document :=
  (document.withParts.moved document.slots.size (document.slots.size + 1)).moved
    document.slots.size (document.slots.size + 2)

variable {document : Document}

theorem size_withParts : document.withParts.slots.size = document.slots.size + 3 := by
  simp [withParts]

theorem kind?_withParts (id : NodeId) :
    document.withParts.kind? id =
      if id = document.slots.size + 2 then some (.element { tag := "body".toList })
      else if id = document.slots.size + 1 then some (.element { tag := "head".toList })
      else if id = document.slots.size then some (.element { tag := "html".toList })
      else document.kind? id := by
  rw [withParts, kind?_push, kind?_push, kind?_push, size_push, size_push]

theorem parent?_withParts (id : NodeId) : document.withParts.parent? id = document.parent? id := by
  rw [withParts, parent?_push, parent?_push, parent?_push]

theorem children_withParts (id : NodeId) : document.withParts.children id = document.children id := by
  rw [withParts, children_push, children_push, children_push]

theorem formed_named {tag : Text} (valid : isTagName tag = true) (small : Text.lowered tag = tag) :
    ∀ data, NodeKind.element { tag } = .element data → data.WellFormed := by
  intro data same
  cases same
  exact ElementData.wellFormed_named valid small

theorem Sound.withParts (sound : document.Sound) : document.withParts.Sound := by
  apply Sound.pushed _ (formed_named (by decide) (by decide))
  apply Sound.pushed _ (formed_named (by decide) (by decide))
  exact sound.pushed (formed_named (by decide) (by decide))

theorem parent?_of_size_le {id : NodeId} (outside : document.slots.size ≤ id) :
    document.parent? id = none := by
  rw [parent?, node?_of_size_le outside]
  rfl

theorem element?_withParts_html :
    document.withParts.element? document.slots.size = some { tag := "html".toList } := by
  rw [element?_eq_some_iff_kind?, kind?_withParts]
  simp

theorem element?_withParts_head :
    document.withParts.element? (document.slots.size + 1) = some { tag := "head".toList } := by
  rw [element?_eq_some_iff_kind?, kind?_withParts]
  simp

theorem element?_withParts_body :
    document.withParts.element? (document.slots.size + 2) = some { tag := "body".toList } := by
  rw [element?_eq_some_iff_kind?, kind?_withParts]
  simp

theorem orphan_withParts {id : NodeId} (fresh : document.slots.size ≤ id) :
    document.withParts.parent? id = none := by
  rw [parent?_withParts, parent?_of_size_le fresh]

theorem parent?_withHead (id : NodeId) :
    (document.withParts.moved document.slots.size (document.slots.size + 1)).parent? id =
      if id = document.slots.size + 1 then some document.slots.size else document.parent? id := by
  rw [parent?_moved (contains_of_element? element?_withParts_head), parent?_withParts]

theorem kind?_withShell (id : NodeId) : document.withShell.kind? id = document.withParts.kind? id := by
  rw [withShell, moved, kind?_relinked, moved, kind?_relinked]

theorem parent?_withShell (id : NodeId) :
    document.withShell.parent? id =
      if id = document.slots.size + 2 ∨ id = document.slots.size + 1 then some document.slots.size
      else document.parent? id := by
  have live : (document.withParts.moved document.slots.size (document.slots.size + 1)).contains
      (document.slots.size + 2) = true := by
    rw [moved, contains_relinked]
    exact contains_of_element? element?_withParts_body
  rw [withShell, parent?_moved live, parent?_withHead]
  by_cases body : id = document.slots.size + 2
  · simp [body]
  · simp [body]

section Links

variable (sound : document.Sound)

include sound

/-- The head can be put below the page. -/
theorem appendProblem_head :
    Edit.appendProblem document.withParts document.slots.size (document.slots.size + 1) = none := by
  rw [Edit.appendProblem_eq_none_iff sound.withParts.forest]
  refine ⟨⟨_, element?_withParts_html, by decide⟩, contains_of_element? element?_withParts_head, ?_⟩
  intro below
  have same := eq_of_below_top below (orphan_withParts (Nat.le_refl _))
  exact Nat.ne_of_lt (Nat.lt_succ_self _) same

/-- Then the body can be put there too. -/
theorem appendProblem_body :
    Edit.appendProblem (document.withParts.moved document.slots.size (document.slots.size + 1))
      document.slots.size (document.slots.size + 2) = none := by
  have forest := (sound.withParts.moved (appendProblem_head sound)).forest
  rw [Edit.appendProblem_eq_none_iff forest]
  refine ⟨⟨{ tag := "html".toList }, ?_, by decide⟩, ?_, ?_⟩
  · rw [moved, element?_relinked, element?_withParts_html]
  · rw [moved, contains_relinked]
    exact contains_of_element? element?_withParts_body
  · intro below
    have orphan : (document.withParts.moved document.slots.size
        (document.slots.size + 1)).parent? document.slots.size = _ := parent?_withHead _
    rw [if_neg (Nat.ne_of_lt (Nat.lt_succ_self _)), parent?_of_size_le (Nat.le_refl _)] at orphan
    have same := eq_of_below_top below orphan
    exact Nat.ne_of_lt (Nat.lt_add_of_pos_right (by decide)) same

theorem Sound.withShell : document.withShell.Sound :=
  (sound.withParts.moved (appendProblem_head sound)).moved (appendProblem_body sound)

theorem children_withShell (id : NodeId) :
    document.withShell.children id = document.children id ++
      if id = document.slots.size then [document.slots.size + 1, document.slots.size + 2] else [] := by
  have live : document.withParts.contains document.slots.size = true :=
    contains_of_element? element?_withParts_html
  have liveStill : (document.withParts.moved document.slots.size
      (document.slots.size + 1)).contains document.slots.size = true := by
    rw [moved, contains_relinked]
    exact live
  have orphan : (document.withParts.moved document.slots.size
      (document.slots.size + 1)).parent? (document.slots.size + 2) = none := by
    rw [parent?_withHead, if_neg (by simp), parent?_of_size_le (Nat.le_add_right _ _)]
  have forest := (sound.withParts.moved (appendProblem_head sound)).forest
  rw [withShell, forest.children_moved_orphan liveStill orphan,
    sound.withParts.forest.children_moved_orphan live (orphan_withParts (Nat.le_succ _)),
    children_withParts]
  by_cases html : id = document.slots.size
  · simp [html]
  · simp [html]

end Links

end Markup.Document

/-- The elements around the roots are made, and nothing of this can fail. -/
theorem RenderStep.createShell_run {engine : Engine} (sound : engine.document.Sound) :
    RenderStep.createShell engine = .ok (Shell.next engine.document)
      { engine with document := engine.document.withShell } := by
  have headRun := Edit.appendChild_run sound.withParts.forest (Document.appendProblem_head sound)
  have bodyRun := Edit.appendChild_run
    (sound.withParts.moved (Document.appendProblem_head sound)).forest (Document.appendProblem_body sound)
  have element {tag : Text} (valid : isTagName tag = true) (small : Text.lowered tag = tag)
      (engine : Engine) : RenderStep.edit (Edit.createElement tag) engine =
        .ok engine.document.slots.size
          { engine with document := engine.document.push { kind := .element { tag } } } := by
    apply RenderStep.edit_of_ok
    rw [Edit.createElement_run valid, small]
  rw [RenderStep.createShell, bind_of_ok (element (by decide) (by decide) _),
    bind_of_ok (element (by decide) (by decide) _), bind_of_ok (element (by decide) (by decide) _)]
  simp only [Document.size_push]
  rw [bind_of_ok (RenderStep.edit_of_ok headRun), bind_of_ok (RenderStep.edit_of_ok bodyRun)]
  rfl

/-- The elements around the roots stand once they are made. -/
theorem Shell.stands_withShell {document : Document} (sound : document.Sound) :
    (Shell.next document).Stands document.withShell := by
  have elements {id : NodeId} {data : ElementData} (found : document.withParts.element? id = some data) :
      document.withShell.element? id = some data := by
    rw [Document.element?_congr (Document.kind?_withShell id), found]
  constructor
  · exact ⟨[], elements Document.element?_withParts_html, Or.inl rfl⟩
  · exact elements Document.element?_withParts_head
  · exact elements Document.element?_withParts_body
  · rw [Document.parent?_withShell, if_neg (by simp [Shell.next])]
    exact Document.parent?_of_size_le (Nat.le_refl _)
  · show document.withShell.children document.slots.size = _
    rw [Document.children_withShell sound, if_pos rfl,
      Document.children_of_node?_none (Document.node?_of_size_le (Nat.le_refl _))]
    rfl
  · simp [Shell.next]

namespace Stage

variable {origin : Engine}

/-- The first stage of a first render. -/
theorem first (sound : origin.Sound) (known : origin.shell = none) :
    Stage origin (Shell.next origin.document) origin.document.withShell := by
  have fresh {id : NodeId} (outside : origin.document.slots.size ≤ id) : ¬ origin.IsUserNode id :=
    fun user => Nat.not_lt.mpr outside user.1
  have old {id : NodeId} (user : origin.IsUserNode id) (count : Nat) :
      id ≠ origin.document.slots.size + count :=
    Nat.ne_of_lt (Nat.lt_of_lt_of_le user.1 (Nat.le_add_right _ _))
  refine ⟨Document.Sound.withShell sound.document, Shell.stands_withShell sound.document, ?_, ?_, ?_, ?_,
    (by simp [Shell.next]), ?_, ?_, ?_⟩
  · simp [Document.withShell, Document.size_moved, Document.size_withParts]
  · exact fresh (Nat.le_refl _)
  · exact fresh (Nat.le_add_right _ _)
  · exact fresh (Nat.le_add_right _ _)
  · intro id user
    rw [Document.kind?_withShell, Document.kind?_withParts, if_neg (old user 2), if_neg (old user 1),
      if_neg (Nat.ne_of_lt user.1)]
  · intro id user
    rw [Document.children_withShell sound.document, if_neg (Nat.ne_of_lt user.1), List.append_nil]
  · intro id user
    apply Option.ext
    intro parent
    rw [host?_during, Engine.host?_eq_some_iff, Document.parent?_withShell,
      if_neg (not_or.mpr ⟨old user 2, old user 1⟩), Engine.body?, known]
    apply and_congr_right
    intro step
    have inside := Document.lt_size_of_contains (sound.document.forest.contains_parent step)
    refine iff_of_true ?_ (by simp)
    rintro rfl
    exact Nat.not_lt.mpr (Nat.le_add_right _ _) inside

/-- The page around the roots is emptied. -/
theorem emptyPage_run {shell : Shell} {engine : Engine} (stage : Stage origin shell engine.document)
    (sound : origin.Sound) :
    ∃ changed, RenderStep.emptyPage shell engine =
          .ok { shell with script := none }
            { engine with document := changed, shell := some { shell with script := none } } ∧
      Stage origin { shell with script := none } changed ∧ changed.children shell.head = [] ∧
      changed.children shell.body = [] := by
  obtain ⟨headCleared, headless, headRun, removeRun, stageHead, emptyHead⟩ := stage.emptyHead_run sound
  obtain ⟨bodyCleared, changed, bodyRun, scriptRun, noScript, stageBody, emptyHeadStill, emptyBody⟩ :=
    stageHead.emptyBody_run sound emptyHead
  refine ⟨changed, ?_, stageBody, emptyHeadStill, emptyBody⟩
  rw [RenderStep.emptyPage, bind_of_ok (RenderStep.edit_of_ok headRun),
    bind_of_ok (RenderStep.edit_of_ok removeRun), bind_of_ok (RenderStep.edit_of_ok bodyRun)]
  cases known : shell.script with
  | none =>
    rw [← noScript known]
    rfl
  | some script =>
    dsimp only
    rw [bind_of_ok (RenderStep.edit_of_ok (scriptRun script known))]
    rfl

/-- Whatever earlier renders have left, a render finds or makes the elements around the roots, with
nothing in head and body. -/
theorem resetShell_run (sound : origin.Sound) {engine : Engine}
    (same : engine.document = origin.document) (sameShell : engine.shell = origin.shell) :
    ∃ shell changed, RenderStep.resetShell engine =
        .ok shell { engine with document := changed, shell := some shell } ∧
      shell.script = none ∧ Stage origin shell changed ∧ changed.children shell.head = [] ∧
      changed.children shell.body = [] := by
  rw [RenderStep.resetShell, bind_of_ok (get_run engine), sameShell]
  cases known : origin.shell with
  | some shell =>
    have stage := Stage.begin sound known
    rw [← same] at stage
    obtain ⟨changed, run, stageAfter, emptyHead, emptyBody⟩ := stage.emptyPage_run sound
    exact ⟨_, changed, run, rfl, stageAfter, emptyHead, emptyBody⟩
  | none =>
    have soundStart : engine.document.Sound := by
      rw [same]
      exact sound.document
    have made := RenderStep.createShell_run soundStart
    rw [same] at made
    have stage : Stage origin (Shell.next origin.document)
        { engine with document := origin.document.withShell }.document := Stage.first sound known
    obtain ⟨changed, run, stageAfter, emptyHead, emptyBody⟩ := stage.emptyPage_run sound
    refine ⟨_, changed, ?_, rfl, stageAfter, emptyHead, emptyBody⟩
    dsimp only
    rw [bind_of_ok made]
    exact run

end Stage

end PageCompiler
