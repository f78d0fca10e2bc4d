import PageCompiler.Proofs.Engine.Shell

/-!
# Edits of user nodes

An edit of user nodes leaves the page around the roots as it is: its nodes keep their data and their
parents, and no user node gets among them. Such an edit keeps an engine sound, and which nodes belong
to users.
-/

namespace PageCompiler.Engine

open Markup

variable {engine : Engine}

/-- A document that differs from the one of an engine in user nodes only. -/
structure UserEdit (engine : Engine) (changed : Document) : Prop where
  document : changed.Sound
  grows : engine.document.slots.size ≤ changed.slots.size
  kinds : ∀ {id}, engine.IsShellNode id → changed.kind? id = engine.document.kind? id
  parents : ∀ {id}, engine.IsShellNode id → changed.parent? id = engine.document.parent? id
  hosts : ∀ {id parent}, ¬ engine.IsShellNode id → changed.parent? id = some parent →
    ¬ engine.IsShellNode parent ∨ engine.body? = some parent
  html : ∀ {shell}, engine.shell = some shell →
    changed.children shell.html = engine.document.children shell.html

namespace UserEdit

variable {changed : Document}

theorem stands (edit : engine.UserEdit changed) (sound : engine.Sound) {shell : Shell}
    (known : engine.shell = some shell) : shell.Stands changed := by
  have htmlOwned := isShellNode_html known
  apply (sound.shell shell known).kept
  · exact edit.kinds htmlOwned
  · exact edit.kinds (isShellNode_head known)
  · exact edit.kinds (isShellNode_body (body?_of_shell known))
  · exact edit.parents htmlOwned
  · exact edit.html known
  · exact fun script scriptKnown => edit.parents (isShellNode_script known scriptKnown)

/-- What is above a user node after the edit: user nodes, then perhaps the body and the page. -/
theorem above_user (edit : engine.UserEdit changed) (sound : engine.Sound) {shell : Shell}
    (known : engine.shell = some shell) {id top : NodeId} (apart : ¬ engine.IsShellNode id)
    (below : changed.Below id top) :
    ¬ engine.IsShellNode top ∨ top = shell.body ∨ top = shell.html := by
  have stands := edit.stands sound known
  induction below with
  | refl => exact Or.inl apart
  | tail _ step ih =>
    rcases ih with outside | rfl | rfl
    · rcases edit.hosts outside step with user | body
      · exact Or.inl user
      · rw [body?_of_shell known, Option.some.injEq] at body
        exact Or.inr (Or.inl body.symm)
    · rw [stands.parent_body edit.document.forest, Option.some.injEq] at step
      exact Or.inr (Or.inr step.symm)
    · rw [stands.top] at step
      cases step

/-- Paths towards the root that start around the roots are the old ones. -/
theorem below_of_isShellNode (edit : engine.UserEdit changed) (sound : engine.Sound) {id top : NodeId}
    (owned : engine.IsShellNode id) (below : engine.document.Below id top) :
    changed.Below id top := by
  induction below using Relation.ReflTransGen.head_induction_on with
  | refl => exact Document.below_refl top
  | head step _ ih =>
    rw [← edit.parents owned] at step
    have above := sound.isShellNode_parent owned (by rw [← edit.parents owned, step])
    exact Document.below_trans (Document.below_of_parent? step) (ih above)

theorem isShellNode_iff (edit : engine.UserEdit changed) (sound : engine.Sound) (id : NodeId) :
    { engine with document := changed }.IsShellNode id ↔ engine.IsShellNode id := by
  constructor
  · rintro ⟨shell, known, member⟩
    change engine.shell = some shell at known
    by_contra apart
    have outside : ∀ {top}, engine.IsShellNode top → top ≠ shell.body → top ≠ shell.html →
        ¬ changed.Below id top := by
      intro top owned notBody notHtml below
      rcases edit.above_user sound known apart below with user | body | html
      · exact user owned
      · exact notBody body
      · exact notHtml html
    have stands := sound.shell shell known
    have forest := sound.document.forest
    rcases member with rfl | rfl | inHead | ⟨script, scriptKnown, inScript⟩
    · exact apart (isShellNode_html known)
    · exact apart (isShellNode_body (body?_of_shell known))
    · exact outside (isShellNode_head known) stands.head_ne_body (stands.html_ne_head forest).symm
        inHead
    · have step := stands.script script scriptKnown
      refine outside (isShellNode_script known scriptKnown) (forest.ne_of_parent? step).symm ?_
        inScript
      rintro rfl
      rw [stands.top] at step
      cases step
  · intro owned
    obtain ⟨shell, known, member⟩ := owned
    refine ⟨shell, known, ?_⟩
    rcases member with rfl | rfl | inHead | ⟨script, scriptKnown, inScript⟩
    · exact Or.inl rfl
    · exact Or.inr (Or.inl rfl)
    · have owned : engine.IsShellNode id := ⟨shell, known, Or.inr (Or.inr (Or.inl inHead))⟩
      exact Or.inr (Or.inr (Or.inl (edit.below_of_isShellNode sound owned inHead)))
    · have owned : engine.IsShellNode id :=
        ⟨shell, known, Or.inr (Or.inr (Or.inr ⟨script, scriptKnown, inScript⟩))⟩
      exact Or.inr (Or.inr (Or.inr ⟨script, scriptKnown,
        edit.below_of_isShellNode sound owned inScript⟩))

theorem isUserNode (edit : engine.UserEdit changed) (sound : engine.Sound) {id : NodeId}
    (user : engine.IsUserNode id) : { engine with document := changed }.IsUserNode id :=
  ⟨Nat.lt_of_lt_of_le user.1 edit.grows, fun owned =>
    user.2 ((edit.isShellNode_iff sound id).mp owned)⟩

theorem sound (edit : engine.UserEdit changed) (sound : engine.Sound) :
    { engine with document := changed }.Sound where
  document := edit.document
  shell _ known := edit.stands sound known
  styles := sound.styles
  hooked id member := edit.isUserNode sound (sound.hooked id member)
  settled := sound.settled

end UserEdit

namespace Sound

theorem edit_pushed (sound : engine.Sound) {kind : NodeKind}
    (formed : ∀ data, kind = .element data → data.WellFormed) :
    engine.UserEdit (engine.document.push { kind }) where
  document := sound.document.pushed formed
  grows := by simp
  kinds := by
    intro id owned
    have inside := Document.lt_size_of_contains (sound.contains_of_isShellNode owned)
    rw [Document.kind?_push, if_neg (Nat.ne_of_lt inside)]
  parents _ := Document.parent?_push _ _
  hosts := by
    intro id parent apart step
    rw [Document.parent?_push] at step
    exact sound.not_isShellNode_parent apart step
  html _ := Document.children_push _ _

theorem edit_withData (sound : engine.Sound) {id : NodeId} {data : ElementData}
    (user : engine.IsUserNode id) (found : engine.document.element? id = some data)
    {change : ElementData → ElementData} (sameTag : (change data).tag = data.tag)
    (formed : (change data).WellFormed) :
    engine.UserEdit (engine.document.withData id change) where
  document := sound.document.withData found sameTag formed
  grows := by simp
  kinds := by
    intro other owned
    rw [Document.kind?_withData found, if_neg]
    rintro rfl
    exact user.2 owned
  parents _ := Document.parent?_withData _ _ _
  hosts := by
    intro other parent apart step
    rw [Document.parent?_withData] at step
    exact sound.not_isShellNode_parent apart step
  html _ := Document.children_withData _ _ _

theorem edit_withText (sound : engine.Sound) {id : NodeId} (user : engine.IsUserNode id)
    (text : engine.document.isText id = true) (content : Text) :
    engine.UserEdit (engine.document.withText id content) where
  document := sound.document.withText text content
  grows := by
    rw [Document.withText, Document.size_altered]
  kinds := by
    intro other owned
    obtain ⟨node, old, there, _⟩ := Document.isText_iff.mp text
    rw [Document.kind?_withText (Document.contains_iff.mpr ⟨node, there⟩), if_neg]
    rintro rfl
    exact user.2 owned
  parents _ := Document.parent?_withText _ _ _
  hosts := by
    intro other parent apart step
    rw [Document.parent?_withText] at step
    exact sound.not_isShellNode_parent apart step
  html _ := Document.children_withText _ _ _

theorem edit_moved (sound : engine.Sound) {parent child : NodeId} (userParent : engine.IsUserNode parent)
    (userChild : engine.IsUserNode child)
    (possible : Edit.appendProblem engine.document parent child = none) :
    engine.UserEdit (engine.document.moved parent child) where
  document := sound.document.moved possible
  grows := by
    rw [Document.size_moved]
  kinds _ := Document.kind?_relinked _ _ _
  parents := by
    intro id owned
    obtain ⟨_, live, _⟩ := (Edit.appendProblem_eq_none_iff sound.document.forest).mp possible
    rw [Document.parent?_moved live, if_neg]
    rintro rfl
    exact userChild.2 owned
  hosts := by
    intro id above apart step
    obtain ⟨_, live, _⟩ := (Edit.appendProblem_eq_none_iff sound.document.forest).mp possible
    rw [Document.parent?_moved live] at step
    split at step
    · cases step
      exact Or.inl userParent.2
    · exact sound.not_isShellNode_parent apart step
  html := by
    intro shell known
    obtain ⟨⟨data, found, _⟩, _, _⟩ :=
      (Edit.appendProblem_eq_none_iff sound.document.forest).mp possible
    have owned := isShellNode_html known
    have notParent : shell.html ≠ parent := by
      rintro rfl
      exact userParent.2 owned
    have notListed : engine.document.parent? child ≠ some shell.html := by
      intro step
      rcases sound.not_isShellNode_parent userChild.2 step with user | body
      · exact user owned
      · rw [body?_of_shell known, Option.some.injEq] at body
        exact (sound.shell shell known).html_ne_body sound.document.forest body.symm
    rw [Document.children_moved (Document.contains_of_element? found), if_neg notParent,
      List.append_nil, Document.filter_children_eq_self sound.document.forest notListed]

theorem edit_cleared (sound : engine.Sound) {id : NodeId} (user : engine.IsUserNode id) :
    engine.UserEdit (engine.document.cleared id) where
  document := sound.document.cleared id
  grows := by
    simp [Document.cleared, Document.relinked]
  kinds _ := Document.kind?_relinked _ _ _
  parents := by
    intro other owned
    rw [Document.parent?_cleared, if_neg]
    intro step
    exact user.2 (sound.isShellNode_parent owned step)
  hosts := by
    intro other parent apart step
    rw [Document.parent?_cleared] at step
    split at step
    · cases step
    · exact sound.not_isShellNode_parent apart step
  html := by
    intro shell known
    rw [Document.children_cleared, if_neg]
    rintro rfl
    exact user.2 (isShellNode_html known)

theorem edit_freed (sound : engine.Sound) {ids : List NodeId}
    (users : ∀ id ∈ ids, ¬ engine.IsShellNode id)
    (leaves : ∀ id ∈ ids, engine.document.parent? id = none ∧ engine.document.children id = []) :
    engine.UserEdit (engine.document.free ids) where
  document := sound.document.freed (sound.document.forest.freed_leaves leaves)
  grows := by simp
  kinds := by
    intro id owned
    rw [Document.kind?_free, if_neg fun member => users id member owned]
  parents := by
    intro id owned
    rw [Document.parent?_free, if_neg fun member => users id member owned]
  hosts := by
    intro id parent apart step
    rw [Document.parent?_free] at step
    split at step
    · cases step
    · exact sound.not_isShellNode_parent apart step
  html := by
    intro shell known
    rw [Document.children_free,
      if_neg fun member => users _ member (isShellNode_html known)]

end Sound

end PageCompiler.Engine
