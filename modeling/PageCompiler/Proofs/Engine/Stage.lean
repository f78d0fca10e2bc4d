import PageCompiler.Engine.Render
import PageCompiler.Proofs.Engine.Shell
import PageCompiler.Proofs.Markup.Grafts

/-!
# Documents during a render

A render only works around the nodes of users. At every stage they have the data and the children
they had when it began, and the parent they had then, unless that is the body: roots are taken out of
the body and put into it.
-/

namespace PageCompiler

open Markup

/-- An engine with another document and other elements around the roots. -/
def Engine.during (engine : Engine) (shell : Shell) (document : Document) : Engine :=
  { engine with document, shell := some shell }

/-- A document that a render of an engine has come to, with the elements around the roots. -/
structure Stage (origin : Engine) (shell : Shell) (document : Document) : Prop where
  sound : document.Sound
  stands : shell.Stands document
  grows : origin.document.slots.size ≤ document.slots.size
  htmlApart : ¬ origin.IsUserNode shell.html
  headApart : ¬ origin.IsUserNode shell.head
  bodyApart : ¬ origin.IsUserNode shell.body
  scriptApart : ∀ script, shell.script = some script → ¬ origin.IsUserNode script
  kinds : ∀ {id}, origin.IsUserNode id → document.kind? id = origin.document.kind? id
  lists : ∀ {id}, origin.IsUserNode id → document.children id = origin.document.children id
  hosts : ∀ {id}, origin.IsUserNode id → (origin.during shell document).host? id = origin.host? id

namespace Stage

variable {origin : Engine} {shell : Shell} {document changed : Document}

theorem host?_during {id parent : NodeId} :
    (origin.during shell document).host? id = some parent ↔
      document.parent? id = some parent ∧ parent ≠ shell.body := by
  rw [Engine.host?_eq_some_iff]
  exact and_congr_right fun _ => not_congr ⟨fun same => (Option.some.inj same).symm,
    fun same => congrArg some same.symm⟩

/-- Nodes with the same parent, or with no parent but the body, have the same host. -/
theorem host?_during_congr {id : NodeId}
    (same : ∀ parent, parent ≠ shell.body →
      (changed.parent? id = some parent ↔ document.parent? id = some parent)) :
    (origin.during shell changed).host? id = (origin.during shell document).host? id := by
  apply Option.ext
  intro parent
  rw [host?_during, host?_during]
  exact and_congr_left (same parent)

/-- When a render begins, the document is at the first stage. -/
theorem begin (sound : origin.Sound) (known : origin.shell = some shell) :
    Stage origin shell origin.document where
  sound := sound.document
  stands := sound.shell shell known
  grows := Nat.le_refl _
  htmlApart user := user.2 (Engine.isShellNode_html known)
  headApart user := user.2 (Engine.isShellNode_head known)
  bodyApart user := user.2 (Engine.isShellNode_body (Engine.body?_of_shell known))
  scriptApart _ scriptKnown user := user.2 (Engine.isShellNode_script known scriptKnown)
  kinds _ := rfl
  lists _ := rfl
  hosts {id} _ := by
    have same : origin.during shell origin.document = origin := by
      rw [Engine.during, ← known]
    rw [same]

/-- A change that leaves the nodes of users and the elements around the roots alone. -/
theorem step (stage : Stage origin shell document) (sound : changed.Sound)
    (stands : shell.Stands changed) (grows : document.slots.size ≤ changed.slots.size)
    (kinds : ∀ {id}, origin.IsUserNode id → changed.kind? id = document.kind? id)
    (lists : ∀ {id}, origin.IsUserNode id → changed.children id = document.children id)
    (parents : ∀ {id}, origin.IsUserNode id → ∀ parent, parent ≠ shell.body →
      (changed.parent? id = some parent ↔ document.parent? id = some parent)) :
    Stage origin shell changed :=
  { stage with
    sound := sound
    stands := stands
    grows := Nat.le_trans stage.grows grows
    kinds := fun user => (kinds user).trans (stage.kinds user)
    lists := fun user => (lists user).trans (stage.lists user)
    hosts := fun user => (host?_during_congr (parents user)).trans (stage.hosts user) }

theorem lt_size_of_user (stage : Stage origin shell document) {id : NodeId}
    (user : origin.IsUserNode id) : id < document.slots.size :=
  Nat.lt_of_lt_of_le user.1 stage.grows

/-- Above the node of a user are nodes of users, then perhaps the body and the page. -/
theorem above_user (stage : Stage origin shell document) (sound : origin.Sound) {id top : NodeId}
    (user : origin.IsUserNode id) (below : document.Below id top) :
    origin.IsUserNode top ∨ top = shell.body ∨ top = shell.html := by
  induction below with
  | refl => exact Or.inl user
  | @tail above top _ step ih =>
    rcases ih with userAbove | rfl | rfl
    · by_cases body : top = shell.body
      · exact Or.inr (Or.inl body)
      · have host := (stage.hosts userAbove).symm.trans (host?_during.mpr ⟨step, body⟩)
        exact Or.inl (sound.isUserNode_host userAbove host)
    · rw [stage.stands.parent_body stage.sound.forest, Option.some.injEq] at step
      exact Or.inr (Or.inr step.symm)
    · rw [stage.stands.top] at step
      cases step

/-- Nodes of users do not get among the elements around the roots. -/
theorem not_owns_user (stage : Stage origin shell document) (sound : origin.Sound) {id : NodeId}
    (user : origin.IsUserNode id) : ¬ shell.Owns document id := by
  have forest := stage.sound.forest
  rintro (rfl | rfl | inHead | ⟨script, known, inScript⟩)
  · exact stage.htmlApart user
  · exact stage.bodyApart user
  · rcases stage.above_user sound user inHead with userHead | body | html
    · exact stage.headApart userHead
    · exact stage.stands.head_ne_body body
    · exact stage.stands.html_ne_head forest html.symm
  · have step := stage.stands.script script known
    rcases stage.above_user sound user inScript with userScript | rfl | rfl
    · exact stage.scriptApart script known userScript
    · exact forest.ne_of_parent? step rfl
    · rw [stage.stands.top] at step
      cases step

theorem isUserNode_during (stage : Stage origin shell document) (sound : origin.Sound) {id : NodeId}
    (user : origin.IsUserNode id) : (origin.during shell document).IsUserNode id := by
  refine ⟨stage.lt_size_of_user user, ?_⟩
  rintro ⟨other, known, owned⟩
  cases known
  exact stage.not_owns_user sound user owned

/-- The trees of users are as they were. -/
theorem tree? (stage : Stage origin shell document) (sound : origin.Sound) {id : NodeId}
    (user : origin.IsUserNode id) : document.tree? id = origin.document.tree? id :=
  Document.tree?_eq_of_kept sound.document.forest stage.sound.forest stage.kinds stage.lists
    (fun user listed => sound.isUserNode_child user listed) user

/-- The parent of the node of a user is the node of a user or the body. -/
theorem parent_of_user (stage : Stage origin shell document) (sound : origin.Sound)
    {id parent : NodeId} (user : origin.IsUserNode id) (step : document.parent? id = some parent) :
    origin.IsUserNode parent ∨ parent = shell.body := by
  by_cases body : parent = shell.body
  · exact Or.inr body
  · have host := (stage.hosts user).symm.trans (host?_during.mpr ⟨step, body⟩)
    exact Or.inl (sound.isUserNode_host user host)

/-- Above the body there is only the page. -/
theorem not_below_body (stage : Stage origin shell document) {id : NodeId} (notBody : id ≠ shell.body)
    (notHtml : id ≠ shell.html) : ¬ document.Below shell.body id := by
  intro below
  rcases Document.below_iff_eq_or_parent.mp below with same | ⟨above, step, lower⟩
  · exact notBody same.symm
  · rw [stage.stands.parent_body stage.sound.forest, Option.some.injEq] at step
    rw [← step] at lower
    exact notHtml (Document.eq_of_below_top lower stage.stands.top).symm

/-- The trees in the head stay when nothing but the body and new nodes change. -/
theorem trees_head_kept (stage : Stage origin shell document) (forest : changed.Forest)
    (kinds : ∀ {id}, id < document.slots.size → changed.kind? id = document.kind? id)
    (lists : ∀ {id}, id < document.slots.size → id ≠ shell.body →
      changed.children id = document.children id) :
    changed.trees (changed.children shell.head) = document.trees (document.children shell.head) := by
  have headInside := Document.lt_size_of_contains stage.stands.contains_head
  let kept (id : NodeId) : Prop := id < document.slots.size ∧ document.Below id shell.head
  have notBody {id : NodeId} (inside : kept id) : id ≠ shell.body := by
    rintro rfl
    exact stage.not_below_body stage.stands.head_ne_body
      (stage.stands.html_ne_head stage.sound.forest).symm inside.2
  have closed {id child : NodeId} (inside : kept id) (listed : child ∈ document.children id) :
      kept child := by
    have step := stage.sound.forest.linked.mp listed
    exact ⟨Document.lt_size_of_contains (Document.contains_of_parent? step),
      Document.below_trans (Document.below_of_parent? step) inside.2⟩
  rw [lists headInside stage.stands.head_ne_body]
  apply Document.trees_congr
  intro child listed
  exact Document.tree?_eq_of_kept stage.sound.forest forest (fun inside => kinds inside.1)
    (fun inside => lists inside.1 (notBody inside)) closed
    (closed ⟨headInside, Document.below_refl _⟩ listed)

/-! ## Steps of a render -/

theorem html_ne_size (stage : Stage origin shell document) : shell.html ≠ document.slots.size :=
  Nat.ne_of_lt (Document.lt_size_of_contains stage.stands.contains_html)

theorem head_ne_size (stage : Stage origin shell document) : shell.head ≠ document.slots.size :=
  Nat.ne_of_lt (Document.lt_size_of_contains stage.stands.contains_head)

theorem body_ne_size (stage : Stage origin shell document) : shell.body ≠ document.slots.size :=
  Nat.ne_of_lt (Document.lt_size_of_contains stage.stands.contains_body)

/-- A new slot is filled. -/
theorem pushed (stage : Stage origin shell document) {kind : NodeKind}
    (formed : ∀ data, kind = .element data → data.WellFormed) :
    Stage origin shell (document.push { kind }) := by
  have kinds {id : NodeId} (old : id ≠ document.slots.size) :
      (document.push { kind }).kind? id = document.kind? id := by
    rw [Document.kind?_push, if_neg old]
  apply stage.step (stage.sound.pushed formed)
  · apply stage.stands.kept
    · exact kinds stage.html_ne_size
    · exact kinds stage.head_ne_size
    · exact kinds stage.body_ne_size
    · exact Document.parent?_push _ _
    · exact Document.children_push _ _
    · exact fun _ _ => Document.parent?_push _ _
  · simp
  · exact fun user => kinds (Nat.ne_of_lt (stage.lt_size_of_user user))
  · exact fun _ => Document.children_push _ _
  · intro id _ parent _
    rw [Document.parent?_push]

/-- A tree without a parent is put into the body, or below another node that is not a user's. -/
theorem moved (stage : Stage origin shell document) {host child : NodeId}
    (possible : Edit.appendProblem document host child = none)
    (orphan : document.parent? child = none) (hostApart : ¬ origin.IsUserNode host)
    (hostNotHtml : host ≠ shell.html) (notHtml : child ≠ shell.html)
    (place : host = shell.body ∨ ¬ origin.IsUserNode child) :
    Stage origin shell (document.moved host child) := by
  obtain ⟨⟨data, found, _⟩, live, _⟩ :=
    (Edit.appendProblem_eq_none_iff stage.sound.forest).mp possible
  have kinds (id : NodeId) : (document.moved host child).kind? id = document.kind? id :=
    Document.kind?_relinked _ _ _
  have lists {id : NodeId} (other : id ≠ host) :
      (document.moved host child).children id = document.children id := by
    rw [stage.sound.forest.children_moved_orphan (Document.contains_of_element? found) orphan,
      if_neg other, List.append_nil]
  have parents {id : NodeId} (other : id ≠ child) :
      (document.moved host child).parent? id = document.parent? id := by
    rw [Document.parent?_moved live, if_neg other]
  apply stage.step (stage.sound.moved possible)
  · apply stage.stands.kept
    · exact kinds _
    · exact kinds _
    · exact kinds _
    · exact parents notHtml.symm
    · exact lists hostNotHtml.symm
    · intro script known
      apply parents
      rintro rfl
      rw [stage.stands.script script known] at orphan
      cases orphan
  · rw [Document.size_moved]
  · exact fun _ => kinds _
  · intro id user
    apply lists
    rintro rfl
    exact hostApart user
  · intro id user parent notBody
    by_cases own : id = child
    · subst own
      rcases place with rfl | apart
      · rw [Document.parent?_moved live, if_pos rfl, orphan, Option.some.injEq]
        exact iff_of_false notBody.symm (by simp)
      · exact absurd user apart
    · rw [parents own]

/-- A new leaf below a node that is not a user's. -/
theorem grafted (stage : Stage origin shell document) {host : NodeId}
    (possible : document.MayHost host) (hostApart : ¬ origin.IsUserNode host)
    (hostNotHtml : host ≠ shell.html) {kind : NodeKind}
    (formed : ∀ data, kind = .element data → data.WellFormed) :
    Stage origin shell (document.grafted host kind) := by
  apply (stage.pushed formed).moved
  · exact Edit.appendProblem_pushed stage.sound.forest possible kind
  · exact Document.parent?_pushed kind
  · exact hostApart
  · exact hostNotHtml
  · exact stage.html_ne_size.symm
  · exact Or.inr fun user => Nat.lt_irrefl _ (stage.lt_size_of_user user)

/-- The head loses its children. -/
theorem clearedHead (stage : Stage origin shell document) (sound : origin.Sound) :
    Stage origin shell (document.cleared shell.head) := by
  have forest := stage.sound.forest
  have kinds (id : NodeId) : (document.cleared shell.head).kind? id = document.kind? id :=
    Document.kind?_relinked _ _ _
  have lists {id : NodeId} (other : id ≠ shell.head) :
      (document.cleared shell.head).children id = document.children id := by
    rw [Document.children_cleared, if_neg other]
  have parents {id : NodeId} (other : document.parent? id ≠ some shell.head) :
      (document.cleared shell.head).parent? id = document.parent? id := by
    rw [Document.parent?_cleared, if_neg other]
  apply stage.step (stage.sound.cleared shell.head)
  · apply stage.stands.kept
    · exact kinds _
    · exact kinds _
    · exact kinds _
    · apply parents
      rw [stage.stands.top]
      simp
    · exact lists (stage.stands.html_ne_head forest)
    · intro script known
      apply parents
      rw [stage.stands.script script known, Ne, Option.some.injEq]
      exact stage.stands.head_ne_body.symm
  · simp [Document.cleared, Document.relinked]
  · exact fun _ => kinds _
  · intro id user
    apply lists
    rintro rfl
    exact stage.headApart user
  · intro id user parent _
    rw [parents]
    intro step
    rcases stage.parent_of_user sound user step with userHead | body
    · exact stage.headApart userHead
    · exact stage.stands.head_ne_body body

/-- The script of the last render is forgotten. -/
theorem bare (stage : Stage origin shell document) :
    Stage origin { shell with script := none } document :=
  { stage with
    stands := { stage.stands with script := (by simp) }
    scriptApart := (by simp) }

/-- A node in the body becomes the script of the page. -/
theorem withScript (stage : Stage origin shell document) {script : NodeId}
    (step : document.parent? script = some shell.body) (apart : ¬ origin.IsUserNode script) :
    Stage origin { shell with script := some script } document :=
  { stage with
    stands := { stage.stands with
      script := fun _ known => by
        rw [← Option.some.inj known]
        exact step }
    scriptApart := fun _ known => by
      rw [← Option.some.inj known]
      exact apart }

/-- The body loses its children. -/
theorem clearedBody (stage : Stage origin shell document) (noScript : shell.script = none) :
    Stage origin shell (document.cleared shell.body) := by
  have forest := stage.sound.forest
  have kinds (id : NodeId) : (document.cleared shell.body).kind? id = document.kind? id :=
    Document.kind?_relinked _ _ _
  have lists {id : NodeId} (other : id ≠ shell.body) :
      (document.cleared shell.body).children id = document.children id := by
    rw [Document.children_cleared, if_neg other]
  apply stage.step (stage.sound.cleared shell.body)
  · apply stage.stands.kept
    · exact kinds _
    · exact kinds _
    · exact kinds _
    · rw [Document.parent?_cleared, stage.stands.top, if_neg (by simp)]
    · exact lists (stage.stands.html_ne_body forest)
    · intro script known
      rw [noScript] at known
      cases known
  · simp [Document.cleared, Document.relinked]
  · exact fun _ => kinds _
  · intro id user
    apply lists
    rintro rfl
    exact stage.bodyApart user
  · intro id user parent notBody
    rw [Document.parent?_cleared]
    split
    · next step =>
      rw [step, Option.some.injEq]
      exact iff_of_false (by simp) notBody.symm
    · exact Iff.rfl

/-- A tree without a parent that is not a user's is removed. -/
theorem removed (stage : Stage origin shell document) (sound : origin.Sound) {id : NodeId}
    (orphan : document.parent? id = none) (apart : ¬ origin.IsUserNode id) (notHtml : id ≠ shell.html) :
    Stage origin shell (document.free (document.family id)) := by
  have forest := stage.sound.forest
  have htmlOutside : ¬ document.Below shell.html id := by
    intro below
    exact notHtml (Document.eq_of_below_top below stage.stands.top).symm
  have outside {other parent : NodeId} (step : document.parent? other = some parent)
      (parentOutside : ¬ document.Below parent id) : ¬ document.Below other id := by
    intro below
    rcases Document.below_iff_eq_or_parent.mp below with rfl | ⟨above, first, lower⟩
    · rw [orphan] at step
      cases step
    · rw [step, Option.some.injEq] at first
      rw [← first] at lower
      exact parentOutside lower
  have headOutside := outside (stage.stands.parent_head forest) htmlOutside
  have bodyOutside := outside (stage.stands.parent_body forest) htmlOutside
  have userOutside {other : NodeId} (user : origin.IsUserNode other) :
      ¬ document.Below other id := by
    intro below
    rcases stage.above_user sound user below with userId | rfl | rfl
    · exact apart userId
    · exact bodyOutside (Document.below_refl _)
    · exact notHtml rfl
  have kinds {other : NodeId} (free : ¬ document.Below other id) :
      (document.free (document.family id)).kind? other = document.kind? other := by
    rw [Document.kind?_free, if_neg ((forest.mem_family_iff id other).not.mpr free)]
  have lists {other : NodeId} (free : ¬ document.Below other id) :
      (document.free (document.family id)).children other = document.children other := by
    rw [Document.children_free, if_neg ((forest.mem_family_iff id other).not.mpr free)]
  have parents {other : NodeId} (free : ¬ document.Below other id) :
      (document.free (document.family id)).parent? other = document.parent? other := by
    rw [Document.parent?_free, if_neg ((forest.mem_family_iff id other).not.mpr free)]
  apply stage.step (stage.sound.freed (forest.freed_family orphan))
  · apply stage.stands.kept
    · exact kinds htmlOutside
    · exact kinds headOutside
    · exact kinds bodyOutside
    · exact parents htmlOutside
    · exact lists htmlOutside
    · intro script known
      exact parents (outside (stage.stands.script script known) bodyOutside)
  · simp
  · exact fun user => kinds (userOutside user)
  · exact fun user => lists (userOutside user)
  · intro other user parent _
    rw [parents (userOutside user)]

end Stage

end PageCompiler
