import PageCompiler.Engine
import PageCompiler.Proofs.Markup.Reachable

/-!
# The elements around the roots

Which nodes of an engine belong to the page around the roots, and which belong to its users. As long
as no node of the page is put below a node of a user, the two do not mix: children of user nodes are
user nodes, and the only parent from outside that a user node can have is the body.
-/

namespace PageCompiler

open Markup

/-- The links and data of the elements around the roots. -/
structure Shell.Stands (shell : Shell) (document : Document) : Prop where
  html : ∃ attributes : Entries Text,
    document.element? shell.html = some { tag := "html".toList, attributes } ∧
      (attributes = [] ∨ ∃ language, attributes = [("lang".toList, language)])
  head : document.element? shell.head = some { tag := "head".toList }
  body : document.element? shell.body = some { tag := "body".toList }
  top : document.parent? shell.html = none
  parts : document.children shell.html = [shell.head, shell.body]
  script : ∀ script, shell.script = some script → document.parent? script = some shell.body

/-- Whether a node is one of the elements around the roots, or in the head, or in the script. -/
def Shell.Owns (shell : Shell) (document : Document) (id : NodeId) : Prop :=
  id = shell.html ∨ id = shell.body ∨ document.Below id shell.head ∨
    ∃ script, shell.script = some script ∧ document.Below id script

namespace Shell.Stands

variable {shell : Shell} {document : Document}

theorem parent_head (stands : shell.Stands document) (forest : document.Forest) :
    document.parent? shell.head = some shell.html := by
  rw [← forest.linked, stands.parts]
  simp

theorem parent_body (stands : shell.Stands document) (forest : document.Forest) :
    document.parent? shell.body = some shell.html := by
  rw [← forest.linked, stands.parts]
  simp

theorem contains_html (stands : shell.Stands document) :
    document.contains shell.html = true := by
  obtain ⟨attributes, found, _⟩ := stands.html
  exact Document.contains_of_element? found

theorem contains_head (stands : shell.Stands document) : document.contains shell.head = true :=
  Document.contains_of_element? stands.head

theorem contains_body (stands : shell.Stands document) : document.contains shell.body = true :=
  Document.contains_of_element? stands.body

theorem mayHost_head (stands : shell.Stands document) : document.MayHost shell.head :=
  ⟨_, stands.head, rfl⟩

theorem mayHost_body (stands : shell.Stands document) : document.MayHost shell.body :=
  ⟨_, stands.body, rfl⟩

theorem html_ne_head (stands : shell.Stands document) (forest : document.Forest) :
    shell.html ≠ shell.head :=
  forest.ne_of_parent? (stands.parent_head forest)

theorem html_ne_body (stands : shell.Stands document) (forest : document.Forest) :
    shell.html ≠ shell.body :=
  forest.ne_of_parent? (stands.parent_body forest)

theorem head_ne_body (stands : shell.Stands document) : shell.head ≠ shell.body := by
  intro same
  have tags := stands.head
  rw [same, stands.body] at tags
  cases tags

/-- The elements around the roots stand in any document in which their data and links are the same. -/
theorem kept {changed : Document} (stands : shell.Stands document)
    (html : changed.kind? shell.html = document.kind? shell.html)
    (head : changed.kind? shell.head = document.kind? shell.head)
    (body : changed.kind? shell.body = document.kind? shell.body)
    (top : changed.parent? shell.html = document.parent? shell.html)
    (parts : changed.children shell.html = document.children shell.html)
    (script : ∀ script, shell.script = some script →
      changed.parent? script = document.parent? script) : shell.Stands changed where
  html := by
    rw [Document.element?_congr html]
    exact stands.html
  head := by rw [Document.element?_congr head, stands.head]
  body := by rw [Document.element?_congr body, stands.body]
  top := by rw [top, stands.top]
  parts := by rw [parts, stands.parts]
  script id known := by rw [script id known, stands.script id known]

/-- The parent of a node around the roots is one of them too. -/
theorem owns_parent (stands : shell.Stands document) (forest : document.Forest)
    {id parent : NodeId} (owned : shell.Owns document id)
    (step : document.parent? id = some parent) : shell.Owns document parent := by
  rcases owned with rfl | rfl | inHead | ⟨script, known, inScript⟩
  · rw [stands.top] at step
    cases step
  · rw [stands.parent_body forest] at step
    cases step
    exact Or.inl rfl
  · rcases Document.below_iff_eq_or_parent.mp inHead with rfl | ⟨above, first, lower⟩
    · rw [stands.parent_head forest] at step
      cases step
      exact Or.inl rfl
    · rw [step, Option.some.injEq] at first
      rw [first]
      exact Or.inr (Or.inr (Or.inl lower))
  · rcases Document.below_iff_eq_or_parent.mp inScript with rfl | ⟨above, first, lower⟩
    · rw [stands.script id known] at step
      cases step
      exact Or.inr (Or.inl rfl)
    · rw [step, Option.some.injEq] at first
      rw [first]
      exact Or.inr (Or.inr (Or.inr ⟨script, known, lower⟩))

/-- The parent of any other node is none of them, or the body. -/
theorem not_owns_parent (stands : shell.Stands document) (forest : document.Forest)
    {id parent : NodeId} (apart : ¬ shell.Owns document id)
    (step : document.parent? id = some parent) :
    ¬ shell.Owns document parent ∨ parent = shell.body := by
  by_cases body : parent = shell.body
  · exact Or.inr body
  · left
    rintro (rfl | same | inHead | ⟨script, known, inScript⟩)
    · rw [← forest.linked, stands.parts] at step
      simp only [List.mem_cons, List.not_mem_nil, or_false] at step
      rcases step with rfl | rfl
      · exact apart (Or.inr (Or.inr (Or.inl (Document.below_refl _))))
      · exact apart (Or.inr (Or.inl rfl))
    · exact body same
    · have lower := Document.below_trans (Document.below_of_parent? step) inHead
      exact apart (Or.inr (Or.inr (Or.inl lower)))
    · have lower := Document.below_trans (Document.below_of_parent? step) inScript
      exact apart (Or.inr (Or.inr (Or.inr ⟨script, known, lower⟩)))

theorem contains_of_owns (stands : shell.Stands document) {id : NodeId}
    (owned : shell.Owns document id) : document.contains id = true := by
  have below : ∀ {top : NodeId}, document.contains top = true → document.Below id top →
      document.contains id = true := by
    intro top live lower
    rcases Document.below_iff_eq_or_parent.mp lower with rfl | ⟨above, step, _⟩
    · exact live
    · exact Document.contains_of_parent? step
  rcases owned with rfl | rfl | inHead | ⟨script, known, inScript⟩
  · exact stands.contains_html
  · exact stands.contains_body
  · exact below stands.contains_head inHead
  · exact below (Document.contains_of_parent? (stands.script script known)) inScript

end Shell.Stands

namespace Engine

variable {engine : Engine}

/-- Whether a node belongs to the page around the roots. -/
def IsShellNode (engine : Engine) (id : NodeId) : Prop :=
  ∃ shell, engine.shell = some shell ∧ shell.Owns engine.document id

/-- Whether a node was made for a user: it was issued and does not belong to the page around the
roots. -/
def IsUserNode (engine : Engine) (id : NodeId) : Prop :=
  id < engine.document.slots.size ∧ ¬ engine.IsShellNode id

/-- The body of the page. -/
def body? (engine : Engine) : Option NodeId :=
  engine.shell.map Shell.body

/-- The parent of a node, unless that is the body. -/
def host? (engine : Engine) (id : NodeId) : Option NodeId :=
  (engine.document.parent? id).filter fun parent => some parent != engine.body?

theorem body?_of_shell {shell : Shell} (known : engine.shell = some shell) :
    engine.body? = some shell.body := by
  rw [body?, known]
  rfl

/-- What holds of an engine between operations: its document is sound, the elements around the roots
stand as they were made, accepted rules hold nothing that could end a stylesheet, only user nodes are
hooked, and no render is under way. -/
structure Sound (engine : Engine) : Prop where
  document : engine.document.Sound
  shell : ∀ shell, engine.shell = some shell → shell.Stands engine.document
  styles : ∀ rule ∈ engine.buffers.styles, '<' ∉ rule.text
  hooked : ∀ id ∈ engine.hooked, engine.IsUserNode id
  settled : engine.phase ≠ .compiling

theorem host?_eq_some_iff {id parent : NodeId} :
    engine.host? id = some parent ↔
      engine.document.parent? id = some parent ∧ engine.body? ≠ some parent := by
  simp only [host?, Option.filter_eq_some_iff, bne_iff_ne, ne_eq]
  rw [eq_comm (a := some parent)]

theorem host?_eq_none_iff {id : NodeId} :
    engine.host? id = none ↔
      engine.document.parent? id = none ∨
        ∃ body, engine.body? = some body ∧ engine.document.parent? id = some body := by
  cases step : engine.document.parent? id with
  | none => simp [host?, step]
  | some parent =>
    by_cases body : engine.body? = some parent
    · simp [host?, step, body]
    · simp [host?, step, Ne.symm body, body]

theorem isShellNode_html {shell : Shell} (known : engine.shell = some shell) :
    engine.IsShellNode shell.html :=
  ⟨shell, known, Or.inl rfl⟩

theorem isShellNode_head {shell : Shell} (known : engine.shell = some shell) :
    engine.IsShellNode shell.head :=
  ⟨shell, known, Or.inr (Or.inr (Or.inl (Document.below_refl _)))⟩

theorem isShellNode_script {shell : Shell} (known : engine.shell = some shell) {script : NodeId}
    (scriptKnown : shell.script = some script) : engine.IsShellNode script :=
  ⟨shell, known, Or.inr (Or.inr (Or.inr ⟨script, scriptKnown, Document.below_refl _⟩))⟩

theorem isShellNode_body {body : NodeId} (known : engine.body? = some body) :
    engine.IsShellNode body := by
  rw [body?, Option.map_eq_some_iff] at known
  obtain ⟨shell, found, rfl⟩ := known
  exact ⟨shell, found, Or.inr (Or.inl rfl)⟩

namespace Sound

theorem contains_of_isShellNode (sound : engine.Sound) {id : NodeId}
    (owned : engine.IsShellNode id) : engine.document.contains id = true := by
  obtain ⟨shell, known, member⟩ := owned
  exact (sound.shell shell known).contains_of_owns member

theorem isShellNode_parent (sound : engine.Sound) {id parent : NodeId}
    (owned : engine.IsShellNode id) (step : engine.document.parent? id = some parent) :
    engine.IsShellNode parent := by
  obtain ⟨shell, known, member⟩ := owned
  exact ⟨shell, known, (sound.shell shell known).owns_parent sound.document.forest member step⟩

theorem not_isShellNode_parent (sound : engine.Sound) {id parent : NodeId}
    (apart : ¬ engine.IsShellNode id) (step : engine.document.parent? id = some parent) :
    ¬ engine.IsShellNode parent ∨ engine.body? = some parent := by
  cases known : engine.shell with
  | none =>
    left
    rintro ⟨shell, other, _⟩
    rw [known] at other
    cases other
  | some shell =>
    have free : ¬ shell.Owns engine.document id := fun member => apart ⟨shell, known, member⟩
    have stands := sound.shell shell known
    rcases stands.not_owns_parent sound.document.forest free step with outside | rfl
    · left
      rintro ⟨other, otherKnown, member⟩
      rw [known, Option.some.injEq] at otherKnown
      rw [← otherKnown] at member
      exact outside member
    · exact Or.inr (body?_of_shell known)

/-- Children of user nodes are user nodes. -/
theorem isUserNode_child (sound : engine.Sound) {id child : NodeId} (user : engine.IsUserNode id)
    (listed : child ∈ engine.document.children id) : engine.IsUserNode child := by
  have step := sound.document.forest.linked.mp listed
  refine ⟨Document.lt_size_of_contains (Document.contains_of_parent? step), ?_⟩
  intro owned
  exact user.2 (sound.isShellNode_parent owned step)

/-- The host of a user node is a user node. -/
theorem isUserNode_host (sound : engine.Sound) {id host : NodeId} (user : engine.IsUserNode id)
    (above : engine.host? id = some host) : engine.IsUserNode host := by
  obtain ⟨step, notBody⟩ := host?_eq_some_iff.mp above
  have live := sound.document.forest.contains_parent step
  refine ⟨Document.lt_size_of_contains live, ?_⟩
  exact (sound.not_isShellNode_parent user.2 step).resolve_right notBody

/-- Between user nodes, what is above a node is found along its hosts. -/
theorem below_user_iff (sound : engine.Sound) {id top : NodeId} (userTop : engine.IsUserNode top) :
    engine.document.Below id top ↔
      id = top ∨ ∃ host, engine.host? id = some host ∧ engine.document.Below host top := by
  rw [Document.below_iff_eq_or_parent]
  apply or_congr_right
  apply exists_congr
  intro parent
  apply and_congr_left
  intro lower
  rw [host?_eq_some_iff]
  constructor
  · intro step
    refine ⟨step, fun body => userTop.2 ?_⟩
    -- Everything above the body belongs to the page.
    have owned := isShellNode_body body
    clear step body userTop
    induction lower with
    | refl => exact owned
    | tail _ step ih => exact sound.isShellNode_parent ih step
  · exact And.left

end Sound

end Engine

end PageCompiler
