import PageCompiler.Proofs.Engine.Commands

/-!
# What holds in every session

Every command leaves a sound engine, and the elements that are handed out are nodes of users. For most
commands both follow from an engine being like itself. Raw numbers of nodes may be anything; those
that do not belong to users are refused.
-/

namespace PageCompiler

open Markup Steps

/-- What an engine comes to without losing a node of a user. -/
structure Engine.Continues (engine after : Engine) : Prop where
  sound : after.Sound
  uid : after.uid = engine.uid
  users : ∀ {id}, engine.IsUserNode id → after.IsUserNode id

/-- A sound engine whose elements that are held are nodes of users. -/
structure Engine.Fits (engine : Engine) (held : Held) : Prop where
  sound : engine.Sound
  users : ∀ element ∈ held.elements, engine.owns element = true → engine.IsUserNode element.node

namespace Engine

variable {engine after last : Engine}

theorem Sound.continues_self (sound : engine.Sound) : engine.Continues engine where
  sound := sound
  uid := rfl
  users user := user

theorem Continues.trans (first : engine.Continues after) (second : after.Continues last) :
    engine.Continues last where
  sound := second.sound
  uid := second.uid.trans first.uid
  users user := second.users (first.users user)

/-- Engines that are alike with more pairs than the user nodes of one of them. -/
theorem continues_of_alike {wider : NodeId → NodeId → Prop} (widens : engine.selfPairs ≤ wider)
    (alike : Alike engine.uid wider after after) : engine.Continues after where
  sound := alike.soundFirst
  uid := alike.uidFirst
  users user := (alike.users (widens _ _ ⟨rfl, user⟩)).1

/-- An action that mirrors itself continues the engine, whether it succeeds or fails. -/
theorem Sound.continues_of_mirrors {α : Type} {agree : (NodeId → NodeId → Prop) → α → α → Prop}
    {action : Action α} (sound : engine.Sound)
    (mirrors : Mirrors engine.uid engine.selfPairs agree action action) :
    (∀ {value after}, action engine = .ok value after → ∃ wider, engine.selfPairs ≤ wider ∧
        Alike engine.uid wider after after ∧ agree wider value value) ∧
      ∀ {cause after}, action engine = .error cause after → engine.Continues after := by
  have ends := mirrors engine.selfPairs (le_refl _) engine engine sound.alike_self
  constructor
  · intro value after run
    rw [run] at ends
    exact ends
  · intro cause after run
    rw [run] at ends
    obtain ⟨wider, widens, alike⟩ := ends
    exact continues_of_alike widens alike

theorem isUserNode_of_agree {wider : NodeId → NodeId → Prop} {element : Element}
    (alike : Alike engine.uid wider after after) (agree : element.Agree engine.uid wider element)
    (own : after.owns element = true) : after.IsUserNode element.node :=
  (alike.users (agree.2.2 ((of_decide_eq_true own).trans alike.uidFirst))).1

end Engine

namespace Engine.Fits

variable {engine : Engine} {held : Held}

theorem agree (fits : engine.Fits held) {element : Element} (member : element ∈ held.elements) :
    element.Agree engine.uid engine.selfPairs element :=
  ⟨rfl, rfl, fun own => ⟨rfl, fits.users element member (decide_eq_true own)⟩⟩

theorem of_continues {after : Engine} (fits : engine.Fits held) (continues : engine.Continues after) :
    after.Fits held where
  sound := continues.sound
  users element member own := by
    rw [Engine.owns, continues.uid] at own
    exact continues.users (fits.users element member own)

/-- Every command but one that appends leaves an engine that fits what is held. -/
theorem perform_of_items (fits : engine.Fits held) (command : Command)
    (items : ∀ host pieces, command = .append host pieces →
      List.Forall₂ (Item.Agree engine.uid engine.selfPairs) (Piece.items held pieces)
        (Piece.items held pieces))
    {answer : Answer} {heldAfter : Held} {after : Engine}
    (run : command.perform held engine = (answer, heldAfter, after)) : after.Fits heldAfter := by
  have both : List.Forall₂ (Element.Agree engine.uid engine.selfPairs) held.elements held.elements :=
    List.forall₂_same.mpr fun _ member => fits.agree member
  obtain ⟨onSuccess, onFailure⟩ :=
    fits.sound.continues_of_mirrors (Mirrors.command both command items)
  rw [Command.perform] at run
  cases ran : command.action held engine with
  | ok reply last =>
    rw [ran] at run
    cases run
    obtain ⟨wider, widens, alike, agree⟩ := onSuccess ran
    have old := fits.of_continues (Engine.continues_of_alike widens alike)
    refine ⟨alike.soundFirst, fun element member own => ?_⟩
    rcases List.mem_append.mp member with known | made
    · exact old.users element known own
    · have found := Option.mem_toList.mp made
      have same := agree.element
      rw [found] at same
      cases same with
      | some same => exact Engine.isUserNode_of_agree alike same own
  | error cause last =>
    rw [ran] at run
    cases run
    exact fits.of_continues (onFailure ran)

end Engine.Fits

/-! ## Appending -/

namespace Action

variable {engine : Engine} {host : Element} {item : Item} {rest : List Item}

theorem attach_node_run {id : NodeId} {cause : DomError}
    (problem : Edit.appendProblem engine.document host.node id = some cause) :
    attach host (.node id) engine = .ok (some (.document cause)) engine := by
  rw [attach, bind_of_ok (attempt_of_error (Edit.appendChild_run_problem problem))]
  rfl

theorem attach_node_run_accepted {id : NodeId} (forest : engine.document.Forest)
    (possible : Edit.appendProblem engine.document host.node id = none) :
    attach host (.node id) engine =
      .ok none { engine with document := engine.document.moved host.node id } := by
  rw [attach, bind_of_ok (attempt_of_ok (Edit.appendChild_run forest possible))]
  rfl

/-- A text can be appended to whatever takes children. -/
theorem attach_text_run (forest : engine.document.Forest) (possible : engine.document.MayHost host.node)
    (content : Text) : attach host (.text content) engine =
      .ok none { engine with document := engine.document.grafted host.node (.text content) } := by
  have problem := Edit.appendProblem_pushed forest possible (.text content)
  rw [attach, bind_of_ok (createText_run content engine),
    bind_of_ok (attempt_of_ok (Edit.appendChild_run (forest.pushed _) problem))]
  rfl

/-- Whatever else takes no text, and a text that is not taken is removed again. -/
theorem attach_text_run_refused (forest : engine.document.Forest)
    (closed : ¬ engine.document.MayHost host.node) (content : Text) :
    ∃ cause, attach host (.text content) engine = .ok (some (.document cause))
      { engine with document :=
          (engine.document.push { kind := .text content }).free [engine.document.slots.size] } := by
  cases problem : Edit.appendProblem (engine.document.push { kind := .text content }) host.node
      engine.document.slots.size with
  | none => exact absurd ((Edit.appendProblem_pushed_iff forest _).mp problem) closed
  | some cause =>
    refine ⟨cause, ?_⟩
    rw [attach, bind_of_ok (createText_run content engine),
      bind_of_ok (attempt_of_error (Edit.appendChild_run_problem problem))]
    dsimp only
    rw [bind_of_ok (attempt_of_ok (Edit.removePushed_run forest _))]
    rfl

theorem attach_element_run {element : Element} (own : engine.owns element = true) :
    attach host (.element element) engine = attach host (.node element.node) engine := by
  rw [attach, bind_of_ok (get_run engine), if_pos own]
  rfl

theorem attach_element_run_foreign {element : Element} (foreign : ¬ engine.owns element = true) :
    attach host (.element element) engine = .ok (some (.foreign element.tag)) engine := by
  rw [attach, bind_of_ok (get_run engine), if_neg foreign]
  rfl

theorem appendItem_run_accepted {after : Engine} (accepted : attach host item engine = .ok none after) :
    appendItem host item engine = .ok ⟨⟩ after := by
  rw [appendItem, bind_of_ok accepted]
  rfl

section Refused

variable {cause : ChildError} {after : Engine} (refused : attach host item engine = .ok (some cause) after)

include refused

theorem appendItem_run_strict (strict : after.config.append = .strict) :
    appendItem host item engine = .error (.invalidChild host.tag cause) after := by
  rw [appendItem, bind_of_ok refused]
  dsimp only
  rw [bind_of_ok (get_run _), strict]
  rfl

theorem appendItem_run_lenient (lenient : after.config.append = .lenient) :
    appendItem host item engine = .ok ⟨⟩ (after.report (.childSkipped host.tag cause)) := by
  rw [appendItem, bind_of_ok refused]
  dsimp only
  rw [bind_of_ok (get_run _), lenient]
  rfl

/-- An item that is refused fails or is reported. -/
theorem appendItem_run_refused :
    (∃ error, appendItem host item engine = .error error after) ∨
      ∃ event, appendItem host item engine = .ok ⟨⟩ (after.report event) := by
  cases policy : after.config.append with
  | strict => exact Or.inl ⟨_, appendItem_run_strict refused policy⟩
  | lenient => exact Or.inr ⟨_, appendItem_run_lenient refused policy⟩

end Refused

/-- The engine an action leaves, whether it succeeds or fails. -/
def leaves {α : Type} (action : Action α) (engine : Engine) : Engine :=
  match action engine with
  | .ok _ after => after
  | .error _ after => after

theorem leaves_of_ok {α : Type} {action : Action α} {value : α} {after : Engine}
    (run : action engine = .ok value after) : leaves action engine = after := by
  rw [leaves, run]

/-- Whether an item names nodes of users only, or raw ones that are refused. -/
structure Admits (engine : Engine) (host : Element) (item : Item) : Prop where
  elements : ∀ element, item = .element element → engine.owns element = true →
    engine.IsUserNode element.node
  nodes : ∀ id, item = .node id → engine.IsShellNode id →
    ∃ cause, Edit.appendProblem engine.document host.node id = some cause

theorem appendItem_continues (sound : engine.Sound) (user : engine.IsUserNode host.node)
    (admits : Admits engine host item) : engine.Continues (leaves (appendItem host item) engine) := by
  have hostPair : engine.selfPairs host.node host.node := ⟨rfl, user⟩
  have mirrored (agree : Item.Agree engine.uid engine.selfPairs item item) :
      engine.Continues (leaves (appendItem host item) engine) := by
    obtain ⟨onSuccess, onFailure⟩ :=
      sound.continues_of_mirrors (Mirrors.appendItem hostPair agree)
    rw [leaves]
    cases run : appendItem host item engine with
    | ok value after =>
      obtain ⟨wider, widens, alike, _⟩ := onSuccess run
      exact Engine.continues_of_alike widens alike
    | error cause after => exact onFailure run
  cases item with
  | element element =>
    refine mirrored (.element ⟨rfl, rfl, fun own => ⟨rfl, ?_⟩⟩)
    exact admits.elements element rfl (decide_eq_true own)
  | text content => exact mirrored (.text content)
  | node id =>
    by_cases userNode : engine.IsUserNode id
    · exact mirrored (.node ⟨rfl, userNode⟩)
    · have problem : ∃ cause, Edit.appendProblem engine.document host.node id = some cause := by
        by_cases owned : engine.IsShellNode id
        · exact admits.nodes id rfl owned
        · rw [← Option.ne_none_iff_exists']
          intro possible
          obtain ⟨_, live, _⟩ := (Edit.appendProblem_eq_none_iff sound.document.forest).mp possible
          exact userNode ⟨Document.lt_size_of_contains live, owned⟩
      obtain ⟨cause, problem⟩ := problem
      rcases appendItem_run_refused (attach_node_run problem) with ⟨error, run⟩ | ⟨event, run⟩
      · rw [leaves, run]
        exact sound.continues_self
      · rw [leaves, run]
        exact ⟨{ sound with }, rfl, fun user => user⟩

/-- Appending continues an engine as long as no node of the page is put below an element. -/
theorem appendItems_continues (sound : engine.Sound) (user : engine.IsUserNode host.node)
    {items : List Item}
    (users : ∀ element, .element element ∈ items → engine.owns element = true →
      engine.IsUserNode element.node)
    (apart : ¬ AttachesPage host items engine) :
    engine.Continues (leaves (items.forM (appendItem host)) engine) := by
  induction items generalizing engine with
  | nil => exact sound.continues_self
  | cons item rest ih =>
    have admits : Admits engine host item := by
      constructor
      · rintro element rfl own
        exact users element List.mem_cons_self own
      · rintro id rfl owned
        rw [← Option.ne_none_iff_exists']
        intro possible
        exact apart ⟨[], id, rest, engine, rfl, rfl, owned, possible⟩
    have continues := appendItem_continues sound user admits
    rw [leaves] at continues ⊢
    cases run : appendItem host item engine with
    | error cause after =>
      rw [run] at continues
      rw [forM_cons_of_error item rest run]
      exact continues
    | ok value after =>
      rw [run] at continues
      rw [forM_cons_of_ok item rest run]
      have further := @ih after continues.sound (continues.users user) ?_ ?_
      · rw [leaves] at further
        exact continues.trans further
      · intro element member own
        rw [Engine.owns, continues.uid] at own
        exact continues.users (users element (List.mem_cons_of_mem _ member) own)
      · rintro ⟨before, id, later, last, rfl, ran, owned, possible⟩
        refine apart ⟨item :: before, id, later, last, rfl, ?_, owned, possible⟩
        rw [forM_cons_of_ok item before run, ran]

end Action

/-! ## Sessions -/

namespace Piece

variable {held : Held} {element : Element}

mutual

/-- The elements among the items of a piece are held. -/
theorem mem_items_child : (piece : Piece) → .element element ∈ (piece.child held).items →
    element ∈ held.elements
  | .element place, member => by
    rw [child] at member
    cases found : held.elements[place]? with
    | none =>
      rw [found] at member
      cases member
    | some other =>
      rw [found] at member
      rw [Item.element.inj (List.mem_singleton.mp member)]
      exact List.mem_of_getElem? found
  | .node place, member => by
    rw [child] at member
    cases found : held.nodes[place]? with
    | none =>
      rw [found] at member
      cases member
    | some id =>
      rw [found] at member
      cases List.mem_singleton.mp member
  | .text content, member => by
    rw [child, Child.items] at member
    split at member
    · cases member
    · cases List.mem_singleton.mp member
  | .many pieces, member => mem_items pieces member
  | .nothing, member => nomatch member

theorem mem_items : (pieces : List Piece) → .element element ∈ items held pieces →
    element ∈ held.elements
  | [], member => nomatch member
  | piece :: rest, member => by
    rw [items, children, Child.itemsOfAll, List.mem_append] at member
    exact member.elim (mem_items_child piece) (mem_items rest)

end

end Piece

section Use

variable {engine : Engine} {held : Held} {place : Nat} {action : Element → Action Reply}

theorem Held.use_run {element : Element} (found : held.elements[place]? = some element)
    (own : engine.owns element = true) : held.use place action engine = action element engine := by
  rw [Held.use, bind_of_ok (get_run _), found]
  dsimp only
  rw [if_pos own]

theorem Held.use_run_elsewhere
    (missing : ¬ ∃ element, held.elements[place]? = some element ∧ engine.owns element = true) :
    held.use place action engine = .ok { answer := .elsewhere } engine := by
  rw [Held.use, bind_of_ok (get_run _)]
  cases found : held.elements[place]? with
  | none => rfl
  | some element =>
    dsimp only
    rw [if_neg fun own => missing ⟨element, found, own⟩]
    rfl

end Use

namespace Engine

variable {engine after : Engine} {held heldAfter : Held} {answer : Answer}

theorem Fits.of_elements (fits : engine.Fits held) (same : heldAfter.elements = held.elements) :
    engine.Fits heldAfter := by
  refine ⟨fits.sound, ?_⟩
  rw [same]
  exact fits.users

/-- Appending leaves an engine that fits what is held if no node of the page was put below an
element. -/
theorem Fits.perform_append (fits : engine.Fits held) {host : Nat} {pieces : List Piece}
    (apart : ¬ (Command.append host pieces).AttachesPage held engine)
    (run : (Command.append host pieces).perform held engine = (answer, heldAfter, after)) :
    after.Fits heldAfter := by
  rw [Command.perform, Command.action] at run
  by_cases known : ∃ element, held.elements[host]? = some element ∧ engine.owns element = true
  · obtain ⟨element, found, own⟩ := known
    have user := fits.users element (List.mem_of_getElem? found) own
    have continues : engine.Continues (Action.leaves
        ((Piece.items held pieces).forM (Action.appendItem element)) engine) := by
      apply Action.appendItems_continues fits.sound user
      · exact fun other member => fits.users other (Piece.mem_items pieces member)
      · exact fun attached => apart ⟨element, found, own, attached⟩
    rw [Held.use_run found own, Reply.of, Action.appendChildren, bind_run] at run
    rw [Action.leaves] at continues
    rw [Piece.items] at continues
    cases ran : ((Child.itemsOfAll (Piece.children held pieces)).forM (Action.appendItem element))
        engine with
    | ok value last =>
      rw [ran] at run continues
      cases run
      exact (fits.of_continues continues).of_elements (List.append_nil _)
    | error cause last =>
      rw [ran] at run continues
      cases run
      exact fits.of_continues continues
  · rw [Held.use_run_elsewhere known] at run
    cases run
    exact fits.of_elements (List.append_nil _)

theorem Sound.new (uid : Nat) (config : EngineConfig) (entropy : UInt64) :
    (Engine.new uid config entropy).Sound where
  document := Document.Sound.empty
  shell := by simp [Engine.new]
  styles := by simp [Engine.new]
  hooked := by simp [Engine.new]
  settled := by simp [Engine.new]

/-- In every session the engine fits what is held. -/
theorem Reachable.fits (reached : Reachable engine held) : engine.Fits held := by
  induction reached with
  | opened uid config entropy => exact ⟨Sound.new uid config entropy, (by simp)⟩
  | @received engine held element _ foreign ih =>
    refine ⟨ih.sound, fun other member own => ?_⟩
    rcases List.mem_append.mp member with known | new
    · exact ih.users other known own
    · rw [List.mem_singleton.mp new, foreign] at own
      cases own
  | noted _ id ih => exact ih.of_elements rfl
  | @performed engine after held heldAfter command answer _ run apart ih =>
    cases command with
    | append host pieces => exact ih.perform_append apart run
    | _ =>
      apply ih.perform_of_items _ _ run
      intro host pieces same
      cases same

end Engine

end PageCompiler
