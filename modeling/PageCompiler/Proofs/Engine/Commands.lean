import PageCompiler.Proofs.Engine.Session

/-!
# Commands to alike engines

A command given to engines that are alike is answered in the same way when what is held agrees, and
then what is held afterwards agrees too. So it is with any commands one after another.
-/

namespace PageCompiler

open Markup Steps

/-- Replies with one answer that hand out elements that agree and paired nodes. -/
structure Reply.Agree (uid : Nat) (pairs : NodeId → NodeId → Prop) (reply other : Reply) : Prop where
  answer : reply.answer = other.answer
  element : Option.Rel (Element.Agree uid pairs) reply.element other.element
  node : Option.Rel pairs reply.node other.node

/-- Elements that agree and paired nodes, held in the same places. -/
structure Held.Agree (uid : Nat) (pairs : NodeId → NodeId → Prop) (held other : Held) : Prop where
  elements : List.Forall₂ (Element.Agree uid pairs) held.elements other.elements
  nodes : List.Forall₂ pairs held.nodes other.nodes

theorem rel_getElem? {α β : Type} {related : α → β → Prop} {lefts : List α} {rights : List β}
    (both : List.Forall₂ related lefts rights) (place : Nat) :
    Option.Rel related lefts[place]? rights[place]? := by
  induction both generalizing place with
  | nil => exact .none
  | cons pair _ ih =>
    cases place with
    | zero => exact .some pair
    | succ place =>
      rw [List.getElem?_cons_succ, List.getElem?_cons_succ]
      exact ih place

namespace Held.Agree

variable {uid : Nat} {pairs wider : NodeId → NodeId → Prop} {held other : Held}

theorem widen (agree : held.Agree uid pairs other) (widens : pairs ≤ wider) :
    held.Agree uid wider other where
  elements := agree.elements.imp fun _ _ same => same.widen widens
  nodes := agree.nodes.imp widens

theorem receive (agree : held.Agree uid pairs other) {reply otherReply : Reply}
    (replies : reply.Agree uid pairs otherReply) :
    (held.receive reply).Agree uid pairs (other.receive otherReply) where
  elements := by
    apply List.rel_append agree.elements
    have made := replies.element
    generalize reply.element = element at made
    generalize otherReply.element = otherElement at made
    cases made with
    | some same => exact .cons same .nil
    | none => exact .nil
  nodes := by
    apply List.rel_append agree.nodes
    have made := replies.node
    generalize reply.node = node at made
    generalize otherReply.node = otherNode at made
    cases made with
    | some pair => exact .cons pair .nil
    | none => exact .nil

mutual

theorem items_child (agree : held.Agree uid pairs other) : (piece : Piece) →
    List.Forall₂ (Item.Agree uid pairs) (piece.child held).items (piece.child other).items
  | .element place => by
    have found := rel_getElem? agree.elements place
    rw [Piece.child, Piece.child]
    generalize held.elements[place]? = element at found
    generalize other.elements[place]? = otherElement at found
    cases found with
    | some same => exact .cons (.element same) .nil
    | none => exact .nil
  | .node place => by
    have found := rel_getElem? agree.nodes place
    rw [Piece.child, Piece.child]
    generalize held.nodes[place]? = node at found
    generalize other.nodes[place]? = otherNode at found
    cases found with
    | some pair => exact .cons (.node pair) .nil
    | none => exact .nil
  | .text content => by
    rw [Piece.child, Piece.child, Child.items]
    split
    · exact .nil
    · exact .cons (.text content) .nil
  | .many pieces => items_children agree pieces
  | .nothing => .nil

theorem items_children (agree : held.Agree uid pairs other) : (pieces : List Piece) →
    List.Forall₂ (Item.Agree uid pairs) (Piece.items held pieces) (Piece.items other pieces)
  | [] => .nil
  | piece :: rest => by
    rw [Piece.items, Piece.items, Piece.children, Piece.children, Child.itemsOfAll, Child.itemsOfAll]
    exact List.rel_append (items_child agree piece) (items_children agree rest)

end

end Held.Agree

/-- Roots named by places in lists of elements that agree. -/
theorem rel_mounts {uid : Nat} {pairs : NodeId → NodeId → Prop} {elements others : List Element}
    (both : List.Forall₂ (Element.Agree uid pairs) elements others) (mount : List Nat) :
    List.Forall₂ (Element.Agree uid pairs) (mount.filterMap fun place => elements[place]?)
      (mount.filterMap fun place => others[place]?) := by
  have same : List.Forall₂ Eq mount mount := List.forall₂_same.mpr fun _ _ => rfl
  refine List.rel_filterMap ?_ same
  rintro place _ rfl
  exact rel_getElem? both place

namespace Mirrors

variable {uid : Nat} {pairs : NodeId → NodeId → Prop}

theorem reply {α : Type} {action other : Action α} (mirrors : Mirrors uid pairs Same action other)
    (answer : α → Answer) :
    Mirrors uid pairs (Reply.Agree uid) (Reply.of answer action) (Reply.of answer other) := by
  apply mirrors.bind
  rintro wider widens value otherValue rfl
  exact result fun _ _ => ⟨rfl, .none, .none⟩

/-- Something read off an engine. -/
theorem told {answer otherAnswer : Engine → Answer}
    (same : ∀ wider, pairs ≤ wider → ∀ first second, Alike uid wider first second →
      answer first = otherAnswer second) :
    Mirrors uid pairs (Reply.Agree uid) (do return { answer := answer (← get) })
      (do return { answer := otherAnswer (← get) }) := by
  apply state.bind
  intro wider widens first second alike
  exact result fun _ _ => ⟨same wider widens first second alike, .none, .none⟩

/-- An element that is handed out. -/
theorem handed {action other : Action Element}
    (mirrors : Mirrors uid pairs (Element.Agree uid) action other) :
    Mirrors uid pairs (Reply.Agree uid)
      (do
        let element ← action
        return { answer := .text element.tag, element := some element })
      (do
        let element ← other
        return { answer := .text element.tag, element := some element }) := by
  apply mirrors.bind
  intro wider widens element otherElement agree
  exact result fun _ further =>
    ⟨congrArg Answer.text agree.2.1, .some (agree.widen further), .none⟩

theorem use {held other : Held}
    (both : List.Forall₂ (Element.Agree uid pairs) held.elements other.elements) (place : Nat)
    {action otherAction : Element → Action Reply}
    (mirrors : ∀ wider, pairs ≤ wider → ∀ element otherElement : Element,
      held.elements[place]? = some element → wider element.node otherElement.node →
        Mirrors uid wider (Reply.Agree uid) (action element) (otherAction otherElement)) :
    Mirrors uid pairs (Reply.Agree uid) (held.use place action) (other.use place otherAction) := by
  apply state.bind
  intro wider widens first second alike
  have nothing : Mirrors uid wider (Reply.Agree uid) (pure { answer := .elsewhere })
      (pure { answer := .elsewhere }) := result fun _ _ => ⟨rfl, .none, .none⟩
  have found := rel_getElem? both place
  cases looked : held.elements[place]? with
  | none =>
    cases otherLooked : other.elements[place]? with
    | none => exact nothing
    | some _ =>
      rw [looked, otherLooked] at found
      cases found
  | some element =>
    cases otherLooked : other.elements[place]? with
    | none =>
      rw [looked, otherLooked] at found
      cases found
    | some otherElement =>
      rw [looked, otherLooked] at found
      cases found with
      | some agree =>
        have sameOwner : first.owns element = second.owns otherElement := by
          rw [Engine.owns, Engine.owns, agree.1, alike.uidFirst, alike.uidSecond]
        dsimp only
        rw [sameOwner]
        by_cases own : second.owns otherElement = true
        · rw [if_pos own, if_pos own]
          rw [← sameOwner] at own
          have mine := (of_decide_eq_true own).trans alike.uidFirst
          exact mirrors wider widens element otherElement looked (widens _ _ (agree.2.2 mine))
        · rw [if_neg own, if_neg own]
          exact nothing

theorem change {element other : Element} (pair : pairs element.node other.node) (what : Change) :
    Mirrors uid pairs Same (what.action element) (what.action other) := by
  cases what with
  | setId id => exact setId pair id
  | setText content => exact setText pair content
  | setAttribute name value => exact setAttributeOf pair name value
  | setInlineStyle declarations => exact setInlineStyle pair declarations
  | addClasses classes => exact addClasses pair classes
  | generateScopedClass declarations => exact generateScopedClass pair declarations
  | bindText key transform => exact bindText pair key transform
  | registerReference name => exact registerReference pair name
  | on event handler => exact on pair event handler

/-- A command mirrors itself when the elements that are held agree, and the items it may append. -/
theorem command {held other : Held}
    (both : List.Forall₂ (Element.Agree uid pairs) held.elements other.elements) (command : Command)
    (items : ∀ host pieces, command = .append host pieces →
      List.Forall₂ (Item.Agree uid pairs) (Piece.items held pieces) (Piece.items other pieces)) :
    Mirrors uid pairs (Reply.Agree uid) (command.action held) (command.action other) := by
  cases command with
  | createElement tag => exact handed (createElement tag)
  | createText content =>
    apply (createText content).bind
    intro wider widens node otherNode pair
    exact result fun _ further => ⟨rfl, .none, .some (further _ _ pair)⟩
  | createChild host tag =>
    apply use both host
    intro wider widens element otherElement _ pair
    exact handed (createChild pair tag)
  | change place what =>
    apply use both place
    intro wider widens element otherElement _ pair
    exact reply (change pair what) _
  | append host pieces =>
    apply use both host
    intro wider widens element otherElement _ pair
    have agree := (items host pieces rfl).imp fun _ _ same => Item.Agree.widen widens same
    exact reply (appendChildren pair agree) _
  | node place =>
    apply use both place
    intro wider widens element otherElement _ pair
    exact result fun _ further => ⟨rfl, .none, .some (further _ _ pair)⟩
  | child place index =>
    apply use both place
    intro wider widens element otherElement _ pair
    apply state.bind
    intro widest further first second alike
    have found := rel_getElem? (alike.lists (further _ _ pair)) index
    apply result
    intro last furthest
    refine ⟨rfl, .none, ?_⟩
    dsimp only
    generalize (first.document.children element.node)[index]? = node at found
    generalize (second.document.children otherElement.node)[index]? = otherNode at found
    cases found with
    | some nodePair => exact .some (furthest _ _ nodePair)
    | none => exact .none
  | markup place =>
    apply use both place
    intro wider widens element otherElement _ pair
    apply told
    intro widest further first second alike
    exact congrArg Answer.text (alike.markup (further _ _ pair))
  | attributeOf place name =>
    apply use both place
    intro wider widens element otherElement _ pair
    apply told
    intro widest further first second alike
    rw [Engine.attribute?, Engine.attribute?, alike.element? (further _ _ pair)]
  | text place =>
    apply use both place
    intro wider widens element otherElement _ pair
    apply told
    intro widest further first second alike
    rw [Engine.text, Engine.text, Document.textContent, Document.textContent,
      alike.tree? (further _ _ pair)]
  | hasClass place name =>
    apply use both place
    intro wider widens element otherElement _ pair
    apply told
    intro widest further first second alike
    rw [Engine.hasClass, Engine.hasClass, alike.element? (further _ _ pair)]
  | tryDefineStyle name declarations raw => exact reply (tryDefineStyle name declarations raw) _
  | defineStyle name declarations raw => exact reply (defineStyle name declarations raw) _
  | setState key value => exact reply (setState key value) _
  | onLoad handler => exact reply (onLoad handler) _
  | stateValue key =>
    apply told
    intro wider widens first second alike
    rw [Engine.stateValue?, Engine.stateValue?, alike.buffers]
  | reference name =>
    apply told
    intro wider widens first second alike
    rw [Engine.reference?, Engine.reference?, alike.buffers]
  | pending =>
    apply told
    intro wider widens first second alike
    rw [Engine.pending, Engine.pending, alike.buffers]
  | phase =>
    apply told
    intro wider widens first second alike
    rw [alike.phase]
  | tryRender mount head => exact reply (tryRender (rel_mounts both mount) head) _
  | render mount head => exact reply (render (rel_mounts both mount) head) _
  | output => exact reply output _
  | trySave files here path => exact reply (trySave files here path) _
  | save files here path => exact reply (save files here path) _

end Mirrors

/-! ## Answers -/

namespace Alike

variable {uid : Nat} {pairs : NodeId → NodeId → Prop} {first second : Engine} {held other : Held}

/-- One command is answered in the same way and leads from what is alike to what is alike. -/
theorem perform (alike : Alike uid pairs first second) (agree : held.Agree uid pairs other)
    (command : Command) :
    ∃ answer heldAfter otherAfter after secondAfter wider,
      command.perform held first = (answer, heldAfter, after) ∧
        command.perform other second = (answer, otherAfter, secondAfter) ∧
          Alike uid wider after secondAfter ∧ heldAfter.Agree uid wider otherAfter := by
  have ends := Mirrors.command agree.elements command (fun _ pieces _ => agree.items_children pieces)
    pairs (le_refl _) first second alike
  rw [Command.perform, Command.perform]
  generalize command.action held first = run at ends
  generalize command.action other second = otherRun at ends
  cases run with
  | ok reply after =>
    cases otherRun with
    | ok otherReply otherAfter =>
      obtain ⟨wider, widens, alikeAfter, replies⟩ := ends
      refine ⟨reply.answer, _, _, after, otherAfter, wider, rfl, ?_, alikeAfter,
        (agree.widen widens).receive replies⟩
      rw [replies.answer]
    | error _ _ => exact ends.elim
  | error cause after =>
    cases otherRun with
    | ok _ _ => exact ends.elim
    | error otherCause otherAfter =>
      obtain ⟨wider, widens, alikeAfter⟩ := ends
      exact ⟨.failed, held, other, after, otherAfter, wider, rfl, rfl, alikeAfter, agree.widen widens⟩

/-- Engines that are alike give the same answers for ever. -/
theorem answers_eq (alike : Alike uid pairs first second) (agree : held.Agree uid pairs other)
    (commands : List Command) :
    Command.answers commands held first = Command.answers commands other second := by
  induction commands generalizing pairs first second held other with
  | nil => rfl
  | cons command rest ih =>
    obtain ⟨answer, heldAfter, otherAfter, after, secondAfter, wider, run, otherRun, alikeAfter,
      agreeAfter⟩ := alike.perform agree command
    rw [Command.answers, Command.answers, run, otherRun]
    exact congrArg (List.cons answer) (ih alikeAfter agreeAfter)

end Alike

end PageCompiler
