import PageCompiler.Proofs.Engine.LockstepRenders

/-!
# Identifiers of elements

An element has an identifier because it was generated for it, or because a caller has written it: at an
element that is held, or at a tag that a render is asked to put into the head. A generated identifier is
new among those that were generated before. It is not compared with what callers write, so that an element
which was given just this identifier comes to share it with the one it is generated for.
-/

namespace PageCompiler

open Markup Steps

/-- The identifier that a change of an element writes on behalf of a caller. -/
def Change.identifier? : Change → Option Text
  | .setId id => some id
  | .setAttribute name value => if Text.lowered name = "id".toList then some value else none
  | _ => none

/-- Whether the tags that the settings of a head ask for have an identifier. -/
def HeadConfig.Names (head : HeadConfig) (id : Text) : Prop :=
  ∃ attributes ∈ head.metaTags, ∃ pair ∈ attributes, Text.lowered pair.1 = "id".toList ∧ pair.2 = id

/-- Whether a caller asks with a command for an identifier to be written at a node. -/
def Command.Writes (held : Held) (engine : Engine) (node : NodeId) (id : Text) : Command → Prop
  | .change place what => ∃ element, held.elements[place]? = some element ∧
    engine.owns element = true ∧ element.node = node ∧ what.identifier? = some id
  | .tryRender _ head => head.Names id
  | .render _ head => head.Names id
  | _ => False

/-- What a hook registers, it registers for an element. -/
theorem Change.isSome_element?_of_registered {hook : Change} (hooks : hook.NeedsIdentifier) {engine : Engine}
    {element : Element} {what : Registration} (registers : what ∈ hook.registered engine element) :
    what.element?.isSome := by
  have forElement {id : Text} (registered : hook.registration? id = some what) : what.element?.isSome := by
    cases hook <;> cases registered <;> rfl
  rw [Action.registered_hook hooks] at registers
  split at registers
  · exact forElement (Option.mem_toList.mp registers)
  · cases registers

/-- The engine after a command. -/
def Turn.after (turn : Turn) : Engine :=
  (turn.command.perform turn.held turn.engine).2.2

/-- Whether a caller gives an identifier to a node with a command. -/
def Turn.Gives (turn : Turn) (node : NodeId) (id : Text) : Prop :=
  turn.command.Writes turn.held turn.engine node id ∧
    turn.after.document.attribute? node "id".toList = some id

/-- Whether every element whose identifier was not generated has one that is claimed for it. -/
structure Engine.Named (claimed : NodeId → Text → Prop) (engine : Engine) : Prop where
  formed : engine.ids.Formed
  names : ∀ node id, engine.document.attribute? node "id".toList = some id →
    claimed node id ∨ engine.ids.Covers .element id

namespace Engine

variable {claimed : NodeId → Text → Prop} {engine after : Engine} {users : NodeId → Prop}
  {held heldAfter : Held} {element : Element} {answer : Answer}

/-! ## Hooks -/

/-- A hook leaves its engine as it was, or with an identifier for its element. -/
theorem leaves_hook {hook : Change} (hooks : hook.NeedsIdentifier)
    (live : (engine.document.element? element.node).isSome) :
    Action.leaves (hook.action element) engine = engine ∨
      ∃ buffers, Action.leaves (hook.action element) engine =
        { engine.identified element.node with buffers } := by
  cases hook with
  | bindText key transform =>
    rw [Change.action, Action.leaves]
    rcases Action.valid_or_refused transform with valid | ⟨handler, cause, rfl, checked⟩
    · rw [Action.bindText_run live valid]
      exact Or.inr ⟨_, rfl⟩
    · rw [Action.bindText_run_invalid checked]
      exact Or.inl rfl
  | registerReference name =>
    rw [Change.action, Action.leaves, Action.registerReference_run live]
    exact Or.inr ⟨_, rfl⟩
  | on event handler =>
    rw [Change.action, Action.leaves]
    cases checked : handler.validate with
    | error cause =>
      rw [Action.on_run_invalid checked]
      exact Or.inl rfl
    | ok _ =>
      rw [Action.on_run live checked]
      by_cases named : Behavior.isEventName event = true
      · rw [if_pos named]
        exact Or.inr ⟨_, rfl⟩
      · rw [if_neg named]
        exact Or.inr ⟨_, rfl⟩
  | _ => exact hooks.elim

/-- A generated identifier counts as one from then on. -/
theorem Named.identified (named : engine.Named claimed)
    (live : (engine.document.element? element.node).isSome) :
    (engine.identified element.node).Named claimed := by
  obtain ⟨data, found⟩ := Option.isSome_iff_exists.mp live
  rw [Engine.identified]
  split
  · constructor
    · rw [ids_withHook]
      exact named.formed
    · rw [document_withHook, ids_withHook]
      exact named.names
  · have issues := named.formed.issues .element
    constructor
    · rw [ids_withHook]
      exact issues.formed
    · intro node id has
      rw [document_withHook, attribute?_withNewId found] at has
      rw [ids_withHook]
      split at has
      · cases has
        exact Or.inr issues.covered
      · exact (named.names node id has).imp_right (issues.keeps .element id)

theorem Named.hook (named : engine.Named claimed) {hook : Change} (hooks : hook.NeedsIdentifier)
    (live : (engine.document.element? element.node).isSome) :
    (Action.leaves (hook.action element) engine).Named claimed := by
  rcases leaves_hook hooks live with same | ⟨buffers, same⟩
  · rw [same]
    exact named
  · rw [same]
    exact ⟨(named.identified live).formed, (named.identified live).names⟩

/-! ## Commands -/

/-- What elements may be named by a command: as they were, as the command asks, or by generation. -/
def nameLeeway (engine : Engine) (claimed : NodeId → Text → Prop) (held : Held) (command : Command) :
    Leeway where
  texts _ := False
  names node id := (claimed node id ∨ command.Writes held engine node id) ∨ engine.ids.Covers .element id

theorem Named.beside (named : engine.Named claimed) (forest : engine.document.Forest) (held : Held)
    (command : Command) :
    engine.Beside (engine.nameLeeway claimed held command).Beside engine.origin engine := by
  refine beside_self ⟨forest, forest, rfl, fun _ => rfl, fun _ => rfl, fun _ => Or.inl rfl, ?_⟩
  exact fun node id has => (named.names node id has).imp_left Or.inl

/-- Generated identifiers stay generated ones. -/
theorem Named.of_beside (named : engine.Named claimed) {command : Command}
    (beside : after.Beside (engine.nameLeeway claimed held command).Beside engine.origin after) :
    after.Named fun node id => claimed node id ∨ command.Writes held engine node id := by
  obtain ⟨formed, keeps⟩ := named.formed.reaches beside.issued
  exact ⟨formed, fun node id has => (beside.document.names node id has).imp_right (keeps .element id)⟩

/-- A command writes no identifiers but those that a caller asks for and generated ones. -/
theorem Named.command (named : engine.Named claimed) (guards : engine.Guards users)
    (known : ∀ element ∈ held.elements, engine.owns element = true → users element.node)
    {command : Command} (run : command.perform held engine = (answer, heldAfter, after)) :
    after.Named fun node id => claimed node id ∨ command.Writes held engine node id := by
  have beside := named.beside guards.fits.sound.forest held command
  by_cases isRender : command.IsRender
  · have left := leaves_of_perform run
    have permitted {head : HeadConfig} (asked : ∀ node id, head.Names id →
        (engine.nameLeeway claimed held command).names node id) :
        head.Permitted (engine.nameLeeway claimed held command).names :=
      fun attributes member pair there own node => asked node _ ⟨attributes, member, pair, there, own, rfl⟩
    cases command with
    | tryRender mount head =>
      rw [Command.action, Action.leaves_of] at left
      exact named.of_beside (left ▸ beside.tryRender rfl (permitted fun _ _ asks => Or.inl (Or.inr asks)))
    | render mount head =>
      rw [Command.action, Action.leaves_of] at left
      exact named.of_beside (left ▸ beside.render rfl (permitted fun _ _ asks => Or.inl (Or.inr asks)))
    | _ => exact isRender.elim
  · have performed (permitted : command.Permitted (engine.nameLeeway claimed held command) held engine) :
        after.Named fun node id => claimed node id ∨ command.Writes held engine node id := by
      have ends := (beside.perform permitted isRender).2
      rw [run] at ends
      exact named.of_beside ends
    have hooked {place : Nat} (hook : Change) (hooks : hook.NeedsIdentifier)
        (same : command = .change place hook) :
        after.Named fun node id => claimed node id ∨ command.Writes held engine node id := by
      subst same
      by_cases found : ∃ element, held.elements[place]? = some element ∧ engine.owns element = true
      · obtain ⟨element, there, own⟩ := found
        have live := guards.live (known element (List.mem_of_getElem? there) own)
        have left := leaves_of_perform run
        rw [Command.action, Action.leaves, Held.use_run there own, ← Action.leaves, Action.leaves_of] at left
        have ends := named.hook hooks live
        rw [← left] at ends
        exact ⟨ends.formed, fun node id has => (ends.names node id has).imp_left Or.inl⟩
      · refine performed ?_
        intro element there own
        exact absurd ⟨element, there, own⟩ found
    cases command with
    | change place what =>
      cases what with
      | setId id => exact performed fun element there own => Or.inl (Or.inr ⟨element, there, own, rfl, rfl⟩)
      | setAttribute name value =>
        refine performed fun element there own named => Or.inl (Or.inr ⟨element, there, own, rfl, ?_⟩)
        rw [Change.identifier?, if_pos named]
      | bindText key transform => exact hooked (.bindText key transform) trivial rfl
      | registerReference name => exact hooked (.registerReference name) trivial rfl
      | on event handler => exact hooked (.on event handler) trivial rfl
      | _ => exact performed fun _ _ _ => trivial
    | _ => exact performed trivial

theorem Named.performed (named : engine.Named claimed) (guards : engine.Guards users)
    (known : ∀ element ∈ held.elements, engine.owns element = true → users element.node)
    {command : Command} (run : command.perform held engine = (answer, heldAfter, after)) :
    after.Named fun node id => claimed node id ∨ Turn.Gives ⟨engine, held, command⟩ node id := by
  obtain ⟨formed, names⟩ := named.command guards known run
  refine ⟨formed, fun node id has => (names node id has).imp_left (Or.imp_right fun writes => ⟨writes, ?_⟩)⟩
  rw [Turn.after, run]
  exact has

/-! ## Runs -/

section New

variable {uid : Nat} {config : EngineConfig} {entropy : UInt64} {turns : List Turn}
  (tour : (Engine.new uid config entropy).Tour turns engine held)

include tour

/-- Identifiers that elements have were generated, or a caller has given them. -/
theorem Tour.named : engine.Named fun node id => ∃ turn ∈ turns, turn.Gives node id := by
  induction tour with
  | opened =>
    refine ⟨Identifier.Allocator.formed_new _ _ _ _, fun node id has => ?_⟩
    rw [Engine.new, Document.attribute?, Document.element?, Document.node?_empty] at has
    cases has
  | received _ _ ih => exact ih
  | noted _ _ ih => exact ih
  | performed tour run ih =>
    obtain ⟨users, guards, known⟩ := tour.guards
    obtain ⟨formed, names⟩ := ih.performed guards known run
    refine ⟨formed, fun node id has => (names node id has).imp_left ?_⟩
    rintro (⟨turn, member, gives⟩ | gives)
    · exact ⟨turn, List.mem_append_left _ member, gives⟩
    · exact ⟨_, List.mem_append_right _ List.mem_cons_self, gives⟩

/-- When a hook has an identifier generated for its element, it registers for this identifier, and every
other element that has it was given it by a caller. -/
theorem Tour.generated_id_unshared (member : element ∈ held.elements) (own : engine.owns element = true)
    {hook : Change} (hooks : hook.NeedsIdentifier) (unnamed : engine.namedId? element.node = none) {id : Text}
    (generated : (Action.leaves (hook.action element) engine).namedId? element.node = some id) :
    (∀ what ∈ hook.registered engine element, what.element? = some id) ∧
      ∀ other, other ≠ element.node →
        (Action.leaves (hook.action element) engine).document.attribute? other "id".toList = some id →
          ∃ turn ∈ turns, turn.Gives other id := by
  obtain ⟨users, guards, known⟩ := tour.guards
  have user := known element member own
  have live := guards.live user
  constructor
  · intro what registers
    have hooking : ⟨element.node, what⟩ ∈ hook.hookings engine element :=
      List.mem_map_of_mem (List.mem_filter.mpr
        ⟨registers, Change.isSome_element?_of_registered hooks registers⟩)
    exact (guards.hookings user hook _ hooking).2.trans generated
  · intro other apart has
    rcases leaves_hook hooks live with same | ⟨buffers, same⟩
    · rw [same, unnamed] at generated
      cases generated
    · obtain ⟨data, found⟩ := Option.isSome_iff_exists.mp live
      rw [same] at generated has
      have fresh : engine.ids.element.1 = id := by
        have given := (namedId?_identified live).symm.trans generated
        rwa [idFor, unnamed, Option.getD_none, Option.some.injEq] at given
      have before : engine.document.attribute? other "id".toList = some id := by
        rw [Engine.identified, unnamed] at has
        dsimp only at has
        rw [document_withHook, attribute?_withNewId found, if_neg apart] at has
        exact has
      refine (tour.named.names other id before).resolve_right fun covered => ?_
      rw [← fresh] at covered
      exact (tour.named.formed.issues .element).fresh covered

end New

/-- A listener for the second of two paragraphs, the first of which a caller has named. -/
theorem generated_id_unshared_paragraphs : ∃ turns engine held element id,
    (Engine.new 0 {} 7).Tour turns engine held ∧ element ∈ held.elements ∧
      (Action.leaves (Action.on element "click".toList (.body "f()".toList)) engine).namedId? element.node =
        some id ∧
      ∀ other, other ≠ element.node →
        (Action.leaves (Action.on element "click".toList (.body "f()".toList)) engine).document.attribute? other
          "id".toList ≠ some id := by
  let second : Element := ⟨0, 1, "p".toList⟩
  let hook : Change := .on "click".toList (.body "f()".toList)
  have hooks : hook.NeedsIdentifier := trivial
  obtain ⟨turns, engine, held, tour, commands, member, own, unnamed, generated⟩ :
      ∃ turns engine held, (Engine.new 0 {} 7).Tour turns engine held ∧
        turns.map Turn.command = [.createElement "p".toList, .createElement "p".toList,
          .change 0 (.setId "intro".toList)] ∧
        second ∈ held.elements ∧ engine.owns second = true ∧ engine.namedId? second.node = none ∧
        (Action.leaves (hook.action second) engine).namedId? second.node = some "sc-id-1-1b5j".toList := by
    have start : (Engine.new 0 {} 7).Tour [] (Engine.new 0 {} 7) {} := .opened
    obtain ⟨turns, commands, tour⟩ := start.performsAll [.createElement "p".toList,
      .createElement "p".toList, .change 0 (.setId "intro".toList)]
    exact ⟨_, _, _, tour, commands, by decide +kernel⟩
  obtain ⟨_, unshared⟩ := tour.generated_id_unshared member own hooks unnamed generated
  refine ⟨turns, engine, held, second, _, tour, member, generated, fun other apart has => ?_⟩
  obtain ⟨turn, taken, writes, _⟩ := unshared other apart has
  have given : turn.command ∈ turns.map Turn.command := List.mem_map_of_mem taken
  rw [commands, List.mem_cons, List.mem_cons, List.mem_singleton] at given
  rcases given with same | same | same
  · rw [same] at writes
    exact writes
  · rw [same] at writes
    exact writes
  · rw [same] at writes
    obtain ⟨_, _, _, _, written⟩ := writes
    exact absurd written (by decide)

/-- An identifier is generated that a caller has given to another element, which is still there. -/
theorem generated_id_can_be_shared : ∃ turns engine held element other id,
    (Engine.new 0 {} 7).Tour turns engine held ∧ element ∈ held.elements ∧ other ∈ held.elements ∧
      engine.owns element = true ∧ other.node ≠ element.node ∧ engine.namedId? element.node = none ∧
      (Action.leaves (Action.on element "click".toList (.body "f()".toList)) engine).namedId? element.node =
        some id ∧
      (Action.leaves (Action.on element "click".toList (.body "f()".toList)) engine).document.attribute?
        other.node "id".toList = some id := by
  have start : (Engine.new 0 {} 7).Tour [] (Engine.new 0 {} 7) {} := .opened
  obtain ⟨turns, _, tour⟩ := start.performsAll [.createElement "p".toList, .createElement "p".toList,
    .change 0 (.setId "sc-id-1-1b5j".toList)]
  exact ⟨_, _, _, ⟨0, 1, "p".toList⟩, ⟨0, 0, "p".toList⟩, "sc-id-1-1b5j".toList, tour, by decide +kernel⟩

end Engine

end PageCompiler
