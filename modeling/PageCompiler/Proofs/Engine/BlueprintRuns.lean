import PageCompiler.Proofs.Blueprint.Elements

/-!
# Blueprints as runs

A blueprint does nothing to an engine that a caller could not do by commands, one after another. So what
is recorded for elements does not dangle after blueprints either.
-/

namespace PageCompiler

open Markup Steps

/-- Whether an engine can be brought from one state to another by commands that hand out the given
elements of it, among others. -/
def Engine.Comes (start : Engine) (given : Held) (elements : List Element) (engine : Engine) : Prop :=
  ∃ hookings held, start.Leads given hookings engine held ∧
    ∀ element ∈ elements, engine.owns element = true ∧ element ∈ held.elements

theorem Action.preserves_of_leaves {α : Type} {invariant : Engine → Prop} {action : Action α}
    (kept : ∀ engine, invariant engine → invariant (leaves action engine)) :
    Preserves invariant action fun _ => True := by
  intro engine start
  have ends := kept engine start
  rw [leaves] at ends
  cases run : action engine with
  | ok value after =>
    rw [run] at ends
    exact ⟨ends, trivial⟩
  | error cause after =>
    rw [run] at ends
    exact ends

/-- A command leads on: what was held is held still, and an element that it hands out is held too. -/
theorem Engine.Leads.step {start engine : Engine} {given held : Held} {hookings : List Hooking}
    (leads : start.Leads given hookings engine held) (command : Command) :
    ∃ more heldAfter,
      start.Leads given more (Action.leaves (command.action held) engine) heldAfter ∧
      (∀ element ∈ held.elements, element ∈ heldAfter.elements) ∧
      ∀ reply after element, command.action held engine = .ok reply after →
        reply.element = some element → element ∈ heldAfter.elements := by
  have performed := leads.performs command
  have run : command.perform held engine = ((command.perform held engine).1,
      (command.perform held engine).2.1, (command.perform held engine).2.2) := rfl
  rw [leaves_of_perform run] at performed
  refine ⟨_, _, performed, ?_⟩
  rw [Command.perform]
  cases ran : command.action held engine with
  | ok reply after =>
    refine ⟨fun element member => List.mem_append_left _ member, ?_⟩
    intro other last element same made
    cases same
    exact List.mem_append_right _ (Option.mem_toList.mpr made)
  | error cause after =>
    refine ⟨fun element member => member, ?_⟩
    intro reply last element same
    cases same

namespace Engine.Comes

variable {start engine : Engine} {given : Held} {earlier : List Hooking}
  {elements : List Element} {element host : Element}

theorem mono {fewer : List Element} (comes : start.Comes given elements engine)
    (subset : fewer ⊆ elements) : start.Comes given fewer engine := by
  obtain ⟨hookings, held, leads, known⟩ := comes
  exact ⟨hookings, held, leads, fun element member => known element (subset member)⟩

variable (wired : start.Wired given earlier)

include wired

/-- A command that can be given with what is held leads on. -/
theorem step {after : Engine} (comes : start.Comes given elements engine)
    (command : ∀ held : Held, (∀ element ∈ elements, engine.owns element = true ∧
      element ∈ held.elements) → ∃ command : Command, Action.leaves (command.action held) engine = after) :
    start.Comes given elements after := by
  obtain ⟨hookings, held, leads, known⟩ := comes
  obtain ⟨given, same⟩ := command held known
  obtain ⟨more, heldAfter, leadsAfter, still, _⟩ := leads.step given
  rw [same] at leadsAfter
  refine ⟨more, heldAfter, leadsAfter, fun element member => ?_⟩
  obtain ⟨own, there⟩ := known element member
  have uid : after.uid = engine.uid :=
    (leadsAfter.wired wired).2.uid.trans (leads.wired wired).2.uid.symm
  rw [Engine.owns, uid]
  exact ⟨own, still element there⟩

theorem answered {α : Type} {action : Action α} (command : Command) (answer : α → Answer)
    (same : ∀ held, command.action held = Reply.of answer action) :
    Preserves (start.Comes given elements) action fun _ => True := by
  refine Action.preserves_of_leaves fun engine comes => step wired comes fun held _ => ?_
  exact ⟨command, by rw [same, Action.leaves_of]⟩

/-- Anything may be done with an element that is held. -/
theorem change (member : element ∈ elements) (what : Change) :
    Preserves (start.Comes given elements) (what.action element) fun _ => True := by
  refine Action.preserves_of_leaves fun engine comes => step wired comes fun held known => ?_
  obtain ⟨own, there⟩ := known element member
  obtain ⟨place, found⟩ := List.mem_iff_getElem?.mp there
  refine ⟨.change place what, ?_⟩
  rw [Action.leaves, Command.action, Held.use_run found own, ← Action.leaves, Action.leaves_of]

theorem append (member : host ∈ elements) {child : Child}
    (piece : ∀ held : Held, (∀ element ∈ elements, element ∈ held.elements) →
      ∃ piece : Piece, piece.child held = child) :
    Preserves (start.Comes given elements) (Action.append host child) fun _ => True := by
  refine Action.preserves_of_leaves fun engine comes => step wired comes fun held known => ?_
  obtain ⟨own, there⟩ := known host member
  obtain ⟨place, found⟩ := List.mem_iff_getElem?.mp there
  obtain ⟨piece, same⟩ := piece held fun element member => (known element member).2
  refine ⟨.append place [piece], ?_⟩
  rw [Action.leaves, Command.action, Held.use_run found own, ← Action.leaves, Action.leaves_of,
    Piece.children, Piece.children, same]
  rfl

theorem appendText (member : host ∈ elements) (content : Text) :
    Preserves (start.Comes given elements) (Action.append host (.text content)) fun _ => True :=
  append wired member fun _ _ => ⟨.text content, rfl⟩

theorem appendElement (member : host ∈ elements) (childMember : element ∈ elements) :
    Preserves (start.Comes given elements) (Action.append host (.element element)) fun _ => True := by
  refine append wired member fun held known => ?_
  obtain ⟨place, found⟩ := List.mem_iff_getElem?.mp (known element childMember)
  refine ⟨.element place, ?_⟩
  rw [Piece.child, found]
  rfl

theorem createElement (tag : Text) :
    Meets (start.Comes given elements) (Action.createElement tag)
      (fun element => start.Comes given (element :: elements)) (start.Comes given elements) := by
  rintro engine ⟨hookings, held, leads, known⟩
  obtain ⟨more, heldAfter, leadsAfter, still, made⟩ := leads.step (.createElement tag)
  obtain ⟨users, guards, _⟩ := (leads.wired wired).1.guards
  have created := guards.createElement tag engine rfl
  rw [Action.leaves, Command.action, bind_run] at leadsAfter
  rw [Command.action, bind_run] at made
  have old (after : Engine) (uid : after.uid = engine.uid) :
      ∀ element ∈ elements, after.owns element = true ∧ element ∈ heldAfter.elements := by
    intro element member
    rw [Engine.owns, uid]
    exact ⟨(known element member).1, still element (known element member).2⟩
  cases run : Action.createElement tag engine with
  | ok element after =>
    rw [run] at leadsAfter made created
    refine ⟨more, heldAfter, leadsAfter, List.forall_mem_cons.mpr ⟨⟨?_, ?_⟩, old after created.2.1.uid⟩⟩
    · rw [Engine.owns, created.2.1.uid]
      exact decide_eq_true created.1
    · exact made _ _ element rfl rfl
  | error cause after =>
    rw [run] at leadsAfter created
    exact ⟨more, heldAfter, leadsAfter, old after created.uid⟩

end Engine.Comes

namespace Blueprint

open Engine (Comes)

variable {start : Engine} {given : Held} {earlier : List Hooking} {elements : List Element}

theorem comes_declarations (members : List (Text × Json.Value)) :
    Preserves (start.Comes given elements) (declarations members) fun _ => True := by
  rw [declarations]
  split
  · exact Preserves.result trivial
  · exact Preserves.failure _

namespace Properties

variable (wired : start.Wired given earlier)

include wired

theorem comes_begin (properties : Properties) :
    Meets (start.Comes given elements) properties.begin
      (fun element => start.Comes given (element :: elements)) (start.Comes given elements) := by
  rw [begin_eq]
  refine (Comes.createElement wired properties.tag).bind fun element => ?_
  have change (what : Change) : Preserves (start.Comes given (element :: elements)) (what.action element)
      fun _ => True := Comes.change wired List.mem_cons_self what
  have classGiven : Preserves (start.Comes given (element :: elements)) (properties.giveScopedClass element)
      fun _ => True := by
    rw [giveScopedClass]
    split
    · exact (comes_declarations _).andThen fun styles => change (.generateScopedClass styles)
    · exact Preserves.result trivial
  suffices begun : Preserves (start.Comes given (element :: elements)) _ fun result => result = element from
    Meets.weaken begun (fun _ start => start) (fun _ _ ends => ends.2 ▸ ends.1)
      fun _ comes => comes.mono (List.subset_cons_self _ _)
  refine (Preserves.optional fun id _ => change (.setId id)).andThen fun _ => ?_
  refine (Preserves.loop fun pair _ => change (.setAttribute pair.1 pair.2)).andThen fun _ => ?_
  refine (change (.addClasses properties.classes)).andThen fun _ => ?_
  refine (comes_declarations _).andThen fun styles => ?_
  refine (change (.setInlineStyle styles)).andThen fun _ => classGiven.andThen fun _ => ?_
  exact (Preserves.optional fun content _ => change (.setText content)).andThen fun _ => Preserves.result rfl

theorem comes_finish (properties : Properties) {element : Element} (member : element ∈ elements) :
    Preserves (start.Comes given elements) (properties.finish element) fun _ => True := by
  rw [finish_eq]
  exact Preserves.loop fun hook _ => Comes.change wired member hook

end Properties

mutual

theorem comes_part (wired : start.Wired given earlier) (elements : List Element) {host : Element}
    (member : host ∈ elements) :
    (part : Part) → Preserves (start.Comes given elements) (part.build host) fun _ => True
  | .text content => by
    rw [Part.build]
    exact Comes.appendText wired member content
  | .element properties content => by
    rw [Part.build]
    refine (properties.comes_begin wired).bind fun element => ?_
    have inside : element ∈ element :: elements := List.mem_cons_self
    have built := (comes_content wired (element :: elements) inside content).andThen fun _ =>
      (properties.comes_finish wired inside).andThen fun _ =>
        Comes.appendElement wired (List.mem_cons_of_mem element member) inside
    exact Meets.weaken built (fun _ start => start)
      (fun _ _ ends => ⟨ends.1.mono (List.subset_cons_self _ _), ends.2⟩)
      fun _ comes => comes.mono (List.subset_cons_self _ _)

theorem comes_content (wired : start.Wired given earlier) (elements : List Element) {host : Element}
    (member : host ∈ elements) :
    (content : List Part) → Preserves (start.Comes given elements) (buildContent host content)
      fun _ => True
  | [] => by
    rw [buildContent]
    exact Preserves.result trivial
  | part :: rest => by
    rw [buildContent]
    exact (comes_part wired elements member part).andThen fun _ =>
      comes_content wired elements member rest

end

section Roots

variable (wired : start.Wired given earlier)

include wired

theorem comes_root (root : Root) :
    Meets (start.Comes given elements) root.build (fun element => start.Comes given (element :: elements))
      (start.Comes given elements) := by
  refine (root.properties.comes_begin wired).bind fun element => ?_
  have inside : element ∈ element :: elements := List.mem_cons_self
  have built : Preserves (start.Comes given (element :: elements)) (do
      buildContent element root.content
      root.properties.finish element
      return element : Action Element) fun result => result = element :=
    (comes_content wired (element :: elements) inside root.content).andThen fun _ =>
      (root.properties.comes_finish wired inside).andThen fun _ => Preserves.result rfl
  exact Meets.weaken built (fun _ start => start) (fun _ _ ⟨comes, same⟩ => same ▸ comes)
    fun _ comes => comes.mono (List.subset_cons_self _ _)

theorem comes_roots (roots : List Root) :
    Meets (start.Comes given elements) (roots.mapM Root.build)
      (fun built => start.Comes given (built ++ elements)) (start.Comes given elements) := by
  induction roots generalizing elements with
  | nil => exact fun _ comes => comes
  | cons first rest ih =>
    rw [List.mapM_cons]
    refine (comes_root wired first).bind fun element => ?_
    have later := (@ih (element :: elements)).weaken (fun _ start => start)
      (fun _ _ ends => ends) fun _ comes => comes.mono (List.subset_cons_self _ _)
    refine later.bind fun built engine comes => comes.mono ?_
    intro other member
    simp only [List.cons_append, List.mem_cons, List.mem_append] at member ⊢
    tauto

/-- What a blueprint builds, its caller could have built by commands. -/
theorem comes_build (page : Blueprint) :
    Meets (start.Comes given []) page.build (fun roots => start.Comes given roots)
      (start.Comes given []) := by
  have stated : Preserves (start.Comes given []) (page.state.forM fun pair => do
      let _ ← Action.setState pair.1 pair.2) fun _ => True :=
    Preserves.loop fun pair _ => (Comes.answered wired (.setState pair.1 pair.2) .flag
      fun _ => rfl).andThen fun _ => Preserves.result trivial
  have styled : Preserves (start.Comes given []) (page.styles.forM fun rule => do
      Action.tryDefineStyle rule.selector (← declarations rule.declarations) rule.raw) fun _ => True :=
    Preserves.loop fun rule _ => (comes_declarations _).andThen fun declarations =>
      Comes.answered wired (.tryDefineStyle rule.selector declarations rule.raw) (fun _ => .done)
        fun _ => rfl
  have loaded : Preserves (start.Comes given []) (page.lifecycle.forM fun source =>
      Action.onLoad (.body source)) fun _ => True :=
    Preserves.loop fun source _ => Comes.answered wired (.onLoad (.body source)) (fun _ => .done)
      fun _ => rfl
  refine stated.meets_bind fun _ _ => styled.meets_bind fun _ _ => loaded.meets_bind fun _ _ => ?_
  refine (comes_roots wired page.body).weaken (fun _ start => start) ?_ fun _ comes => comes
  intro built engine comes
  rwa [List.append_nil] at comes

end Roots

end Blueprint

namespace Engine

variable {engine : Engine} {held : Held} {hookings : List Hooking}

/-- Nothing that was recorded dangles, whatever a caller does: every hooked element is in the document and
has an identifier, which stays from then on; whatever was registered for an element has the identifier
that the element has now; and every pending entry and reference was registered for an element. Blueprints
can do no more than commands. -/
theorem Leads.wiring {uid : Nat} {config : EngineConfig} {entropy : UInt64}
    (leads : (Engine.new uid config entropy).Leads {} hookings engine held) :
    (∀ node ∈ engine.hooked, (engine.document.element? node).isSome ∧
      ∃ id, id ≠ [] ∧ engine.document.attribute? node "id".toList = some id) ∧
    (∀ more after heldAfter, engine.Leads held more after heldAfter → ∀ node ∈ engine.hooked,
      node ∈ after.hooked ∧
        after.document.attribute? node "id".toList = engine.document.attribute? node "id".toList) ∧
    (∀ hooking ∈ hookings, hooking.node ∈ engine.hooked ∧
      ∃ id, hooking.what.element? = some id ∧
        engine.document.attribute? hooking.node "id".toList = some id) ∧
    (∀ what ∈ engine.buffers.recorded, what.element?.isSome → ∃ node, ⟨node, what⟩ ∈ hookings) ∧
    ∀ page : Blueprint, ∃ more heldAfter,
      engine.Leads held more (Action.leaves page.build engine) heldAfter ∧
        ∀ roots after, page.build engine = .ok roots after → ∀ root ∈ roots, root ∈ heldAfter.elements := by
  have wired := (leads.wired (wired_new uid config entropy)).1
  rw [List.nil_append] at wired
  obtain ⟨users, guards, _⟩ := wired.guards
  have named : ∀ node ∈ engine.hooked, ∃ id, engine.namedId? node = some id ∧ id ≠ [] ∧
      engine.document.attribute? node "id".toList = some id := by
    intro node member
    obtain ⟨id, found⟩ := Option.isSome_iff_exists.mp (guards.hooked node member).2
    obtain ⟨same, filled⟩ := namedId?_eq_some_iff.mp found
    exact ⟨id, found, filled, same⟩
  refine ⟨?_, ?_, ?_, wired.recorded, ?_⟩
  · intro node member
    obtain ⟨id, _, filled, same⟩ := named node member
    exact ⟨guards.live (guards.hooked node member).1, id, filled, same⟩
  · intro more after heldAfter further node member
    obtain ⟨id, found, _, same⟩ := named node member
    obtain ⟨still, sameId⟩ := (further.wired wired).2.hooked node member
    refine ⟨still, ?_⟩
    rw [same, (namedId?_eq_some_iff.mp (sameId.trans found)).1]
  · intro hooking member
    obtain ⟨hooked, same⟩ := wired.named hooking member
    obtain ⟨id, found, _, sameId⟩ := named _ hooked
    exact ⟨hooked, id, same.trans found, sameId⟩
  · intro page
    have start : engine.Comes held [] engine := ⟨[], held, .nothing, List.forall_mem_nil _⟩
    have ends := page.comes_build wired engine start
    rw [Action.leaves]
    cases run : page.build engine with
    | ok roots after =>
      rw [run] at ends
      obtain ⟨more, heldAfter, further, known⟩ := ends
      refine ⟨more, heldAfter, further, ?_⟩
      intro others last same root member
      cases same
      exact (known root member).2
    | error cause after =>
      rw [run] at ends
      obtain ⟨more, heldAfter, further, _⟩ := ends
      exact ⟨more, heldAfter, further, by simp⟩

end Engine

/-- A paragraph that was given a listener keeps the identifier that the listener was recorded with. -/
theorem wiring_clicked_paragraph : ∃ hooking engine held,
    (Engine.new 0 {} 7).Leads {} [hooking] engine held ∧ hooking.node ∈ engine.hooked ∧
      ∃ id, hooking.what.element? = some id ∧
        engine.document.attribute? hooking.node "id".toList = some id := by
  obtain ⟨hooking, engine, held, leads⟩ :
      ∃ hooking engine held, (Engine.new 0 {} 7).Leads {} [hooking] engine held := by
    let create : Command := .createElement "p".toList
    let listen : Command := .change 0 (.on "click".toList (.body "f()".toList))
    have opened : (Engine.new 0 {} 7).Leads {} [] (Engine.new 0 {} 7) {} := .nothing
    have leads := (opened.performs create).performs listen
    have once : (listen.hookings (create.perform {} (Engine.new 0 {} 7)).2.1
        (create.perform {} (Engine.new 0 {} 7)).2.2).length = 1 := by decide +kernel
    obtain ⟨hooking, same⟩ := List.length_eq_one_iff.mp once
    rw [same] at leads
    exact ⟨hooking, _, _, leads⟩
  obtain ⟨_, _, named, _⟩ := leads.wiring
  exact ⟨hooking, engine, held, leads, named hooking List.mem_cons_self⟩

end PageCompiler
