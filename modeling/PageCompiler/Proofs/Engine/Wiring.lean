import PageCompiler.Proofs.Engine.RenderFrames

/-!
# Wiring

Listeners, bindings and references are recorded with the identifier of their element, and written out
later. Nothing that can be done to an engine in between makes them dangle: the element stays in the
document and keeps its identifier, whatever is appended to whatever, and whatever is rendered. Here the
numbers of all nodes may be appended, also those of the elements around the roots.
-/

namespace PageCompiler

open Markup Steps

/-- The identifier that a registration is for, if it is for an element. -/
def Registration.element? : Registration → Option Text
  | .behavior (.event element _ _) => some element
  | .behavior (.stateWatch _ element _) => some element
  | .reference _ element => some element
  | _ => none

/-- The entries and references that are collected. -/
def Buffers.recorded (buffers : Buffers) : List Registration :=
  buffers.behaviors.map .behavior ++ buffers.references.map fun (name, element) => .reference name element

/-- Something registered for an element, with the element. -/
structure Hooking where
  node : NodeId
  what : Registration

/-- What a change registers for its element. -/
def Change.hookings (engine : Engine) (element : Element) (change : Change) : List Hooking :=
  ((change.registered engine element).filter fun what => what.element?.isSome).map (Hooking.mk element.node)

/-- What a command registers for elements. -/
def Command.hookings (held : Held) (engine : Engine) : Command → List Hooking
  | .change place what =>
    match held.elements[place]? with
    | some element => if engine.owns element then what.hookings engine element else []
    | none => []
  | _ => []

/-- Where a caller can bring an engine, what the caller holds then, and what was registered for elements
on the way: any commands are given in any order, and elements of other engines and any numbers of nodes
may come in from outside. -/
inductive Engine.Leads (start : Engine) (given : Held) : List Hooking → Engine → Held → Prop where
  | nothing : Leads start given [] start given
  | received {hookings : List Hooking} {engine : Engine} {held : Held} {element : Element}
    (leads : Leads start given hookings engine held) (foreign : engine.owns element = false) :
    Leads start given hookings engine { held with elements := held.elements ++ [element] }
  | noted {hookings : List Hooking} {engine : Engine} {held : Held}
    (leads : Leads start given hookings engine held) (id : NodeId) :
    Leads start given hookings engine { held with nodes := held.nodes ++ [id] }
  | performed {hookings : List Hooking} {engine after : Engine} {held heldAfter : Held} {command : Command}
    {answer : Answer} (leads : Leads start given hookings engine held)
    (run : command.perform held engine = (answer, heldAfter, after)) :
    Leads start given (hookings ++ command.hookings held engine) after heldAfter

theorem Engine.Leads.performs {start engine : Engine} {given held : Held} {hookings : List Hooking}
    (leads : start.Leads given hookings engine held) (command : Command) :
    start.Leads given (hookings ++ command.hookings held engine) (command.perform held engine).2.2
      (command.perform held engine).2.1 :=
  leads.performed rfl

/-- What a list of commands comes to. -/
def Command.performAll : List Command → Held → Engine → Held × Engine
  | [], held, engine => (held, engine)
  | command :: rest, held, engine =>
    performAll rest (command.perform held engine).2.1 (command.perform held engine).2.2

theorem Engine.Leads.performsAll {start engine : Engine} {given held : Held} {hookings : List Hooking}
    (leads : start.Leads given hookings engine held) (commands : List Command) :
    ∃ more, start.Leads given more (Command.performAll commands held engine).2
      (Command.performAll commands held engine).1 := by
  induction commands generalizing hookings held engine with
  | nil => exact ⟨hookings, leads⟩
  | cons command rest ih => exact ih (leads.performs command)

/-! ## What is recorded -/

namespace Buffers

variable {buffers : Buffers} {what : Registration}

theorem mem_recorded_add {added : Registration} (member : what ∈ (buffers.add added).recorded) :
    what ∈ buffers.recorded ∨ what = added := by
  rw [recorded, List.mem_append] at member ⊢
  cases added with
  | style rule => exact Or.inl member
  | state key value => exact Or.inl member
  | behavior entry =>
    rw [add, List.map_append, List.mem_append, List.map_singleton, List.mem_singleton] at member
    tauto
  | reference name element =>
    refine member.elim (fun entry => Or.inl (Or.inl entry)) fun member => ?_
    obtain ⟨pair, there, rfl⟩ := List.mem_map.mp member
    rcases Entries.mem_put there with old | rfl
    · exact Or.inl (Or.inr (List.mem_map_of_mem old))
    · exact Or.inr rfl

theorem mem_recorded_addAll {added : List Registration}
    (member : what ∈ (added.foldl add buffers).recorded) : what ∈ buffers.recorded ∨ what ∈ added := by
  induction added generalizing buffers with
  | nil => exact Or.inl member
  | cons first rest ih =>
    rcases ih member with earlier | later
    · rcases mem_recorded_add earlier with old | rfl
      · exact Or.inl old
      · exact Or.inr List.mem_cons_self
    · exact Or.inr (List.mem_cons_of_mem _ later)

end Buffers

/-- What a command registers for elements is all that it registers with an identifier. -/
theorem Command.hooking_of_registered {command : Command} {held : Held} {engine : Engine}
    {what : Registration} (member : what ∈ command.registered held engine)
    (hooks : what.element?.isSome) : ∃ node, ⟨node, what⟩ ∈ command.hookings held engine := by
  have ruled {rule : Except Style.RuleError Style.Rule} (member : what ∈ Registration.ofRule rule) :
      False := by
    cases rule with
    | ok rule => cases List.mem_singleton.mp member; cases hooks
    | error cause => cases member
  cases command with
  | change place change =>
    rw [registered] at member
    rw [hookings]
    cases found : held.elements[place]? with
    | none =>
      rw [found] at member
      cases member
    | some element =>
      rw [found] at member
      dsimp only at member ⊢
      split at member
      · next own =>
        rw [if_pos own]
        exact ⟨_, List.mem_map_of_mem (List.mem_filter.mpr ⟨member, hooks⟩)⟩
      · cases member
  | tryDefineStyle name declarations raw => exact (ruled member).elim
  | defineStyle name declarations raw => exact (ruled member).elim
  | setState key value => cases List.mem_singleton.mp member; cases hooks
  | onLoad handler =>
    rw [registered, Registration.ofLifecycle] at member
    split at member
    · cases List.mem_singleton.mp member; cases hooks
    · cases member
  | _ => cases member

namespace Engine

variable {engine after : Engine} {users : NodeId → Prop}

theorem namedId?_identified {node : NodeId} (live : (engine.document.element? node).isSome) :
    (engine.identified node).namedId? node = some (engine.idFor node) := by
  let element : Element := ⟨0, node, []⟩
  have named : (engine.identified node).identifier? element = some (engine.idFor node) :=
    identifier?_identified live
  rw [identifier?_eq] at named
  refine namedId?_eq_some_iff.mpr ⟨named, ?_⟩
  rw [idFor]
  cases found : engine.namedId? node with
  | none => exact Identifier.element_ne_nil _
  | some id => exact (namedId?_eq_some_iff.mp found).2

/-- What a hook registers, it registers for the identifier that its element has from then on. -/
theorem Guards.hookings (guards : engine.Guards users) {element : Element} (user : users element.node)
    (change : Change) : ∀ hooking ∈ change.hookings engine element,
      hooking.node ∈ (Action.leaves (change.action element) engine).hooked ∧
        hooking.what.element? =
          (Action.leaves (change.action element) engine).namedId? hooking.node := by
  intro hooking member
  obtain ⟨what, registers, rfl⟩ := List.mem_map.mp member
  obtain ⟨registers, hooked⟩ := List.mem_filter.mp registers
  by_cases hooks : change.NeedsIdentifier
  · rw [Action.registered_hook hooks] at registers
    rw [Action.leaves]
    have outcome := @Action.hook_run element _ hooks engine
    rcases outcome with ⟨recorded, accepts, live, run⟩ | ⟨cause, last, run, _⟩
    · have named := namedId?_identified (guards.live user)
      have identifier : ((engine.identified element.node).collect recorded).identifier? element =
          some (engine.idFor element.node) := by
        rw [identifier?_eq]
        exact (namedId?_eq_some_iff.mp named).1
      rw [run] at registers ⊢
      dsimp only at registers
      rw [identifier, Option.getD_some, accepts, Option.toList_some, List.mem_singleton] at registers
      refine ⟨mem_hooked_identified engine element.node, ?_⟩
      have same : what.element? = some (engine.idFor element.node) := by
        rw [registers]
        cases change with
        | bindText key transform => cases accepts; rfl
        | registerReference name => cases accepts; rfl
        | on event handler => cases accepts; rfl
        | _ => exact hooks.elim
      exact same.trans named.symm
    · rw [run] at registers
      cases registers
  · exfalso
    cases change with
    | generateScopedClass declarations =>
      rw [Change.registered] at registers
      cases rule : Style.ruleOf engine.ids.className.1 declarations false with
      | ok rule =>
        rw [rule] at registers
        cases List.mem_singleton.mp registers
        cases hooked
      | error cause =>
        rw [rule] at registers
        cases registers
    | bindText key transform => exact hooks trivial
    | registerReference name => exact hooks trivial
    | on event handler => exact hooks trivial
    | _ => cases registers

end Engine

/-! ## Renders -/

/-- Buffers that hold neither entries nor references nor values of the client state. -/
structure Buffers.IsSpent (buffers : Buffers) : Prop where
  behaviors : buffers.behaviors = []
  references : buffers.references = []
  state : buffers.state = []

namespace Buffers

variable {buffers : Buffers}

theorem IsSpent.recorded (spent : buffers.IsSpent) : buffers.recorded = [] := by
  rw [Buffers.recorded, spent.behaviors, spent.references]
  rfl

end Buffers

namespace RenderStep

section Pending

variable {claim : Buffers → Prop}

/-- Edits of the document leave alone what is pending. -/
theorem keeps_edit {α : Type} (change : Edit α) :
    Preserves (fun engine => claim engine.buffers) (edit change) fun _ => True := by
  intro engine holds
  rw [edit, Engine.edit]
  cases change engine.document with
  | ok value document => exact ⟨holds, trivial⟩
  | error cause document => exact holds

theorem keeps_update {change : Engine → Engine}
    (same : ∀ engine, (change engine).buffers = engine.buffers) :
    Preserves (fun engine => claim engine.buffers) (modify change : RenderStep PUnit)
      fun _ => True := by
  refine Preserves.update fun engine holds => ?_
  rw [same]
  exact holds

end Pending

/-- What the client script holds is taken out of the buffers, and nothing comes in after it. -/
theorem finish_spent (shell : Shell) :
    Meets (fun _ => True) (finish shell) (fun _ engine => engine.buffers.IsSpent) fun _ => True := by
  have rest (source : Text) : Preserves (fun engine => engine.buffers.IsSpent) (do
      let script ← edit (Edit.createElement "script".toList)
      edit (Edit.setTextContent script source)
      edit (Edit.appendChild shell.body script)
      modify fun engine => { engine with shell := some { shell with script := some script } }
      let page := (← get).document.page shell.html
      modify (Engine.report (.serialized (Text.utf8Size page)))
      return page : RenderStep Text) fun _ => True := by
    refine (keeps_edit _).andThen fun script => (keeps_edit _).andThen fun _ => ?_
    refine (keeps_edit _).andThen fun _ => (keeps_update fun _ => by rfl).andThen fun _ => ?_
    refine Preserves.state.andThen fun engine => (keeps_update fun _ => by rfl).andThen fun _ => ?_
    exact Preserves.result trivial
  have composed : Meets (fun _ => True) composeScript (fun _ engine => engine.buffers.IsSpent)
      fun _ => True := by
    intro engine _
    obtain ⟨journal, run⟩ := composeScript_run engine
    rw [run]
    exact ⟨rfl, rfl, rfl⟩
  exact composed.bind fun source =>
    Meets.weaken (rest source) (fun _ start => start) (fun _ _ ends => ends.1) fun _ _ => trivial

theorem compile_spent (roots : List NodeId) (head : HeadConfig) :
    Meets (fun _ => True) (compile roots head) (fun _ engine => engine.buffers.IsSpent)
      fun _ => True := by
  rw [compile_eq_prepare]
  have prepared : Meets (fun _ => True) (prepare roots head) (fun _ _ => True) fun _ => True := by
    intro engine _
    cases prepare roots head engine <;> exact trivial
  exact prepared.bind finish_spent

end RenderStep

namespace Engine

variable {engine : Engine} {mount : List Element} {head : HeadConfig}

/-- A render leaves the buffers as they were, or takes everything out of them. -/
theorem buffers_tryRender :
    (Action.leaves (Action.tryRender mount head) engine).buffers = engine.buffers ∨
      (Action.leaves (Action.tryRender mount head) engine).buffers.IsSpent := by
  rw [Action.leaves, Action.tryRender]
  cases mount.find? fun root => !engine.owns root with
  | some root => exact Or.inl rfl
  | none =>
    dsimp only
    cases run : RenderStep.compile (mount.map Element.node) head { engine with phase := .compiling } with
    | error cause after => exact Or.inl rfl
    | ok page after =>
      dsimp only
      split
      · exact Or.inl rfl
      · exact Or.inr ((RenderStep.compile_spent _ head).ok trivial run)

theorem buffers_render :
    (Action.leaves (Action.render mount head) engine).buffers = engine.buffers ∨
      (Action.leaves (Action.render mount head) engine).buffers.IsSpent := by
  have tried := @buffers_tryRender engine mount head
  rw [Action.leaves] at tried ⊢
  rw [Action.render]
  cases run : Action.tryRender mount head engine with
  | ok page after =>
    rw [run] at tried
    exact tried
  | error cause after =>
    rw [run] at tried
    exact tried

theorem buffers_of_isRender {command : Command} (isRender : command.IsRender) (held : Held) :
    (Action.leaves (command.action held) engine).buffers = engine.buffers ∨
      (Action.leaves (command.action held) engine).buffers.IsSpent := by
  cases command with
  | tryRender mount head =>
    rw [Command.action, Action.leaves_of]
    exact buffers_tryRender
  | render mount head =>
    rw [Command.action, Action.leaves_of]
    exact buffers_render
  | _ => exact isRender.elim

end Engine

/-! ## Commands -/

namespace Reply

variable {α : Type} {before failed : Engine → Prop} {after : α → Engine → Prop}

/-- An action whose result is all that is answered hands out no element. -/
theorem meets_of (answer : α → Answer) {action : Action α} (meets : Meets before action after failed) :
    Meets before (Reply.of answer action)
      (fun reply engine => reply.element = none ∧ ∃ value, after value engine) failed :=
  meets.bind fun value _ ends => ⟨rfl, value, ends⟩

end Reply

/-- What an action leaves in both cases. -/
theorem Action.meets_leaves {α : Type} {action : Action α} {engine : Engine} {claim : Engine → Prop}
    (holds : claim (leaves action engine)) :
    Meets (fun state => state = engine) action (fun _ => claim) claim := by
  rintro state rfl
  rw [leaves] at holds
  cases run : action state with
  | ok value after =>
    rw [run] at holds
    exact holds
  | error cause after =>
    rw [run] at holds
    exact holds

/-- Something done with an element that is held, or nothing. -/
theorem Held.meets_use {held : Held} {place : Nat} {action : Element → Action Reply} {engine : Engine}
    {after : Reply → Engine → Prop} {failed : Engine → Prop}
    (elsewhere : ∀ reply : Reply, reply.element = none → after reply engine)
    (meets : ∀ element ∈ held.elements, engine.owns element = true →
      Meets (fun state => state = engine) (action element) after failed) :
    Meets (fun state => state = engine) (held.use place action) after failed := by
  intro state same
  obtain rfl : engine = state := same.symm
  by_cases known : ∃ element, held.elements[place]? = some element ∧ engine.owns element = true
  · obtain ⟨element, found, own⟩ := known
    rw [Held.use_run found own]
    exact meets element (List.mem_of_getElem? found) own engine rfl
  · rw [Held.use_run_elsewhere known]
    exact elsewhere _ rfl

namespace Engine

variable {engine : Engine} {users : NodeId → Prop} {held : Held}

/-- What a command comes to for the elements of users: with the element that it hands out, if any. -/
def AdvancesTo (engine : Engine) (users : NodeId → Prop) (reply : Reply) (after : Engine) : Prop :=
  ∃ wider, engine.Advances users after wider ∧
    ∀ element, reply.element = some element → wider element.node

theorem advancesTo_of_none {after : Engine} {reply : Reply} (advances : engine.Advances users after users)
    (nothing : reply.element = none) : engine.AdvancesTo users reply after := by
  refine ⟨users, advances, ?_⟩
  intro element found
  rw [nothing] at found
  cases found

/-- Every command advances an engine, and hands out an element of a user or none. -/
theorem Guards.command (guards : engine.Guards users)
    (known : ∀ element ∈ held.elements, engine.owns element = true → users element.node)
    (command : Command) :
    Meets (fun state => state = engine) (command.action held) (engine.AdvancesTo users)
      fun after => engine.Advances users after users := by
  have self (reply : Reply) (nothing : reply.element = none) : engine.AdvancesTo users reply engine :=
    advancesTo_of_none guards.advances_self nothing
  have left {α : Type} {action : Action α} (answer : α → Answer)
      (advances : engine.Advances users (Action.leaves action engine) users) :
      Meets (fun state => state = engine) (Reply.of answer action) (engine.AdvancesTo users)
        fun after => engine.Advances users after users :=
    (Reply.meets_of answer (Action.meets_leaves advances)).weaken (fun _ start => start)
      (fun _ _ ⟨nothing, _, ends⟩ => advancesTo_of_none ends nothing) fun _ ends => ends
  have within {α : Type} {action : Action α} (answer : α → Answer) {holds : α → Prop}
      (kept : Preserves (engine.Within (engine.frame users)) action holds) :
      Meets (fun state => state = engine) (Reply.of answer action) (engine.AdvancesTo users)
        fun after => engine.Advances users after users :=
    left answer (guards.advances kept)
  have asked (answer : Engine → Reply) (nothing : ∀ state, (answer state).element = none) :
      Meets (fun state => state = engine) (get >>= fun state => pure (answer state) : Action Reply)
        (engine.AdvancesTo users) fun after => engine.Advances users after users := by
    rintro state rfl
    exact self _ (nothing _)
  have mounted (mount : List Nat) :
      ∀ root ∈ mount.filterMap fun place => held.elements[place]?, engine.owns root = true →
        users root.node := by
    intro root member
    obtain ⟨place, _, found⟩ := List.mem_filterMap.mp member
    exact known root (List.mem_of_getElem? found)
  cases command with
  | createElement tag =>
    refine (guards.createElement tag).bind fun element => ?_
    rintro after ⟨_, advances, _⟩
    refine ⟨_, advances, fun other found => ?_⟩
    cases found
    exact Or.inr rfl
  | createText content =>
    have created : Preserves (engine.Within (engine.frame users)) (Action.createText content)
        fun _ => True := (Within.action (Frame.preserves_createText content)).forget
    refine (Action.meets_leaves (guards.advances created)).bind fun node => ?_
    exact fun after advances => advancesTo_of_none advances rfl
  | createChild host tag =>
    refine Held.meets_use self fun host member own => ?_
    refine (guards.createChild (known host member own) tag).bind fun element => ?_
    rintro after ⟨_, advances⟩
    refine ⟨_, advances, fun other found => ?_⟩
    cases found
    exact Or.inr rfl
  | change place what =>
    refine Held.meets_use self fun element member own => ?_
    have user := known element member own
    cases what with
    | setId id => exact within _ (Within.setId id)
    | setText content => exact within _ (Within.setText user content)
    | setAttribute name value => exact within _ (Within.setAttribute name value)
    | setInlineStyle declarations => exact within _ (Within.setInlineStyle declarations)
    | addClasses classes => exact within _ (Within.addClasses classes)
    | generateScopedClass declarations => exact within _ (Within.generateScopedClass declarations)
    | bindText key transform => exact left _ (guards.hook user trivial)
    | registerReference name => exact left _ (guards.hook user trivial)
    | on event handler => exact left _ (guards.hook user trivial)
  | append host pieces =>
    refine Held.meets_use self fun host member own => ?_
    exact within _ (Within.appendChildren (known host member own) not_false _)
  | node place => exact Held.meets_use self fun element _ _ => asked (fun _ => _) fun _ => rfl
  | child place index => exact Held.meets_use self fun element _ _ => asked _ fun _ => rfl
  | markup place => exact Held.meets_use self fun element _ _ => asked _ fun _ => rfl
  | attributeOf place name => exact Held.meets_use self fun element _ _ => asked _ fun _ => rfl
  | text place => exact Held.meets_use self fun element _ _ => asked _ fun _ => rfl
  | hasClass place name => exact Held.meets_use self fun element _ _ => asked _ fun _ => rfl
  | tryDefineStyle name declarations raw => exact within _ (Within.updateBuffers _ _)
  | defineStyle name declarations raw => exact within _ (Within.defineStyle name declarations raw)
  | setState key value => exact within _ (Within.setState key value)
  | onLoad handler => exact within _ (Within.updateBuffers _ _)
  | stateValue key => exact asked _ fun _ => rfl
  | reference name => exact asked _ fun _ => rfl
  | pending => exact asked _ fun _ => rfl
  | phase => exact asked _ fun _ => rfl
  | tryRender mount head => exact left _ (guards.tryRender (mounted mount) head)
  | render mount head => exact left _ (guards.render (mounted mount) head)
  | output => exact within _ Within.output
  | trySave files here path => exact within _ (Within.trySave files here path)
  | save files here path => exact within _ (Within.save files here path)

/-- An engine whose hooked elements are elements of users, with what was registered for elements: each
registration has the identifier that its element has, and nothing else is collected for elements. -/
structure Wired (engine : Engine) (held : Held) (hookings : List Hooking) : Prop where
  guards : ∃ users, engine.Guards users ∧
    ∀ element ∈ held.elements, engine.owns element = true → users element.node
  named : ∀ hooking ∈ hookings, hooking.node ∈ engine.hooked ∧
    hooking.what.element? = engine.namedId? hooking.node
  recorded : ∀ what ∈ engine.buffers.recorded, what.element?.isSome → ∃ node, ⟨node, what⟩ ∈ hookings

/-- What stays from one engine to another: its identity, and the identifiers of its hooked elements. -/
structure Retains (engine after : Engine) : Prop where
  uid : after.uid = engine.uid
  hooked : ∀ id ∈ engine.hooked, id ∈ after.hooked ∧ after.namedId? id = engine.namedId? id

theorem retains_self (engine : Engine) : engine.Retains engine :=
  ⟨rfl, fun _ member => ⟨member, rfl⟩⟩

theorem Retains.trans {after last : Engine} (first : engine.Retains after) (second : after.Retains last) :
    engine.Retains last where
  uid := second.uid.trans first.uid
  hooked id member := by
    obtain ⟨still, same⟩ := first.hooked id member
    obtain ⟨later, sameLater⟩ := second.hooked id still
    exact ⟨later, sameLater.trans same⟩

variable {hookings : List Hooking} {command : Command} {answer : Answer} {heldAfter : Held}
  {after : Engine}

/-- What a render or another command collects for elements was collected before, or it registers it. -/
theorem recorded_of_command {what : Registration}
    (member : what ∈ (Action.leaves (command.action held) engine).buffers.recorded) :
    what ∈ engine.buffers.recorded ∨ what ∈ command.registered held engine := by
  by_cases isRender : command.IsRender
  · left
    rcases buffers_of_isRender isRender held with same | spent
    · rwa [same] at member
    · rw [spent.recorded] at member
      cases member
  · rw [(Command.adds isRender held engine).buffers] at member
    exact Buffers.mem_recorded_addAll member

/-- What a command registers for an element has the identifier that the element has then. -/
theorem Guards.commandHookings (guards : engine.Guards users)
    (known : ∀ element ∈ held.elements, engine.owns element = true → users element.node) :
    ∀ hooking ∈ command.hookings held engine,
      hooking.node ∈ (Action.leaves (command.action held) engine).hooked ∧
        hooking.what.element? = (Action.leaves (command.action held) engine).namedId? hooking.node := by
  intro hooking member
  cases command with
  | change place what =>
    rw [Command.hookings] at member
    split at member
    · next element found =>
      split at member
      · next own =>
        have user := known element (List.mem_of_getElem? found) own
        have same : Action.leaves ((Command.change place what).action held) engine =
            Action.leaves (what.action element) engine := by
          rw [Action.leaves, Command.action, Held.use_run found own, ← Action.leaves, Action.leaves_of]
        rw [same]
        exact guards.hookings user what hooking member
      · cases member
    · cases member
  | _ => cases member

/-- One command keeps an engine wired. -/
theorem Wired.performed (wired : engine.Wired held hookings)
    (run : command.perform held engine = (answer, heldAfter, after)) :
    after.Wired heldAfter (hookings ++ command.hookings held engine) ∧ engine.Retains after := by
  obtain ⟨users, guards, known⟩ := wired.guards
  have left := leaves_of_perform run
  obtain ⟨wider, advances, knownAfter⟩ : ∃ wider, engine.Advances users after wider ∧
      ∀ element ∈ heldAfter.elements, after.owns element = true → wider element.node := by
    have ends := guards.command known command engine rfl
    have old {wider : NodeId → Prop} (advances : engine.Advances users after wider) (element : Element)
        (member : element ∈ held.elements) (own : after.owns element = true) : wider element.node := by
      rw [Engine.owns, advances.uid] at own
      exact advances.users _ (known element member own)
    rw [Command.perform] at run
    cases ran : command.action held engine with
    | ok reply last =>
      rw [ran] at run ends
      cases run
      obtain ⟨wider, advances, made⟩ := ends
      refine ⟨wider, advances, fun element member own => ?_⟩
      rcases List.mem_append.mp member with earlier | new
      · exact old advances element earlier own
      · exact made element (Option.mem_toList.mp new)
    | error cause last =>
      rw [ran] at run ends
      cases run
      exact ⟨users, ends, fun element member own => old ends element member own⟩
  refine ⟨⟨⟨wider, advances.guards, knownAfter⟩, ?_, ?_⟩, advances.uid, advances.hooked⟩
  · intro hooking member
    rcases List.mem_append.mp member with earlier | new
    · obtain ⟨hooked, same⟩ := wired.named hooking earlier
      obtain ⟨still, sameId⟩ := advances.hooked _ hooked
      exact ⟨still, same.trans sameId.symm⟩
    · rw [left]
      exact guards.commandHookings known hooking new
  · intro what member hooks
    rw [left] at member
    rcases recorded_of_command member with earlier | registered
    · obtain ⟨node, found⟩ := wired.recorded what earlier hooks
      exact ⟨node, List.mem_append_left _ found⟩
    · obtain ⟨node, found⟩ := Command.hooking_of_registered registered hooks
      exact ⟨node, List.mem_append_right _ found⟩

/-- Whatever a caller does, an engine stays wired. -/
theorem Leads.wired {start : Engine} {given : Held} {earlier : List Hooking}
    (wired : start.Wired given earlier) (leads : start.Leads given hookings engine held) :
    engine.Wired held (earlier ++ hookings) ∧ start.Retains engine := by
  induction leads with
  | nothing =>
    rw [List.append_nil]
    exact ⟨wired, start.retains_self⟩
  | @received _ _ _ element _ foreign ih =>
    obtain ⟨⟨⟨users, guards, known⟩, same, recorded⟩, retains⟩ := ih
    refine ⟨⟨⟨users, guards, fun other member own => ?_⟩, same, recorded⟩, retains⟩
    rcases List.mem_append.mp member with old | new
    · exact known other old own
    · rw [List.mem_singleton.mp new, foreign] at own
      cases own
  | noted _ _ ih => exact ⟨⟨ih.1.guards, ih.1.named, ih.1.recorded⟩, ih.2⟩
  | performed _ run ih =>
    obtain ⟨wiredAfter, retains⟩ := ih.1.performed run
    rw [List.append_assoc] at wiredAfter
    exact ⟨wiredAfter, ih.2.trans retains⟩

theorem wired_new (uid : Nat) (config : EngineConfig) (entropy : UInt64) :
    (Engine.new uid config entropy).Wired {} [] where
  guards := by
    refine ⟨fun _ => False, ⟨⟨Document.Sound.empty, ?_, ?_, ?_, ?_, False.elim⟩, ?_⟩, ?_⟩
    · exact fun _ user => user.elim
    · intro id name known
      cases known
    · intro child parent step
      rw [Engine.new, Document.parent?_empty] at step
      cases step
    · intro shell known
      cases known
    · intro id member
      cases member
    · intro element member
      cases member
  named := List.forall_mem_nil _
  recorded := List.forall_mem_nil _

theorem Leads.forest {uid : Nat} {config : EngineConfig} {entropy : UInt64}
    (leads : (Engine.new uid config entropy).Leads {} hookings engine held) : engine.document.Forest := by
  obtain ⟨⟨⟨_, guards, _⟩, _⟩, _⟩ := leads.wired (wired_new uid config entropy)
  exact guards.fits.sound.forest

theorem Leads.trans {start last : Engine} {given heldLast : Held} {more : List Hooking}
    (first : start.Leads given hookings engine held) (second : engine.Leads held more last heldLast) :
    start.Leads given (hookings ++ more) last heldLast := by
  induction second with
  | nothing =>
    rw [List.append_nil]
    exact first
  | received _ foreign ih => exact ih.received foreign
  | noted _ id ih => exact ih.noted id
  | performed _ run ih =>
    rw [← List.append_assoc]
    exact ih.performed run

end Engine

end PageCompiler
