import PageCompiler.Proofs.Engine.Hooks

/-!
# What commands register

A command other than a render adds what it registers to the buffers of its engine, in order, and leaves
the settings alone. Most commands register nothing. Those that do register at most one thing, and only if
it is accepted.
-/

namespace PageCompiler

open Markup Steps

/-- What an engine comes to by registrations: the settings stay, and everything is added in order. -/
structure Engine.Adds (engine : Engine) (what : List Registration) (after : Engine) : Prop where
  config : after.config = engine.config
  buffers : after.buffers = what.foldl Buffers.add engine.buffers

namespace Engine

variable {engine after last : Engine} {what more : List Registration}

theorem adds_nil (engine : Engine) : engine.Adds [] engine :=
  ⟨rfl, rfl⟩

theorem Adds.trans (first : engine.Adds what after) (second : after.Adds more last) :
    engine.Adds (what ++ more) last where
  config := second.config.trans first.config
  buffers := by rw [second.buffers, first.buffers, List.foldl_append]

theorem adds_collect (quiet : engine.Adds [] after) (what : Registration) :
    engine.Adds [what] (after.collect what) :=
  quiet.trans ⟨rfl, rfl⟩

end Engine

namespace Action

variable {α β : Type}

/-- Whether an action registers nothing, whether it succeeds or fails. -/
def IsQuiet (action : Action α) : Prop :=
  ∀ engine : Engine, engine.Adds [] (leaves action engine)

namespace IsQuiet

theorem result (value : α) : IsQuiet (pure value) :=
  Engine.adds_nil

theorem failure (cause : Error) : IsQuiet (throw cause : Action α) :=
  Engine.adds_nil

theorem state : IsQuiet (get : Action Engine) :=
  Engine.adds_nil

theorem update {change : Engine → Engine} (quiet : ∀ engine : Engine, engine.Adds [] (change engine)) :
    IsQuiet (modify change : Action PUnit) :=
  quiet

theorem bind {action : Action α} {next : α → Action β} (quiet : IsQuiet action)
    (quietNext : ∀ value, IsQuiet (next value)) : IsQuiet (action >>= next) := by
  intro engine
  have first := quiet engine
  rw [leaves] at first ⊢
  rw [bind_run]
  cases run : action engine with
  | ok value after =>
    rw [run] at first
    exact first.trans (quietNext value after)
  | error cause after =>
    rw [run] at first
    exact first

theorem loop {step : α → Action PUnit} (quiet : ∀ value, IsQuiet (step value)) (values : List α) :
    IsQuiet (values.forM step) := by
  induction values with
  | nil => exact result _
  | cons first rest ih => exact (quiet first).bind fun _ => ih

theorem edit (change : Edit α) : IsQuiet (Action.edit change) := by
  intro engine
  rw [leaves, Action.edit, Engine.edit]
  cases change engine.document <;> exact ⟨rfl, rfl⟩

theorem attempt (change : Edit α) : IsQuiet (Action.attempt change) := by
  intro engine
  rw [leaves, Action.attempt]
  cases change engine.document <;> exact ⟨rfl, rfl⟩

theorem report (event : Event) : IsQuiet (Action.report event) :=
  update fun _ => ⟨rfl, rfl⟩

/-! ## Actions that register nothing -/

theorem setId (element : Element) (id : Text) : IsQuiet (Action.setId element id) := by
  refine state.bind fun engine => ?_
  dsimp only
  split
  · exact failure _
  · exact edit _

theorem setAttribute (element : Element) (name value : Text) :
    IsQuiet (Action.setAttribute element name value) := by
  rw [Action.setAttribute]
  split
  · exact setId element value
  · exact edit _

theorem createElement (tag : Text) : IsQuiet (Action.createElement tag) :=
  (edit _).bind fun _ => state.bind fun _ => result _

theorem createChild (host : Element) (tag : Text) : IsQuiet (Action.createChild host tag) := by
  refine (createElement tag).bind fun element => (attempt _).bind fun outcome => ?_
  split
  · exact result _
  · exact (attempt _).bind fun _ => failure _

theorem attach (host : Element) (item : Item) : IsQuiet (Action.attach host item) := by
  cases item with
  | element element =>
    refine state.bind fun engine => ?_
    split
    · refine (attempt _).bind fun outcome => ?_
      split <;> exact result _
    · exact result _
  | node id =>
    refine (attempt _).bind fun outcome => ?_
    split <;> exact result _
  | text content =>
    refine (edit _).bind fun node => (attempt _).bind fun outcome => ?_
    split
    · exact result _
    · exact (attempt _).bind fun _ => result _

theorem appendItem (host : Element) (item : Item) : IsQuiet (Action.appendItem host item) := by
  refine (attach host item).bind fun problem => ?_
  split
  · exact result _
  · refine state.bind fun engine => ?_
    split
    · exact failure _
    · exact report _

theorem output : IsQuiet Action.output := by
  refine state.bind fun engine => ?_
  split
  · exact result _
  · exact failure _

theorem trySave (files : FileTree) (here : List Text) (path : Path) :
    IsQuiet (Action.trySave files here path) := by
  refine output.bind fun page => ?_
  split
  · exact (report _).bind fun _ => result _
  · exact failure _

theorem save (files : FileTree) (here : List Text) (path : Path) :
    IsQuiet (Action.save files here path) := by
  intro engine
  have tried := trySave files here path engine
  rw [leaves] at tried ⊢
  rw [Action.save]
  cases run : Action.trySave files here path engine with
  | ok value after =>
    rw [run] at tried
    exact tried
  | error cause after =>
    rw [run] at tried
    exact tried.trans ⟨rfl, rfl⟩

end IsQuiet

end Action

/-! ## Hooks -/

namespace Engine

variable {engine : Engine} {element : Element}

theorem adds_withHook (engine : Engine) (node : NodeId) : engine.Adds [] (engine.withHook node) := by
  rw [withHook]
  split <;> exact ⟨rfl, rfl⟩

theorem adds_identified (engine : Engine) (node : NodeId) :
    engine.Adds [] (engine.identified node) := by
  rw [identified]
  split
  · exact adds_withHook engine node
  · have named : engine.Adds [] (engine.withNewId node) := ⟨rfl, rfl⟩
    exact named.trans (adds_withHook _ node)

theorem identifier?_eq (engine : Engine) (element : Element) :
    engine.identifier? element = engine.document.attribute? element.node "id".toList := by
  rw [identifier?, attribute?, Document.attribute?]
  cases engine.document.element? element.node <;> rfl

/-- An element that is hooked has the identifier that it was hooked with. -/
theorem identifier?_identified (live : (engine.document.element? element.node).isSome) :
    (engine.identified element.node).identifier? element = some (engine.idFor element.node) := by
  rw [identifier?_eq, identified, idFor]
  cases named : engine.namedId? element.node with
  | some id =>
    rw [document_withHook]
    rw [namedId?] at named
    split at named
    · next found =>
      cases named
      exact found
    · cases named
  | none =>
    obtain ⟨data, found⟩ := Option.isSome_iff_exists.mp live
    have written : (engine.withNewId element.node).document.element? element.node =
        some (data.setAttribute "id".toList engine.ids.element.1) := by
      rw [Document.element?_eq_some_iff_kind?, withNewId, Document.kind?_withData found, if_pos rfl]
    rw [document_withHook, Document.attribute?, written]
    exact Entries.get?_put_self _ _ _

end Engine

/-- What is registered of a rule: the rule, if it is accepted. -/
def Registration.ofRule : Except Style.RuleError Style.Rule → List Registration
  | .ok rule => [.style rule]
  | .error _ => []

/-- What is registered of a handler that runs once the page has loaded: the handler, if it is
accepted. -/
def Registration.ofLifecycle (handler : Handler) : List Registration :=
  match handler.validate with
  | .ok _ => [.behavior (.lifecycle handler)]
  | .error _ => []

/-- What a hook registers for the identifier of its element. -/
def Change.registration? (id : Text) : Change → Option Registration
  | .bindText key transform => some (.behavior (.stateWatch key id transform))
  | .registerReference name => some (.reference name id)
  | .on event handler => some (.behavior (.event id event handler))
  | _ => none

/-- What a change of an element registers if it is accepted. A hook registers the identifier that its
element has from then on. -/
def Change.registered (engine : Engine) (element : Element) (change : Change) : List Registration :=
  match change with
  | .generateScopedClass declarations =>
    Registration.ofRule (Style.ruleOf engine.ids.className.1 declarations false)
  | .bindText _ _ | .registerReference _ | .on _ _ =>
    match change.action element engine with
    | .ok _ after => (change.registration? ((after.identifier? element).getD [])).toList
    | .error _ _ => []
  | _ => []

namespace Action

variable {element : Element} {hook : Change}

/-- Neither a listener nor a binding nor a reference can be attached to what is no element. -/
theorem hook_run_missing {engine : Engine} (gone : engine.document.element? element.node = none)
    (hooks : hook.NeedsIdentifier) :
    ∃ cause after, hook.action element engine = .error cause after ∧ engine.Adds [] after := by
  have refused := ensureIdentifier_run_missing gone
  cases hook with
  | bindText key transform =>
    rcases valid_or_refused transform with valid | ⟨handler, cause, rfl, checked⟩
    · exact ⟨_, _, (bind_of_ok (checkHandlers_run valid) _).trans (bind_of_error refused _), rfl, rfl⟩
    · exact ⟨_, _, bindText_run_invalid checked key, engine.adds_nil⟩
  | registerReference name => exact ⟨_, _, bind_of_error refused _, rfl, rfl⟩
  | on event handler =>
    cases checked : handler.validate with
    | error cause => exact ⟨_, _, on_run_invalid checked event, engine.adds_nil⟩
    | ok _ =>
      exact ⟨_, _, (bind_of_ok (checkHandler_run checked) _).trans (bind_of_error refused _), rfl, rfl⟩
  | _ => exact hooks.elim

/-- A hook registers one thing or fails and registers nothing. -/
theorem hook_run (hooks : hook.NeedsIdentifier) (engine : Engine) :
    (∃ what, hook.registration? (engine.idFor element.node) = some what ∧
        (engine.document.element? element.node).isSome ∧
        hook.action element engine = .ok () ((engine.identified element.node).collect what)) ∨
      ∃ cause after, hook.action element engine = .error cause after ∧ engine.Adds [] after := by
  cases found : engine.document.element? element.node with
  | none => exact Or.inr (hook_run_missing found hooks)
  | some data =>
    have live : (engine.document.element? element.node).isSome := Option.isSome_of_eq_some found
    cases hook with
    | bindText key transform =>
      rcases valid_or_refused transform with valid | ⟨handler, cause, rfl, checked⟩
      · exact Or.inl ⟨_, rfl, rfl, bindText_run live valid key⟩
      · exact Or.inr ⟨_, _, bindText_run_invalid checked key, engine.adds_nil⟩
    | registerReference name => exact Or.inl ⟨_, rfl, rfl, registerReference_run live name⟩
    | on event handler =>
      cases checked : handler.validate with
      | error cause => exact Or.inr ⟨_, _, on_run_invalid checked event, engine.adds_nil⟩
      | ok _ =>
        have run := on_run live checked event
        split at run
        · exact Or.inl ⟨_, rfl, rfl, run⟩
        · exact Or.inr ⟨_, _, run, engine.adds_identified element.node⟩
    | _ => exact hooks.elim

theorem registered_hook (hooks : hook.NeedsIdentifier) (engine : Engine) :
    hook.registered engine element =
      match hook.action element engine with
      | .ok _ after => (hook.registration? ((after.identifier? element).getD [])).toList
      | .error _ _ => [] := by
  cases hook <;> first | rfl | exact hooks.elim

theorem hook_adds (hooks : hook.NeedsIdentifier) (engine : Engine) :
    engine.Adds (hook.registered engine element) (leaves (hook.action element) engine) := by
  rw [registered_hook hooks, leaves]
  rcases hook_run hooks engine with ⟨what, registers, live, run⟩ | ⟨cause, after, run, quiet⟩
  · have named : ((engine.identified element.node).collect what).identifier? element =
        some (engine.idFor element.node) := by
      have same := Engine.identifier?_identified live
      rw [Engine.identifier?_eq] at same ⊢
      exact same
    rw [run]
    dsimp only
    rw [named, Option.getD_some, registers]
    exact Engine.adds_collect (engine.adds_identified element.node) what
  · rw [run]
    exact quiet

theorem generateScopedClass_adds (engine : Engine) (element : Element) (declarations : Declarations) :
    engine.Adds (Registration.ofRule (Style.ruleOf engine.ids.className.1 declarations false))
      (leaves (generateScopedClass element declarations) engine) := by
  rw [leaves, generateScopedClass, bind_of_ok (get_run engine)]
  dsimp only
  rw [bind_of_ok (modify_run _ _), bind_of_ok (get_run _)]
  dsimp only
  cases run : Style.ruleOf engine.ids.className.1 declarations false with
  | error cause =>
    rw [Stylesheet.define_of_error run]
    exact ⟨rfl, rfl⟩
  | ok rule =>
    rw [Stylesheet.define_of_ok run]
    dsimp only
    rw [bind_of_ok (modify_run _ _)]
    have added : engine.Adds [.style rule]
        { engine with ids := engine.ids.className.2, buffers.styles := engine.buffers.styles ++ [rule] } :=
      ⟨rfl, rfl⟩
    exact added.trans (IsQuiet.edit _ _)

theorem tryDefineStyle_adds (engine : Engine) (name : Text) (declarations : Declarations) (raw : Bool) :
    engine.Adds (Registration.ofRule (Style.ruleOf name declarations raw))
      (leaves (tryDefineStyle name declarations raw) engine) := by
  cases run : Style.ruleOf name declarations raw with
  | error cause =>
    rw [leaves, tryDefineStyle_run_refused run]
    exact engine.adds_nil
  | ok rule =>
    rw [leaves, tryDefineStyle_run run]
    exact Engine.adds_collect engine.adds_nil _

theorem defineStyle_adds (engine : Engine) (name : Text) (declarations : Declarations) (raw : Bool) :
    engine.Adds (Registration.ofRule (Style.ruleOf name declarations raw))
      (leaves (defineStyle name declarations raw) engine) := by
  rw [leaves, defineStyle, bind_of_ok (get_run engine)]
  cases run : Style.ruleOf name declarations raw with
  | error cause =>
    rw [Stylesheet.define_of_error run]
    exact ⟨rfl, rfl⟩
  | ok rule =>
    rw [Stylesheet.define_of_ok run]
    exact ⟨rfl, rfl⟩

theorem setState_adds (engine : Engine) (key : Text) (value : Json.Value) :
    engine.Adds [.state key value] (leaves (setState key value) engine) :=
  ⟨rfl, rfl⟩

theorem onLoad_adds (engine : Engine) (handler : Handler) :
    engine.Adds (Registration.ofLifecycle handler) (leaves (onLoad handler) engine) := by
  rw [Registration.ofLifecycle]
  cases checked : handler.validate with
  | error cause =>
    rw [leaves, onLoad_run_invalid checked]
    exact engine.adds_nil
  | ok _ =>
    rw [leaves, onLoad_run checked]
    exact Engine.adds_collect engine.adds_nil _

end Action

/-- A change of an element adds what it registers. -/
theorem Change.adds (engine : Engine) (element : Element) (change : Change) :
    engine.Adds (change.registered engine element) (Action.leaves (change.action element) engine) := by
  have hook {change : Change} (hooks : change.NeedsIdentifier) :
      engine.Adds (change.registered engine element) (Action.leaves (change.action element) engine) :=
    Action.hook_adds hooks engine
  cases change with
  | setId id => exact Action.IsQuiet.setId element id engine
  | setText content => exact Action.IsQuiet.edit _ engine
  | setAttribute name value => exact Action.IsQuiet.setAttribute element name value engine
  | setInlineStyle declarations => exact Action.IsQuiet.edit _ engine
  | addClasses classes => exact Action.IsQuiet.edit _ engine
  | generateScopedClass declarations =>
    exact Action.generateScopedClass_adds engine element declarations
  | bindText key transform => exact hook trivial
  | registerReference name => exact hook trivial
  | on event handler => exact hook trivial

/-- What a command registers if it is accepted. -/
def Command.registered (held : Held) (engine : Engine) : Command → List Registration
  | .change place what =>
    match held.elements[place]? with
    | some element => if engine.owns element then what.registered engine element else []
    | none => []
  | .tryDefineStyle name declarations raw => Registration.ofRule (Style.ruleOf name declarations raw)
  | .defineStyle name declarations raw => Registration.ofRule (Style.ruleOf name declarations raw)
  | .setState key value => [.state key value]
  | .onLoad handler => Registration.ofLifecycle handler
  | _ => []

/-- Whether a command is a render. -/
def Command.IsRender : Command → Prop
  | .tryRender _ _ => True
  | .render _ _ => True
  | _ => False

namespace Action

variable {α : Type}

theorem leaves_of (answer : α → Answer) (action : Action α) (engine : Engine) :
    leaves (Reply.of answer action) engine = leaves action engine := by
  rw [leaves, leaves, Reply.of, bind_run]
  cases action engine <;> rfl

namespace IsQuiet

theorem reply (answer : α → Answer) {action : Action α} (quiet : IsQuiet action) :
    IsQuiet (Reply.of answer action) :=
  quiet.bind fun _ => result _

theorem question (answer : Engine → Reply) : IsQuiet (get >>= fun engine => pure (answer engine)) :=
  state.bind fun _ => result _

theorem use (held : Held) (place : Nat) {action : Element → Action Reply}
    (quiet : ∀ element, IsQuiet (action element)) : IsQuiet (held.use place action) := by
  refine state.bind fun engine => ?_
  split
  · split
    · exact quiet _
    · exact result _
  · exact result _

end IsQuiet

end Action

open PageCompiler.Action in
/-- A command that is no render adds what it registers. -/
theorem Command.adds {command : Command} (silent : ¬ command.IsRender) (held : Held)
    (engine : Engine) :
    engine.Adds (command.registered held engine) (leaves (command.action held) engine) := by
  cases command with
  | createElement tag => exact (IsQuiet.createElement tag).bind (fun _ => .result _) engine
  | createText content => exact (IsQuiet.edit _).bind (fun _ => .result _) engine
  | createChild host tag =>
    exact IsQuiet.use held host (fun _ => (IsQuiet.createChild _ tag).bind fun _ => .result _) engine
  | change place what =>
    rw [registered, leaves, action]
    cases found : held.elements[place]? with
    | none =>
      rw [Held.use_run_elsewhere (by simp [found])]
      exact engine.adds_nil
    | some element =>
      dsimp only
      split
      · next own =>
        rw [Held.use_run found own, ← leaves, leaves_of]
        exact what.adds engine element
      · next foreign =>
        rw [Held.use_run_elsewhere (by simpa [found] using foreign)]
        exact engine.adds_nil
  | append host pieces =>
    exact IsQuiet.use held host
      (fun host => (IsQuiet.loop (IsQuiet.appendItem host) _).reply _) engine
  | node place => exact IsQuiet.use held place (fun _ => .result _) engine
  | child place index => exact IsQuiet.use held place (fun _ => .question _) engine
  | markup place => exact IsQuiet.use held place (fun _ => .question _) engine
  | attributeOf place name => exact IsQuiet.use held place (fun _ => .question _) engine
  | text place => exact IsQuiet.use held place (fun _ => .question _) engine
  | hasClass place name => exact IsQuiet.use held place (fun _ => .question _) engine
  | tryDefineStyle name declarations raw =>
    rw [action, leaves_of]
    exact tryDefineStyle_adds engine name declarations raw
  | defineStyle name declarations raw =>
    rw [action, leaves_of]
    exact defineStyle_adds engine name declarations raw
  | setState key value =>
    rw [action, leaves_of]
    exact setState_adds engine key value
  | onLoad handler =>
    rw [action, leaves_of]
    exact onLoad_adds engine handler
  | stateValue key => exact IsQuiet.question _ engine
  | reference name => exact IsQuiet.question _ engine
  | pending => exact IsQuiet.question _ engine
  | phase => exact IsQuiet.question _ engine
  | tryRender mount head => exact absurd trivial silent
  | render mount head => exact absurd trivial silent
  | output => exact IsQuiet.output.reply _ engine
  | trySave files here path => exact (IsQuiet.trySave files here path).reply _ engine
  | save files here path => exact (IsQuiet.save files here path).reply _ engine

namespace Engine

/-- A command leaves the engine that its action leaves. -/
theorem leaves_of_perform {engine after : Engine} {held heldAfter : Held} {command : Command}
    {answer : Answer} (run : command.perform held engine = (answer, heldAfter, after)) :
    after = Action.leaves (command.action held) engine := by
  rw [Command.perform] at run
  rw [Action.leaves]
  cases ran : command.action held engine with
  | ok reply last =>
    rw [ran] at run
    cases run
    rfl
  | error cause last =>
    rw [ran] at run
    cases run
    rfl

end Engine

end PageCompiler
