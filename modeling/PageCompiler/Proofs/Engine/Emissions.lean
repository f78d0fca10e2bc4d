import PageCompiler.Proofs.Engine.Collecting

/-!
# What renders emit

The registrations and the successful renders of a session, in order, decide what each page shows and
what is pending. A page shows its registrations when it is written from their rules and entries in order
and from the last reference and value under each key. An engine that clears its buffers shows each
registration in the first successful render after it and in no other; one that retains them shows
everything registered so far in every render. Renders that fail have no part in it.
-/

namespace PageCompiler

open Markup Steps

/-! ## Registrations in buffers -/

namespace Entries

variable {α : Type}

/-- A table that has for each key the value that was written last, or one that counts as the same. Its
keys are in the order in which they were first written. -/
structure IsLatest (same : α → α → Prop) (writes : List (Text × α)) (entries : Entries α) :
    Prop where
  keys : entries.keys = (writes.map Prod.fst).eraseDups
  values : ∀ key, Option.Rel same (entries.get? key) (get? key writes.reverse)

variable {same : α → α → Prop} {writes : List (Text × α)} {entries : Entries α} {key : Text}
  {value : α}

theorem isLatest_nil : IsLatest same [] [] where
  keys := rfl
  values _ := .none

theorem get?_reverse_concat (other : Text) :
    get? other (writes ++ [(key, value)]).reverse =
      if key = other then some value else get? other writes.reverse := by
  rw [List.reverse_concat, get?]

theorem eraseDups_keys_concat :
    ((writes ++ [(key, value)]).map Prod.fst).eraseDups =
      if key ∈ writes.map Prod.fst then (writes.map Prod.fst).eraseDups
      else (writes.map Prod.fst).eraseDups ++ [key] := by
  rw [List.map_append, List.eraseDups_append]
  split
  · next known => simp [List.removeAll, known]
  · next fresh => simp [List.removeAll, fresh, List.eraseDups_cons]

theorem IsLatest.mem_keys_iff (latest : IsLatest same writes entries) :
    key ∈ entries.keys ↔ key ∈ writes.map Prod.fst := by
  rw [latest.keys, List.mem_eraseDups]

theorem IsLatest.put (latest : IsLatest same writes entries) (alike : same value value) :
    IsLatest same (writes ++ [(key, value)]) (entries.put key value) where
  keys := by
    rw [keys_put, eraseDups_keys_concat, latest.keys]
    simp only [List.mem_eraseDups]
  values other := by
    rw [get?_reverse_concat]
    split
    · next here =>
      subst here
      rw [get?_put_self]
      exact .some alike
    · next elsewhere =>
      rw [get?_put_of_ne elsewhere]
      exact latest.values other

/-- A value need not be written when the current one counts as the same. -/
theorem IsLatest.keep (latest : IsLatest same writes entries) {current : α}
    (found : entries.get? key = some current) (alike : same current value) :
    IsLatest same (writes ++ [(key, value)]) entries where
  keys := by
    rw [eraseDups_keys_concat, if_pos (latest.mem_keys_iff.mp (mem_keys_of_get? found))]
    exact latest.keys
  values other := by
    rw [get?_reverse_concat]
    split
    · next here =>
      subst here
      rw [found]
      exact .some alike
    · exact latest.values other

end Entries

namespace Registration

/-- The rule that is registered. -/
def rule? : Registration → Option Style.Rule
  | .style rule => some rule
  | _ => none

/-- The entry that is registered. -/
def entry? : Registration → Option Behavior.Entry
  | .behavior entry => some entry
  | _ => none

/-- The reference that is registered, with its name. -/
def reference? : Registration → Option (Text × Text)
  | .reference name element => some (name, element)
  | _ => none

/-- The value of the client state that is registered, with its key. -/
def value? : Registration → Option (Text × Json.Value)
  | .state key value => some (key, value)
  | _ => none

end Registration

/-- Values of the client state that count as the same. -/
def ClientState.Same (current value : Json.Value) : Prop :=
  current = value ∨ current.same value = true

/-- Whether buffers hold registrations: all rules and all entries, in order and each once, and what was
registered last under each name and key. -/
structure Buffers.Holds (buffers : Buffers) (what : List Registration) : Prop where
  styles : buffers.styles = what.filterMap Registration.rule?
  behaviors : buffers.behaviors = what.filterMap Registration.entry?
  references : Entries.IsLatest Eq (what.filterMap Registration.reference?) buffers.references
  state : Entries.IsLatest ClientState.Same (what.filterMap Registration.value?) buffers.state

namespace Buffers.Holds

variable {buffers : Buffers} {what : List Registration}

theorem empty : Buffers.Holds {} [] where
  styles := rfl
  behaviors := rfl
  references := Entries.isLatest_nil
  state := Entries.isLatest_nil

theorem set
    (latest : Entries.IsLatest ClientState.Same (what.filterMap Registration.value?) buffers.state)
    (key : Text) (value : Json.Value) :
    Entries.IsLatest ClientState.Same (what.filterMap Registration.value? ++ [(key, value)])
      (buffers.state.set key value).1 := by
  rw [ClientState.set]
  split
  · next holds =>
    rw [ClientState.holds] at holds
    split at holds
    · next current found => exact latest.keep found (Or.inr holds)
    · cases holds
  · exact latest.put (Or.inl rfl)

section Picks

variable {β : Type} {pick : Registration → Option β} {more : Registration}

theorem filterMap_of_passed (passed : pick more = none) :
    (what ++ [more]).filterMap pick = what.filterMap pick := by
  simp [passed]

theorem filterMap_of_picked {value : β} (picked : pick more = some value) :
    (what ++ [more]).filterMap pick = what.filterMap pick ++ [value] := by
  simp [picked]

end Picks

theorem add (holds : buffers.Holds what) (more : Registration) :
    (buffers.add more).Holds (what ++ [more]) := by
  obtain ⟨styles, behaviors, references, state⟩ := holds
  cases more with
  | style rule =>
    constructor
    · have picked : Registration.rule? (.style rule) = some rule := rfl
      rw [filterMap_of_picked picked, ← styles]
      rfl
    · rwa [filterMap_of_passed rfl]
    · rwa [filterMap_of_passed rfl]
    · rwa [filterMap_of_passed rfl]
  | behavior entry =>
    constructor
    · rwa [filterMap_of_passed rfl]
    · have picked : Registration.entry? (.behavior entry) = some entry := rfl
      rw [filterMap_of_picked picked, ← behaviors]
      rfl
    · rwa [filterMap_of_passed rfl]
    · rwa [filterMap_of_passed rfl]
  | reference name element =>
    constructor
    · rwa [filterMap_of_passed rfl]
    · rwa [filterMap_of_passed rfl]
    · have picked : Registration.reference? (.reference name element) = some (name, element) := rfl
      rw [filterMap_of_picked picked]
      exact references.put rfl
    · rwa [filterMap_of_passed rfl]
  | state key value =>
    constructor
    · rwa [filterMap_of_passed rfl]
    · rwa [filterMap_of_passed rfl]
    · rwa [filterMap_of_passed rfl]
    · have picked : Registration.value? (.state key value) = some (key, value) := rfl
      rw [filterMap_of_picked picked]
      exact set state key value

/-- Buffers hold what they held before and what is added to them. -/
theorem adds (holds : buffers.Holds what) (more : List Registration) :
    (more.foldl Buffers.add buffers).Holds (what ++ more) := by
  induction more generalizing buffers what with
  | nil => rwa [List.append_nil]
  | cons first rest ih =>
    rw [List.foldl_cons, List.append_cons]
    exact ih (holds.add first)

end Buffers.Holds

/-! ## Sessions -/

/-- A render that succeeded: its settings of the head, the markup of its roots, and the page. -/
structure Rendering where
  head : HeadConfig
  roots : List Text
  page : Text

/-- What has a part in the pages of a session: registrations that were accepted, and renders that
succeeded. -/
inductive Moment where
  | registered (what : Registration)
  | rendered (rendering : Rendering)

namespace Moment

def registration? : Moment → Option Registration
  | .registered what => some what
  | .rendered _ => none

def rendering? : Moment → Option Rendering
  | .registered _ => none
  | .rendered rendering => some rendering

/-- Everything that was registered, in order. -/
def registrations (moments : List Moment) : List Registration :=
  moments.filterMap registration?

/-- The renders that succeeded, in order. -/
def renderings (moments : List Moment) : List Rendering :=
  moments.filterMap rendering?

/-- What a render shows after some moments: what was registered since the last render, or everything if
the buffers are retained. -/
def shown : FlushPolicy → List Moment → List Registration
  | .clear, moments => registrations (moments.rtakeWhile fun moment => moment.rendering?.isNone)
  | .retain, moments => registrations moments

/-- What each render shows, in order, if these moments came before. -/
def emissionsAfter (policy : FlushPolicy) (before : List Moment) :
    List Moment → List (List Registration)
  | [] => []
  | .registered what :: rest => emissionsAfter policy (before ++ [.registered what]) rest
  | .rendered rendering :: rest =>
    shown policy before :: emissionsAfter policy (before ++ [.rendered rendering]) rest

/-- What each render of a session shows, in order. -/
def emissions (policy : FlushPolicy) (moments : List Moment) : List (List Registration) :=
  emissionsAfter policy [] moments

variable {policy : FlushPolicy}

theorem shown_registered (policy : FlushPolicy) (moments : List Moment) (what : Registration) :
    shown policy (moments ++ [.registered what]) = shown policy moments ++ [what] := by
  have added (moments : List Moment) :
      registrations (moments ++ [.registered what]) = registrations moments ++ [what] := by
    simp [registrations, registration?]
  cases policy with
  | clear =>
    rw [shown, List.rtakeWhile_concat_pos _ _ _ rfl]
    exact added _
  | retain => exact added moments

theorem shown_allRegistered (policy : FlushPolicy) (moments : List Moment) (what : List Registration) :
    shown policy (moments ++ what.map .registered) = shown policy moments ++ what := by
  induction what generalizing moments with
  | nil => rw [List.map_nil, List.append_nil, List.append_nil]
  | cons first rest ih =>
    rw [List.map_cons, List.append_cons, ih, shown_registered, List.append_assoc]
    rfl

theorem shown_rendered (policy : FlushPolicy) (moments : List Moment) (rendering : Rendering) :
    shown policy (moments ++ [.rendered rendering]) =
      match policy with
      | .clear => []
      | .retain => shown .retain moments := by
  cases policy with
  | clear =>
    rw [shown, List.rtakeWhile_concat_neg _ _ _ (by simp [rendering?])]
    rfl
  | retain => simp [shown, registrations, registration?]

theorem emissionsAfter_append (before moments more : List Moment) :
    emissionsAfter policy before (moments ++ more) =
      emissionsAfter policy before moments ++ emissionsAfter policy (before ++ moments) more := by
  induction moments generalizing before with
  | nil => rw [List.append_nil, List.nil_append, emissionsAfter, List.nil_append]
  | cons first rest ih => cases first <;> simp [emissionsAfter, ih]

theorem emissions_registered (policy : FlushPolicy) (moments : List Moment)
    (what : List Registration) :
    emissions policy (moments ++ what.map .registered) = emissions policy moments := by
  have silent (before : List Moment) (what : List Registration) :
      emissionsAfter policy before (what.map .registered) = [] := by
    induction what generalizing before with
    | nil => rfl
    | cons first rest ih => exact ih _
  rw [emissions, emissionsAfter_append, silent, List.append_nil]
  rfl

theorem emissions_rendered (policy : FlushPolicy) (moments : List Moment) (rendering : Rendering) :
    emissions policy (moments ++ [.rendered rendering]) =
      emissions policy moments ++ [shown policy moments] := by
  rw [emissions, emissionsAfter_append]
  rfl

theorem renderings_registered (moments : List Moment) (what : List Registration) :
    renderings (moments ++ what.map .registered) = renderings moments := by
  simp [renderings, rendering?]

theorem renderings_rendered (moments : List Moment) (rendering : Rendering) :
    renderings (moments ++ [.rendered rendering]) = renderings moments ++ [rendering] := by
  simp [renderings, rendering?]

/-- An engine that clears its buffers shows everything once, but for what is pending. -/
theorem flatten_emissionsAfter (before moments : List Moment) :
    (emissionsAfter .clear before moments).flatten ++ shown .clear (before ++ moments) =
      shown .clear before ++ registrations moments := by
  induction moments generalizing before with
  | nil => simp [emissionsAfter, registrations]
  | cons first rest ih =>
    have later := ih (before ++ [first])
    rw [← List.append_cons] at later
    cases first with
    | registered what =>
      rw [emissionsAfter, later, shown_registered, List.append_assoc]
      rfl
    | rendered rendering =>
      rw [shown_rendered, List.nil_append] at later
      rw [emissionsAfter, List.flatten_cons, List.append_assoc, later]
      rfl

end Moment

/-- The elements that are held at some places. -/
def Held.pick (held : Held) (places : List Nat) : List Element :=
  places.filterMap fun place => held.elements[place]?

/-- The part that a command has in the pages of a session. -/
def Command.moments (held : Held) (engine : Engine) (command : Command) : List Moment :=
  match command with
  | .tryRender mount head | .render mount head =>
    match Action.tryRender (held.pick mount) head engine with
    | .ok page _ => [.rendered ⟨head, (held.pick mount).map engine.markup, page⟩]
    | .error _ _ => []
  | _ => (command.registered held engine).map .registered

/-- What happened in a session of an engine with these settings, up to the engine and what is held. -/
inductive Engine.History (config : EngineConfig) : List Moment → Engine → Held → Prop where
  | opened (uid : Nat) (entropy : UInt64) : History config [] (Engine.new uid config entropy) {}
  | received {moments : List Moment} {engine : Engine} {held : Held} {element : Element}
    (history : History config moments engine held) (foreign : engine.owns element = false) :
    History config moments engine { held with elements := held.elements ++ [element] }
  | noted {moments : List Moment} {engine : Engine} {held : Held}
    (history : History config moments engine held) (id : NodeId) :
    History config moments engine { held with nodes := held.nodes ++ [id] }
  | performed {moments : List Moment} {engine after : Engine} {held heldAfter : Held}
    {command : Command} {answer : Answer} (history : History config moments engine held)
    (run : command.perform held engine = (answer, heldAfter, after))
    (apart : ¬ command.AttachesPage held engine) :
    History config (moments ++ command.moments held engine) after heldAfter

/-- Whether a page shows registrations: it is written from buffers that hold them. -/
def Rendering.Shows (rendering : Rendering) (config : EngineConfig) (what : List Registration) : Prop :=
  ∃ buffers : Buffers, buffers.Holds what ∧
    rendering.page = pageText config buffers rendering.head rendering.roots

namespace Engine

variable {config : EngineConfig} {moments : List Moment} {engine after : Engine}
  {held heldAfter : Held}

theorem History.reachable (history : History config moments engine held) :
    engine.Reachable held := by
  induction history with
  | opened uid entropy => exact .opened uid config entropy
  | received _ foreign ih => exact ih.received foreign
  | noted _ id ih => exact ih.noted id
  | performed _ run apart ih => exact ih.performed run apart

theorem History.performs (history : History config moments engine held) (command : Command)
    (apart : ¬ command.AttachesPage held engine) :
    History config (moments ++ command.moments held engine) (command.perform held engine).2.2
      (command.perform held engine).2.1 :=
  history.performed rfl apart

theorem moments_of_success {mount : List Nat} {head : HeadConfig} {page : Text}
    (run : Action.tryRender (held.pick mount) head engine = .ok page after) :
    (Command.tryRender mount head).moments held engine =
      [.rendered ⟨head, (held.pick mount).map engine.markup, page⟩] := by
  rw [Command.moments, run]

theorem moments_of_failure {mount : List Nat} {head : HeadConfig} {cause : Error}
    (run : Action.tryRender (held.pick mount) head engine = .error cause after) :
    (Command.tryRender mount head).moments held engine = [] := by
  rw [Command.moments, run]

/-- What is known of the engine and the pages after some moments. -/
structure Accounts (config : EngineConfig) (moments : List Moment) (engine : Engine) : Prop where
  settings : engine.config = config
  pending : engine.buffers.Holds (Moment.shown config.flush moments)
  emitted : List.Forall₂ (fun what rendering => rendering.Shows config what)
    (Moment.emissions config.flush moments) (Moment.renderings moments)

theorem Accounts.registered {what : List Registration} (accounts : Accounts config moments engine)
    (adds : engine.Adds what after) :
    Accounts config (moments ++ what.map .registered) after where
  settings := adds.config.trans accounts.settings
  pending := by
    rw [adds.buffers, Moment.shown_allRegistered]
    exact accounts.pending.adds what
  emitted := by
    rw [Moment.emissions_registered, Moment.renderings_registered]
    exact accounts.emitted

theorem Accounts.rendered {rendering : Rendering} (accounts : Accounts config moments engine)
    (page : rendering.page = pageText engine.config engine.buffers rendering.head rendering.roots)
    (settings : after.config = engine.config)
    (buffers : after.buffers = if engine.config.flush = .retain then engine.buffers else {}) :
    Accounts config (moments ++ [.rendered rendering]) after where
  settings := settings.trans accounts.settings
  pending := by
    have before := accounts.pending
    rw [accounts.settings] at buffers
    rw [buffers, Moment.shown_rendered]
    cases policy : config.flush with
    | clear => exact Buffers.Holds.empty
    | retain =>
      rw [policy] at before
      exact before
  emitted := by
    rw [accounts.settings] at page
    rw [Moment.emissions_rendered, Moment.renderings_rendered]
    exact List.rel_append accounts.emitted (.cons ⟨_, accounts.pending, page⟩ .nil)

/-- A render adds itself if it succeeds and nothing if it fails. -/
theorem Accounts.tryRender (accounts : Accounts config moments engine) (fits : engine.Fits held)
    (mount : List Nat) (head : HeadConfig) :
    Accounts config (moments ++ (Command.tryRender mount head).moments held engine)
      (Action.leaves (Action.tryRender (held.pick mount) head) engine) := by
  have users : ∀ root ∈ held.pick mount, engine.owns root = true → engine.IsUserNode root.node := by
    intro root picked
    obtain ⟨place, _, found⟩ := List.mem_filterMap.mp picked
    exact fits.users root (List.mem_of_getElem? found)
  rw [Command.moments, Action.leaves]
  by_cases renderable : engine.Renderable (held.pick mount) head
  · obtain ⟨after, run, rendered⟩ := Action.tryRender_run fits.sound users renderable
    rw [run]
    exact accounts.rendered rfl rendered.keeps.config rendered.buffers
  · obtain ⟨cause, after, run, restored⟩ := Action.tryRender_run_refused fits.sound renderable
    have quiet : engine.Adds [] after := ⟨restored.keeps.config, restored.buffers⟩
    rw [run]
    exact accounts.registered quiet

/-- A render that only reports why it failed adds nothing more. -/
theorem Accounts.render (accounts : Accounts config moments engine) (fits : engine.Fits held)
    (mount : List Nat) (head : HeadConfig) :
    Accounts config (moments ++ (Command.render mount head).moments held engine)
      (Action.leaves (Action.render (held.pick mount) head) engine) := by
  have tried := accounts.tryRender fits mount head
  have same : (Command.render mount head).moments held engine =
      (Command.tryRender mount head).moments held engine := rfl
  rw [Action.leaves] at tried
  rw [same, Action.leaves, Action.render]
  cases run : Action.tryRender (held.pick mount) head engine with
  | ok page after =>
    rw [run] at tried
    exact tried
  | error cause after =>
    rw [run] at tried
    exact ⟨tried.settings, tried.pending, tried.emitted⟩

/-- The moments of a session account for what is pending and for every page. -/
theorem History.accounts (history : History config moments engine held) :
    Accounts config moments engine := by
  induction history with
  | opened uid entropy =>
    refine ⟨rfl, ?_, .nil⟩
    have nothing : Moment.shown config.flush [] = [] := by
      cases config.flush <;> rfl
    rw [nothing]
    exact Buffers.Holds.empty
  | received _ _ ih => exact ih
  | noted _ _ ih => exact ih
  | @performed moments engine after held heldAfter command answer history run _ ih =>
    have fits := history.reachable.fits
    rw [leaves_of_perform run]
    by_cases isRender : command.IsRender
    · cases command with
      | tryRender mount head =>
        rw [Command.action, Action.leaves_of]
        exact ih.tryRender fits mount head
      | render mount head =>
        rw [Command.action, Action.leaves_of]
        exact ih.render fits mount head
      | _ => exact isRender.elim
    · have same : command.moments held engine = (command.registered held engine).map .registered := by
        cases command <;> first | rfl | exact absurd trivial isRender
      rw [same]
      exact ih.registered (Command.adds isRender held engine)

end Engine

end PageCompiler
