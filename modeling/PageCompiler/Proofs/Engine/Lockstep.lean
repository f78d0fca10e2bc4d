import PageCompiler.Proofs.Engine.SideBySide
import PageCompiler.Proofs.Engine.WholePages
import PageCompiler.Proofs.Identifier

/-!
# Engines in lockstep

Two engines whose documents are related stay side by side while the same commands are given to both: what
an engine does depends on its document only through what related documents have in common. They may have
been told differently whether to shrink scripts, which matters to renders alone, and their journals and
last pages are not compared.
-/

namespace PageCompiler

open Markup Steps

/-- What two engines come from: the settings of the first one, whether the second one shrinks scripts, and
the allocator that the identifiers of both are issued by. -/
structure Engine.Origin where
  config : EngineConfig
  minify : Bool
  ids : Identifier.Allocator

/-- Two engines with related documents that differ, besides, at most in their journals, their last pages
and whether they shrink scripts. -/
structure Engine.Beside (related : Document → Document → Prop) (origin : Engine.Origin)
    (first second : Engine) : Prop where
  document : related first.document second.document
  uid : second.uid = first.uid
  config : first.config = origin.config
  otherConfig : second.config = { origin.config with minifyScript := origin.minify }
  ids : second.ids = first.ids
  issued : origin.ids.Reaches first.ids
  buffers : second.buffers = first.buffers
  hooked : second.hooked = first.hooked
  shell : second.shell = first.shell
  phase : second.phase = first.phase
  rendered : second.lastRendered.isSome = first.lastRendered.isSome

/-- An engine as what it comes from itself. -/
def Engine.origin (engine : Engine) : Engine.Origin where
  config := engine.config
  minify := engine.config.minifyScript
  ids := engine.ids

/-- An engine is beside itself when its document is related to itself. -/
theorem Engine.beside_self {related : Document → Document → Prop} {engine : Engine}
    (document : related engine.document engine.document) : engine.Beside related engine.origin engine :=
  ⟨document, rfl, rfl, rfl, rfl, Identifier.Allocator.reaches_self _, rfl, rfl, rfl, rfl, rfl⟩

/-- Whether a change of an element writes only identifiers that it may have. A hook may have to write any
identifier. -/
def Change.Permitted (leeway : Leeway) (node : NodeId) : Change → Prop
  | .setId id => leeway.names node id
  | .setAttribute name value => leeway.Permits node name value
  | .bindText _ _ => ∀ id, leeway.names node id
  | .registerReference _ => ∀ id, leeway.names node id
  | .on _ _ => ∀ id, leeway.names node id
  | _ => True

namespace Engine.Beside

section Related

variable {related : Document → Document → Prop} {origin : Engine.Origin} {first second : Engine} {α : Type}

theorem append (beside : first.Beside related origin second) :
    second.config.append = first.config.append := by
  rw [beside.otherConfig, beside.config]

theorem owns (beside : first.Beside related origin second) (element : Element) :
    second.owns element = first.owns element := by
  rw [Engine.owns, Engine.owns, beside.uid]

/-- Edits at engines agree as they do at documents. -/
theorem edit {ε : Type} {wrap : DomError → ε} {change otherChange : Edit α} {holds : α → Prop}
    (agreed : Agrees related change otherChange holds) :
    Agrees (Engine.Beside related origin) (Engine.edit wrap change) (Engine.edit wrap otherChange)
      holds := by
  intro first second beside
  have ends := agreed first.document second.document beside.document
  rw [Engine.edit, Engine.edit]
  generalize change first.document = result at ends ⊢
  generalize otherChange second.document = otherResult at ends ⊢
  cases result <;> cases otherResult
  · exact ⟨ends.1, ends.2.1, { beside with document := ends.2.2 }⟩
  · exact ends.elim
  · exact ends.elim
  · exact ⟨congrArg wrap ends.1, { beside with document := ends.2 }⟩

theorem action {change : Edit α} {holds : α → Prop} (agreed : Agrees related change change holds) :
    Agrees (Engine.Beside related origin) (Action.edit change) (Action.edit change) holds :=
  edit agreed

theorem attempt {change : Edit α} {holds : α → Prop} (agreed : Agrees related change change holds) :
    Agrees (Engine.Beside related origin) (Action.attempt change) (Action.attempt change)
      fun _ => True := by
  intro first second beside
  have ends := agreed first.document second.document beside.document
  rw [Action.attempt, Action.attempt]
  generalize change first.document = result at ends ⊢
  generalize change second.document = otherResult at ends ⊢
  cases result <;> cases otherResult
  · exact ⟨congrArg Except.ok ends.1, trivial, { beside with document := ends.2.2 }⟩
  · exact ends.elim
  · exact ends.elim
  · exact ⟨congrArg Except.error ends.1, trivial, { beside with document := ends.2 }⟩

theorem report (event otherEvent : Event) : Agrees (Engine.Beside related origin) (Action.report event)
    (Action.report otherEvent) fun _ => True :=
  Agrees.update fun _ _ beside => { beside with }

theorem allocate {ids : Identifier.Allocator} (issued : origin.ids.Reaches ids) :
    Agrees (Engine.Beside related origin) (modify fun engine => { engine with ids } : Action PUnit)
      (modify fun engine => { engine with ids }) fun _ => True :=
  Agrees.update fun _ _ beside => { beside with ids := rfl, issued }

theorem collect (buffers : Buffers) : Agrees (Engine.Beside related origin)
    (modify fun engine => { engine with buffers } : Action PUnit)
    (modify fun engine => { engine with buffers }) fun _ => True :=
  Agrees.update fun _ _ beside => { beside with buffers := rfl }

theorem updateBuffers {ε : Type} (wrap : ε → Error) (change : Buffers → Except ε Buffers) :
    Agrees (Engine.Beside related origin) (Action.updateBuffers wrap change)
      (Action.updateBuffers wrap change) fun _ => True := by
  refine Matches.read fun first second beside => ?_
  rw [beside.buffers]
  split
  · exact collect _
  · exact Agrees.failure _

theorem restyle (styles : Stylesheet) : Agrees (Engine.Beside related origin)
    (modify fun engine => { engine with buffers.styles := styles } : Action PUnit)
    (modify fun engine => { engine with buffers.styles := styles }) fun _ => True :=
  Agrees.update fun first second beside => { beside with buffers := by rw [beside.buffers] }

theorem checkHandler (handler : Handler) : Agrees (Engine.Beside related origin)
    (Action.checkHandler handler) (Action.checkHandler handler) fun _ => True := by
  rw [Action.checkHandler]
  split
  · exact Agrees.result trivial
  · exact Agrees.failure _

theorem defineStyle (name : Text) (declarations : Declarations) (raw : Bool) :
    Agrees (Engine.Beside related origin) (Action.defineStyle name declarations raw)
      (Action.defineStyle name declarations raw) fun _ => True := by
  refine Matches.read fun first second beside => ?_
  rw [beside.buffers]
  split
  · exact (restyle _).andThen fun _ => Agrees.result trivial
  · exact (report _ _).andThen fun _ => Agrees.result trivial

theorem setState (key : Text) (value : Json.Value) : Agrees (Engine.Beside related origin)
    (Action.setState key value) (Action.setState key value) fun _ => True := by
  refine Matches.read fun first second beside => ?_
  rw [beside.buffers]
  refine (Agrees.update fun first second beside => ?_).andThen fun _ => Agrees.result trivial
  exact { beside with buffers := by rw [beside.buffers] }

end Related

/-! ## Changes of elements -/

section Changes

variable {leeway : Leeway} {origin : Engine.Origin} {element : Element}

theorem setAttribute {node : NodeId} {name value : Text} (permitted : leeway.Permits node name value) :
    Agrees (Engine.Beside leeway.Beside origin) (Action.edit (Edit.setAttribute node name value))
      (Action.edit (Edit.setAttribute node name value)) fun _ => True :=
  action (Leeway.agrees_setAttribute permitted)

theorem setId {id : Text} (permitted : leeway.names element.node id) :
    Agrees (Engine.Beside leeway.Beside origin) (Action.setId element id) (Action.setId element id)
      fun _ => True := by
  refine Matches.read fun first second beside => ?_
  dsimp only
  rw [beside.document.attribute?, beside.hooked]
  split
  · exact Agrees.failure _
  · exact setAttribute fun _ => permitted

theorem generateScopedClass (declarations : Declarations) : Agrees (Engine.Beside leeway.Beside origin)
    (Action.generateScopedClass element declarations) (Action.generateScopedClass element declarations)
      fun _ => True := by
  refine Matches.read fun first second beside => ?_
  rw [beside.ids]
  refine (allocate (beside.issued.issue .className)).andThen fun _ =>
    Matches.read fun first second beside => ?_
  rw [beside.buffers]
  split
  · exact (restyle _).andThen fun _ => action (Leeway.agrees_addClasses _ _)
  · exact report _ _

theorem ensureIdentifier {node : NodeId} (permitted : ∀ id, leeway.names node id) :
    Agrees (Engine.Beside leeway.Beside origin) (Action.ensureIdentifier node)
      (Action.ensureIdentifier node) fun _ => True := by
  have hooked (id : Text) : Agrees (Engine.Beside leeway.Beside origin) (do
      modify fun engine =>
        if engine.hooked.contains node then engine else { engine with hooked := node :: engine.hooked }
      return id : Action Text) (do
      modify fun engine =>
        if engine.hooked.contains node then engine else { engine with hooked := node :: engine.hooked }
      return id) fun _ => True := by
    refine (Agrees.update fun first second beside => ?_).andThen fun _ => Agrees.result trivial
    rw [beside.hooked]
    split
    · exact beside
    · exact { beside with hooked := rfl }
  refine Matches.read fun first second beside => ?_
  rw [beside.document.attribute?, beside.ids]
  split
  · exact hooked _
  · exact (allocate (beside.issued.issue .element)).andThen fun _ =>
      (setAttribute fun _ => permitted _).andThen fun _ => hooked _

/-- Whatever is done to an element is done to both. -/
theorem change {what : Change} (permitted : what.Permitted leeway element.node) :
    Agrees (Engine.Beside leeway.Beside origin) (what.action element) (what.action element)
      fun _ => True := by
  cases what with
  | setId id => exact setId permitted
  | setText content => exact action (Leeway.agrees_setTextContent _ content)
  | setAttribute name value =>
    exact Agrees.branch (fun own => setId (permitted own)) fun _ => setAttribute permitted
  | setInlineStyle declarations =>
    exact action (Agrees.loop fun _ _ => Leeway.agrees_setStyle _ _ _)
  | addClasses classes => exact action (Agrees.loop fun _ _ => Leeway.agrees_addClasses _ _)
  | generateScopedClass declarations => exact generateScopedClass declarations
  | bindText key transform =>
    exact (Agrees.optional fun handler _ => checkHandler handler).andThen fun _ =>
      (ensureIdentifier permitted).andThen fun _ => updateBuffers _ _
  | registerReference name =>
    refine (ensureIdentifier permitted).andThen fun _ => Agrees.update fun first second beside => ?_
    exact { beside with buffers := by rw [beside.buffers] }
  | on event handler =>
    exact (checkHandler handler).andThen fun _ =>
      (ensureIdentifier permitted).andThen fun _ => updateBuffers _ _

end Changes

/-! ## Creating and appending -/

section Appending

variable {leeway : Leeway} {origin : Engine.Origin}

theorem createElement (tag : Text) : Agrees (Engine.Beside leeway.Beside origin)
    (Action.createElement tag) (Action.createElement tag) fun _ => True := by
  refine (action (Leeway.agrees_createElement tag)).andThen fun node =>
    Matches.read fun first second beside => ?_
  rw [beside.uid, beside.document.tag?]
  exact Agrees.result trivial

theorem createText (content : Text) : Agrees (Engine.Beside leeway.Beside origin)
    (Action.createText content) (Action.createText content) fun _ => True :=
  action (Leeway.agrees_createText content)

theorem appendChild (host child : NodeId) : Agrees (Engine.Beside leeway.Beside origin)
    (Action.attempt (Edit.appendChild host child)) (Action.attempt (Edit.appendChild host child))
      fun _ => True :=
  attempt (Leeway.agrees_appendChild host child)

theorem createChild (host : Element) (tag : Text) : Agrees (Engine.Beside leeway.Beside origin)
    (Action.createChild host tag) (Action.createChild host tag) fun _ => True := by
  refine (createElement tag).andThen fun element => (appendChild _ _).andThen fun outcome => ?_
  split
  · exact Agrees.result trivial
  · exact (attempt (Leeway.agrees_remove _)).andThen fun _ => Agrees.failure _

theorem appendItem (host : Element) (item : Item) : Agrees (Engine.Beside leeway.Beside origin)
    (Action.appendItem host item) (Action.appendItem host item) fun _ => True := by
  have attached : Agrees (Engine.Beside leeway.Beside origin) (Action.attach host item)
      (Action.attach host item) fun _ => True := by
    cases item with
    | element element =>
      refine Matches.read fun first second beside => ?_
      rw [beside.owns]
      refine Agrees.branch (fun _ => ?_) fun _ => Agrees.result trivial
      refine (appendChild _ _).andThen fun outcome => ?_
      split <;> exact Agrees.result trivial
    | node id =>
      refine (appendChild _ _).andThen fun outcome => ?_
      split <;> exact Agrees.result trivial
    | text content =>
      refine (createText content).andThen fun node => (appendChild _ _).andThen fun outcome => ?_
      split
      · exact Agrees.result trivial
      · exact (attempt (Leeway.agrees_remove node)).andThen fun _ => Agrees.result trivial
  refine attached.andThen fun problem => ?_
  split
  · exact Agrees.result trivial
  · refine Matches.read fun first second beside => ?_
    rw [beside.append]
    split
    · exact Agrees.failure _
    · exact report _ _

end Appending

end Engine.Beside

/-! ## Commands -/

/-- What two replies hand out is the same. -/
def Reply.SameGifts (reply other : Reply) : Prop :=
  other.element = reply.element ∧ other.node = reply.node

/-- Whether a command writes only identifiers that elements may have. -/
def Command.Permitted (leeway : Leeway) (held : Held) (engine : Engine) : Command → Prop
  | .change place what => ∀ element, held.elements[place]? = some element → engine.owns element = true →
    what.Permitted leeway element.node
  | _ => True

/-- Whether two actions at two engines hand out the same, or fail, and leave the engines side by side. -/
def Engine.Beside.Replies (related : Document → Document → Prop) (origin : Engine.Origin)
    (before : Engine → Engine → Prop) (action other : Action Reply) : Prop :=
  Matches before action other
    (fun reply otherReply last otherLast =>
      reply.SameGifts otherReply ∧ last.Beside related origin otherLast)
    (Engine.Beside related origin)

namespace Engine.Beside

variable {leeway : Leeway} {origin : Engine.Origin} {first second : Engine} {held : Held}

/-- Something is done with an element that is held, or nothing. -/
theorem use (beside : first.Beside leeway.Beside origin second) {place : Nat}
    {action : Element → Action Reply}
    (replies : ∀ element, held.elements[place]? = some element → first.owns element = true →
      Replies leeway.Beside origin (Engine.Beside leeway.Beside origin) (action element) (action element)) :
    Replies leeway.Beside origin (fun engine other => engine = first ∧ other = second)
      (held.use place action) (held.use place action) := by
  rintro engine other ⟨same, otherSame⟩
  obtain rfl : first = engine := same.symm
  obtain rfl : second = other := otherSame.symm
  by_cases known : ∃ element, held.elements[place]? = some element ∧ first.owns element = true
  · obtain ⟨element, found, own⟩ := known
    rw [Held.use_run found own, Held.use_run found ((beside.owns element).trans own)]
    exact replies element found own first second beside
  · rw [Held.use_run_elsewhere known]
    simp only [← beside.owns] at known
    rw [Held.use_run_elsewhere known]
    exact ⟨⟨rfl, rfl⟩, beside⟩

/-- Every command but one that renders or reads the last page does the same at both engines. -/
theorem command (beside : first.Beside leeway.Beside origin second) {command : Command}
    (permitted : command.Permitted leeway held first) (renders : ¬ command.IsRender)
    (output : command ≠ .output) (trySave : ∀ files here path, command ≠ .trySave files here path)
    (save : ∀ files here path, command ≠ .save files here path) :
    Replies leeway.Beside origin (fun engine other => engine = first ∧ other = second)
      (command.action held) (command.action held) := by
  have here {action other : Action Reply}
      (replies : Replies leeway.Beside origin (Engine.Beside leeway.Beside origin) action other) :
      Replies leeway.Beside origin (fun engine other => engine = first ∧ other = second) action other := by
    refine Matches.weaken replies ?_ (fun _ _ _ _ ends => ends) fun _ _ ends => ends
    rintro _ _ ⟨rfl, rfl⟩
    exact beside
  have replied {reply other : Engine → Reply}
      (same : ∀ engine second, engine.Beside leeway.Beside origin second →
        (reply engine).SameGifts (other second)) :
      Replies leeway.Beside origin (Engine.Beside leeway.Beside origin)
        (get >>= fun engine => pure (reply engine)) (get >>= fun engine => pure (other engine)) :=
    Matches.read fun engine second beside => fun _ _ start => ⟨same engine second beside, start⟩
  have asked (answer : Engine → Answer) :
      Replies leeway.Beside origin (Engine.Beside leeway.Beside origin)
        (get >>= fun engine => pure { answer := answer engine })
        (get >>= fun engine => pure { answer := answer engine }) :=
    replied fun _ _ _ => ⟨rfl, rfl⟩
  have given {α : Type} {action : Action α} {holds : α → Prop}
      (agreed : Agrees (Engine.Beside leeway.Beside origin) action action holds)
      (reply : α → Reply) : Replies leeway.Beside origin (Engine.Beside leeway.Beside origin)
        (action >>= fun value => pure (reply value)) (action >>= fun value => pure (reply value)) :=
    agreed.andThen fun value => fun _ _ start => ⟨⟨rfl, rfl⟩, start⟩
  cases command with
  | createElement tag => exact here (given (createElement tag) _)
  | createText content => exact here (given (createText content) _)
  | createChild host tag => exact beside.use fun element _ _ => given (createChild element tag) _
  | change place what =>
    exact beside.use fun element found own => given (change (permitted element found own)) _
  | append host pieces =>
    exact beside.use fun element _ _ => given (Agrees.loop fun item _ => appendItem element item) _
  | node place => exact beside.use fun element _ _ => fun _ _ start => ⟨⟨rfl, rfl⟩, start⟩
  | child place index =>
    refine beside.use fun element _ _ => replied fun engine second beside => ⟨rfl, ?_⟩
    rw [beside.document.lists]
  | markup place => exact beside.use fun element _ _ => asked _
  | attributeOf place name => exact beside.use fun element _ _ => asked _
  | text place => exact beside.use fun element _ _ => asked _
  | hasClass place name => exact beside.use fun element _ _ => asked _
  | tryDefineStyle name declarations raw => exact here (given (updateBuffers _ _) _)
  | defineStyle name declarations raw => exact here (given (defineStyle name declarations raw) _)
  | setState key value => exact here (given (setState key value) _)
  | onLoad handler => exact here (given (updateBuffers _ _) _)
  | stateValue key => exact here (asked _)
  | reference name => exact here (asked _)
  | pending => exact here (asked _)
  | phase => exact here (asked _)
  | tryRender mount head => exact absurd trivial renders
  | render mount head => exact absurd trivial renders
  | output => exact absurd rfl output
  | trySave files here path => exact absurd rfl (trySave files here path)
  | save files here path => exact absurd rfl (save files here path)

end Engine.Beside

theorem Held.receive_answer (held : Held) (answer : Answer) : held.receive { answer } = held :=
  congrArg₂ Held.mk (List.append_nil _) (List.append_nil _)

/-- An action whose result is all that is answered changes nothing of what is held. -/
theorem Command.perform_of {α : Type} {held : Held} {command : Command} {answer : α → Answer}
    {action : Action α} (same : command.action held = Reply.of answer action) (engine : Engine) :
    (command.perform held engine).2 = (held, Action.leaves action engine) := by
  rw [perform, same, Reply.of, bind_run, Action.leaves]
  cases action engine with
  | ok value after => exact congrArg (·, after) (held.receive_answer _)
  | error cause after => rfl

/-- Reading or saving the last page changes nothing but the journal. -/
theorem Command.perform_page {held : Held} {command : Command}
    (page : command = .output ∨ (∃ files here path, command = .trySave files here path) ∨
      ∃ files here path, command = .save files here path) (engine : Engine) :
    ∃ journal, (command.perform held engine).2 = (held, { engine with journal }) := by
  have read : Preserves (fun state => ∃ journal, state = { engine with journal }) Action.output
      fun _ => True := by
    refine Preserves.state.andThen fun _ => ?_
    split
    · exact Preserves.result trivial
    · exact Preserves.failure _
  have reported (event : Event) (state : Engine) (only : ∃ journal, state = { engine with journal }) :
      ∃ journal, state.report event = { engine with journal } := by
    obtain ⟨journal, rfl⟩ := only
    exact ⟨_, rfl⟩
  have saved (files : FileTree) (here : List Text) (path : Path) :
      Preserves (fun state => ∃ journal, state = { engine with journal })
        (Action.trySave files here path) fun _ => True := by
    refine read.andThen fun page => ?_
    split
    · exact (Preserves.update (reported _)).andThen fun _ => Preserves.result trivial
    · exact Preserves.failure _
  have left {α : Type} {action : Action α} {answer : α → Answer}
      (kept : Preserves (fun state => ∃ journal, state = { engine with journal }) action fun _ => True)
      (same : command.action held = Reply.of answer action) :
      ∃ journal, (command.perform held engine).2 = (held, { engine with journal }) := by
    have start : ∃ journal, engine = { engine with journal } := ⟨engine.journal, rfl⟩
    have ends := kept engine start
    rw [perform_of same, Action.leaves]
    cases run : action engine with
    | ok value after =>
      rw [run] at ends
      exact ends.1.imp fun _ => congrArg (held, ·)
    | error cause after =>
      rw [run] at ends
      exact ends.imp fun _ => congrArg (held, ·)
  rcases page with rfl | ⟨files, here, path, rfl⟩ | ⟨files, here, path, rfl⟩
  · exact left read rfl
  · exact left (saved files here path) rfl
  · refine left (fun state only => ?_) rfl
    rw [Action.save]
    cases run : Action.trySave files here path state with
    | ok value after => exact ⟨((saved files here path).ok only run).1, trivial⟩
    | error cause after => exact ⟨reported _ after ((saved files here path).error only run), trivial⟩

namespace Engine.Beside

variable {leeway : Leeway} {origin : Engine.Origin} {first second : Engine} {held : Held}

theorem perform (beside : first.Beside leeway.Beside origin second) {command : Command}
    (permitted : command.Permitted leeway held first) (renders : ¬ command.IsRender) :
    (command.perform held second).2.1 = (command.perform held first).2.1 ∧
      (command.perform held first).2.2.Beside leeway.Beside origin (command.perform held second).2.2 := by
  by_cases page : command = .output ∨ (∃ files here path, command = .trySave files here path) ∨
      ∃ files here path, command = .save files here path
  · obtain ⟨journal, same⟩ := @Command.perform_page held command page first
    obtain ⟨otherJournal, otherSame⟩ := @Command.perform_page held command page second
    rw [same, otherSame]
    exact ⟨rfl, { beside with }⟩
  · simp only [not_or, not_exists] at page
    obtain ⟨output, trySave, save⟩ := page
    have ends := beside.command permitted renders output trySave save first second ⟨rfl, rfl⟩
    rw [Command.perform, Command.perform]
    generalize command.action held first = result at ends ⊢
    generalize command.action held second = otherResult at ends ⊢
    cases result <;> cases otherResult
    · obtain ⟨⟨element, node⟩, after⟩ := ends
      refine ⟨?_, after⟩
      dsimp only
      rw [Held.receive, Held.receive, element, node]
    · exact ends.elim
    · exact ends.elim
    · exact ⟨rfl, ends.2⟩

end Engine.Beside

end PageCompiler
