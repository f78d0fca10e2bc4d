import PageCompiler.Proofs.Engine.LockstepRenders
import PageCompiler.Proofs.Markup.Subtrees

/-!
# Elements of users

An element that was handed to a caller stays in the document for good. A render removes what it put into
the head and the script of the render before; no element of a user is below these, whatever was appended to
whatever, so that what is below an element of a user stays as it was, unless an element around the roots
has been put there. Writing the text of an element takes the elements in it out, each with all that is
below it.
-/

namespace PageCompiler

open Markup Steps

/-- Whether a node is one of the elements around the roots or the script of the last render. -/
def Shell.Has (shell : Shell) (id : NodeId) : Prop :=
  id = shell.html ∨ id = shell.head ∨ id = shell.body ∨ shell.script = some id

/-- Whether none of the elements around the roots is below a node. -/
def Engine.NoShellBelow (engine : Engine) (top : NodeId) : Prop :=
  ∀ shell, engine.shell = some shell → ∀ id, shell.Has id → ¬ engine.document.Below id top

/-- Whether all that can be read of an element is the same in two engines. -/
structure Element.Unchanged (element : Element) (before after : Engine) : Prop where
  markup : after.markup element = before.markup element
  text : after.text element = before.text element
  children : after.document.children element.node = before.document.children element.node
  attributes : ∀ name, after.attribute? element name = before.attribute? element name

namespace Markup.Document.Spares

/-- The edits of a page spare what is below a node when none of them is made there. -/
theorem pageEdits {origin : Document} {top : NodeId} (notText : origin.isText top = false) :
    PageEdits (Alone fun document => document.Spares origin top) (fun id => ¬ origin.Below id top)
      (fun id => id = top ∨ ¬ origin.Below id top) fun _ _ => True where
  createElement tag := (preserves_createElement tag).agrees
  setAttribute outside _ := (preserves_setAttribute outside _ _).agrees
  setTextContent content outside := (preserves_setTextContent outside notText content).agrees
  appendChild outside loose := (preserves_appendChild outside loose).agrees
  movable _ outside := Or.inr outside

end Markup.Document.Spares

/-- What is spared below an element can be read as before. -/
theorem Element.unchanged_of_spares {element : Element} {before after : Engine}
    (spares : after.document.Spares before.document element.node) : element.Unchanged before after where
  markup := by
    rw [Engine.markup, Engine.markup, Document.markup, Document.markup, spares.tree?]
  text := by
    rw [Engine.text, Engine.text, Document.textContent, Document.textContent, spares.tree?]
  children := spares.lists _ (Document.below_refl _)
  attributes name := by
    rw [Engine.attribute?, Engine.attribute?, spares.element?]

/-! ## Emptying the page -/

namespace RenderStep

/-- Edits at engines keep what they keep at documents. -/
theorem preserves_edit {α : Type} {claim : Document → Prop} {change : Edit α} {holds : α → Prop}
    (kept : Preserves claim change holds) :
    Preserves (fun engine => claim engine.document) (edit change) holds := by
  intro engine start
  have ends := kept engine.document start
  rw [edit, Engine.edit]
  cases run : change engine.document with
  | ok value document =>
    rw [run] at ends
    exact ends
  | error cause document =>
    rw [run] at ends
    exact ends

section Emptying

variable {frame : Frame} {origin : Document} {top id : NodeId} {shell : Shell} (user : frame.users top)

include user

/-- What need not be kept is not above the element of a user. -/
theorem preserves_remove (loose : ¬ frame.IsKept id) (outside : ¬ origin.Below id top) :
    Preserves (fun document => frame.Fits document ∧ document.Spares origin top) (Edit.remove id)
      fun _ => True := by
  rintro document ⟨fits, spares⟩
  have kept := Frame.preserves_remove loose document fits
  have spared := spares.remove outside fun below => fits.not_kept_of_below loose below (Or.inl user)
  rw [Document.after] at spared
  cases run : Edit.remove id document with
  | ok value changed =>
    rw [run] at kept spared
    exact ⟨⟨kept.1, spared⟩, trivial⟩
  | error cause changed =>
    rw [run] at kept spared
    exact ⟨kept, spared⟩

/-- The page is emptied, and no more. -/
theorem emptyPage_spares (known : frame.shell = some shell)
    (apart : ∀ id, shell.Has id → ¬ origin.Below id top) :
    Preserves (fun engine => frame.Fits engine.document ∧ engine.document.Spares origin top)
      (emptyPage shell) fun result => result = { shell with script := none } := by
  have cleared {id : NodeId} (outside : ¬ origin.Below id top)
      (inPage : ∀ document, frame.Fits document → id ≠ shell.html) :
      Preserves (fun document => frame.Fits document ∧ document.Spares origin top) (Edit.clearChildren id)
        fun children => id = shell.head → ∀ child ∈ children,
          ¬ frame.IsKept child ∧ ¬ origin.Below child top := by
    refine Preserves.given fun document ⟨fits, _⟩ => ?_
    have kept : Preserves frame.Fits (Edit.clearChildren id) fun children =>
        ∀ other, frame.shell = some other → id = other.head → ∀ child ∈ children, ¬ frame.IsKept child := by
      refine Frame.preserves_clearChildren fun other otherKnown _ => ?_
      rw [known, Option.some.injEq] at otherKnown
      rw [← otherKnown]
      exact inPage document fits
    refine (kept.both (Document.Spares.preserves_clearChildren outside)).weaken (fun _ start => start)
      ?_ fun _ ends => ends
    rintro children last ⟨⟨fits, unkept⟩, spares, loose⟩
    refine ⟨⟨fits, spares⟩, fun inHead child listed => ?_⟩
    have free := unkept shell known inHead child listed
    refine ⟨free, (loose child listed).resolve_left ?_⟩
    rintro rfl
    exact free (Or.inl user)
  have ended : Preserves (fun engine => frame.Fits engine.document ∧ engine.document.Spares origin top) (do
      modify fun engine => { engine with shell := some { shell with script := none } }
      return { shell with script := none } : RenderStep Shell)
      fun result => result = { shell with script := none } :=
    fun _ start => ⟨start, rfl⟩
  have outsideHead := apart shell.head (Or.inr (Or.inl rfl))
  have outsideBody := apart shell.body (Or.inr (Or.inr (Or.inl rfl)))
  unfold emptyPage
  refine (preserves_edit (cleared outsideHead fun _ fits => (fits.shell shell known).head_ne_html)).bind
    fun former loose => ?_
  have removedAll : Preserves (fun document => frame.Fits document ∧ document.Spares origin top)
      (former.forM fun child => Edit.remove child) fun _ => True := by
    refine Preserves.loop fun child listed => ?_
    obtain ⟨free, outside⟩ := loose rfl child listed
    exact preserves_remove user free outside
  refine (preserves_edit removedAll).andThen fun _ => ?_
  refine (preserves_edit (cleared outsideBody fun _ fits =>
    (fits.shell shell known).body_ne_html)).andThen fun _ => ?_
  cases scriptKnown : shell.script with
  | none => exact ended
  | some script =>
    have removed : Preserves (fun document => frame.Fits document ∧ document.Spares origin top)
        (Edit.remove script) fun _ => True := by
      refine Preserves.given fun _ ⟨fits, _⟩ => ?_
      exact preserves_remove user ((fits.shell shell known).script script scriptKnown).2
        (apart script (Or.inr (Or.inr (Or.inr scriptKnown))))
    exact (preserves_edit removed).andThen fun _ => ended

end Emptying

end RenderStep

/-- Steps that agree for an engine beside itself keep what is claimed of its document. -/
theorem Engine.Beside.preserves {α : Type} {claim : Document → Prop} {step : EStateM RenderError Engine α}
    {holds : α → Prop} (matched : ∀ engine : Engine, Matches (Engine.Beside (Alone claim) engine.origin) step
      step (fun value _ first second => holds value ∧ first.Beside (Alone claim) engine.origin second)
      (Engine.Beside (Alone claim) engine.origin)) :
    Preserves (fun engine => claim engine.document) step holds := by
  intro engine start
  have ends := matched engine engine engine (beside_self ⟨rfl, start⟩)
  generalize step engine = result at ends ⊢
  cases result with
  | ok value after => exact ⟨ends.2.document.2, ends.1⟩
  | error cause after => exact ends.2.document.2

namespace Engine

variable {engine : Engine} {users : NodeId → Prop} {top : NodeId}

/-- Roots that can be mounted are not taken out of what is below a node. -/
theorem NoShellBelow.loose_of_mountable (apart : engine.NoShellBelow top) {roots : List NodeId}
    (mountable : engine.Mountable roots) :
    ∀ root ∈ roots, root = top ∨ ¬ engine.document.Below root top := by
  intro root member
  refine Classical.or_iff_not_imp_left.mpr fun other below => ?_
  obtain ⟨parent, step, inside⟩ := (Document.below_iff_eq_or_parent.mp below).resolve_left other
  have free := mountable.free root member
  rw [host?, step, Option.filter_eq_none_iff] at free
  have inBody : some parent = engine.body? := by
    simpa using free parent rfl
  obtain ⟨shell, known, rfl⟩ := Option.map_eq_some_iff.mp inBody.symm
  exact apart shell known _ (Or.inr (Or.inr (Or.inl rfl))) inside

namespace Guards

variable (guards : engine.Guards users) (user : users top) (apart : engine.NoShellBelow top)

include guards user

theorem spares_self : engine.document.Spares engine.document top :=
  guards.fits.sound.forest.spares_self (guards.fits.contains_of_kept (Or.inl user))

theorem not_text : engine.document.isText top = false := by
  obtain ⟨data, found⟩ := Option.isSome_iff_exists.mp (guards.live user)
  exact Document.not_isText_of_element? found

/-- New elements around the roots are put next to everything else. -/
theorem withShell_spares : engine.document.withShell.Spares engine.document top := by
  have sound := guards.fits.sound
  have fresh (count : Nat) : ¬ engine.document.Below (engine.document.slots.size + count) top := by
    intro below
    have live := Document.lt_size_of_contains ((guards.spares_self user).contains below)
    exact Nat.not_lt.mpr (Nat.le_add_right _ _) live
  have parts : engine.document.withParts.Spares engine.document top :=
    (((guards.spares_self user).pushed _).pushed _).pushed _
  exact (parts.moved (fresh 0) (Or.inr (fresh 1)) (Document.appendProblem_head sound)).moved (fresh 0)
    (Or.inr (fresh 2)) (Document.appendProblem_body sound)

include apart

theorem resetShell_spares :
    Meets (fun state => state = engine) RenderStep.resetShell
      (fun shell state => state.document.Spares engine.document top ∧
        ∀ id, shell.Has id → ¬ engine.document.Below id top)
      fun state => state.document.Spares engine.document top := by
  intro state same
  obtain rfl : engine = state := same.symm
  cases known : engine.shell with
  | none =>
    have outside {id : NodeId} (fresh : engine.document.slots.size ≤ id) :
        ¬ engine.document.Below id top := fun below =>
      Nat.not_lt.mpr fresh (Document.lt_size_of_contains ((guards.spares_self user).contains below))
    have head := outside (Nat.le_add_right _ 1)
    have body := outside (Nat.le_add_right _ 2)
    rw [Within.resetShell_run guards.fits.sound known]
    refine ⟨((guards.withShell_spares user).cleared head).cleared body, ?_⟩
    rintro id (rfl | rfl | rfl | none)
    · exact outside (Nat.le_refl _)
    · exact head
    · exact body
    · cases none
  | some former =>
    have kept := RenderStep.emptyPage_spares user (show (engine.frame users).shell = some former from known)
      (apart former known)
    rw [RenderStep.resetShell, bind_of_ok (get_run engine), known]
    refine Meets.weaken kept (fun _ start => start) ?_ (fun _ ends => ends.2) engine
      ⟨guards.fits, guards.spares_self user⟩
    rintro shell after ⟨⟨_, spares⟩, rfl⟩
    refine ⟨spares, fun id has => apart former known id ?_⟩
    exact has.imp_right (Or.imp_right (Or.imp_right fun none => absurd none.symm (Option.some_ne_none id)))

/-- A render changes nothing below an element of a user. -/
theorem compile_spares (roots : List NodeId) (head : HeadConfig) :
    Meets (fun state => state = engine) (RenderStep.compile roots head)
      (fun _ state => state.document.Spares engine.document top)
      fun state => state.document.Spares engine.document top := by
  have edits := Document.Spares.pageEdits (guards.not_text user)
  have filled {shell : Shell} (outside : ∀ id, shell.Has id → ¬ engine.document.Below id top)
      (loose : ∀ root ∈ roots, root = top ∨ ¬ engine.document.Below root top) :
      Preserves (fun state => state.document.Spares engine.document top)
        (RenderStep.fillPage shell roots head) fun result => result = shell := by
    have agreed (state : Engine) : Agrees
        (Beside (Alone fun document => document.Spares engine.document top) state.origin)
        (RenderStep.fillPage shell roots head) (RenderStep.fillPage shell roots head)
        fun result => result = shell :=
      Beside.fillPage edits (outside _ (Or.inl rfl)) (outside _ (Or.inr (Or.inl rfl)))
        (outside _ (Or.inr (Or.inr (Or.inl rfl)))) loose fun _ _ _ _ _ _ => trivial
    exact Beside.preserves fun state => Matches.weaken (agreed state) (fun _ _ start => start)
      (fun _ _ _ _ ends => ends.2) fun _ _ ends => ends
  have finished {shell : Shell} (outside : ∀ id, shell.Has id → ¬ engine.document.Below id top) :
      Preserves (fun state => state.document.Spares engine.document top)
        (RenderStep.finish shell) fun _ => True := by
    have matched (state : Engine) : Matches
        (Beside (Alone fun document => document.Spares engine.document top) state.origin)
        (RenderStep.finish shell) (RenderStep.finish shell)
        (fun _ _ => Beside (Alone fun document => document.Spares engine.document top) state.origin)
        (Beside (Alone fun document => document.Spares engine.document top) state.origin) :=
      (Beside.composeScript rfl).andThen fun source =>
        Beside.placeScript edits (outside _ (Or.inr (Or.inr (Or.inl rfl)))) source
    exact Beside.preserves fun state => (matched state).weaken (fun _ _ start => start)
      (fun _ _ _ _ ends => ⟨trivial, ends⟩) fun _ _ ends => ends
  have prepared : Meets (fun state => state = engine) (RenderStep.prepare roots head)
      (fun shell state => state.document.Spares engine.document top ∧
        ∀ id, shell.Has id → ¬ engine.document.Below id top)
      fun state => state.document.Spares engine.document top := by
    intro state same
    obtain rfl : engine = state := same.symm
    rw [RenderStep.prepare, bind_of_ok (get_run engine)]
    dsimp only
    cases problem : RenderStep.mountProblem engine.document (engine.shell.map Shell.body) [] roots with
    | some cause => exact guards.spares_self user
    | none =>
      have loose := apart.loose_of_mountable
        ((RenderStep.mountProblem_eq_none_iff_mountable roots).mp problem)
      refine (guards.resetShell_spares user apart).bind (fun shell => ?_) engine rfl
      rintro state ⟨spares, outside⟩
      refine Meets.weaken (filled outside loose) (fun _ start => start) ?_ (fun _ ends => ends) state spares
      rintro result last ⟨ends, rfl⟩
      exact ⟨ends, outside⟩
  rw [RenderStep.compile_eq_prepare]
  refine prepared.bind fun shell => ?_
  rintro state ⟨spares, outside⟩
  exact Meets.weaken (finished outside) (fun _ start => start) (fun _ _ ends => ends.1) (fun _ ends => ends)
    state spares

theorem tryRender_spares (mount : List Element) (head : HeadConfig) :
    (Action.leaves (Action.tryRender mount head) engine).document.Spares engine.document top := by
  rw [Action.leaves, Action.tryRender]
  cases mount.find? fun root => !engine.owns root with
  | some root => exact guards.spares_self user
  | none =>
    have compiling : Guards { engine with phase := .compiling } users := ⟨guards.fits, guards.hooked⟩
    have ends := compiling.compile_spares user apart (mount.map Element.node) head _ rfl
    dsimp only
    cases run : RenderStep.compile (mount.map Element.node) head { engine with phase := .compiling } with
    | ok page after =>
      rw [run] at ends
      exact ends
    | error cause after =>
      rw [run] at ends
      exact ends

theorem render_spares (mount : List Element) (head : HeadConfig) :
    (Action.leaves (Action.render mount head) engine).document.Spares engine.document top := by
  have tried := guards.tryRender_spares user apart mount head
  rw [Action.leaves] at tried ⊢
  rw [Action.render]
  cases run : Action.tryRender mount head engine with
  | ok page after =>
    rw [run] at tried
    exact tried
  | error cause after =>
    rw [run] at tried
    exact tried

theorem renderCommand_spares {command : Command} (isRender : command.IsRender) (held : Held) :
    (command.perform held engine).2.2.document.Spares engine.document top := by
  have left : (command.perform held engine).2.2 = Action.leaves (command.action held) engine :=
    leaves_of_perform rfl
  rw [left]
  cases command with
  | tryRender mount head =>
    rw [Command.action, Action.leaves_of]
    exact guards.tryRender_spares user apart _ head
  | render mount head =>
    rw [Command.action, Action.leaves_of]
    exact guards.render_spares user apart _ head
  | _ => exact isRender.elim

end Guards

end Engine

/-! ## Writing texts -/

theorem Action.document_leaves_edit {α : Type} (change : Edit α) (engine : Engine) :
    (Action.leaves (Action.edit change) engine).document = engine.document.after change := by
  rw [Action.leaves, Action.edit, Engine.edit, Document.after]
  cases change engine.document <;> rfl

/-- What was in an element whose text is written has no parent any more. -/
theorem Markup.Edit.parent?_setTextContent {document : Document} (forest : document.Forest)
    {id child : NodeId} (step : document.parent? child = some id) (content : Text) :
    (document.after (Edit.setTextContent id content)).parent? child = none := by
  obtain ⟨data, found, host⟩ := forest.hosts step
  rw [Document.after_of_ok (Edit.setTextContent_run forest ⟨data, found, host⟩ content)]
  have released : (document.emptied id).parent? child = none := by
    rw [Document.emptied, Document.parent?_free, Document.parent?_cleared, if_pos step, ite_self]
  rw [Document.filled]
  split
  · exact released
  · rw [Document.parent?_grafted, if_neg, released]
    have live := Document.lt_size_of_contains (Document.contains_of_parent? step)
    rw [Document.emptied, Document.size_free, Document.cleared]
    simpa [Document.relinked] using Nat.ne_of_lt live

/-! ## Sessions -/

/-- What is held stays held. -/
theorem Engine.Leads.mem_elements {start engine : Engine} {given held : Held} {hookings : List Hooking}
    (leads : start.Leads given hookings engine held) {element : Element} (member : element ∈ given.elements) :
    element ∈ held.elements := by
  induction leads with
  | nothing => exact member
  | received _ _ ih => exact List.mem_append_left _ ih
  | noted _ _ ih => exact ih
  | @performed _ engine _ held _ command _ _ run ih =>
    rw [Command.perform] at run
    cases ran : command.action held engine with
    | ok reply last =>
      rw [ran] at run
      cases run
      exact List.mem_append_left _ ih
    | error cause last =>
      rw [ran] at run
      cases run
      exact ih

namespace Engine

variable {engine : Engine} {held : Held} {element : Element}

section New

variable {uid : Nat} {config : EngineConfig} {entropy : UInt64} {hookings : List Hooking}
  (leads : (Engine.new uid config entropy).Leads {} hookings engine held)

include leads

/-- An element that a caller was given is there for good, whatever the caller does. A render, whether it
succeeds or fails, changes nothing that can be read of it unless an element around the roots is below it.
When its text is written, the elements in it are taken out, each with everything below it. -/
theorem Leads.element_kept (member : element ∈ held.elements) (own : engine.owns element = true) :
    (∀ more last heldLast, engine.Leads held more last heldLast →
      element ∈ heldLast.elements ∧ last.owns element = true ∧
        (last.document.element? element.node).isSome) ∧
    (∀ command : Command, command.IsRender → engine.NoShellBelow element.node →
      element.Unchanged engine (command.perform held engine).2.2) ∧
    ∀ content, ∀ child ∈ engine.document.children element.node, (engine.document.element? child).isSome →
      (Action.leaves (Action.setText element content) engine).document.parent? child = none ∧
        (Action.leaves (Action.setText element content) engine).document.Spares engine.document child := by
  have wired := (leads.wired (wired_new uid config entropy)).1
  obtain ⟨users, guards, known⟩ := wired.guards
  have user := known element member own
  refine ⟨?_, ?_, ?_⟩
  · intro more last heldLast further
    obtain ⟨⟨wider, later, knownLater⟩, _, _⟩ := (further.wired wired).1
    have still := further.mem_elements member
    have ownLater : last.owns element = true := by
      rw [Engine.owns, (further.wired wired).2.uid]
      exact own
    exact ⟨still, ownLater, later.live (knownLater element still ownLater)⟩
  · intro command isRender apart
    exact Element.unchanged_of_spares (guards.renderCommand_spares user apart isRender held)
  · intro content child listed found
    have forest := guards.fits.sound.forest
    have step := forest.linked.mp listed
    rw [Action.setText, Action.document_leaves_edit]
    refine ⟨Edit.parent?_setTextContent forest step content, ?_⟩
    obtain ⟨data, childFound⟩ := Option.isSome_iff_exists.mp found
    have spared := Document.Spares.preserves_setTextContent (forest.not_below_child step)
      (Document.not_isText_of_element? childFound) content engine.document
      (forest.spares_self (Document.contains_of_parent? step))
    rw [Document.after]
    cases run : Edit.setTextContent element.node content engine.document with
    | ok value changed =>
      rw [run] at spared
      exact spared.1
    | error cause changed =>
      rw [run] at spared
      exact spared

end New

/-- A paragraph in an element that is in a page: the element is kept by another render, and the paragraph
when the text of the element is written. -/
theorem element_kept_of_rendered : ∃ hookings engine held element child,
    (Engine.new 0 {} 7).Leads {} hookings engine held ∧ element ∈ held.elements ∧ engine.shell.isSome ∧
      child ∈ engine.document.children element.node ∧
      element.Unchanged engine ((Command.tryRender [] {}).perform held engine).2.2 ∧
      (Action.leaves (Action.setText element "text".toList) engine).document.parent? child = none ∧
      (Action.leaves (Action.setText element "text".toList) engine).document.Spares engine.document child := by
  let element : Element := ⟨0, 0, "div".toList⟩
  obtain ⟨hookings, engine, held, leads, member, own, listed, found, shell, apart⟩ :
      ∃ hookings engine held, (Engine.new 0 {} 7).Leads {} hookings engine held ∧
        element ∈ held.elements ∧ engine.owns element = true ∧
        1 ∈ engine.document.children element.node ∧ (engine.document.element? 1).isSome ∧
        engine.shell = some ⟨2, 3, 4, some 10⟩ ∧
        ∀ id ∈ [2, 3, 4, 10], engine.document.isInclusiveAncestor element.node id = false := by
    have start : (Engine.new 0 {} 7).Leads {} [] (Engine.new 0 {} 7) {} := .nothing
    obtain ⟨hookings, leads⟩ := start.performsAll
      [.createElement "div".toList, .createChild 0 "p".toList, .tryRender [0] {}]
    exact ⟨_, _, _, leads, by decide +kernel⟩
  have unshelled : engine.NoShellBelow element.node := by
    intro known same id has below
    rw [shell, Option.some.injEq] at same
    subst same
    have above := (leads.forest.isInclusiveAncestor_iff element.node id).mpr below
    rw [apart id (by simpa [Shell.Has, eq_comm] using has)] at above
    cases above
  obtain ⟨_, renders, texts⟩ := leads.element_kept member own
  obtain ⟨released, spares⟩ := texts "text".toList 1 listed found
  exact ⟨hookings, engine, held, element, 1, leads, member, Option.isSome_of_eq_some shell, listed,
    renders (.tryRender [] {}) trivial unshelled, released, spares⟩

end Engine

end PageCompiler
