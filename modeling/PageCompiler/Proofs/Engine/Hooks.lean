import PageCompiler.Proofs.Engine.Registrations
import PageCompiler.Proofs.Engine.Renders

/-!
# Hooks

Listeners, bindings and references need the identifier of an element, and lock it. Handlers are checked
before an identifier is generated, so a hook that is refused for its handler changes nothing. The name of
an event is only checked afterwards: a listener for a name that is not valid fails once its element has
an identifier and is hooked.
-/

namespace PageCompiler

open Markup Steps

/-- Whether a change of an element needs its identifier. -/
def Change.NeedsIdentifier : Change → Prop
  | .bindText _ _ => True
  | .registerReference _ => True
  | .on _ _ => True
  | _ => False

namespace Engine

/-- The engine once an element is hooked. -/
def withHook (engine : Engine) (node : NodeId) : Engine :=
  if engine.hooked.contains node then engine else { engine with hooked := node :: engine.hooked }

/-- An identifier that is not empty. -/
def namedId? (engine : Engine) (node : NodeId) : Option Text :=
  match engine.document.attribute? node "id".toList with
  | some (first :: rest) => some (first :: rest)
  | _ => none

/-- Whether an element is hooked and has an identifier. -/
def IsHooked (engine : Engine) (node : NodeId) : Prop :=
  node ∈ engine.hooked ∧ (engine.namedId? node).isSome

/-- The engine once an identifier was generated for an element. -/
def withNewId (engine : Engine) (node : NodeId) : Engine :=
  { engine with
    ids := engine.ids.element.2
    document := engine.document.withData node fun data =>
      data.setAttribute "id".toList engine.ids.element.1 }

/-- The identifier that an element has once it is hooked. -/
def idFor (engine : Engine) (node : NodeId) : Text :=
  (engine.namedId? node).getD engine.ids.element.1

/-- The engine once an element has an identifier and is hooked. -/
def identified (engine : Engine) (node : NodeId) : Engine :=
  match engine.namedId? node with
  | some _ => engine.withHook node
  | none => (engine.withNewId node).withHook node

variable {engine : Engine} {node : NodeId}

theorem buffers_withHook (engine : Engine) (node : NodeId) :
    (engine.withHook node).buffers = engine.buffers := by
  rw [withHook]
  split <;> rfl

theorem document_withHook (engine : Engine) (node : NodeId) :
    (engine.withHook node).document = engine.document := by
  rw [withHook]
  split <;> rfl

theorem mem_hooked_withHook (engine : Engine) (node : NodeId) :
    node ∈ (engine.withHook node).hooked := by
  rw [withHook]
  split
  · next known => exact List.contains_iff_mem.mp known
  · exact List.mem_cons_self

theorem withHook_of_mem (hooked : node ∈ engine.hooked) : engine.withHook node = engine :=
  if_pos (List.contains_iff_mem.mpr hooked)

theorem buffers_identified (engine : Engine) (node : NodeId) :
    (engine.identified node).buffers = engine.buffers := by
  rw [identified]
  split <;> exact buffers_withHook _ node

theorem mem_hooked_identified (engine : Engine) (node : NodeId) :
    node ∈ (engine.identified node).hooked := by
  rw [identified]
  split <;> exact mem_hooked_withHook _ node

/-- Every identifier that is issued counts. -/
theorem count_element (allocator : Identifier.Allocator) :
    allocator.element.2.elements.count = allocator.elements.count + 1 := by
  rw [Identifier.Allocator.element, Identifier.Series.next.eq_def]
  cases allocator.strategy <;> rfl

theorem ids_withHook (engine : Engine) (node : NodeId) :
    (engine.withHook node).ids = engine.ids := by
  rw [withHook]
  split <;> rfl

theorem count_identified (unnamed : engine.namedId? node = none) :
    (engine.identified node).ids.elements.count = engine.ids.elements.count + 1 := by
  rw [identified, unnamed, ids_withHook, withNewId, count_element]

/-- Only an element that is hooked and has an identifier stays as it was. -/
theorem identified_eq_self_iff : engine.identified node = engine ↔ engine.IsHooked node := by
  constructor
  · intro same
    refine ⟨?_, ?_⟩
    · rw [← same]
      exact mem_hooked_identified engine node
    · cases named : engine.namedId? node with
      | some id => rfl
      | none =>
        have issued := count_identified named
        rw [same] at issued
        omega
  · rintro ⟨hooked, named⟩
    obtain ⟨id, found⟩ := Option.isSome_iff_exists.mp named
    rw [identified, found]
    exact withHook_of_mem hooked

end Engine

namespace Action

variable {engine : Engine} {element : Element} {node : NodeId}

/-- An identifier is only generated where there is none. -/
theorem ensureIdentifier_eq (node : NodeId) (engine : Engine) :
    ensureIdentifier node engine =
      match engine.namedId? node with
      | some id => .ok id (engine.withHook node)
      | none =>
        (do
          edit (Edit.setAttribute node "id".toList engine.ids.element.1)
          modify fun engine => engine.withHook node
          return engine.ids.element.1 : Action Text) { engine with ids := engine.ids.element.2 } := by
  rw [ensureIdentifier, bind_of_ok (get_run engine), Engine.namedId?]
  rcases engine.document.attribute? node "id".toList with _ | _ | _ <;> rfl

/-- A live element gets an identifier and is hooked. -/
theorem ensureIdentifier_run (live : (engine.document.element? node).isSome) :
    ensureIdentifier node engine = .ok (engine.idFor node) (engine.identified node) := by
  obtain ⟨data, found⟩ := Option.isSome_iff_exists.mp live
  rw [ensureIdentifier_eq, Engine.idFor, Engine.identified]
  cases engine.namedId? node with
  | some id => rfl
  | none =>
    have valid : isAttributeName "id".toList = true := by decide
    have written : edit (Edit.setAttribute node "id".toList engine.ids.element.1)
        { engine with ids := engine.ids.element.2 } = .ok () (engine.withNewId node) := by
      rw [edit, Engine.edit, Edit.setAttribute_run found valid]
      rfl
    dsimp only
    rw [bind_of_ok written]
    rfl

/-- Nothing else gets one, though it is used up. -/
theorem ensureIdentifier_run_missing (gone : engine.document.element? node = none) :
    ensureIdentifier node engine =
      .error (.elementCreation (Edit.elementProblem engine.document node))
        { engine with ids := engine.ids.element.2 } := by
  have unnamed : engine.namedId? node = none := by
    rw [Engine.namedId?, Document.attribute?, gone]
    rfl
  have valid : isAttributeName "id".toList = true := by decide
  have refused : edit (Edit.setAttribute node "id".toList engine.ids.element.1)
      { engine with ids := engine.ids.element.2 } =
        .error (.elementCreation (Edit.elementProblem engine.document node))
          { engine with ids := engine.ids.element.2 } := by
    rw [edit, Engine.edit, Edit.setAttribute_run_missing gone valid]
  rw [ensureIdentifier_eq, unnamed]
  dsimp only
  rw [bind_of_error refused]

/-! ## Runs of hooks -/

theorem checkHandler_run {handler : Handler} (valid : handler.validate = .ok ()) :
    checkHandler handler engine = .ok () engine := by
  rw [checkHandler, valid]
  rfl

theorem checkHandler_run_invalid {handler : Handler} {cause : HandlerError}
    (invalid : handler.validate = .error cause) :
    checkHandler handler engine = .error (.invalidHandler cause) engine := by
  rw [checkHandler, invalid]
  rfl

theorem on_run_invalid {handler : Handler} {cause : HandlerError}
    (invalid : handler.validate = .error cause) (event : Text) :
    on element event handler engine = .error (.invalidHandler cause) engine := by
  rw [on, bind_of_error (checkHandler_run_invalid invalid)]

/-- The name of an event is checked once the element is hooked. -/
theorem on_run (live : (engine.document.element? element.node).isSome) {handler : Handler}
    (valid : handler.validate = .ok ()) (event : Text) :
    on element event handler engine =
      if Behavior.isEventName event then
        .ok () ((engine.identified element.node).collect
          (.behavior (.event (engine.idFor element.node) event handler)))
      else .error (.invalidHandler (.invalidEventName event)) (engine.identified element.node) := by
  have recorded := BehaviorLog.recordEvent_of_valid (engine.identified element.node).buffers.behaviors
    valid (engine.idFor element.node) event
  rw [on, bind_of_ok (checkHandler_run valid), bind_of_ok (ensureIdentifier_run live)]
  split
  · next named =>
    rw [if_pos named] at recorded
    exact updateBuffers_run (congrArg _ recorded)
  · next unnamed =>
    rw [if_neg unnamed] at recorded
    exact updateBuffers_run_refused (congrArg _ recorded)

theorem registerReference_run (live : (engine.document.element? element.node).isSome) (name : Text) :
    registerReference element name engine =
      .ok () ((engine.identified element.node).collect
        (.reference name (engine.idFor element.node))) := by
  rw [registerReference, bind_of_ok (ensureIdentifier_run live)]
  rfl

theorem bindText_run_invalid {handler : Handler} {cause : HandlerError}
    (invalid : handler.validate = .error cause) (key : Text) :
    bindText element key (some handler) engine = .error (.invalidHandler cause) engine := by
  have refused : (some handler).forM checkHandler engine = .error (.invalidHandler cause) engine :=
    checkHandler_run_invalid invalid
  rw [bindText, bind_of_error refused]

/-- Either no handler is refused, or there is one and it is. -/
theorem valid_or_refused (transform : Option Handler) :
    (∀ handler ∈ transform, handler.validate = .ok ()) ∨
      ∃ handler cause, transform = some handler ∧ handler.validate = .error cause := by
  cases transform with
  | none => exact Or.inl (by simp)
  | some handler =>
    cases checked : handler.validate with
    | ok _ => exact Or.inl (by simpa using checked)
    | error cause => exact Or.inr ⟨handler, cause, rfl, checked⟩

theorem checkHandlers_run {transform : Option Handler}
    (valid : ∀ handler ∈ transform, handler.validate = .ok ()) :
    transform.forM checkHandler engine = .ok () engine := by
  cases transform with
  | none => rfl
  | some handler => exact checkHandler_run (valid handler rfl)

theorem bindText_run (live : (engine.document.element? element.node).isSome)
    {transform : Option Handler} (valid : ∀ handler ∈ transform, handler.validate = .ok ())
    (key : Text) :
    bindText element key transform engine =
      .ok () ((engine.identified element.node).collect
        (.behavior (.stateWatch key (engine.idFor element.node) transform))) := by
  rw [bindText, bind_of_ok (checkHandlers_run valid), bind_of_ok (ensureIdentifier_run live)]
  exact updateBuffers_run (congrArg _ (BehaviorLog.recordStateWatch_of_valid _ valid key _))

end Action

/-! ## Hooks that fail -/

/-- Whether a hook that fails does so before it has an identifier generated: not one that only has
the name of its event refused, unless its element was hooked already. -/
def Change.FailsEarly (engine : Engine) (element : Element) : Change → Prop
  | .on _ handler => handler.validate = .ok () → engine.IsHooked element.node
  | _ => True

namespace Engine

variable {engine after : Engine} {element : Element} {cause : Error}

/-- A hook that fails leaves its engine as it was exactly when it fails early. What was collected is as
it was in any case. -/
theorem eq_iff_of_hook_failed {hook : Change} (hooks : hook.NeedsIdentifier)
    (live : (engine.document.element? element.node).isSome)
    (failed : hook.action element engine = .error cause after) :
    (after = engine ↔ hook.FailsEarly engine element) ∧ after.buffers = engine.buffers := by
  cases hook with
  | bindText key transform =>
    rw [Change.action] at failed
    rcases Action.valid_or_refused transform with valid | ⟨handler, problem, rfl, checked⟩
    · rw [Action.bindText_run live valid] at failed
      cases failed
    · rw [Action.bindText_run_invalid checked] at failed
      cases failed
      exact ⟨iff_of_true rfl trivial, rfl⟩
  | registerReference name =>
    rw [Change.action, Action.registerReference_run live] at failed
    cases failed
  | on event handler =>
    rw [Change.action] at failed
    rw [Change.FailsEarly]
    cases checked : handler.validate with
    | error problem =>
      rw [Action.on_run_invalid checked] at failed
      cases failed
      exact ⟨iff_of_true rfl (by simp), rfl⟩
    | ok _ =>
      rw [Action.on_run live checked] at failed
      split at failed
      · cases failed
      · cases failed
        exact ⟨identified_eq_self_iff.trans (by simp), buffers_identified _ _⟩
  | _ => exact hooks.elim

end Engine

/-- The element of a session that has made one paragraph, before it is hooked. -/
theorem unhooked_paragraph : ∃ engine, Engine.Reachable engine { elements := [paragraph] } ∧
    engine.owns paragraph = true ∧ (engine.document.element? paragraph.node).isSome ∧
      engine.namedId? paragraph.node = none := by
  obtain ⟨engine, reached, uid, _, document⟩ := reachable_paragraph
  refine ⟨engine, reached, ?_, ?_, ?_⟩
  · rw [Engine.owns, uid]
    rfl
  · rw [document]
    rfl
  · rw [Engine.namedId?, document]
    rfl

/-- A listener for a name with a blank fails, but not early. -/
theorem eq_iff_of_hook_failed_paragraph : ∃ engine cause after,
    Engine.Reachable engine { elements := [paragraph] } ∧
      (Change.on "a b".toList (.body "f()".toList)).action paragraph engine = .error cause after ∧
        after ≠ engine ∧ after.buffers = engine.buffers := by
  obtain ⟨engine, reached, _, live, unnamed⟩ := unhooked_paragraph
  have valid : (Handler.body "f()".toList).validate = .ok () := rfl
  have failed : (Change.on "a b".toList (.body "f()".toList)).action paragraph engine =
      .error (.invalidHandler (.invalidEventName "a b".toList)) (engine.identified paragraph.node) :=
    Action.on_run live valid "a b".toList
  have hooks : (Change.on "a b".toList (.body "f()".toList)).NeedsIdentifier := trivial
  obtain ⟨early, buffers⟩ := Engine.eq_iff_of_hook_failed hooks live failed
  refine ⟨engine, _, _, reached, failed, ?_, buffers⟩
  intro same
  have hooked := early.mp same valid
  rw [Engine.IsHooked, unnamed] at hooked
  cases hooked.2

/-- A hook that fails can leave an identifier behind. -/
theorem hook_failed_can_leave_trace :
    ¬ ∀ (engine after : Engine) (held : Held) (element : Element) (hook : Change) (cause : Error),
      Engine.Reachable engine held → element ∈ held.elements → engine.owns element = true →
      (engine.document.element? element.node).isSome → hook.NeedsIdentifier →
      hook.action element engine = .error cause after →
      after.document = engine.document ∧ after.ids = engine.ids ∧ after.hooked = engine.hooked ∧
        after.buffers = engine.buffers := by
  intro claim
  obtain ⟨engine, reached, own, live, unnamed⟩ := unhooked_paragraph
  have valid : (Handler.body "f()".toList).validate = .ok () := rfl
  obtain ⟨_, ids, _⟩ := claim engine _ _ paragraph (.on "a b".toList (.body "f()".toList)) _ reached
    List.mem_cons_self own live trivial (Action.on_run live valid "a b".toList)
  have issued := Engine.count_identified unnamed
  rw [ids] at issued
  omega

end PageCompiler
