import PageCompiler.Engine.Element
import PageCompiler.Proofs.Stylesheet

/-!
# Registrations

What is collected for the next render comes in one by one: rules of the stylesheet, entries of client
behavior, references and values of the client state. Each is added to the buffers in one place.
-/

namespace PageCompiler

open Steps

/-- Something that is registered with an engine for its next render. -/
inductive Registration where
  | style (rule : Style.Rule)
  | behavior (entry : Behavior.Entry)
  | reference (name element : Text)
  | state (key : Text) (value : Json.Value)

/-- The buffers with a registration added. -/
def Buffers.add (buffers : Buffers) : Registration → Buffers
  | .style rule => { buffers with styles := buffers.styles ++ [rule] }
  | .behavior entry => { buffers with behaviors := buffers.behaviors ++ [entry] }
  | .reference name element =>
    { buffers with references := buffers.references.register name element }
  | .state key value => { buffers with state := (buffers.state.set key value).1 }

/-- An engine with a registration added to what it collects. -/
def Engine.collect (engine : Engine) (what : Registration) : Engine :=
  { engine with buffers := engine.buffers.add what }

namespace BehaviorLog

variable {handler : Handler}

theorem recordEvent_of_valid (log : BehaviorLog) (valid : handler.validate = .ok ())
    (element event : Text) :
    log.recordEvent element event handler =
      if Behavior.isEventName event then .ok (log ++ [.event element event handler])
      else .error (.invalidEventName event) := by
  rw [recordEvent, valid]
  cases Behavior.isEventName event <;> rfl

theorem recordStateWatch_of_valid (log : BehaviorLog) {transform : Option Handler}
    (valid : ∀ handler ∈ transform, handler.validate = .ok ()) (key element : Text) :
    log.recordStateWatch key element transform = .ok (log ++ [.stateWatch key element transform]) := by
  cases transform with
  | none => rfl
  | some handler =>
    change (handler.validate >>= fun _ => _) = _
    rw [valid handler rfl]
    rfl

theorem recordLifecycle_of_valid (log : BehaviorLog) (valid : handler.validate = .ok ()) :
    log.recordLifecycle handler = .ok (log ++ [.lifecycle handler]) := by
  rw [recordLifecycle, valid]
  rfl

theorem recordLifecycle_of_invalid (log : BehaviorLog) {cause : HandlerError}
    (invalid : handler.validate = .error cause) :
    log.recordLifecycle handler = .error cause := by
  rw [recordLifecycle, invalid]
  rfl

end BehaviorLog

namespace Action

variable {ε : Type} {wrap : ε → Error} {change : Buffers → Except ε Buffers} {engine : Engine}

theorem updateBuffers_run {buffers : Buffers} (accepted : change engine.buffers = .ok buffers) :
    updateBuffers wrap change engine = .ok () { engine with buffers } := by
  rw [updateBuffers, bind_of_ok (get_run engine), accepted]
  rfl

theorem updateBuffers_run_refused {cause : ε} (refused : change engine.buffers = .error cause) :
    updateBuffers wrap change engine = .error (wrap cause) engine := by
  rw [updateBuffers, bind_of_ok (get_run engine), refused]
  rfl

section Registering

variable {name : Text} {declarations : Declarations} {raw : Bool} {handler : Handler}

theorem tryDefineStyle_run {rule : Style.Rule} (accepted : Style.ruleOf name declarations raw = .ok rule)
    (engine : Engine) :
    tryDefineStyle name declarations raw engine = .ok () (engine.collect (.style rule)) :=
  updateBuffers_run (congrArg _ (Stylesheet.define_of_ok accepted))

theorem tryDefineStyle_run_refused {cause : Style.RuleError}
    (refused : Style.ruleOf name declarations raw = .error cause) (engine : Engine) :
    tryDefineStyle name declarations raw engine = .error (.invalidStyle cause) engine :=
  updateBuffers_run_refused (congrArg _ (Stylesheet.define_of_error refused))

theorem onLoad_run (valid : handler.validate = .ok ()) (engine : Engine) :
    onLoad handler engine = .ok () (engine.collect (.behavior (.lifecycle handler))) :=
  updateBuffers_run (congrArg _ (BehaviorLog.recordLifecycle_of_valid _ valid))

theorem onLoad_run_invalid {cause : HandlerError} (invalid : handler.validate = .error cause)
    (engine : Engine) : onLoad handler engine = .error (.invalidHandler cause) engine :=
  updateBuffers_run_refused (congrArg _ (BehaviorLog.recordLifecycle_of_invalid _ invalid))

end Registering

end Action

end PageCompiler
