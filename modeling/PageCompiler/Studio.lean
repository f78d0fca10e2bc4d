import PageCompiler.Engine.Element
import PageCompiler.Engine.Render

/-!
# Studios

Several engines side by side. An engine is reached through named handles and lives as long as one
of them refers to it; elements do not keep their engine alive, so that an element may outlive it
and is detached from then on. What the engines report ends up in one journal, in the order in which
it happened.
-/

namespace PageCompiler

/-- The live engines, the handles that refer to them, how many engines were opened so far, and
what was reported. -/
structure Studio where
  engines : List Engine := []
  handles : Entries Nat := []
  opened : Nat := 0
  journal : List Event := []

namespace Studio

/-- The live engine with a number. -/
def engineNumbered? (studio : Studio) (uid : Nat) : Option Engine :=
  studio.engines.find? fun engine => engine.uid = uid

/-- The engine that a handle refers to. -/
def engine? (studio : Studio) (handle : Text) : Option Engine :=
  (Entries.get? handle studio.handles).bind studio.engineNumbered?

/-- The engine that an element belongs to, if it is still there. -/
def owner? (studio : Studio) (element : Element) : Option Engine :=
  studio.engineNumbered? element.owner

/-- Forgets the engines that no handle refers to. -/
def releaseUnused (studio : Studio) : Studio :=
  { studio with
    engines := studio.engines.filter fun engine =>
      studio.handles.any fun entry => entry.2 = engine.uid }

/-- Puts the new state of an engine in its place and moves its reports to the journal. -/
def update (studio : Studio) (engine : Engine) : Studio :=
  { studio with
    engines := studio.engines.map fun other =>
      if other.uid = engine.uid then { engine with journal := [] } else other
    journal := studio.journal ++ engine.journal }

/-- Opens an engine under a handle. An engine that only this handle referred to is gone. -/
def openEngine (studio : Studio) (handle : Text) (config : EngineConfig) (entropy : UInt64) :
    Studio :=
  let engine := Engine.new studio.opened config entropy
  let studio :=
    { studio with
      engines := engine :: studio.engines
      handles := Entries.put handle engine.uid studio.handles
      opened := studio.opened + 1 }
  (studio.update engine).releaseUnused

/-- Makes a second handle for the engine of a first one. -/
def share (studio : Studio) (handle new : Text) : Studio :=
  match Entries.get? handle studio.handles with
  | some uid => { studio with handles := Entries.put new uid studio.handles }.releaseUnused
  | none => studio

/-- Gives up a handle, and says whether there was one. -/
def close (studio : Studio) (handle : Text) : Studio × Bool :=
  ({ studio with handles := Entries.erase handle studio.handles }.releaseUnused,
    (Entries.get? handle studio.handles).isSome)

/-- Performs an action on a live engine. -/
def perform {α : Type} (studio : Studio) (engine : Engine) (action : Action α) :
    Except Error α × Studio :=
  match action engine with
  | .ok result engine => (.ok result, studio.update engine)
  | .error cause engine => (.error cause, studio.update engine)

/-- Performs an action on the engine of an element. A handler is checked first; then the engine
has to be there. -/
def performOn {α : Type} (studio : Studio) (element : Element) (handler : Option Handler)
    (action : Action α) : Except Error α × Studio :=
  match handler.map Handler.validate with
  | some (.error cause) => (.error (.invalidHandler cause), studio)
  | _ =>
    match studio.owner? element with
    | some engine => studio.perform engine action
    | none => (.error (.detached element.node), studio)

/-- Takes the reports out of the journal. -/
def takeJournal (studio : Studio) : List Event × Studio :=
  (studio.journal, { studio with journal := [] })

end Studio

end PageCompiler
