import PageCompiler.Config
import PageCompiler.Error
import PageCompiler.Script.Whitespace

/-!
# Journal

What an engine reports while it works: events, each with a level and a wording. Sizes are counted
in bytes of UTF-8.
-/

namespace PageCompiler

/-- How important an event is. -/
inductive Level where
  | debug
  | info
  | warn
  | error
deriving DecidableEq

/-- What an engine reports. -/
inductive Event where
  | opened (config : EngineConfig)
  | serialized (bytes : Nat)
  | compiled (roots bytes : Nat)
  | minificationFailed (cause : Script.ScanError)
  | renderFailed (cause : Error)
  | styleRefused (cause : Error)
  | scopedClassDropped (tag : Text) (cause : Error)
  | childSkipped (host : Text) (cause : ChildError)
  | saved (path : Path) (bytes : Nat)
  | saveFailed (cause : Error)

namespace Event

/-- How important an event is. A save of nothing is no failure of the file system. -/
def level : Event → Level
  | .opened _ => .debug
  | .serialized _ => .debug
  | .compiled _ _ => .info
  | .minificationFailed _ => .warn
  | .renderFailed _ => .error
  | .styleRefused _ => .warn
  | .scopedClassDropped _ _ => .warn
  | .childSkipped _ _ => .warn
  | .saved _ _ => .info
  | .saveFailed .notRendered => .warn
  | .saveFailed _ => .error

/-- The name of a strategy in events. -/
def strategyName : Identifier.Strategy → Text
  | .sequential => "Sequential".toList
  | .random => "Random".toList

/-- The name of a policy in events. -/
def flushName : FlushPolicy → Text
  | .clear => "Clear".toList
  | .retain => "Retain".toList

/-- The name of a policy in events. -/
def appendName : AppendPolicy → Text
  | .strict => "Strict".toList
  | .lenient => "Lenient".toList

/-- The wording of an event. -/
def message : Event → Text
  | .opened config =>
    "[sitecraft:engine] ids=".toList ++ strategyName config.ids.strategy ++ " flush=".toList ++
      flushName config.flush ++ " append=".toList ++ appendName config.append
  | .serialized bytes =>
    "[sitecraft:dom] serialized document (".toList ++ Text.ofNat bytes ++ " bytes)".toList
  | .compiled roots bytes =>
    "[sitecraft:render] compiled ".toList ++ Text.ofNat roots ++ " root(s) into ".toList ++
      Text.ofNat bytes ++ " bytes".toList
  | .minificationFailed cause =>
    "[sitecraft:render] minification failed, shipping script as is: ".toList ++ cause.message
  | .renderFailed cause => "[sitecraft:render] ".toList ++ cause.message
  | .styleRefused cause => "[sitecraft:style] ".toList ++ cause.message
  | .scopedClassDropped tag cause =>
    "[sitecraft:style] scoped class for ".toList ++ tagText tag ++ " dropped: ".toList ++
      cause.message
  | .childSkipped host cause =>
    "[sitecraft:element] skipped child of ".toList ++ tagText host ++ ": ".toList ++ cause.message
  | .saved path bytes =>
    "[sitecraft:save] wrote ".toList ++ path ++ " (".toList ++ Text.ofNat bytes ++
      " bytes)".toList
  | .saveFailed cause => "[sitecraft:save] ".toList ++ cause.message

end Event

end PageCompiler
