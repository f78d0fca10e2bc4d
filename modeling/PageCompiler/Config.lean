import PageCompiler.Identifier
import PageCompiler.Json.Record

/-!
# Settings

The settings of an engine and of the head of a page, with their defaults, and how both are read
from and written as JSON.
-/

namespace PageCompiler

/-- What happens to what was collected once it is rendered. -/
inductive FlushPolicy where
  | clear
  | retain
deriving DecidableEq

/-- What happens to an item that cannot be appended. -/
inductive AppendPolicy where
  | strict
  | lenient
deriving DecidableEq

/-- How identifiers are generated. Without a seed they differ from run to run. -/
structure IdConfig where
  strategy : Identifier.Strategy := .sequential
  elementStem : Text := "sc-id".toList
  classStem : Text := "sc-c".toList
  seed : Option UInt64 := none
deriving DecidableEq

/-- The settings of an engine. -/
structure EngineConfig where
  ids : IdConfig := {}
  flush : FlushPolicy := .clear
  append : AppendPolicy := .strict
  minifyScript : Bool := false
  exposeGlobals : Bool := false
  defaultTitle : Text := "Untitled".toList
deriving DecidableEq

/-- The settings of the head of a page. -/
structure HeadConfig where
  title : Option Text := none
  metaTags : List (Entries Text) := []
  scripts : List Text := []
  stylesheets : List Text := []
  icon : Option Text := none
  language : Option Text := none
deriving DecidableEq

open Json (Tree Value)
open Json.Record

namespace Identifier.Strategy

/-- The words for the strategies. -/
def words : List (Text × Strategy) :=
  [("sequential".toList, .sequential), ("random".toList, .random)]

/-- The word for a strategy. -/
def word : Strategy → Text
  | .sequential => "sequential".toList
  | .random => "random".toList

end Identifier.Strategy

namespace FlushPolicy

/-- The words for the policies. -/
def words : List (Text × FlushPolicy) :=
  [("clear".toList, .clear), ("retain".toList, .retain)]

/-- The word for a policy. -/
def word : FlushPolicy → Text
  | .clear => "clear".toList
  | .retain => "retain".toList

end FlushPolicy

namespace AppendPolicy

/-- The words for the policies. -/
def words : List (Text × AppendPolicy) :=
  [("strict".toList, .strict), ("lenient".toList, .lenient)]

/-- The word for a policy. -/
def word : AppendPolicy → Text
  | .strict => "strict".toList
  | .lenient => "lenient".toList

end AppendPolicy

/-- Reads a seed: an integer of 64 bits without sign. -/
def IdConfig.readSeed : Tree → Option UInt64
  | .number (some (.integer value)) =>
    if 0 ≤ value && value.toNat < Nat.pow 2 64 then some (UInt64.ofNat value.toNat) else none
  | _ => none

namespace IdConfig

/-- The fields of the settings for identifiers. -/
def shape : Shape :=
  shapeOf [("strategy", .defaulted), ("elementPrefix", .defaulted), ("classPrefix", .defaulted),
    ("seed", .optional)]

/-- Reads the settings for identifiers. -/
def read? (tree : Tree) : Option IdConfig := do
  match ← fields shape tree with
  | [strategy, elementStem, classStem, seed] =>
    let standard : IdConfig := {}
    return {
      strategy := ← defaulted (Json.Record.word Identifier.Strategy.words) standard.strategy strategy
      elementStem := ← defaulted text standard.elementStem elementStem
      classStem := ← defaulted text standard.classStem classStem
      seed := ← optional readSeed seed }
  | _ => none

/-- The settings for identifiers as a JSON value. -/
def value (config : IdConfig) : Value :=
  .record [("strategy", .string config.strategy.word), ("elementPrefix", .string config.elementStem),
    ("classPrefix", .string config.classStem),
    ("seed", match config.seed with
      | some seed => .number (.integer seed.toNat)
      | none => .null)]

end IdConfig

namespace EngineConfig

/-- Sequential identifiers from a fixed seed, so that equal builds give equal pages. -/
def deterministic (seed : UInt64) : EngineConfig :=
  { ids := { seed := some seed } }

/-- The fields of the settings of an engine. -/
def shape : Shape :=
  shapeOf [("ids", .defaulted), ("flush", .defaulted), ("append", .defaulted),
    ("minifyScript", .defaulted), ("exposeGlobals", .defaulted), ("defaultTitle", .defaulted)]

/-- Reads the settings of an engine. -/
def read? (tree : Tree) : Option EngineConfig := do
  match ← fields shape tree with
  | [ids, flush, append, minifyScript, exposeGlobals, defaultTitle] =>
    let standard : EngineConfig := {}
    return {
      ids := ← defaulted IdConfig.read? standard.ids ids
      flush := ← defaulted (Json.Record.word FlushPolicy.words) standard.flush flush
      append := ← defaulted (Json.Record.word AppendPolicy.words) standard.append append
      minifyScript := ← defaulted bool standard.minifyScript minifyScript
      exposeGlobals := ← defaulted bool standard.exposeGlobals exposeGlobals
      defaultTitle := ← defaulted text standard.defaultTitle defaultTitle }
  | _ => none

/-- The settings of an engine as a JSON value. -/
def value (config : EngineConfig) : Value :=
  .record [("ids", config.ids.value), ("flush", .string config.flush.word),
    ("append", .string config.append.word), ("minifyScript", .bool config.minifyScript),
    ("exposeGlobals", .bool config.exposeGlobals), ("defaultTitle", .string config.defaultTitle)]

end EngineConfig

namespace HeadConfig

/-- The head of a page with a title. -/
def titled (title : Text) : HeadConfig :=
  { title := some title }

/-- Adds a meta tag; its attributes are kept in the order of their names. -/
def addMeta (head : HeadConfig) (attributes : List (Text × Text)) : HeadConfig :=
  { head with metaTags := head.metaTags ++ [Entries.sorted attributes] }

/-- Adds a script. -/
def addScript (head : HeadConfig) (source : Text) : HeadConfig :=
  { head with scripts := head.scripts ++ [source] }

/-- Adds a stylesheet. -/
def addStylesheet (head : HeadConfig) (reference : Text) : HeadConfig :=
  { head with stylesheets := head.stylesheets ++ [reference] }

/-- Whether one of the meta tags describes the viewport. -/
def hasViewport (head : HeadConfig) : Bool :=
  head.metaTags.any fun tag => Entries.get? "name".toList tag = some "viewport".toList

/-- The fields of the head of a page. -/
def shape : Shape :=
  shapeOf [("title", .optional), ("meta", .defaulted), ("scripts", .defaulted),
    ("css", .defaulted), ("icon", .optional), ("lang", .optional)]

/-- Reads the head of a page, whose fields may nest at most `depth` deep. -/
def read? (depth : Nat) (tree : Tree) : Option HeadConfig := do
  match ← fields shape tree with
  | [title, tags, scripts, css, icon, lang] =>
    let several {α : Type} (read : Tree → Option α) (tree : Tree) : Option (List α) :=
      (sound depth tree).bind (oneOrMany read)
    return {
      title := ← optional text title
      metaTags := ← defaulted (several textTable) [] tags
      scripts := ← defaulted (several text) [] scripts
      stylesheets := ← defaulted (several text) [] css
      icon := ← optional text icon
      language := ← optional text lang }
  | _ => none

/-- The head of a page as a JSON value. -/
def value (head : HeadConfig) : Value :=
  .record [("title", .ofOptionalText head.title), ("meta", .array (head.metaTags.map .ofTable)),
    ("scripts", .ofTexts head.scripts), ("css", .ofTexts head.stylesheets),
    ("icon", .ofOptionalText head.icon), ("lang", .ofOptionalText head.language)]

end HeadConfig

end PageCompiler
