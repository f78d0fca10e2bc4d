import PageCompiler.Blueprint.Build
import PageCompiler.Blueprint.Json

/-!
# Page files

A page file holds a blueprint as JSON text. Compiling one goes through reading, building and
rendering, and what goes wrong on the way is told with the path of the file.
-/

namespace PageCompiler.PageFile

/-- Why a page file cannot be compiled. -/
inductive Cause where
  | unreadable (cause : FileError)
  | malformed
  | buildFailed (cause : PageCompiler.Error)
  | renderFailed (cause : PageCompiler.Error)

/-- Why the page file at a path cannot be compiled. -/
structure Error where
  page : Path
  cause : Cause

/-- The wording for a text that describes no page. -/
def malformedMessage : Text :=
  "the text is not a JSON description of a page".toList

/-- The wording of an error. -/
def Error.message (error : Error) : Text :=
  match error.cause with
  | .unreadable cause => "invalid blueprint: ".toList ++ error.page ++ ": ".toList ++ cause.message
  | .malformed => "invalid blueprint: ".toList ++ error.page ++ ": ".toList ++ malformedMessage
  | .buildFailed cause => "failed to build ".toList ++ error.page ++ ": ".toList ++ cause.message
  | .renderFailed cause =>
    "failed to compile ".toList ++ error.page ++ ": ".toList ++ cause.message

/-- Reads the blueprint in the content of a page file. -/
def readBlueprint : Except FileError Text → Except Cause Blueprint
  | .error cause => .error (.unreadable cause)
  | .ok content =>
    match Blueprint.read content with
    | some blueprint => .ok blueprint
    | none => .error .malformed

/-- Builds and renders a blueprint, and gives the page with its engine. -/
def render (blueprint : Blueprint) (entropy : UInt64) : Except Cause (Text × Engine) :=
  match blueprint.build (blueprint.engine entropy) with
  | .error cause _ => .error (.buildFailed cause)
  | .ok roots engine =>
    match Action.tryRender roots blueprint.head engine with
    | .error cause _ => .error (.renderFailed cause)
    | .ok page engine => .ok (page, engine)

/-- A blueprint whose client script is shrunk if that is asked for here or in its settings. -/
def withMinified (blueprint : Blueprint) (minify : Bool) : Blueprint :=
  { blueprint with
    config.minifyScript := blueprint.config.minifyScript || minify }

/-- Compiles the page file at a path, given its content. -/
def compile (page : Path) (content : Except FileError Text) (minify : Bool) (entropy : UInt64) :
    Except Error (Text × Engine) :=
  let result := do
    let blueprint ← readBlueprint content
    render (withMinified blueprint minify) entropy
  result.mapError fun cause => ⟨page, cause⟩

end PageCompiler.PageFile
