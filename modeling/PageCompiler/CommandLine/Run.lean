import PageCompiler.Bootstrap
import PageCompiler.CommandLine
import PageCompiler.PageFile
import PageCompiler.Preview.Site

/-!
# Running commands

What each command does to the files: `build` compiles a page file and writes the page,
`init-runtime` writes the client script with empty tables, and `serve` finds the page file and
compiles it once before it starts.
-/

namespace PageCompiler.CommandLine

open Preview (Site)

/-- Why a command fails. -/
inductive Failure where
  | arguments (cause : ArgumentError)
  | page (cause : PageFile.Error)
  | unwritten (out : Path) (cause : FileError)
  | unresolved (page : Path) (cause : FileError)
  | noDirectory (page : Path)
  | unbound (port : UInt16)

/-- The wording of a failure. -/
def Failure.message : Failure → Text
  | .arguments cause => cause.message
  | .page cause => cause.message
  | .unwritten out cause => "failed to write ".toList ++ out ++ ": ".toList ++ cause.message
  | .unresolved path cause => "failed to resolve ".toList ++ path ++ ": ".toList ++ cause.message
  | .noDirectory path => path ++ " has no parent directory".toList
  | .unbound port =>
    "failed to bind 0.0.0.0:".toList ++ Text.ofNat port.toNat ++ ": no network".toList

/-- The report of a file that was written. -/
def writtenReport (out : Path) : Text :=
  "wrote ".toList ++ out ++ ['\n']

/-- The client script with empty tables; it publishes its functions. -/
def standaloneScript : Text :=
  Bootstrap.compose ['\x7b', '\x7d'] ['\x7b', '\x7d'] [] true

/-- Writes a file and gives the files with the report. -/
def writeFile (files : FileTree) (here : List Text) (out : Path) (content : Text) :
    Except Failure (FileTree × Text) :=
  match files.write here out content with
  | .ok files => .ok (files, writtenReport out)
  | .error cause => .error (.unwritten out cause)

/-- Compiles a page file and writes the page. -/
def runBuild (files : FileTree) (here : List Text) (entropy : UInt64) (page out : Path)
    (minify : Bool) : Except Failure (FileTree × Text) := do
  let (result, _) ← (PageFile.compile page (files.read here page) minify entropy).mapError .page
  writeFile files here out result

/-- The site for a page file, which has to be there and to compile. -/
def openSite (files : FileTree) (here : List Text) (entropy : UInt64) (page : Path)
    (liveReload : Bool) : Except Failure Site := do
  let place ← (files.resolve here page).mapError (.unresolved page)
  let path := Path.ofNames place
  match Site.new? path liveReload with
  | none => throw (.noDirectory path)
  | some site =>
    let _ ← (PageFile.compile path (files.read [] path) false entropy).mapError .page
    return site

/-- Runs a command and gives the files with the report. Serving ends where a connection would be
needed. -/
def runCommand (files : FileTree) (here : List Text) (entropy : UInt64) :
    Command → Except Failure (FileTree × Text)
  | .build page out minify => runBuild files here entropy page out minify
  | .initRuntime out => writeFile files here out standaloneScript
  | .serve page port watch => do
    let _ ← openSite files here entropy page watch
    throw (.unbound port)

/-- Runs a command line and gives the files with the report. -/
def run (files : FileTree) (here : List Text) (entropy : UInt64) (arguments : List Text) :
    Except Failure (FileTree × Text) := do
  let command ← (read arguments).mapError .arguments
  runCommand files here entropy command

/-- What a program run shows: its exit code and its two outputs. -/
structure Exit where
  code : UInt8
  output : Text
  errors : Text
deriving DecidableEq

/-- What is shown for a report or a failure. -/
def Exit.ofResult : Except Failure Text → Exit
  | .ok report => ⟨0, report, []⟩
  | .error failure => ⟨1, [], "error: ".toList ++ failure.message ++ ['\n']⟩

end PageCompiler.CommandLine
