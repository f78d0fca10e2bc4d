import PageCompiler.CommandLine.Run

/-!
# The program

The command line on the files of the machine. Everything but reading, writing and printing is done
by the library.
-/

namespace PageCompiler.Program

open CommandLine (Command Exit Failure)

/-- Whether a code of the system, which may be negated, is a given one. -/
def isCode (expected code : UInt32) : Bool :=
  code = expected || 0 - code = expected

/-- The cause behind an error of the system. -/
def causeOf : IO.Error → FileError
  | .noFileOrDirectory _ _ _ => .notFound
  | .permissionDenied _ _ _ => .permissionDenied
  | .inappropriateType _ code words =>
    if isCode 20 code then .notADirectory
    else if isCode 21 code then .isADirectory
    else .other words.toList
  | .invalidArgument _ code words => if isCode 36 code then .nameTooLong else .other words.toList
  | error => .other (toString error).toList

/-- Performs an action of the system and gives the cause if it fails. -/
def attempt {α : Type} (action : IO α) : IO (Except FileError α) := do
  match ← action.toBaseIO with
  | .ok result => return .ok result
  | .error error => return .error (causeOf error)

/-- The content of a file. -/
def readText (path : Path) : IO (Except FileError Text) := do
  let bytes ← attempt (IO.FS.readBinFile (String.ofList path))
  return bytes.bind fun bytes =>
    match String.fromUTF8? bytes with
    | some content => .ok content.toList
    | none => .error .notText

/-- Writes a file and gives the report. -/
def writeText (out : Path) (content : Text) : IO (Except Failure Text) := do
  let result ← attempt (IO.FS.writeFile (String.ofList out) (String.ofList content))
  return (result.map fun _ => CommandLine.writtenReport out).mapError (.unwritten out)

/-- A number that differs from run to run. -/
def entropy : IO UInt64 := do
  let bytes ← IO.getRandomBytes 8
  return bytes.foldl (fun seed byte => seed * 256 + byte.toUInt64) 0

/-- Compiles the page file at a path. -/
def compile (page : Path) (minify : Bool) : IO (Except Failure Text) := do
  let content ← readText page
  let result := PageFile.compile page content minify (← entropy)
  return (result.map Prod.fst).mapError .page

/-- Runs a command and gives the report. -/
def run : Command → IO (Except Failure Text)
  | .build page out minify => do
    match ← compile page minify with
    | .ok result => writeText out result
    | .error failure => return .error failure
  | .initRuntime out => writeText out CommandLine.standaloneScript
  | .serve page port watch => do
    match ← attempt (IO.FS.realPath (String.ofList page)) with
    | .error cause => return .error (.unresolved page cause)
    | .ok place =>
      let path := place.toString.toList
      match Preview.Site.new? path watch with
      | none => return .error (.noDirectory path)
      | some site =>
        match ← compile site.page false with
        | .ok _ => return .error (.unbound port)
        | .error failure => return .error failure

/-- Runs a command line. -/
def runArguments (arguments : List Text) : IO Exit := do
  match CommandLine.read arguments with
  | .ok command => return .ofResult (← run command)
  | .error cause => return .ofResult (.error (.arguments cause))

end PageCompiler.Program

/-- Runs the command line and prints what it shows. -/
def main (arguments : List String) : IO UInt32 := do
  let exit ← PageCompiler.Program.runArguments (arguments.map String.toList)
  (← IO.getStdout).putStr (String.ofList exit.output)
  (← IO.getStderr).putStr (String.ofList exit.errors)
  return exit.code.toUInt32
