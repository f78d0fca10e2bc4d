import PageCompiler.Path

/-!
# The command line

A command line is a command with its arguments: `build` and `serve` take one page and options, and
`init-runtime` takes options only. Options may stand anywhere and may be repeated; the last one
counts. An option with a value takes whatever argument follows it.
-/

namespace PageCompiler.CommandLine

/-- What the program is asked to do. -/
inductive Command where
  | build (page out : Path) (minify : Bool)
  | serve (page : Path) (port : UInt16) (watch : Bool)
  | initRuntime (out : Path)
deriving DecidableEq

/-- Why a command line is refused. A call for help is answered the same way. -/
inductive ArgumentError where
  | help
  | unknownCommand (name : Text)
  | unknownFlag (flag : Text)
  | missingValue (flag : Text)
  | invalidPort (value : Text)
  | missingPage (command : Text)
  | severalPages
  | positional
deriving DecidableEq

/-- The usage of the program. -/
def helpText : Text :=
  List.intercalate ['\n'] (List.map String.toList [
    "sitecraft CLI",
    "",
    "Commands:",
    "  sitecraft build PAGE.json [--out FILE] [--minify]",
    "  sitecraft serve PAGE.json [--port 3000] [--watch|--no-watch]",
    "  sitecraft init-runtime [--out sitecraft-runtime.js]",
    "",
    "Set RUST_LOG (e.g. RUST_LOG=debug) to change log verbosity."])

/-- The wording of an error. -/
def ArgumentError.message : ArgumentError → Text
  | .help => helpText
  | .unknownCommand name => "unknown command: ".toList ++ name ++ ['\n', '\n'] ++ helpText
  | .unknownFlag flag => "unknown flag: ".toList ++ flag
  | .missingValue flag => flag ++ " requires a value".toList
  | .invalidPort value => "invalid port: ".toList ++ value
  | .missingPage command => command ++ " requires PAGE".toList
  | .severalPages => "only one PAGE positional argument is allowed".toList
  | .positional => "init-runtime does not accept positional args".toList

/-- The option for the output file. -/
def outFlag : Text := "--out".toList

/-- The option that shrinks the client script. -/
def minifyFlag : Text := "--minify".toList

/-- The option for the port. -/
def portFlag : Text := "--port".toList

/-- The option that watches the page's directory. -/
def watchFlag : Text := "--watch".toList

/-- The option that does not. -/
def noWatchFlag : Text := "--no-watch".toList

/-- Whether an argument has the form of an option. -/
def isFlag (argument : Text) : Bool :=
  ['-', '-'].isPrefixOf argument

/-- Reads a port: decimal digits, after a plus sign or not, for a number of 16 bits. -/
def readPort (value : Text) : Option UInt16 :=
  let digits :=
    match value with
    | '+' :: rest => rest
    | digits => digits
  if digits.isEmpty || !digits.all Char.isDigit then none
  else
    let port := digits.foldl (fun port c => port * 10 + (c.toNat - '0'.toNat)) 0
    if port < Nat.pow 2 16 then some (UInt16.ofNat port) else none

/-- The arguments of `build` read so far. -/
structure BuildArguments where
  page : Option Path := none
  out : Option Path := none
  minify : Bool := false
deriving DecidableEq

/-- Reads the arguments of `build`. -/
def BuildArguments.read (read : BuildArguments) : List Text → Except ArgumentError BuildArguments
  | [] => .ok read
  | argument :: rest =>
    if argument = outFlag then
      match rest with
      | [] => .error (.missingValue outFlag)
      | value :: rest => BuildArguments.read { read with out := some value } rest
    else if argument = minifyFlag then BuildArguments.read { read with minify := true } rest
    else if isFlag argument then .error (.unknownFlag argument)
    else if read.page.isSome then .error .severalPages
    else BuildArguments.read { read with page := some argument } rest

/-- The page next to a page file. -/
def defaultOut (page : Path) : Path :=
  page.withExtension "html".toList

/-- Reads a build command. -/
def readBuild (arguments : List Text) : Except ArgumentError Command := do
  let read ← BuildArguments.read {} arguments
  match read.page with
  | some page => return .build page (read.out.getD (defaultOut page)) read.minify
  | none => throw (.missingPage "build".toList)

/-- The arguments of `serve` read so far. -/
structure ServeArguments where
  page : Option Path := none
  port : UInt16 := 3000
  watch : Bool := true
deriving DecidableEq

/-- Reads the arguments of `serve`. -/
def ServeArguments.read (read : ServeArguments) : List Text → Except ArgumentError ServeArguments
  | [] => .ok read
  | argument :: rest =>
    if argument = portFlag then
      match rest with
      | [] => .error (.missingValue portFlag)
      | value :: rest =>
        match readPort value with
        | some port => ServeArguments.read { read with port } rest
        | none => .error (.invalidPort value)
    else if argument = watchFlag then ServeArguments.read { read with watch := true } rest
    else if argument = noWatchFlag then ServeArguments.read { read with watch := false } rest
    else if isFlag argument then .error (.unknownFlag argument)
    else if read.page.isSome then .error .severalPages
    else ServeArguments.read { read with page := some argument } rest

/-- Reads a serve command. -/
def readServe (arguments : List Text) : Except ArgumentError Command := do
  let read ← ServeArguments.read {} arguments
  match read.page with
  | some page => return .serve page read.port read.watch
  | none => throw (.missingPage "serve".toList)

/-- The file that the client script is written to unless another one is named. -/
def defaultRuntime : Path := "sitecraft-runtime.js".toList

/-- Reads the arguments of `init-runtime`, given the output file so far. -/
def readInitRuntime (out : Path) : List Text → Except ArgumentError Command
  | [] => .ok (.initRuntime out)
  | argument :: rest =>
    if argument = outFlag then
      match rest with
      | [] => .error (.missingValue outFlag)
      | value :: rest => readInitRuntime value rest
    else if isFlag argument then .error (.unknownFlag argument)
    else .error .positional

/-- Reads a command line. -/
def read : List Text → Except ArgumentError Command
  | [] => .error .help
  | name :: arguments =>
    if name = "build".toList then readBuild arguments
    else if name = "serve".toList then readServe arguments
    else if name = "init-runtime".toList then readInitRuntime defaultRuntime arguments
    else if name = "help".toList || name = "--help".toList || name = "-h".toList then .error .help
    else .error (.unknownCommand name)

end PageCompiler.CommandLine
