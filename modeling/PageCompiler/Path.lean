import PageCompiler.Text

/-!
# Paths

A path is a text whose parts are separated by slashes. What a path means is told by its
components: repeated and trailing separators do not count, and neither does a single point, except
at the start of a path that does not begin with a slash.
-/

namespace PageCompiler

/-- A path, as it is written. -/
abbrev Path := Text

namespace Path

/-- A component of a path. -/
inductive Component where
  | root
  | here
  | up
  | name (text : Text)
deriving DecidableEq

/-- The component that a part between separators stands for, if it does not start the path. -/
def laterComponent (part : Text) : Option Component :=
  if part.isEmpty || part = ['.'] then none
  else if part = ['.', '.'] then some .up
  else some (.name part)

/-- The components of a path. -/
def components (path : Path) : List Component :=
  match path with
  | '/' :: rest => .root :: (Text.segments (· = '/') rest).filterMap laterComponent
  | _ =>
    match Text.segments (· = '/') path with
    | first :: rest =>
      (if first = ['.'] then [.here] else (laterComponent first).toList) ++
        rest.filterMap laterComponent
    | [] => []

/-- The name that a path ends with. -/
def fileName? (path : Path) : Option Text :=
  match path.components.getLast? with
  | some (.name text) => some text
  | _ => none

/-- The parts of a name around its last point, unless the point starts the name. -/
def cutExtension (name : Text) : Option (Text × Text) :=
  match Text.cutBeforeLast ['.'] name with
  | some (stem, _ :: extension) => if stem.isEmpty then none else some (stem, extension)
  | _ => none

/-- What follows the last point of the name that a path ends with. -/
def extension? (path : Path) : Option Text :=
  (path.fileName?.bind cutExtension).map Prod.snd

/-- A reversed path without the separators and points that end it. -/
def dropEnding : Text → Text
  | '/' :: rest => dropEnding rest
  | '.' :: '/' :: rest => dropEnding rest
  | reversed => reversed

/-- Puts an extension in the place of everything after the stem of the name that a path ends
with. A path that ends with no name stays. -/
def putExtension (path : Path) (extension : Text) : Path :=
  match path.fileName? with
  | none => path
  | some name =>
    let stem := ((cutExtension name).map Prod.fst).getD name
    ((dropEnding path.reverse).drop name.length).reverse ++ stem ++ '.' :: extension

/-- Changes the extension of a path: as many characters as the extension has are taken from its
end, then the new extension is put. -/
def withExtension (path : Path) (extension : Text) : Path :=
  match path.extension? with
  | none => path.putExtension extension
  | some old => Path.putExtension (path.take (path.length - old.length)) extension

/-- A path read from a directory on. A path that begins with a slash stands for itself. -/
def join (directory path : Path) : Path :=
  if path.head? = some '/' then path
  else if directory.isEmpty || directory.getLast? = some '/' then directory ++ path
  else directory ++ '/' :: path

/-- The text of a component. -/
def Component.text : Component → Text
  | .root => []
  | .here => ['.']
  | .up => ['.', '.']
  | .name text => text

/-- The path with these components. -/
def ofComponents (components : List Component) : Path :=
  if components = [.root] then ['/'] else List.intercalate ['/'] (components.map Component.text)

/-- What is left of a path behind the components of a directory, if it begins with them. -/
def below? (directory path : Path) : Option Path :=
  if directory.components.isPrefixOf path.components then
    some (ofComponents (path.components.drop directory.components.length))
  else none

/-- How a component is compared: the root comes before the points and these before names, which are
compared character by character. -/
def Component.rank : Component → List Nat
  | .root => [0]
  | .here => [1]
  | .up => [2]
  | .name text => 3 :: text.map Char.toNat

/-- How a path is compared: component by component. -/
def rank (path : Path) : List (List Nat) :=
  path.components.map Component.rank

/-- The path without its last component; the root and the empty path have none. -/
def parent? (path : Path) : Option Path :=
  match path.components.getLast? with
  | none => none
  | some .root => none
  | some _ => some (ofComponents path.components.dropLast)

/-- The path with these names below the root. -/
def ofNames (names : List Text) : Path :=
  if names.isEmpty then ['/'] else names.flatMap fun name => '/' :: name

end Path

end PageCompiler
