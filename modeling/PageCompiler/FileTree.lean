import PageCompiler.Path

/-!
# File trees

A directory tree as a value: files with their content and directories with their entries. Places
in a tree are lists of names from its root. Paths are resolved against a tree and a place the way
a file system does it: a part that is followed by another one, or by a separator, has to be a
directory.
-/

namespace PageCompiler

/-- A file, whose content may be unreadable, or a directory. -/
inductive FileTree where
  | file (content : Option Text)
  | directory (entries : List (Text × FileTree))

/-- Why a file cannot be reached, read or written. A cause that only a file system has is kept in
its own words. -/
inductive FileError where
  | notFound
  | permissionDenied
  | notADirectory
  | isADirectory
  | nameTooLong
  | invalidName
  | notText
  | other (words : Text)
deriving DecidableEq

/-- The wording of an error. -/
def FileError.message : FileError → Text
  | .notFound => "No such file or directory (os error 2)".toList
  | .permissionDenied => "Permission denied (os error 13)".toList
  | .notADirectory => "Not a directory (os error 20)".toList
  | .isADirectory => "Is a directory (os error 21)".toList
  | .nameTooLong => "File name too long (os error 36)".toList
  | .invalidName => "file name contained an unexpected NUL byte".toList
  | .notText => "stream did not contain valid UTF-8".toList
  | .other words => words

namespace FileTree

/-- An empty directory. -/
def empty : FileTree := .directory []

/-- The entries of a directory; a file has none. -/
def entries : FileTree → List (Text × FileTree)
  | .file _ => []
  | .directory entries => entries

/-- Whether a tree is a directory. -/
def isDirectory : FileTree → Bool
  | .file _ => false
  | .directory _ => true

/-- The tree under a name of a directory. -/
def child? (name : Text) (tree : FileTree) : Option FileTree :=
  tree.entries.lookup name

/-- The tree at a place. -/
def at? (tree : FileTree) : List Text → Option FileTree
  | [] => some tree
  | name :: rest => (tree.child? name).bind fun child => child.at? rest

/-- Puts an entry into a directory, in the place of an earlier one of that name. -/
def putEntry (name : Text) (child : FileTree) : List (Text × FileTree) → List (Text × FileTree)
  | [] => [(name, child)]
  | (other, old) :: rest =>
    if other = name then (name, child) :: rest else (other, old) :: putEntry name child rest

/-- Puts a tree at a place, making the directories on the way. -/
def place (new : FileTree) : List Text → FileTree → FileTree
  | [], _ => new
  | name :: rest, tree =>
    .directory (putEntry name (place new rest ((tree.child? name).getD empty)) tree.entries)

/-- Takes away what is at a place. -/
def remove : List Text → FileTree → FileTree
  | [], tree => tree
  | [name], tree =>
    match tree with
    | .file content => .file content
    | .directory entries => .directory (entries.filter fun entry => entry.1 != name)
  | name :: rest, tree =>
    match tree.child? name with
    | none => tree
    | some child => .directory (putEntry name (remove rest child) tree.entries)

mutual

/-- The files of a tree with their places. -/
def files : FileTree → List (List Text × Option Text)
  | .file content => [([], content)]
  | .directory entries => entryFiles entries

/-- The files below the entries of a directory. -/
def entryFiles : List (Text × FileTree) → List (List Text × Option Text)
  | [] => []
  | (name, tree) :: rest =>
    (files tree).map (fun (place, content) => (name :: place, content)) ++ entryFiles rest

end

/-- Names have at most this many bytes. -/
def nameLimit : Nat := 255

/-- Paths of files to open have at most this many bytes. -/
def pathLimit : Nat := 4095

/-- Why no file can have a path, if none can. -/
def pathProblem (path : Path) : Option FileError :=
  if path.isEmpty then some .notFound
  else if path.contains '\x00' then some .invalidName
  else none

/-- Why the file that a path leads to cannot be opened, whatever the tree, if it cannot. A path is
handed over as a whole for this, so that its length matters too. -/
def openingProblem (path : Path) : Option FileError :=
  match pathProblem path with
  | some cause => some cause
  | none => if pathLimit < Text.utf8Size path then some .nameTooLong else none

/-- Follows the parts of a path from a place on. -/
def follow (tree : FileTree) : List Text → List Text → Except FileError (List Text)
  | place, [] => .ok place
  | place, part :: rest =>
    match tree.at? place with
    | none => .error .notFound
    | some (.file _) => .error .notADirectory
    | some folder =>
      if part.isEmpty || part = ['.'] then follow tree place rest
      else if part = ['.', '.'] then follow tree place.dropLast rest
      else if nameLimit < Text.utf8Size part then .error .nameTooLong
      else
        match folder.child? part with
        | none => .error .notFound
        | some _ => follow tree (place ++ [part]) rest

/-- The place that a path leads to, read part by part from a place on. -/
def resolve (tree : FileTree) (here : List Text) (path : Path) : Except FileError (List Text) :=
  match pathProblem path, path with
  | some cause, _ => .error cause
  | none, '/' :: rest => follow tree [] (Text.segments (· = '/') rest)
  | none, _ => follow tree here (Text.segments (· = '/') path)

/-- The content of the file that a path leads to. -/
def read (tree : FileTree) (here : List Text) (path : Path) : Except FileError Text := do
  match openingProblem path with
  | some cause => throw cause
  | none => pure ()
  match tree.at? (← tree.resolve here path) with
  | some (.file (some content)) => .ok content
  | some (.file none) => .error .permissionDenied
  | some (.directory _) => .error .isADirectory
  | none => .error .notFound

/-- Writes the file that a path leads to, which may be new in a directory that is there. -/
def write (tree : FileTree) (here : List Text) (path : Path) (content : Text) :
    Except FileError FileTree := do
  match openingProblem path with
  | some cause => throw cause
  | none => pure ()
  let start := if path.head? = some '/' then [] else here
  let parts := Text.segments (· = '/') path
  let above ← tree.follow start parts.dropLast
  let name := parts.getLastD []
  match tree.at? above with
  | some (.directory entries) =>
    if name.isEmpty || name = ['.'] || name = ['.', '.'] then throw .isADirectory
    if nameLimit < Text.utf8Size name then throw .nameTooLong
    match entries.lookup name with
    | some (.directory _) => throw .isADirectory
    | some (.file none) => throw .permissionDenied
    | _ => return place (.file (some content)) (above ++ [name]) tree
  | some (.file _) => throw .notADirectory
  | none => throw .notFound

end FileTree

end PageCompiler
