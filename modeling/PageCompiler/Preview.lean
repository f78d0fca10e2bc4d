import PageCompiler.FileTree
import PageCompiler.Markup.Escape

/-!
# Preview

The parts of the preview of a page's directory: which places are watched, which request paths lead
to files of the directory, what type a file has, and how a page gets the script that reloads it.
-/

namespace PageCompiler.Preview

/-- The route of the reload connection. -/
def reloadRoute : Text :=
  "/__sitecraft_ws".toList

/-- Names of directories that are built or fetched, and hidden names, are not watched. -/
def isIgnoredName (name : Text) : Bool :=
  name.head? = some '.' || name = "target".toList || name = "node_modules".toList

/-- Whether a path has a part that is not watched. -/
def isIgnored (path : Path) : Bool :=
  path.components.any fun component =>
    match component with
    | .name text => isIgnoredName text
    | _ => false

/-- A path as it is seen from a directory. One that does not lead below the directory stays. -/
def seenFrom (root path : Path) : Path :=
  (root.below? path).getD path

/-- Whether a report about paths wakes the watch of a directory, which it does if one of them is watched. A
report that something went wrong, which names no paths, always does. -/
def wakes (root : Path) : Option (List Path) → Bool
  | none => true
  | some paths => paths.any fun path => !isIgnored (seenFrom root path)

/-- What a walk meets: a file, whose content, of characters or of bytes, may be unreadable, a directory with
its entries, in the order in which they are listed, or anything else, such as a link or a directory that
cannot be listed. -/
inductive Listing (α : Type) where
  | file (content : Option (List α))
  | directory (entries : List (Text × Listing α))
  | other

namespace Listing

variable {α : Type}

/-- The entries of a directory. Nothing else has entries. -/
def entries : Listing α → List (Text × Listing α)
  | .directory entries => entries
  | _ => []

mutual

/-- The files that a walk finds from a path on, with their paths. -/
def walk (path : Path) : Listing α → List (Path × Option (List α))
  | .file content => [(path, content)]
  | .directory entries => walkEntries path entries
  | .other => []

/-- The files that a walk finds below the entries of a directory. It does not go where the name of an entry
is not watched. -/
def walkEntries (directory : Path) : List (Text × Listing α) → List (Path × Option (List α))
  | [] => []
  | (name, listing) :: rest =>
    let path := directory.join name
    if path.fileName?.any isIgnored then walkEntries directory rest
    else walk path listing ++ walkEntries directory rest

end

/-- The files that a walk through a directory collects, with their paths. -/
def collected (root : Path) (listing : Listing α) : List (Path × Option (List α)) :=
  walkEntries root listing.entries

/-- What is taken down of a directory: the collected files in the order of their paths, with the parts of
the path as it is seen from the directory and with what they hold. Directories as such do not count, and a
file that cannot be read counts as empty. -/
def fingerprint (root : Path) (listing : Listing α) : List (List Text × List α) :=
  let files := (listing.collected root).mergeSort fun a b => !decide (b.1.rank < a.1.rank)
  files.map fun (path, content) => ((seenFrom root path).components.map Path.Component.text, content.getD [])

end Listing

mutual

/-- What a walk meets in a tree. -/
def listing : FileTree → Listing Char
  | .file content => .file content
  | .directory entries => .directory (entryListings entries)

/-- What a walk meets in the entries of a directory. -/
def entryListings : List (Text × FileTree) → List (Text × Listing Char)
  | [] => []
  | (name, tree) :: rest => (name, listing tree) :: entryListings rest

end

/-- What is taken down of a directory, wherever it lies. -/
def fingerprint (tree : FileTree) (root : Path := ['/']) : List (List Text × Text) :=
  (listing tree).fingerprint root

/-- The path below a directory that a request asks for. It needs a part, and all its parts have to
be names. -/
def assetPath? (root : Path) (requested : Text) : Option Path :=
  let path : Path := requested.dropWhile (· = '/')
  let isName : Path.Component → Bool
    | .name _ => true
    | _ => false
  if !path.components.isEmpty && path.components.all isName then some (root.join path) else none

/-- The types of files by extension. -/
def mediaTypes : List (Text × Text) :=
  List.map (fun (extension, type) => (String.toList extension, String.toList type)) [
    ("html", "text/html; charset=utf-8"),
    ("htm", "text/html; charset=utf-8"),
    ("css", "text/css; charset=utf-8"),
    ("js", "text/javascript; charset=utf-8"),
    ("mjs", "text/javascript; charset=utf-8"),
    ("json", "application/json"),
    ("txt", "text/plain; charset=utf-8"),
    ("svg", "image/svg+xml"),
    ("png", "image/png"),
    ("jpg", "image/jpeg"),
    ("jpeg", "image/jpeg"),
    ("gif", "image/gif"),
    ("webp", "image/webp"),
    ("avif", "image/avif"),
    ("ico", "image/x-icon"),
    ("woff2", "font/woff2")]

/-- The type of a file, by the extension of its path in any case. -/
def mediaType (path : Path) : Text :=
  ((path.extension?.map Text.lowered).bind fun extension => mediaTypes.lookup extension).getD
    "application/octet-stream".toList

/-- The page that shows why a page could not be compiled. -/
def errorPage (message : Text) : Text :=
  "<!DOCTYPE html>\n<html><head><meta charset=\"utf-8\"><title>Build failed</title></head>".toList ++
    "<body><h1>Build failed</h1><pre>".toList ++ Markup.escapeText message ++
    "</pre></body></html>".toList

/-- The client that reloads a page when the version on the reload connection changes. -/
def reloadClient : Text :=
  "<script>(function()\x7bvar seen=null;".toList ++
    "function connect()\x7b".toList ++
    "var ws=new WebSocket((location.protocol===\"https:\"?\"wss://\":\"ws://\")+location.host+\"".toList ++
    reloadRoute ++ "\");".toList ++
    "ws.onmessage=function(e)\x7bif(seen!==null&&e.data!==seen)".toList ++
    "\x7blocation.reload();\x7dseen=e.data;\x7d;".toList ++
    "ws.onclose=function()\x7bsetTimeout(connect,1000);\x7d;".toList ++
    "\x7dconnect();\x7d)();</script>".toList

/-- Puts the reload client before the last end of a body, or at the end. A page that already holds
the route of the reload connection stays. -/
def injectReload (page : Text) : Text :=
  if Text.occursIn reloadRoute page then page
  else
    match Text.cutBeforeLast "</body>".toList page with
    | some (before, after) => before ++ reloadClient ++ after
    | none => page ++ reloadClient

end PageCompiler.Preview
