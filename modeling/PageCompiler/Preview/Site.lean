import PageCompiler.PageFile
import PageCompiler.Preview
import PageCompiler.Preview.Target

/-!
# Preview sites

A site answers requests for one page and for the files of the directory that the page is in. The
page is compiled anew for every request. A watch counts how often the watched files of a directory
were found changed.
-/

namespace PageCompiler.Preview

/-- A page file, the directory it is in, and whether its page reloads itself. -/
structure Site where
  page : Path
  root : Path
  liveReload : Bool
deriving DecidableEq

/-- An answer to a request. -/
structure Response where
  status : Nat
  contentType : Text
  body : Text
deriving DecidableEq

/-- The type of pages. -/
def pageType : Text :=
  "text/html; charset=utf-8".toList

/-- An answer that is a short text. -/
def Response.ofText (status : Nat) (body : String) : Response :=
  ⟨status, "text/plain; charset=utf-8".toList, body.toList⟩

/-- An answer that is only a status. -/
def Response.ofStatus (status : Nat) : Response :=
  ⟨status, [], []⟩

/-- How a request is made. -/
inductive Method where
  | get
  | head
  | other
deriving DecidableEq

namespace Site

/-- The site for a page file, with the directory it is in. -/
def new? (page : Path) (liveReload : Bool) : Option Site :=
  page.parent?.map fun root => { page, root, liveReload }

/-- The answer to a request for the page. -/
def pageResponse (site : Site) (files : FileTree) (here : List Text) (entropy : UInt64) :
    Response :=
  let (status, page) :=
    match PageFile.compile site.page (files.read here site.page) false entropy with
    | .ok (page, _) => (200, page)
    | .error cause => (500, errorPage cause.message)
  ⟨status, pageType, if site.liveReload then injectReload page else page⟩

/-- The answer to a request for a file of the directory. -/
def assetResponse (site : Site) (files : FileTree) (here : List Text) (requested : Text) :
    Response :=
  match assetPath? site.root requested with
  | none => .ofText 400 "invalid path"
  | some path =>
    match files.read here path with
    | .ok content => ⟨200, mediaType path, content⟩
    | .error .notFound => .ofText 404 "not found"
    | .error _ => .ofText 500 "unreadable file"

/-- The answer to a request for a path. -/
def getResponse (site : Site) (files : FileTree) (here : List Text) (entropy : UInt64)
    (path : Text) : Response :=
  if path = ['/'] then site.pageResponse files here entropy
  else
    match unescaped (path.drop 1) with
    | some requested => site.assetResponse files here requested
    | none => .ofText 400 "invalid path"

/-- The answer to a request. One for the head of an answer gets no body, one that asks for no path
finds nothing, and one with a target that is too long or cannot be read is refused. -/
def respond (site : Site) (files : FileTree) (here : List Text) (entropy : UInt64)
    (method : Method) (target : Text) : Response :=
  if Target.sizeLimit < Text.utf8Size target then .ofStatus 414
  else
    match Target.read? target, method with
    | none, _ => .ofStatus 400
    | some .authority, _ => .ofStatus 404
    | some (.path path), .get => site.getResponse files here entropy path
    | some (.path path), .head => { site.getResponse files here entropy path with body := [] }
    | some (.path _), .other => .ofStatus 405

end Site

/-- What a watch on a directory saw last, and how many changes it has found. -/
structure Watch where
  root : Path
  seen : List (List Text × Text)
  version : Nat := 0

namespace Watch

/-- A watch on a directory. -/
def start (directory : FileTree) (root : Path := ['/']) : Watch :=
  { root, seen := fingerprint directory root }

/-- Looks at the directory again. -/
def sweep (watch : Watch) (directory : FileTree) : Watch :=
  let now := fingerprint directory watch.root
  if now = watch.seen then watch else { watch with seen := now, version := watch.version + 1 }

end Watch

end PageCompiler.Preview
