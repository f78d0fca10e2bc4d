import PageCompiler.Behavior
import PageCompiler.ClientData
import PageCompiler.FileTree
import PageCompiler.Markup.Document
import PageCompiler.Style

/-!
# Errors

What can go wrong while a page is built, rendered and saved, and how each error is worded.
-/

namespace PageCompiler

open Markup (DomError NodeId nodeText)

/-- A tag as messages show it. -/
def tagText (tag : Text) : Text :=
  ['<'] ++ tag ++ ['>']

/-- Why a render fails. -/
inductive RenderError where
  | foreign (tag : Text) (root : NodeId)
  | notLive (root : NodeId)
  | mountedTwice (root : NodeId)
  | nested (root : NodeId) (parentTag : Text) (parent : NodeId)
  | document (cause : DomError)
deriving DecidableEq

/-- The wording of a document error inside another message. -/
def documentMessage (cause : DomError) : Text :=
  "element creation failed: ".toList ++ cause.message

/-- The wording of an error. -/
def RenderError.message : RenderError → Text
  | .foreign tag root =>
    tagText tag ++ [' '] ++ nodeText root ++ " belongs to another engine".toList
  | .notLive root => "root ".toList ++ nodeText root ++ " is not a live element".toList
  | .mountedTwice root => "root ".toList ++ nodeText root ++ " is mounted twice".toList
  | .nested root parentTag parent =>
    "root ".toList ++ nodeText root ++ " is a child of ".toList ++ tagText parentTag ++ [' '] ++
      nodeText parent ++ "; mount the outermost element".toList
  | .document cause => documentMessage cause

/-- Why an item cannot be appended. -/
inductive ChildError where
  | foreign (tag : Text)
  | document (cause : DomError)
deriving DecidableEq

/-- The wording of an error. -/
def ChildError.message : ChildError → Text
  | .foreign tag => tagText tag ++ " belongs to another engine".toList
  | .document cause => cause.message

/-- Why an operation on an engine or an element fails. -/
inductive Error where
  | elementCreation (cause : DomError)
  | invalidHandler (cause : HandlerError)
  | invalidDeclarations (cause : DeclarationError)
  | invalidStyle (cause : Style.RuleError)
  | render (cause : RenderError)
  | notRendered
  | invalidChild (host : Text) (cause : ChildError)
  | identifierLocked (node : NodeId) (id : Text)
  | detached (node : NodeId)
  | state (cause : StateError)
  | persistence (path : Path) (cause : FileError)

/-- The wording of an error. -/
def Error.message : Error → Text
  | .elementCreation cause => documentMessage cause
  | .invalidHandler cause => "invalid handler: ".toList ++ cause.message
  | .invalidDeclarations cause => "invalid style definition: ".toList ++ cause.message
  | .invalidStyle cause => "invalid style definition: ".toList ++ cause.message
  | .render cause => "render failed: ".toList ++ cause.message
  | .notRendered => "nothing has been rendered yet".toList
  | .invalidChild host cause =>
    "invalid child: cannot append to ".toList ++ tagText host ++ ": ".toList ++ cause.message
  | .identifierLocked node id =>
    "element ".toList ++ nodeText node ++ " already exposes identifier ".toList ++
      Text.quoted id ++ " to bound behavior".toList
  | .detached node =>
    "element ".toList ++ nodeText node ++ " outlived the engine that created it".toList
  | .state cause => cause.message
  | .persistence path cause =>
    "failed to write ".toList ++ path ++ ": ".toList ++ cause.message

end PageCompiler
