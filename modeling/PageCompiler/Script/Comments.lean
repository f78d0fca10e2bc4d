import PageCompiler.Script.Scan

/-!
# Comments

A line comment disappears up to its line break, which stays. A block comment becomes a line break
when it spans lines and a space otherwise. Literals are copied as they are.
-/

namespace PageCompiler.Script

/-- Where the scanner for comments stands: in code, in a literal, in a line comment, before the star
that opens a block comment, or in a block comment, of which the previous character and the line
breaks so far are known. -/
inductive Place where
  | code
  | literal (inside : Literal)
  | lineComment
  | blockStart
  | blockComment (afterStar spansLines : Bool)
deriving DecidableEq

/-- Strips comments from a place on, given the last written character that is not blank. -/
def stripFrom (place : Place) (last : Option Char) : Text → Except ScanError Text
  | [] =>
    match place with
    | .code => .ok []
    | .lineComment => .ok []
    | .literal inside => .error inside.unterminated
    | .blockStart => .error .unterminatedComment
    | .blockComment _ _ => .error .unterminatedComment
  | c :: rest =>
    match place with
    | .literal inside => do
      let next ← inside.step c
      let place :=
        match next with
        | some inside => .literal inside
        | none => .code
      return c :: (← stripFrom place (lastVisible last c) rest)
    | .lineComment =>
      if c = '\n' || c = '\r' then
        return c :: (← stripFrom .code last rest)
      else
        stripFrom .lineComment last rest
    | .blockStart => stripFrom (.blockComment false false) last rest
    | .blockComment afterStar spansLines =>
      if afterStar && c = '/' then
        return (if spansLines then '\n' else ' ') :: (← stripFrom .code last rest)
      else
        stripFrom (.blockComment (c = '*') (spansLines || c = '\n')) last rest
    | .code =>
      if isQuote c then
        return c :: (← stripFrom (.literal (.quoted c false)) (some c) rest)
      else if c = '/' then
        if rest.head? = some '/' then
          stripFrom .lineComment last rest
        else if rest.head? = some '*' then
          stripFrom .blockStart last rest
        else
          let place := if regexCanStart last then .literal (.regex false false) else .code
          return '/' :: (← stripFrom place (some '/') rest)
      else
        return c :: (← stripFrom .code (lastVisible last c) rest)

/-- A script without its comments. -/
def stripComments (script : Text) : Except ScanError Text :=
  stripFrom .code none script

end PageCompiler.Script
