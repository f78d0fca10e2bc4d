import PageCompiler.Script.Comments

/-!
# Whitespace

The gaps between the parts of a script without comments shrink as far as the parts allow: a line
break stays unless the characters around it show that no statement can end there, a space stays
where its neighbours would otherwise run together. Literals are copied as they are.
-/

namespace PageCompiler.Script

/-- What lies between two written characters; a line break outweighs spaces. -/
inductive Gap where
  | none
  | space
  | newline
deriving DecidableEq

/-- The characters that end a line of a script. -/
def isLineEnd (c : Char) : Bool :=
  c = '\n' || c = '\r' || c = '\u2028' || c = '\u2029'

/-- A gap that grows by a blank character. -/
def Gap.grow (gap : Gap) (c : Char) : Gap :=
  if isLineEnd c || gap = .newline then .newline else .space

/-- No statement ends at a line break after one of these characters. -/
def tightAfter : Text :=
  "\x7b;,([=:?&|*%<>!".toList

/-- No statement ends at a line break before one of these characters. -/
def tightBefore : Text :=
  ")]\x7d,;.".toList

/-- Whether a character belongs to words: names, numbers, escapes, and everything beyond ASCII. -/
def isWordChar (c : Char) : Bool :=
  c.isAlphanum || c = '_' || c = '$' || c = '\\' || 0x80 ≤ c.toNat

/-- Whether two characters would be read differently without a space between them. -/
def needsSpace (before after : Char) : Bool :=
  ((before = '+' || before = '-') && before = after) ||
    (before = '/' && (after = '/' || after = '*')) ||
    (isWordChar before && isWordChar after) || (before.isDigit && after = '.')

/-- What is written for a gap between two characters; a gap at the start is dropped. -/
def gapText (gap : Gap) (before : Option Char) (after : Char) : Text :=
  match gap, before with
  | .none, _ => []
  | _, none => []
  | gap, some before =>
    if gap = .newline && !tightAfter.contains before && !tightBefore.contains after then ['\n']
    else if needsSpace before after then [' ']
    else []

/-- Whether a comment starts at a slash followed by this text. -/
def startsComment : Text → Bool
  | c :: _ => c = '/' || c = '*'
  | [] => false

/-- Collapses whitespace, from inside a literal or from code with a gap before it, given the last
written character. A gap at the end is dropped. -/
def collapseFrom (inside : Option Literal) (gap : Gap) (last : Option Char) :
    Text → Except ScanError Text
  | [] =>
    match inside with
    | none => .ok []
    | some literal => .error literal.unterminated
  | c :: rest =>
    match inside with
    | some literal => do
      let next ← literal.step c
      return c :: (← collapseFrom next .none (lastVisible last c) rest)
    | none =>
      if Text.isBlank c then
        collapseFrom none (gap.grow c) last rest
      else
        let next :=
          if isQuote c then some (.quoted c false)
          else if c = '/' && regexCanStart last && !startsComment rest then
            some (.regex false false)
          else none
        return gapText gap last c ++ c :: (← collapseFrom next .none (some c) rest)

/-- A script without comments, with its gaps collapsed. -/
def collapseWhitespace (script : Text) : Except ScanError Text :=
  collapseFrom none .none none script

/-- A script without comments and with its gaps collapsed. -/
def minify (script : Text) : Except ScanError Text := do
  collapseWhitespace (← stripComments script)

end PageCompiler.Script
