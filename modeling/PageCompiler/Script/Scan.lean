import PageCompiler.Text.Blank

/-!
# Scanning scripts

What the passes over a script share: how a literal is followed to its end, where a regular
expression may start, and why a script cannot be scanned. Strings end at their quote, templates at
theirs; a backslash takes the next character along. A regular expression ends at a slash outside a
character class.
-/

namespace PageCompiler.Script

/-- Why a script cannot be scanned. -/
inductive ScanError where
  | unterminatedComment
  | unterminatedString (quote : Char)
  | lineBreakInString (quote : Char)
  | unterminatedRegex
  | lineBreakInRegex
deriving DecidableEq

/-- The wording of an error. -/
def ScanError.message : ScanError → Text
  | .unterminatedComment => "unterminated block comment".toList
  | .unterminatedString quote => "unterminated ".toList ++ [quote] ++ " string literal".toList
  | .lineBreakInString quote =>
    "line break inside ".toList ++ [quote] ++ " string literal".toList
  | .unterminatedRegex => "unterminated regular expression".toList
  | .lineBreakInRegex => "line break inside regular expression".toList

/-- The literal that a scanner is inside of. After a backslash the next character is escaped. -/
inductive Literal where
  | quoted (quote : Char) (escaped : Bool)
  | regex (inClass escaped : Bool)
deriving DecidableEq

/-- The error when a script ends inside a literal. -/
def Literal.unterminated : Literal → ScanError
  | .quoted quote _ => .unterminatedString quote
  | .regex _ _ => .unterminatedRegex

/-- What follows after one more character of a literal: the literal goes on, or it is closed. Only
templates may hold line breaks that are not escaped. -/
def Literal.step : Literal → Char → Except ScanError (Option Literal)
  | .quoted quote true, _ => .ok (some (.quoted quote false))
  | .quoted quote false, c =>
    if c = '\\' then .ok (some (.quoted quote true))
    else if c = '\n' && quote != '\x60' then .error (.lineBreakInString quote)
    else if c = quote then .ok none
    else .ok (some (.quoted quote false))
  | .regex inClass true, _ => .ok (some (.regex inClass false))
  | .regex inClass false, c =>
    if c = '\\' then .ok (some (.regex inClass true))
    else if c = '[' then .ok (some (.regex true false))
    else if c = ']' then .ok (some (.regex false false))
    else if c = '/' && !inClass then .ok none
    else if c = '\n' then .error .lineBreakInRegex
    else .ok (some (.regex inClass false))

/-- Whether a character opens a string or a template. -/
def isQuote (c : Char) : Bool :=
  c = '"' || c = '\'' || c = '\x60'

/-- After one of these characters a slash starts a regular expression and does not divide. -/
def regexPreceders : Text :=
  "(,=:[!&|?\x7b\x7d;+-*%<>~^".toList

/-- Whether a slash starts a regular expression, by the last written character that is not
blank. -/
def regexCanStart (last : Option Char) : Bool :=
  match last with
  | none => true
  | some c => regexPreceders.contains c

/-- The last character that is not blank after one more character is written. -/
def lastVisible (last : Option Char) (c : Char) : Option Char :=
  if Text.isBlank c then last else some c

end PageCompiler.Script
