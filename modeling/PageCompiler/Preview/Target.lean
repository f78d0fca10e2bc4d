import PageCompiler.Json.Tree

/-!
# Request targets

A request names what it asks for by its target. The target is a path with an optional query, an
address with a scheme and an authority in front of the path, or an authority alone; an asterisk
counts as the last. A fragment is dropped. Parts of a path may hold percent escapes, which stand
for the bytes of a UTF-8 text.
-/

namespace PageCompiler.Preview

/-- The value of two hexadecimal digits. -/
def byteOfDigits (a b : Char) : Option Nat := do
  return (← Json.hexValue a) * 16 + (← Json.hexValue b)

/-- The bytes of a text with percent escapes. A percent sign without two hexadecimal digits after
it stands for itself. -/
def unescapedBytes : Text → List UInt8
  | [] => []
  | '%' :: a :: b :: rest =>
    match byteOfDigits a b with
    | some byte => UInt8.ofNat byte :: unescapedBytes rest
    | none => String.utf8EncodeChar '%' ++ unescapedBytes (a :: b :: rest)
  | c :: rest => String.utf8EncodeChar c ++ unescapedBytes rest

/-- The text that a text with percent escapes stands for, if it is UTF-8. -/
def unescaped (text : Text) : Option Text :=
  (String.fromUTF8? ⟨(unescapedBytes text).toArray⟩).map String.toList

/-- What a request target asks for: a path, or none if it is an authority alone. -/
inductive Target where
  | path (text : Text)
  | authority
deriving DecidableEq

namespace Target

/-- Targets have at most this many bytes. -/
def sizeLimit : Nat := 65534

/-- Blanks and control characters of ASCII end a target, so that it can hold none. -/
def isTargetChar (c : Char) : Bool :=
  0x20 < c.toNat && c.toNat != 0x7F

/-- The characters that a path holds without an escape. -/
def isPathChar (c : Char) : Bool :=
  isTargetChar c && c != '<' && c != '>' && c.toNat != 0x60

/-- The characters that a query holds without an escape. -/
def isQueryChar (c : Char) : Bool :=
  isTargetChar c && c != '"' && c != '<' && c != '>'

/-- The path of a text that may end with a query and a fragment. -/
def readPath? (text : Text) : Option Text :=
  let path := text.takeWhile fun c => c != '?' && c != '#'
  let query := match text.drop path.length with
    | '?' :: rest => rest.takeWhile (· != '#')
    | _ => []
  if path.all isPathChar && query.all isQueryChar then some path else none

/-- The characters of a scheme: ASCII letters and digits, plus, minus, point and tilde, in any
order. -/
def isSchemeChar (c : Char) : Bool :=
  c.isAlphanum || c = '+' || c = '-' || c = '.' || c = '~'

/-- Schemes have at most this many characters. -/
def schemeLimit : Nat := 64

/-- Cuts the scheme of an address, if the text starts with one, from what follows its slashes. -/
def cutScheme (text : Text) : Option (Text × Text) :=
  let scheme := text.takeWhile isSchemeChar
  match text.drop scheme.length with
  | ':' :: '/' :: '/' :: rest => some (scheme, rest)
  | _ => none

/-- What was met in an authority so far. Colons and escapes count from the last mark that can end
a user or a bracketed address. -/
structure Authority where
  colons : Nat := 0
  opened : Bool := false
  closed : Bool := false
  escaped : Bool := false
  userEnds : Bool := false
deriving DecidableEq

/-- The characters of an authority that need no care. -/
def isAuthorityChar (c : Char) : Bool :=
  c.isAlphanum || "!$&'()*+,-.;=_~".toList.contains c

/-- An authority with one more character. -/
def Authority.add? (seen : Authority) (c : Char) : Option Authority :=
  if c = ':' then
    if seen.colons < 8 then some { seen with colons := seen.colons + 1, userEnds := false } else none
  else if c = '[' then
    if seen.escaped || seen.opened then none else some { seen with opened := true, userEnds := false }
  else if c = ']' then
    if seen.closed || !seen.opened then none
    else some { opened := true, closed := true }
  else if c = '@' then
    some { seen with colons := 0, escaped := false, userEnds := true }
  else if c = '%' then
    some { seen with escaped := true, userEnds := false }
  else if isAuthorityChar c then
    some { seen with userEnds := false }
  else none

/-- Whether an authority may end here: its brackets are closed, at most one colon starts a port, and
its host is there without escapes. -/
def Authority.isComplete (seen : Authority) : Bool :=
  seen.opened = seen.closed && seen.colons ≤ 1 && !seen.escaped && !seen.userEnds

/-- What follows the authority that a text starts with. -/
def afterAuthority? (seen : Authority) : Text → Option Text
  | [] => if seen.isComplete then some [] else none
  | c :: rest =>
    if c = '/' || c = '?' || c = '#' then
      if seen.isComplete then some (c :: rest) else none
    else (seen.add? c).bind fun seen => afterAuthority? seen rest

/-- The path of an address, given what follows its scheme. The authority has to be there, and a
path that is not there is the root. -/
def readAddress? (text : Text) : Option Target := do
  let rest ← afterAuthority? {} text
  if rest.length = text.length then failure
  let path ← readPath? rest
  return .path (if path.isEmpty then ['/'] else path)

/-- Reads a target. -/
def read? (text : Text) : Option Target :=
  if !text.all isTargetChar then none
  else
    match text with
    | [] => none
    | '/' :: _ => (readPath? text).map .path
    | _ =>
      match cutScheme text with
      | some (scheme, rest) =>
        if schemeLimit < scheme.length then none else readAddress? rest
      | none => if afterAuthority? {} text = some [] then some .authority else none

end Target

end PageCompiler.Preview
