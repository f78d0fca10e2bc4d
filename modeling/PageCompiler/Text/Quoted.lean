import PageCompiler.Text.Invisible

/-!
# Quoted texts

Messages show a text between double quotes. Quotes and backslashes get a backslash, the common
control characters their letter, and every other character without a visible form its code point
in small hexadecimal digits between braces.
-/

namespace PageCompiler.Text

/-- How one character is written between the quotes. -/
def quotedChar (c : Char) : Text :=
  if c = '"' then ['\\', '"']
  else if c = '\\' then ['\\', '\\']
  else if c = '\n' then ['\\', 'n']
  else if c = '\r' then ['\\', 'r']
  else if c = '\t' then ['\\', 't']
  else if c = '\x00' then ['\\', '0']
  else if isInvisible c then ['\\', 'u', '\x7b'] ++ Nat.toDigits 16 c.toNat ++ ['\x7d']
  else [c]

/-- The text between double quotes. -/
def quoted (text : Text) : Text :=
  ['"'] ++ text.flatMap quotedChar ++ ['"']

end PageCompiler.Text
