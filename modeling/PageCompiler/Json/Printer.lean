import PageCompiler.Json.Value

/-!
# Written values

A value is written without any blanks, the members of an object in their order. In a string only
the quote, the backslash and the characters below the space are escaped.
-/

namespace PageCompiler.Json

/-- A hexadecimal digit in small letters. -/
def hexDigit (value : Nat) : Char :=
  Nat.digitChar value

/-- How one character is written inside a string. -/
def escapedChar (c : Char) : Text :=
  if c = '"' then ['\\', '"']
  else if c = '\\' then ['\\', '\\']
  else if c = '\n' then ['\\', 'n']
  else if c = '\r' then ['\\', 'r']
  else if c = '\t' then ['\\', 't']
  else if c = '\x08' then ['\\', 'b']
  else if c = '\x0c' then ['\\', 'f']
  else if c.toNat < 0x20 then
    ['\\', 'u', '0', '0', hexDigit (c.toNat / 16), hexDigit (c.toNat % 16)]
  else [c]

/-- A string with its quotes. -/
def stringText (text : Text) : Text :=
  ['"'] ++ text.flatMap escapedChar ++ ['"']

namespace Value

mutual

/-- The written form of a value. -/
def text : Value → Text
  | .null => ['n', 'u', 'l', 'l']
  | .bool true => ['t', 'r', 'u', 'e']
  | .bool false => ['f', 'a', 'l', 's', 'e']
  | .number value => value.text
  | .string value => stringText value
  | .array [] => ['[', ']']
  | .array (first :: rest) => '[' :: (text first ++ itemsText rest)
  | .object [] => ['{', '}']
  | .object ((key, value) :: rest) => '{' :: (stringText key ++ ':' :: (text value ++ membersText rest))

/-- The items after the first, and the closing bracket. -/
def itemsText : List Value → Text
  | [] => [']']
  | item :: rest => ',' :: (text item ++ itemsText rest)

/-- The members after the first, and the closing brace. -/
def membersText : List (Text × Value) → Text
  | [] => ['}']
  | (key, value) :: rest => ',' :: (stringText key ++ ':' :: (text value ++ membersText rest))

end

end Value

end PageCompiler.Json
