import PageCompiler.Json.Value

/-!
# Reading

Reading has two steps. The first follows the grammar alone and gives a `Tree`, in which repeated
keys are still apart, a number out of range has no value, and neither has a string with an
unpaired surrogate. The second, `Tree.value?`, gives the value of a tree, and refuses what has
none or nests too deeply.
-/

namespace PageCompiler.Json

/-- What the grammar reads. -/
inductive Tree where
  | null
  | bool (value : Bool)
  | number (value : Option Number)
  | string (text : Option Text)
  | array (items : List Tree)
  | object (members : List (Option Text × Tree))

/-- The characters allowed between the parts of a value. -/
def isSpace (c : Char) : Bool :=
  c = ' ' || c = '\t' || c = '\n' || c = '\r'

/-- The text without the spaces at its start. -/
def skipSpace (text : Text) : Text :=
  text.dropWhile isSpace

theorem skipSpace_cons {c : Char} (visible : isSpace c = false) (rest : Text) :
    skipSpace (c :: rest) = c :: rest := by
  simp [skipSpace, visible]

/-- What follows `word` at the start of a text. -/
def afterWord (word text : Text) : Option Text :=
  if word.isPrefixOf text then some (text.drop word.length) else none

/-- The longest run of decimal digits at the start, and the rest. -/
def digitRun (text : Text) : Text × Text :=
  (text.takeWhile Char.isDigit, text.dropWhile Char.isDigit)

/-- A natural number from its decimal digits. -/
def natOfDigits (digits : Text) : Nat :=
  digits.foldl (fun value c => value * 10 + Number.digitValue c) 0

/-- Reads the part after the point, if there is a point. -/
def readFraction : Text → Option (Option Text × Text)
  | '.' :: rest =>
    match digitRun rest with
    | ([], _) => none
    | (digits, rest) => some (some digits, rest)
  | text => some (none, text)

/-- Reads the power of ten, if there is one. -/
def readExponent : Text → Option (Option Int × Text)
  | [] => some (none, [])
  | c :: rest =>
    if c = 'e' || c = 'E' then
      let (negative, rest) :=
        match rest with
        | '-' :: rest => (true, rest)
        | '+' :: rest => (false, rest)
        | rest => (false, rest)
      match digitRun rest with
      | ([], _) => none
      | (digits, rest) =>
        let size : Int := natOfDigits digits
        some (some (if negative then -size else size), rest)
    else
      some (none, c :: rest)

/-- Reads a number. A whole part of several digits does not start with zero. -/
def readLiteral (text : Text) : Option (Literal × Text) := do
  let (negative, text) :=
    match text with
    | '-' :: rest => (true, rest)
    | text => (false, text)
  let (whole, text) := digitRun text
  if whole.isEmpty || (whole.head? = some '0' && 1 < whole.length) then
    none
  else
    let (fraction, text) ← readFraction text
    let (exponent, text) ← readExponent text
    some (⟨negative, whole, fraction, exponent⟩, text)

/-- A piece of a string: a character, or the number given by an escape of four digits. -/
inductive Piece where
  | plain (c : Char)
  | unit (value : Nat)

/-- The value of a hexadecimal digit. -/
def hexValue (c : Char) : Option Nat :=
  if c.isDigit then some (c.toNat - '0'.toNat)
  else if 'a' ≤ c && c ≤ 'f' then some (c.toNat - 'a'.toNat + 10)
  else if 'A' ≤ c && c ≤ 'F' then some (c.toNat - 'A'.toNat + 10)
  else none

/-- The number given by four hexadecimal digits. -/
def hexUnit (a b c d : Char) : Option Nat := do
  some ((((← hexValue a) * 16 + (← hexValue b)) * 16 + (← hexValue c)) * 16 + (← hexValue d))

/-- What a letter after a backslash stands for. -/
def escapeLetter (c : Char) : Option Char :=
  if c = '"' || c = '\\' || c = '/' then some c
  else if c = 'b' then some '\x08'
  else if c = 'f' then some '\x0c'
  else if c = 'n' then some '\n'
  else if c = 'r' then some '\r'
  else if c = 't' then some '\t'
  else none

/-- Reads the pieces of a string up to its closing quote, and the rest. -/
def readPieces : Text → Option (List Piece × Text)
  | '"' :: rest => some ([], rest)
  | '\\' :: 'u' :: a :: b :: c :: d :: rest =>
    match hexUnit a b c d, readPieces rest with
    | some value, some (pieces, rest) => some (.unit value :: pieces, rest)
    | _, _ => none
  | '\\' :: c :: rest =>
    match escapeLetter c, readPieces rest with
    | some letter, some (pieces, rest) => some (.plain letter :: pieces, rest)
    | _, _ => none
  | c :: rest =>
    if c = '\\' || c.toNat < 0x20 then none
    else
      match readPieces rest with
      | some (pieces, rest) => some (.plain c :: pieces, rest)
      | none => none
  | [] => none

theorem readPieces_quote (rest : Text) : readPieces ('"' :: rest) = some ([], rest) := by
  rw [readPieces]

/-- Whether a number is the first half of a surrogate pair. -/
def isLeading (unit : Nat) : Bool :=
  0xD800 ≤ unit && unit < 0xDC00

/-- Whether a number is the second half of a surrogate pair. -/
def isTrailing (unit : Nat) : Bool :=
  0xDC00 ≤ unit && unit < 0xE000

/-- The text of the pieces, in which surrogates must come in pairs. -/
def textOfPieces : List Piece → Option Text
  | [] => some []
  | .plain c :: rest => (textOfPieces rest).map (c :: ·)
  | .unit first :: .unit second :: rest =>
    if isLeading first then
      if isTrailing second then
        (textOfPieces rest).map
          (Char.ofNat (0x10000 + (first - 0xD800) * 0x400 + (second - 0xDC00)) :: ·)
      else none
    else if isTrailing first then none
    else (textOfPieces (.unit second :: rest)).map (Char.ofNat first :: ·)
  | .unit first :: rest =>
    if isLeading first || isTrailing first then none
    else (textOfPieces rest).map (Char.ofNat first :: ·)

theorem textOfPieces_plain (c : Char) (pieces : List Piece) :
    textOfPieces (.plain c :: pieces) = (textOfPieces pieces).map (c :: ·) := by
  rw [textOfPieces]

/-- Reads a string after its opening quote. -/
def readString (text : Text) : Option (Option Text × Text) :=
  (readPieces text).map fun (pieces, rest) => (textOfPieces pieces, rest)

mutual

/-- Reads one value at the start of a text. The count bounds the depth of the recursion. -/
def readTree : Nat → Text → Option (Tree × Text)
  | 0, _ => none
  | count + 1, text =>
    match skipSpace text with
    | '"' :: rest => (readString rest).map fun (value, rest) => (.string value, rest)
    | '[' :: rest =>
      match skipSpace rest with
      | ']' :: rest => some (.array [], rest)
      | rest => (readItems count rest).map fun (items, rest) => (.array items, rest)
    | '{' :: rest =>
      match skipSpace rest with
      | '}' :: rest => some (.object [], rest)
      | rest => (readMembers count rest).map fun (members, rest) => (.object members, rest)
    | 'n' :: rest => (afterWord ['u', 'l', 'l'] rest).map fun rest => (.null, rest)
    | 't' :: rest => (afterWord ['r', 'u', 'e'] rest).map fun rest => (.bool true, rest)
    | 'f' :: rest => (afterWord ['a', 'l', 's', 'e'] rest).map fun rest => (.bool false, rest)
    | text => (readLiteral text).map fun (literal, rest) => (.number literal.value?, rest)

/-- Reads items up to the closing bracket. -/
def readItems : Nat → Text → Option (List Tree × Text)
  | 0, _ => none
  | count + 1, text => do
    let (item, rest) ← readTree count text
    match skipSpace rest with
    | ',' :: rest => (readItems count rest).map fun (items, rest) => (item :: items, rest)
    | ']' :: rest => some ([item], rest)
    | _ => none

/-- Reads members up to the closing brace. -/
def readMembers : Nat → Text → Option (List (Option Text × Tree) × Text)
  | 0, _ => none
  | count + 1, text =>
    match skipSpace text with
    | '"' :: rest => do
      let (key, rest) ← readString rest
      match skipSpace rest with
      | ':' :: rest =>
        let (value, rest) ← readTree count rest
        match skipSpace rest with
        | ',' :: rest =>
          (readMembers count rest).map fun (members, rest) => ((key, value) :: members, rest)
        | '}' :: rest => some ([(key, value)], rest)
        | _ => none
      | _ => none
    | _ => none

end

theorem readTree_noItems {count : Nat} {rest : Text} :
    readTree (count + 1) ('[' :: ']' :: rest) = some (.array [], rest) := by
  have start : skipSpace ('[' :: ']' :: rest) = '[' :: ']' :: rest := skipSpace_cons rfl _
  have inside : skipSpace (']' :: rest) = ']' :: rest := skipSpace_cons rfl _
  simp only [readTree, start, inside]

theorem readTree_noMembers {count : Nat} {rest : Text} :
    readTree (count + 1) ('\x7b' :: '\x7d' :: rest) = some (.object [], rest) := by
  have start : skipSpace ('\x7b' :: '\x7d' :: rest) = '\x7b' :: '\x7d' :: rest := skipSpace_cons rfl _
  have inside : skipSpace ('\x7d' :: rest) = '\x7d' :: rest := skipSpace_cons rfl _
  simp only [readTree, start, inside]

namespace Tree

/-- Reads one value at the start of a text, and gives what follows it. -/
def readFirst (text : Text) : Option (Tree × Text) :=
  readTree (2 * text.length + 2) text

/-- Reads a text that holds one value and nothing else. -/
def read (text : Text) : Option Tree := do
  let (tree, rest) ← readFirst text
  if (skipSpace rest).isEmpty then some tree else none

mutual

/-- The value of a tree whose arrays and objects nest at most `depth` deep. -/
def value? (depth : Nat) : Tree → Option Value
  | .null => some .null
  | .bool value => some (.bool value)
  | .number value => value.map .number
  | .string text => text.map .string
  | .array items => if depth = 0 then none else (values? (depth - 1) items).map .array
  | .object members =>
    if depth = 0 then none
    else (memberValues? (depth - 1) members).map fun pairs => .object (Entries.ofPairs pairs)

/-- The values of several trees. -/
def values? (depth : Nat) : List Tree → Option (List Value)
  | [] => some []
  | item :: rest => do
    let value ← value? depth item
    let values ← values? depth rest
    some (value :: values)

/-- The keys and values of members, one by one. -/
def memberValues? (depth : Nat) : List (Option Text × Tree) → Option (List (Text × Value))
  | [] => some []
  | (key, item) :: rest => do
    let key ← key
    let value ← value? depth item
    let pairs ← memberValues? depth rest
    some ((key, value) :: pairs)

end

mutual

/-- The tree that a value is read from. -/
def ofValue : Value → Tree
  | .null => .null
  | .bool value => .bool value
  | .number value => .number (some value)
  | .string text => .string (some text)
  | .array items => .array (ofItems items)
  | .object members => .object (ofMembers members)

/-- The trees that several values are read from. -/
def ofItems : List Value → List Tree
  | [] => []
  | item :: rest => ofValue item :: ofItems rest

/-- The members that an object's members are read from. -/
def ofMembers : List (Text × Value) → List (Option Text × Tree)
  | [] => []
  | (key, value) :: rest => (some key, ofValue value) :: ofMembers rest

end

end Tree

/-- Arrays and objects nest at most this deep. -/
def depthLimit : Nat := 127

/-- Reads a text that holds one value and nothing else. -/
def Value.read (text : Text) : Option Value :=
  (Tree.read text).bind (Tree.value? depthLimit)

end PageCompiler.Json
