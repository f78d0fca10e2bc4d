/-!
# Texts

A text is the list of its characters. Everything that is read or written character by character
is then a recursion on the list, and lengths and positions never depend on an encoding. The only
measure that does is `Text.utf8Size`, for reports that count bytes.
-/

namespace PageCompiler

/-- A text, as the list of its characters. -/
abbrev Text := List Char

namespace Text

/-- ASCII capitals become small letters; every other character stays. -/
def lowered (text : Text) : Text :=
  text.map Char.toLower

/-- Number of bytes of the text in UTF-8. -/
def utf8Size (text : Text) : Nat :=
  text.foldl (fun size c => size + c.utf8Size) 0

/-- A natural number in decimal digits. -/
def ofNat (value : Nat) : Text :=
  Nat.toDigits 10 value

/-- Whether `part` occurs in the text as a block of neighbouring characters. -/
def occursIn (part : Text) : Text → Bool
  | [] => part.isEmpty
  | c :: rest => part.isPrefixOf (c :: rest) || occursIn part rest

/-- The pieces between the characters that satisfy `isBreak`. There is always one more piece than
there are such characters. -/
def segments (isBreak : Char → Bool) : Text → List Text
  | [] => [[]]
  | c :: rest =>
    if isBreak c then
      [] :: segments isBreak rest
    else
      match segments isBreak rest with
      | [] => [[c]]
      | first :: others => (c :: first) :: others

/-- The parts before and after the first occurrence of `mark`. -/
def cutAt (mark : Char) : Text → Option (Text × Text)
  | [] => none
  | c :: rest =>
    if c = mark then
      some ([], rest)
    else
      (cutAt mark rest).map fun (before, after) => (c :: before, after)

/-- The parts before and after the last occurrence of `part`; the second starts with `part`. -/
def cutBeforeLast (part : Text) : Text → Option (Text × Text)
  | [] => if part.isEmpty then some ([], []) else none
  | c :: rest =>
    match cutBeforeLast part rest with
    | some (before, after) => some (c :: before, after)
    | none => if part.isPrefixOf (c :: rest) then some ([], c :: rest) else none

theorem occursIn_iff {part text : Text} : occursIn part text = true ↔ part <:+: text := by
  induction text with
  | nil => simp [occursIn]
  | cons c rest ih => simp [occursIn, ih, List.infix_cons_iff]

theorem segments_ne_nil (isBreak : Char → Bool) (text : Text) : segments isBreak text ≠ [] := by
  cases text with
  | nil => simp [segments]
  | cons c rest =>
    unfold segments
    split
    · simp
    · split <;> simp

end Text

end PageCompiler
