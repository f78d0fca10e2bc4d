import PageCompiler.Proofs.Stylesheet

/-!
# Stylesheets read back

A stylesheet is read with the lexical rules of its language: delimiters do not count inside quotes,
parentheses and comments or after a backslash. What is read of a rule is its selector, its properties
and its values, as they stand between their delimiters. A stylesheet of class rules reads back as exactly
the rules that were accepted when each property and value, read alone, ends outside of all that it
opens. The check of values does not ensure that: it knows no comments, lets a value end in a backslash
and knows one line end only.
-/

namespace PageCompiler

namespace Style

/-! ## Reading -/

/-- Where the reading of a stylesheet stands: in plain text, after a slash there, after a backslash,
inside quotes, inside a comment, or after a star there. Inside quotes, a carriage return after a
backslash takes a line feed with it. -/
inductive Place where
  | plain
  | slash
  | escaped
  | quoted (quote : Char)
  | quotedEscaped (quote : Char)
  | quotedReturn (quote : Char)
  | comment
  | star
deriving DecidableEq

/-- A place inside so many parentheses. -/
structure Position where
  place : Place
  depth : Nat
deriving DecidableEq

/-- Whether a character ends a line. -/
def isLineEnd (c : Char) : Bool :=
  c = '\n' || c = '\r' || c = '\x0c'

/-- Whether a character is white space of a stylesheet. -/
def isSpace (c : Char) : Bool :=
  c = ' ' || c = '\t' || isLineEnd c

namespace Position

/-- Plain text outside of parentheses. -/
def start : Position :=
  ⟨.plain, 0⟩

/-- Whether a delimiter counts at a position. -/
def isOutside (position : Position) : Bool :=
  (position.place = .plain || position.place = .slash) && position.depth = 0

/-- The position after a character of plain text. -/
def afterPlain (depth : Nat) (c : Char) : Position :=
  if c = '/' then ⟨.slash, depth⟩
  else if c = '"' || c = '\'' then ⟨.quoted c, depth⟩
  else if c = '\\' then ⟨.escaped, depth⟩
  else if c = '(' then ⟨.plain, depth + 1⟩
  else if c = ')' then ⟨.plain, depth - 1⟩
  else ⟨.plain, depth⟩

/-- The position after a character inside quotes. There is none after a line end, which breaks the
quotes. -/
def afterQuoted (quote : Char) (depth : Nat) (c : Char) : Option Position :=
  if c = '\\' then some ⟨.quotedEscaped quote, depth⟩
  else if isLineEnd c then none
  else if c = quote then some ⟨.plain, depth⟩
  else some ⟨.quoted quote, depth⟩

/-- The position after a character. -/
def next (position : Position) (c : Char) : Option Position :=
  match position.place with
  | .plain => some (afterPlain position.depth c)
  | .slash => some (if c = '*' then ⟨.comment, position.depth⟩ else afterPlain position.depth c)
  | .escaped => some ⟨.plain, position.depth⟩
  | .quoted quote => afterQuoted quote position.depth c
  | .quotedEscaped quote =>
    some
      (if c = '\r' then ⟨.quotedReturn quote, position.depth⟩ else ⟨.quoted quote, position.depth⟩)
  | .quotedReturn quote =>
    if c = '\n' then some ⟨.quoted quote, position.depth⟩ else afterQuoted quote position.depth c
  | .comment => some (if c = '*' then ⟨.star, position.depth⟩ else position)
  | .star =>
    some (if c = '/' then ⟨.plain, position.depth⟩ else if c = '*' then position
      else ⟨.comment, position.depth⟩)

/-- Whether a text read from a position holds no delimiter that counts and ends where one would. -/
def isContained (isDelimiter : Char → Bool) (position : Position) : Text → Bool
  | [] => position.isOutside
  | c :: rest =>
    !(position.isOutside && isDelimiter c) &&
      (position.next c).any fun next => isContained isDelimiter next rest

end Position

/-- Cuts a text at the first delimiter that counts. -/
def cut (isDelimiter : Char → Bool) (position : Position) : Text → Option (Text × Char × Text)
  | [] => none
  | c :: rest =>
    if position.isOutside && isDelimiter c then some ([], c, rest)
    else
      (position.next c).bind fun next =>
        (cut isDelimiter next rest).map fun found => (c :: found.1, found.2)

/-- Cuts a text at the first delimiter that counts, which must be the given mark. -/
def cutAt (mark : Char) (isDelimiter : Char → Bool) (text : Text) : Option (Text × Text) :=
  match cut isDelimiter .start text with
  | some (before, delimiter, after) => if delimiter = mark then some (before, after) else none
  | none => none

/-- The delimiters of rules and declarations. -/
def isRuleDelimiter (c : Char) : Bool :=
  c = '\x7b' || c = '\x7d' || c = ';'

/-- The delimiters of properties. -/
def isPropertyDelimiter (c : Char) : Bool :=
  c = ':' || isRuleDelimiter c

/-- Reads declarations up to the end of their rule, fewer than the limit. -/
def readDeclarations : Nat → Text → Option (List (Text × Text) × Text)
  | 0, _ => none
  | limit + 1, text =>
    match text.dropWhile isSpace with
    | '\x7d' :: rest => some ([], rest)
    | start => do
      let (property, rest) ← cutAt ':' isPropertyDelimiter start
      let (value, rest) ← cutAt ';' isRuleDelimiter (rest.dropWhile isSpace)
      let (declarations, rest) ← readDeclarations limit rest
      return ((property, value) :: declarations, rest)

/-- Reads rules up to the end of the text, fewer than the limit. -/
def readRules : Nat → Text → Option (List Rule)
  | 0, _ => none
  | limit + 1, text =>
    match text.dropWhile isSpace with
    | [] => some []
    | start => do
      let (selector, rest) ← cutAt '\x7b' isRuleDelimiter start
      let (declarations, rest) ← readDeclarations (rest.length + 1) rest
      let rules ← readRules limit rest
      return ⟨selector.rdropWhile isSpace, declarations⟩ :: rules

/-- Whether a property and a value, each read alone, hold no delimiter that counts and end outside
of all that they open. -/
def IsContained (declaration : Text × Text) : Prop :=
  Position.start.isContained isPropertyDelimiter declaration.1 = true ∧
    Position.start.isContained isRuleDelimiter declaration.2 = true

/-- Nothing stands in a text that the check of values reads otherwise than a stylesheet is read: no
comment starts, no line ends but by a line feed, and no backslash stands at the end. -/
structure ReadsAlike (text : Text) : Prop where
  noComment : ¬['/', '*'] <:+: text
  noReturn : '\r' ∉ text
  noFormFeed : '\x0c' ∉ text
  noEscape : text.getLast? ≠ some '\\'

end Style

namespace Stylesheet

/-- The rules that a text reads as. -/
def read (text : Text) : Option Stylesheet :=
  Style.readRules (text.length + 1) text

/-- The stylesheet after class rules are defined one after another; one that is refused changes
nothing. -/
def defineAll (sheet : Stylesheet) : List (Text × Declarations) → Stylesheet
  | [] => sheet
  | (name, declarations) :: rest =>
    match sheet.define name declarations false with
    | .ok extended => defineAll extended rest
    | .error _ => defineAll sheet rest

end Stylesheet

namespace Style

/-! ## Cuts -/

theorem cut_append {isDelimiter : Char → Bool} {position : Position} {text : Text}
    (contained : position.isContained isDelimiter text = true) {c : Char}
    (delimits : isDelimiter c = true) (rest : Text) :
    cut isDelimiter position (text ++ c :: rest) = some (text, c, rest) := by
  induction text generalizing position with
  | nil =>
    rw [Position.isContained] at contained
    rw [List.nil_append, cut, contained, delimits]
    rfl
  | cons first text ih =>
    rw [Position.isContained, Bool.and_eq_true, Bool.not_eq_true', Option.any_eq_true] at contained
    obtain ⟨inside, next, step, contained⟩ := contained
    rw [List.cons_append, cut, inside, if_neg Bool.false_ne_true, step, Option.bind_some, ih contained]
    rfl

theorem isContained_of_cut {isDelimiter : Char → Bool} {position : Position}
    {text before after : Text} {c : Char}
    (found : cut isDelimiter position text = some (before, c, after)) :
    position.isContained isDelimiter before = true := by
  induction text generalizing position before with
  | nil => cases found
  | cons first text ih =>
    rw [cut] at found
    split at found
    · next here =>
      cases found
      rw [Bool.and_eq_true] at here
      exact here.1
    · next inside =>
      obtain ⟨next, step, found⟩ := Option.bind_eq_some_iff.mp found
      obtain ⟨⟨later, delimiter, rest⟩, cutFound, same⟩ := Option.map_eq_some_iff.mp found
      cases same
      rw [Position.isContained, Bool.and_eq_true, Bool.not_eq_true', Option.any_eq_true]
      exact ⟨eq_false_of_ne_true inside, next, step, ih cutFound⟩

theorem cutAt_append {isDelimiter : Char → Bool} {text : Text}
    (contained : Position.start.isContained isDelimiter text = true) (mark : Char)
    (delimits : isDelimiter mark = true) (rest : Text) :
    cutAt mark isDelimiter (text ++ mark :: rest) = some (text, rest) := by
  rw [cutAt, cut_append contained delimits]
  exact if_pos rfl

theorem isContained_of_cutAt {isDelimiter : Char → Bool} {mark : Char} {text before after : Text}
    (found : cutAt mark isDelimiter text = some (before, after)) :
    Position.start.isContained isDelimiter before = true := by
  rw [cutAt] at found
  split at found
  · next cutFound =>
    split at found
    · cases found
      exact isContained_of_cut cutFound
    · cases found
  · cases found

/-! ## What is read is contained -/

theorem isContained_of_readDeclarations {limit : Nat} {text rest : Text}
    {declarations : List (Text × Text)}
    (read : readDeclarations limit text = some (declarations, rest)) :
    ∀ declaration ∈ declarations, IsContained declaration := by
  induction limit generalizing text declarations rest with
  | zero => cases read
  | succ limit ih =>
    rw [readDeclarations] at read
    split at read
    · cases read
      exact fun _ member => absurd member List.not_mem_nil
    · simp only [bind, Option.bind_eq_some_iff] at read
      obtain ⟨⟨property, afterProperty⟩, propertyRead, ⟨value, afterValue⟩, valueRead,
        ⟨later, afterLater⟩, laterRead, same⟩ := read
      cases same
      exact List.forall_mem_cons.mpr
        ⟨⟨isContained_of_cutAt propertyRead, isContained_of_cutAt valueRead⟩, ih laterRead⟩

theorem isContained_of_readRules {limit : Nat} {text : Text} {rules : List Rule}
    (read : readRules limit text = some rules) :
    ∀ rule ∈ rules, ∀ declaration ∈ rule.declarations, IsContained declaration := by
  induction limit generalizing text rules with
  | zero => cases read
  | succ limit ih =>
    rw [readRules] at read
    split at read
    · cases read
      exact fun _ member => absurd member List.not_mem_nil
    · simp only [bind, Option.bind_eq_some_iff] at read
      obtain ⟨⟨selector, afterSelector⟩, _, ⟨declarations, afterRule⟩, declarationsRead,
        later, laterRead, same⟩ := read
      cases same
      exact List.forall_mem_cons.mpr
        ⟨isContained_of_readDeclarations declarationsRead, ih laterRead⟩

end Style

end PageCompiler
