import PageCompiler.Json.Printer
import PageCompiler.Text.Blank
import PageCompiler.Text.Quoted

/-!
# Styles

Declarations as callers give them, and the stylesheet that collects accepted rules in order. A rule
is accepted when its selector and properties hold no delimiters and each value closes whatever it
opens, so that no value reaches beyond its own declaration.
-/

namespace PageCompiler

/-- Properties with their values, in order; properties may be written in camel case. -/
abbrev Declarations := List (Text × Text)

/-- Why declarations cannot be read from a JSON value. -/
inductive DeclarationError where
  | notAnObject (value : Json.Value)
  | unsupportedValue (property : Text) (value : Json.Value)

/-- The wording of an error. -/
def DeclarationError.message : DeclarationError → Text
  | .notAnObject value => "declarations must be an object, got ".toList ++ value.text
  | .unsupportedValue property value =>
    "value of ".toList ++ Text.quoted property ++ " must be a string or number, got ".toList ++
      value.text

namespace Declarations

/-- Reads the members of an object, whose values are strings or numbers. -/
def ofMembers : List (Text × Json.Value) → Except DeclarationError Declarations
  | [] => .ok []
  | (property, .string value) :: rest => do return (property, value) :: (← ofMembers rest)
  | (property, .number value) :: rest => do return (property, value.text) :: (← ofMembers rest)
  | (property, value) :: _ => .error (.unsupportedValue property value)

/-- Reads an object whose values are strings or numbers. -/
def ofJson : Json.Value → Except DeclarationError Declarations
  | .object members => ofMembers members
  | value => .error (.notAnObject value)

end Declarations

namespace Style

/-- Camel case becomes words joined by hyphens: a capital starts a word, and one at the start, like
the word "ms", marks a vendor. Custom properties and names without capitals stay. -/
def kebabCase (name : Text) : Text :=
  if ['-', '-'].isPrefixOf name || !name.any Char.isUpper then
    name
  else
    let words := name.flatMap fun c => if c.isUpper then ['-', c.toLower] else [c]
    if ['m', 's', '-'].isPrefixOf words then '-' :: words else words

/-- Where the check of a value stands: in plain text, after a backslash, or inside quotes. -/
inductive ValuePlace where
  | plain
  | escaped
  | quoted (quote : Char)
  | quotedEscaped (quote : Char)
deriving DecidableEq

/-- Whether a value, read on from a place inside so many parentheses, closes everything it opens
and holds delimiters of declarations and rules only inside quotes and parentheses. -/
def closesWithin (place : ValuePlace) (depth : Nat) : Text → Bool
  | [] =>
    match place with
    | .plain => depth = 0
    | .escaped => depth = 0
    | .quoted _ => false
    | .quotedEscaped _ => false
  | c :: rest =>
    match place with
    | .escaped => closesWithin .plain depth rest
    | .quotedEscaped quote => closesWithin (.quoted quote) depth rest
    | .quoted quote =>
      if c = '\\' then closesWithin (.quotedEscaped quote) depth rest
      else if c = '\n' then false
      else if c = quote then closesWithin .plain depth rest
      else closesWithin (.quoted quote) depth rest
    | .plain =>
      if c = '"' || c = '\'' then closesWithin (.quoted c) depth rest
      else if c = '\\' then closesWithin .escaped depth rest
      else if c = '(' then closesWithin .plain (depth + 1) rest
      else if c = ')' then depth != 0 && closesWithin .plain (depth - 1) rest
      else if (c = ';' || c = '\x7b' || c = '\x7d') && depth = 0 then false
      else closesWithin .plain depth rest

/-- Whether a value stays inside its declaration, and cannot end the element that holds the
stylesheet either. -/
def staysInsideRule (value : Text) : Bool :=
  !value.contains '<' && closesWithin .plain 0 value

/-- A class name is an ASCII letter, underscore or hyphen, followed by these and digits. -/
def isClassName : Text → Bool
  | [] => false
  | first :: rest =>
    (first.isAlpha || first = '_' || first = '-') &&
      rest.all fun c => c.isAlphanum || c = '_' || c = '-'

/-- The characters that end a property or start something else. -/
def propertyDelimiters : Text :=
  ['\x7b', '\x7d', ';', ':', '<', '>', '"', '\'']

/-- Whether a character may stand in a property. -/
def isPropertyChar (c : Char) : Bool :=
  !Text.isBlank c && !propertyDelimiters.contains c

/-- A rule of a stylesheet. -/
structure Rule where
  selector : Text
  declarations : List (Text × Text)
deriving DecidableEq

/-- Why a rule is refused. -/
inductive RuleError where
  | invalidSelector (name : Text)
  | invalidClassName (name : Text)
  | invalidProperty (property selector : Text)
  | invalidValue (value property selector : Text)
deriving DecidableEq

/-- The wording of an error. -/
def RuleError.message : RuleError → Text
  | .invalidSelector name => "invalid selector ".toList ++ Text.quoted name
  | .invalidClassName name => "invalid class name ".toList ++ Text.quoted name
  | .invalidProperty property selector =>
    "invalid property ".toList ++ Text.quoted property ++ " in ".toList ++ selector
  | .invalidValue value property selector =>
    "invalid value ".toList ++ Text.quoted value ++ " for ".toList ++ property ++
      " in ".toList ++ selector

/-- The selector for a name: the name itself for a raw rule, otherwise the class of that name. -/
def selectorOf (name : Text) (raw : Bool) : Except RuleError Text :=
  if raw then
    if name.isEmpty || name.any (['\x7b', '\x7d', '<'].contains ·) then
      .error (.invalidSelector name)
    else .ok name
  else if isClassName name then .ok ('.' :: name)
  else .error (.invalidClassName name)

/-- A declaration as it is stored: the property in its hyphenated form, the value trimmed. -/
def normalized (selector property value : Text) : Except RuleError (Text × Text) :=
  let name := kebabCase (Text.trim property)
  if name.isEmpty || !name.all isPropertyChar then
    .error (.invalidProperty property selector)
  else
    let trimmed := Text.trim value
    if trimmed.isEmpty || !staysInsideRule trimmed then
      .error (.invalidValue trimmed name selector)
    else .ok (name, trimmed)

/-- The rule for a name and declarations. -/
def ruleOf (name : Text) (declarations : Declarations) (raw : Bool) : Except RuleError Rule := do
  let selector ← selectorOf (Text.trim name) raw
  let stored ← declarations.mapM fun (property, value) => normalized selector property value
  return ⟨selector, stored⟩

/-- A declaration as it is written. -/
def declarationText (property value : Text) : Text :=
  property ++ [':', ' '] ++ value ++ [';']

/-- A rule as it is written. -/
def Rule.text (rule : Rule) : Text :=
  rule.selector ++ [' ', '\x7b', ' '] ++
    List.intercalate [' ']
      (rule.declarations.map fun (property, value) => declarationText property value) ++
    [' ', '\x7d']

end Style

/-- The accepted rules, in order. -/
abbrev Stylesheet := List Style.Rule

namespace Stylesheet

/-- Adds a rule at the end, or refuses it. -/
def define (sheet : Stylesheet) (name : Text) (declarations : Declarations) (raw : Bool) :
    Except Style.RuleError Stylesheet :=
  (Style.ruleOf name declarations raw).map fun rule => sheet ++ [rule]

/-- The rules as they are written, one a line. -/
def text (sheet : Stylesheet) : Text :=
  List.intercalate ['\n'] (sheet.map Style.Rule.text)

end Stylesheet

end PageCompiler
