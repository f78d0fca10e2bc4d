import PageCompiler.Text

/-!
# Escapes

How characters that delimit markup are written inside text and attribute values, and how raw text
is kept from closing its own element.
-/

namespace PageCompiler.Markup

/-- How one character of a text is written. -/
def escapedInText (c : Char) : Text :=
  if c = '&' then "&amp;".toList
  else if c = '<' then "&lt;".toList
  else if c = '>' then "&gt;".toList
  else [c]

/-- How one character of an attribute value is written. -/
def escapedInAttribute (c : Char) : Text :=
  if c = '"' then "&quot;".toList
  else if c = '\'' then "&#39;".toList
  else escapedInText c

/-- A text with its delimiters escaped. -/
def escapeText (text : Text) : Text :=
  text.flatMap escapedInText

/-- An attribute value with its delimiters escaped. -/
def escapeAttribute (value : Text) : Text :=
  value.flatMap escapedInAttribute

/-- The start of an end tag. -/
def endTagStart (tag : Text) : Text :=
  '<' :: '/' :: tag

/-- Whether a text starts with the start of an end tag, in any ASCII letter case. -/
def startsEndTag (tag text : Text) : Bool :=
  Text.lowered (text.take (endTagStart tag).length) = endTagStart tag

/-- Raw text with a backslash put between the first two characters of every start of the end
tag, so that it cannot close the element it stands in. -/
def shielded (tag : Text) : Text → Text
  | [] => []
  | c :: rest =>
    if startsEndTag tag (c :: rest) then c :: '\\' :: shielded tag rest
    else c :: shielded tag rest

end PageCompiler.Markup
