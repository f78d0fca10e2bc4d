import PageCompiler.Text.Blank

/-!
# Names in markup

Which tag and attribute names are valid, which elements never have content, and which elements
hold raw text.
-/

namespace PageCompiler.Markup

/-- The elements that have no content and no end tag. -/
def voidElements : List Text :=
  ["area", "base", "br", "col", "embed", "hr", "img", "input", "link", "meta", "source", "track",
    "wbr"].map String.toList

/-- The elements whose text is written without escapes. -/
def rawTextElements : List Text :=
  ["script", "style"].map String.toList

/-- Whether elements with this tag have no content and no end tag. -/
def isVoidElement (tag : Text) : Bool :=
  voidElements.contains tag

/-- Whether elements with this tag hold raw text. -/
def isRawTextElement (tag : Text) : Bool :=
  rawTextElements.contains tag

/-- A tag name is an ASCII letter followed by ASCII letters, digits and hyphens. -/
def isTagName : Text → Bool
  | [] => false
  | first :: rest => first.isAlpha && rest.all fun c => c.isAlphanum || c = '-'

/-- Whether a character is a control character (Unicode category Cc). -/
def isControl (c : Char) : Bool :=
  c.toNat < 0x20 || (0x7F ≤ c.toNat && c.toNat < 0xA0)

/-- The characters that delimit attributes. -/
def attributeDelimiters : Text :=
  ['"', '\'', '>', '<', '/', '=']

/-- Whether a character may stand in an attribute name. -/
def isAttributeNameChar (c : Char) : Bool :=
  !Text.isBlank c && !isControl c && !attributeDelimiters.contains c

/-- An attribute name is not empty and holds no blank, no control character and no delimiter. -/
def isAttributeName (name : Text) : Bool :=
  !name.isEmpty && name.all isAttributeNameChar

end PageCompiler.Markup
