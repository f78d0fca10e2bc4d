import PageCompiler.Markup.Element
import PageCompiler.Markup.Escape
import PageCompiler.Markup.Names

/-!
# Trees

The tree below a node, free of the document that holds it, and its written form. Text directly
inside a raw text element is only kept from closing that element; all other text is escaped.
-/

namespace PageCompiler.Markup

/-- A text, or an element with its children. -/
inductive Tree where
  | text (content : Text)
  | element (data : ElementData) (children : List Tree)

namespace Tree

/-- One attribute of a start tag. -/
def attributeText (name value : Text) : Text :=
  ' ' :: (name ++ ['=', '"'] ++ escapeAttribute value ++ ['"'])

/-- The start tag of an element. -/
def startTag (data : ElementData) : Text :=
  '<' :: (data.tag ++ data.foldedAttributes.flatMap (fun (name, value) => attributeText name value)
    ++ ['>'])

/-- The end tag of an element. -/
def endTag (tag : Text) : Text :=
  '<' :: '/' :: (tag ++ ['>'])

/-- How text is written inside an element with the given tag, if there is one around it. -/
def contentText (around : Option Text) (content : Text) : Text :=
  match around with
  | some tag => if isRawTextElement tag then shielded tag content else escapeText content
  | none => escapeText content

mutual

/-- The markup of a tree inside an element with the given tag. -/
def markupIn (around : Option Text) : Tree → Text
  | .text content => contentText around content
  | .element data children =>
    if isVoidElement data.tag then startTag data
    else startTag data ++ markupAll data.tag children ++ endTag data.tag

/-- The markup of the children of an element. -/
def markupAll (around : Text) : List Tree → Text
  | [] => []
  | child :: rest => markupIn (some around) child ++ markupAll around rest

end

/-- The markup of a tree that stands alone. -/
def markup (tree : Tree) : Text :=
  markupIn none tree

mutual

/-- The texts of a tree in document order, put together. -/
def textContent : Tree → Text
  | .text content => content
  | .element _ children => textContentAll children

/-- The texts of several trees, put together. -/
def textContentAll : List Tree → Text
  | [] => []
  | child :: rest => textContent child ++ textContentAll rest

end

end Tree

end PageCompiler.Markup
