import PageCompiler.Proofs.Engine.Mounting
import PageCompiler.Proofs.Markup.RawText
import PageCompiler.Proofs.Stylesheet

/-!
# The text of a page

What a complete page is written out as. The text is put together from the configuration, what was
collected, the settings of the head and the markup of the roots, and from nothing else: neither the
document nor what earlier renders did has a part in it.
-/

namespace PageCompiler

open Markup

/-- One meta tag; names are written in small letters, class and style in their folded form. -/
def metaText (attributes : List (Text × Text)) : Text :=
  Tree.startTag (ElementData.setAttributes { tag := "meta".toList } attributes)

/-- A script tag that loads a source. -/
def scriptTagText (source : Text) : Text :=
  "<script src=\"".toList ++ escapeAttribute source ++ "\"></script>".toList

/-- A link to a stylesheet or an icon. -/
def linkText (relation reference : Text) : Text :=
  "<link rel=\"".toList ++ escapeAttribute relation ++ "\" href=\"".toList ++
    escapeAttribute reference ++ "\">".toList

/-- The content of the head. -/
def headText (config : EngineConfig) (sheet : Stylesheet) (head : HeadConfig) : Text :=
  "<meta charset=\"utf-8\">".toList ++
    ("<title>".toList ++ escapeText (head.title.getD config.defaultTitle) ++ "</title>".toList) ++
    (if head.hasViewport then []
      else "<meta name=\"viewport\" content=\"width=device-width, initial-scale=1\">".toList) ++
    head.metaTags.flatMap metaText ++
    head.scripts.flatMap scriptTagText ++
    head.stylesheets.flatMap (linkText "stylesheet".toList) ++
    head.icon.toList.flatMap (linkText "icon".toList) ++
    ("<style>".toList ++ sheet.text ++ "</style>".toList)

/-- What is added to a head without a meta tag for the viewport. -/
def defaultViewportText : Text :=
  "<meta name=\"viewport\" content=\"width=device-width, initial-scale=1\">".toList

/-- The texts of the elements in a head, one after another. -/
def headTexts (config : EngineConfig) (sheet : Stylesheet) (head : HeadConfig) (added : List Text) :
    List Text :=
  ["<meta charset=\"utf-8\">".toList,
      (Tree.filled { tag := "title".toList } (head.title.getD config.defaultTitle)).markup] ++
    added ++ head.metaTags.map metaText ++ head.scripts.map scriptTagText ++
    head.stylesheets.map (linkText "stylesheet".toList) ++ head.icon.toList.map (linkText "icon".toList) ++
    [(Tree.filled { tag := "style".toList } sheet.text).markup]

/-- The client script of a page: composed of what was collected, and shrunk if that is wanted and
possible. -/
def clientScript (config : EngineConfig) (buffers : Buffers) : Text :=
  let source := Bootstrap.compose buffers.references.text buffers.state.text
    buffers.behaviors.script config.exposeGlobals
  if config.minifyScript then
    match Script.minify source with
    | .ok short => short
    | .error _ => source
  else source

/-- A page with the markup of its roots. -/
def pageText (config : EngineConfig) (buffers : Buffers) (head : HeadConfig) (roots : List Text) :
    Text :=
  "<!DOCTYPE html>\n<html lang=\"".toList ++
    escapeAttribute (head.language.getD RenderStep.defaultLanguage) ++ "\"><head>".toList ++
    headText config buffers.styles head ++ "</head><body>".toList ++ roots.flatten ++
    "<script>".toList ++ shielded "script".toList (clientScript config buffers) ++
    "</script></body></html>".toList

namespace Markup.Tree

/-! ## Markup of the trees in the head -/

theorem markup_leaf_void {tag : Text} (void : isVoidElement tag = true)
    (attributes : List (Text × Text)) :
    markup (leaf tag attributes) = startTag (ElementData.setAttributes { tag } attributes) := by
  rw [leaf, markup, markupIn, ElementData.tag_setAttributes, if_pos void]

/-- Whether an element may have content is decided by its tag. -/
theorem markup_leaf_content {tag : Text} (content : isVoidElement tag = false)
    (attributes : List (Text × Text)) :
    markup (leaf tag attributes) =
      startTag (ElementData.setAttributes { tag } attributes) ++ endTag tag := by
  have same : (ElementData.setAttributes { tag } attributes).tag = tag :=
    ElementData.tag_setAttributes attributes
  rw [leaf, markup_element (by rw [same, content]), markupAll, List.append_nil, same]

theorem markup_script_leaf (source : Text) :
    markup (leaf "script".toList [("src".toList, source)]) = scriptTagText source := by
  have made : ElementData.setAttributes { tag := "script".toList } [("src".toList, source)] =
      { tag := "script".toList, attributes := [("src".toList, source)] } := rfl
  rw [markup_leaf_content (by decide), made]
  unfold scriptTagText
  simp [startTag, endTag, ElementData.foldedAttributes, attributeText]

theorem markup_link_leaf (relation reference : Text) :
    markup (leaf "link".toList (RenderStep.linkAttributes relation reference)) =
      linkText relation reference := by
  have made : ElementData.setAttributes { tag := "link".toList }
      (RenderStep.linkAttributes relation reference) =
        { tag := "link".toList,
          attributes := [("rel".toList, relation), ("href".toList, reference)] } := rfl
  rw [markup_leaf_void (by decide), made]
  unfold linkText
  simp [startTag, ElementData.foldedAttributes, attributeText]

theorem markup_charset :
    markup (leaf "meta".toList [("charset".toList, "utf-8".toList)]) =
      "<meta charset=\"utf-8\">".toList := by
  decide

theorem markup_viewport :
    markup (leaf "meta".toList RenderStep.defaultViewport) =
      "<meta name=\"viewport\" content=\"width=device-width, initial-scale=1\">".toList := by
  decide

theorem contentText_nil (around : Option Text) : contentText around [] = [] := by
  cases around with
  | none => rfl
  | some tag =>
    rw [contentText]
    split <;> rfl

theorem startTag_plain (tag : Text) : startTag { tag } = ['<'] ++ tag ++ ['>'] := by
  simp [startTag, ElementData.foldedAttributes]

theorem markup_filled {tag : Text} (fillable : isVoidElement tag = false) (content : Text) :
    markup (filled { tag } content) =
      ['<'] ++ tag ++ ['>'] ++ contentText (some tag) content ++ endTag tag := by
  rw [filled, markup_element fillable, startTag_plain]
  cases content with
  | nil =>
    rw [contentText_nil]
    rfl
  | cons first rest =>
    rw [if_neg (by simp), markupAll, markupAll, List.append_nil, markupIn]

theorem markup_title (content : Text) :
    markup (filled { tag := "title".toList } content) =
      "<title>".toList ++ escapeText content ++ "</title>".toList := by
  have escaped : contentText (some "title".toList) content = escapeText content := by
    rw [contentText, if_neg (by decide)]
  rw [markup_filled (by decide), escaped]
  rfl

theorem markup_style {sheet : Stylesheet} (free : ∀ rule ∈ sheet, '<' ∉ rule.text) :
    markup (filled { tag := "style".toList } sheet.text) =
      "<style>".toList ++ sheet.text ++ "</style>".toList := by
  have shown : contentText (some "style".toList) sheet.text = sheet.text := by
    rw [contentText, if_pos (by decide)]
    exact shielded_of_plain _ (Stylesheet.no_delimiter_of_text free)
  rw [markup_filled (by decide), shown]
  rfl

theorem markup_script (source : Text) :
    markup (filled { tag := "script".toList } source) =
      "<script>".toList ++ shielded "script".toList source ++ "</script>".toList := by
  have shown : contentText (some "script".toList) source = shielded "script".toList source := by
    rw [contentText, if_pos (by decide)]
  rw [markup_filled (by decide), shown]
  rfl

end Markup.Tree

/-! ## The whole page -/

/-- Whether a tree is an element. -/
def Markup.Tree.IsElement (tree : Tree) : Prop :=
  ∃ data children, tree = .element data children

/-- Elements are written the same wherever they stand. -/
theorem Markup.Tree.markupAll_elements (around : Text) {trees : List Tree}
    (elements : ∀ tree ∈ trees, tree.IsElement) : markupAll around trees = trees.flatMap markup := by
  induction trees with
  | nil => rfl
  | cons first rest ih =>
    rw [List.forall_mem_cons] at elements
    obtain ⟨⟨data, children, rfl⟩, others⟩ := elements
    rw [markupAll, markupIn_element, ih others]
    rfl

theorem Markup.Tree.markup_around {tag : Text} (fillable : isVoidElement tag = false)
    {trees : List Tree} (elements : ∀ tree ∈ trees, tree.IsElement) :
    markup (.element { tag } trees) =
      ['<'] ++ tag ++ ['>'] ++ trees.flatMap markup ++ endTag tag := by
  rw [markup_element fillable, startTag_plain, markupAll_elements tag elements]

theorem headTrees_elements (config : EngineConfig) (sheet : Stylesheet) (head : HeadConfig) :
    ∀ tree ∈ headTrees config sheet head, tree.IsElement := by
  have leaf (tag : Text) (attributes : List (Text × Text)) : (Tree.leaf tag attributes).IsElement :=
    ⟨_, _, rfl⟩
  have filled (data : ElementData) (content : Text) : (Tree.filled data content).IsElement :=
    ⟨_, _, rfl⟩
  have viewport : ∀ tree ∈ (if head.hasViewport then []
      else [Tree.leaf "meta".toList RenderStep.defaultViewport]), tree.IsElement := by
    split
    · simp
    · rw [List.forall_mem_singleton]
      exact leaf _ _
  have all {α : Type} (values : List α) (tag : Text) (attributesOf : α → List (Text × Text)) :
      ∀ tree ∈ values.map fun value => Tree.leaf tag (attributesOf value), tree.IsElement := by
    rw [List.forall_mem_map]
    exact fun value _ => leaf tag (attributesOf value)
  simp only [headTrees, List.forall_mem_append, List.forall_mem_singleton]
  refine ⟨⟨⟨⟨⟨⟨⟨leaf _ _, filled _ _⟩, viewport⟩, all _ _ _⟩, all _ _ _⟩, all _ _ _⟩, ?_⟩, filled _ _⟩
  intro tree member
  rw [Option.mem_toList, Option.map_eq_some_iff] at member
  obtain ⟨reference, _, rfl⟩ := member
  exact leaf _ _

theorem map_markup_headTrees (config : EngineConfig) (sheet : Stylesheet) (head : HeadConfig) :
    (headTrees config sheet head).map Tree.markup =
      headTexts config sheet head (if head.hasViewport then [] else [defaultViewportText]) := by
  have viewport : (if head.hasViewport then []
      else [Tree.leaf "meta".toList RenderStep.defaultViewport]).map Tree.markup =
        if head.hasViewport then [] else [defaultViewportText] := by
    split
    · rfl
    · rw [List.map_singleton, Tree.markup_viewport]
      rfl
  have metas : (head.metaTags.map fun attributes => Tree.leaf "meta".toList attributes).map Tree.markup =
      head.metaTags.map metaText := by
    rw [List.map_map]
    exact List.map_congr_left fun attributes _ => Tree.markup_leaf_void (by decide) attributes
  have scripts : (head.scripts.map fun source => Tree.leaf "script".toList
      [("src".toList, source)]).map Tree.markup = head.scripts.map scriptTagText := by
    rw [List.map_map]
    exact List.map_congr_left fun source _ => Tree.markup_script_leaf source
  have links (relation : Text) (references : List Text) : (references.map fun reference =>
      Tree.leaf "link".toList (RenderStep.linkAttributes relation reference)).map Tree.markup =
        references.map (linkText relation) := by
    rw [List.map_map]
    exact List.map_congr_left fun reference _ => Tree.markup_link_leaf _ reference
  rw [headTrees, Option.toList_map]
  simp only [List.map_append, List.map_singleton, viewport, metas, scripts, links, Tree.markup_charset]
  rfl

/-- What is written in the head. -/
theorem markup_headTrees (config : EngineConfig) {sheet : Stylesheet} (head : HeadConfig)
    (free : ∀ rule ∈ sheet, '<' ∉ rule.text) :
    (headTrees config sheet head).flatMap Tree.markup = headText config sheet head := by
  have viewport : (if head.hasViewport then [] else [defaultViewportText]).flatten =
      if head.hasViewport then [] else defaultViewportText := by
    split
    · rfl
    · exact List.flatten_singleton
  rw [List.flatMap, map_markup_headTrees]
  unfold headTexts headText
  simp only [List.flatten_append, List.flatten_cons, List.flatten_nil, List.append_nil, viewport,
    Tree.markup_title, Tree.markup_style free, List.flatMap]
  rfl

/-- Elements are written one after another. -/
theorem Markup.Document.Forest.markup_elements {document : Document} (forest : document.Forest)
    {ids : List NodeId} (live : ∀ id ∈ ids, (document.element? id).isSome) :
    (∀ tree ∈ document.trees ids, tree.IsElement) ∧
      (document.trees ids).flatMap Tree.markup = (ids.map document.markup).flatten := by
  induction ids with
  | nil => exact ⟨List.forall_mem_nil _, rfl⟩
  | cons first rest ih =>
    rw [List.forall_mem_cons] at live
    obtain ⟨elements, written⟩ := ih live.2
    obtain ⟨data, found⟩ := Option.isSome_iff_exists.mp live.1
    have tree := forest.tree?_element found
    have split : document.trees (first :: rest) =
        .element data (document.trees (document.children first)) :: document.trees rest := by
      rw [Document.trees, List.filterMap_cons_some tree]
      rfl
    rw [split]
    refine ⟨List.forall_mem_cons.mpr ⟨⟨_, _, rfl⟩, elements⟩, ?_⟩
    rw [List.flatMap_cons, written, List.map_cons, List.flatten_cons, Document.markup_of_tree? tree]

/-- Elements of users are written as they were when the render began. -/
theorem Stage.markup_roots {origin : Engine} {shell : Shell} {document : Document}
    (stage : Stage origin shell document) (sound : origin.Sound) {roots : List NodeId}
    (users : ∀ root ∈ roots, origin.IsUserNode root)
    (live : ∀ root ∈ roots, (origin.document.element? root).isSome) :
    (∀ tree ∈ document.trees roots, tree.IsElement) ∧
      (document.trees roots).flatMap Tree.markup = (roots.map origin.document.markup).flatten := by
  have same : document.trees roots = origin.document.trees roots :=
    Document.trees_congr fun root member => stage.tree? sound (users root member)
  rw [same]
  exact sound.document.forest.markup_elements live

theorem Markup.Tree.markup_page (language : Text) {headData bodyData : ElementData}
    {inHead inBody : List Tree} {headMarkup bodyMarkup : Text}
    (headWritten : markup (.element headData inHead) = headMarkup)
    (bodyWritten : markup (.element bodyData inBody) = bodyMarkup) :
    markup (.element { tag := "html".toList, attributes := [("lang".toList, language)] }
        [.element headData inHead, .element bodyData inBody]) =
      "<html lang=\"".toList ++ escapeAttribute language ++ "\">".toList ++ headMarkup ++ bodyMarkup ++
        "</html>".toList := by
  have fillable : isVoidElement "html".toList = false := by decide
  have whole : markup (.element { tag := "html".toList, attributes := [("lang".toList, language)] }
      [.element headData inHead, .element bodyData inBody]) =
        startTag { tag := "html".toList, attributes := [("lang".toList, language)] } ++
          markupAll "html".toList [.element headData inHead, .element bodyData inBody] ++
          endTag "html".toList := markup_element fillable _
  rw [whole, markupAll, markupAll, markupAll, markupIn_element, markupIn_element, headWritten,
    bodyWritten]
  simp [startTag, endTag, ElementData.foldedAttributes, attributeText]

/-- The tags around the parts of a page, put together. -/
theorem text_of_parts (language inHead inBody script : Text) :
    "<!DOCTYPE html>\n".toList ++ ("<html lang=\"".toList ++ language ++ "\">".toList ++
        (['<'] ++ "head".toList ++ ['>'] ++ inHead ++ Tree.endTag "head".toList) ++
        (['<'] ++ "body".toList ++ ['>'] ++
          (inBody ++ ("<script>".toList ++ script ++ "</script>".toList)) ++
          Tree.endTag "body".toList) ++ "</html>".toList) =
      "<!DOCTYPE html>\n<html lang=\"".toList ++ language ++ "\"><head>".toList ++ inHead ++
        "</head><body>".toList ++ inBody ++ "<script>".toList ++ script ++
        "</script></body></html>".toList := by
  simp [Tree.endTag]

/-- The text of a complete page. -/
theorem Finished.page {origin : Engine} {shell : Shell} {language : Text} {config : EngineConfig}
    {sheet : Stylesheet} {head : HeadConfig} {roots : List NodeId} {source : Text}
    {document : Document}
    (finished : Finished origin shell language (headTrees config sheet head) roots source document)
    (sound : origin.Sound) (users : ∀ root ∈ roots, origin.IsUserNode root)
    (live : ∀ root ∈ roots, (origin.document.element? root).isSome)
    (free : ∀ rule ∈ sheet, '<' ∉ rule.text) :
    document.page shell.html =
      "<!DOCTYPE html>\n<html lang=\"".toList ++ escapeAttribute language ++ "\"><head>".toList ++
        headText config sheet head ++ "</head><body>".toList ++
        (roots.map origin.document.markup).flatten ++ "<script>".toList ++
        shielded "script".toList source ++ "</script></body></html>".toList := by
  have stands := finished.stage.stands
  have forest := finished.stage.sound.forest
  obtain ⟨script, listed, scriptTree⟩ := finished.body
  obtain ⟨elements, written⟩ := finished.stage.markup_roots sound users live
  have headTree := forest.tree?_element stands.head
  rw [finished.head] at headTree
  have bodyTree := forest.tree?_element stands.body
  rw [listed, Document.trees_append, Document.trees_singleton scriptTree] at bodyTree
  have pageTree := forest.tree?_element finished.html
  rw [stands.parts, Document.trees, List.filterMap_cons_some headTree,
    List.filterMap_cons_some bodyTree, List.filterMap_nil] at pageTree
  have bodyElements : ∀ tree ∈ document.trees roots ++
      [Tree.filled { tag := "script".toList } source], tree.IsElement := by
    rw [List.forall_mem_append, List.forall_mem_singleton]
    exact ⟨elements, ⟨_, _, rfl⟩⟩
  have headMarkup := Tree.markup_around (show isVoidElement "head".toList = false by decide)
    (headTrees_elements config sheet head)
  have bodyMarkup := Tree.markup_around (show isVoidElement "body".toList = false by decide)
    bodyElements
  rw [markup_headTrees config head free] at headMarkup
  rw [List.flatMap_append, List.flatMap_singleton, written, Tree.markup_script] at bodyMarkup
  have pageMarkup := Tree.markup_page language headMarkup bodyMarkup
  unfold Document.page
  rw [Document.markup_of_tree? pageTree, pageMarkup]
  exact text_of_parts _ _ _ _

end PageCompiler
