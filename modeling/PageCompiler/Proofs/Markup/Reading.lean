import PageCompiler.Proofs.Markup.Escapes
import PageCompiler.Proofs.Markup.Reachable
import PageCompiler.Proofs.Markup.Trees

/-!
# Reading markup back

Markup without raw text can be read in one way only. What can be read back of a tree is its normal
form, in which the attributes are folded, empty texts are left out and neighbouring texts are one
text: trees with the same markup have the same normal form.
-/

namespace PageCompiler.Markup

/-- What can be read back of a tree. -/
inductive NormalTree where
  | text (content : Text)
  | element (tag : Text) (attributes : List (Text × Text)) (children : List NormalTree)

namespace NormalTree

/-- A tree before others: an empty text is left out, and two texts are put together. -/
def before : NormalTree → List NormalTree → List NormalTree
  | .text [], rest => rest
  | .text (c :: first), .text second :: rest => .text (c :: first ++ second) :: rest
  | tree, rest => tree :: rest

mutual

/-- The markup of a normal tree. -/
def markup : NormalTree → Text
  | .text content => escapeText content
  | .element tag attributes children =>
    if isVoidElement tag then startTagOf tag attributes
    else startTagOf tag attributes ++ markupAll children ++ Tree.endTag tag

/-- The markup of normal trees in order. -/
def markupAll : List NormalTree → Text
  | [] => []
  | tree :: rest => markup tree ++ markupAll rest

end

/-- Whether trees start with a text. -/
def StartsWithText : List NormalTree → Prop
  | .text _ :: _ => True
  | _ => False

/-- Trees as they are read: no empty texts, no neighbouring texts, valid names, and no content where
there can be none. -/
inductive Readable : List NormalTree → Prop where
  | nil : Readable []
  | text {content : Text} {rest : List NormalTree} (filled : content ≠ [])
      (apart : ¬ StartsWithText rest) (after : Readable rest) : Readable (.text content :: rest)
  | element {tag : Text} {attributes : List (Text × Text)} {children rest : List NormalTree}
      (valid : isTagName tag = true) (names : ∀ name ∈ Entries.keys attributes, '=' ∉ name)
      (content : isVoidElement tag = true → children = []) (inside : Readable children)
      (after : Readable rest) : Readable (.element tag attributes children :: rest)

/-- Where the markup of the children of an element ends: at an end tag or at the end. -/
def EndsContent (rest : Text) : Prop :=
  rest = [] ∨ ∃ after, rest = '<' :: '/' :: after

theorem endsText_of_endsContent {rest : Text} (ends : EndsContent rest) : EndsText rest := by
  rcases ends with rfl | ⟨after, rfl⟩
  · exact Or.inl rfl
  · exact Or.inr ⟨_, rfl⟩

/-- The markup of an element starts with a tag that is no end tag. -/
theorem not_endsContent_startTag {tag : Text} (valid : isTagName tag = true)
    (attributes : List (Text × Text)) (rest : Text) :
    ¬ EndsContent (startTagOf tag attributes ++ rest) := by
  cases tag with
  | nil => cases valid
  | cons first others =>
    rw [isTagName, Bool.and_eq_true] at valid
    rintro (nothing | ⟨after, same⟩)
    · cases nothing
    · simp only [startTagOf, List.cons_append, List.cons.injEq, true_and] at same
      rw [same.1] at valid
      exact absurd valid.1 (by decide)

/-- The markup of an element in front of what follows it, with its content set apart. -/
theorem markup_element_append (tag : Text) (attributes : List (Text × Text))
    (children : List NormalTree) (after : Text) :
    markup (.element tag attributes children) ++ after =
      startTagOf tag attributes ++
        if isVoidElement tag then after
        else markupAll children ++ (Tree.endTag tag ++ after) := by
  rw [markup]
  split <;> simp [List.append_assoc]

theorem endsContent_endTag (tag after : Text) : EndsContent (Tree.endTag tag ++ after) :=
  Or.inr ⟨_, rfl⟩

/-- Text stops where the markup of trees that do not start with a text begins. -/
theorem endsText_markupAll {trees : List NormalTree} (apart : ¬ StartsWithText trees) {after : Text}
    (ends : EndsContent after) : EndsText (markupAll trees ++ after) := by
  cases trees with
  | nil => exact endsText_of_endsContent ends
  | cons tree rest =>
    cases tree with
    | text content => exact absurd trivial apart
    | element tag attributes children =>
      rw [markupAll, List.append_assoc, markup_element_append]
      exact Or.inr ⟨_, rfl⟩

theorem not_endsContent_markupAll {tree : NormalTree} {rest : List NormalTree}
    (readable : Readable (tree :: rest)) (after : Text) :
    ¬ EndsContent (markupAll (tree :: rest) ++ after) := by
  rw [markupAll, List.append_assoc]
  cases readable with
  | text filled _ _ =>
    intro ends
    rw [markup] at ends
    exact not_endsText_escapeText filled _ (endsText_of_endsContent ends)
  | element valid _ _ _ _ =>
    rw [markup_element_append]
    exact not_endsContent_startTag valid _ _

/-- Markup that is followed by an end tag or by nothing is read in one way. The induction is on the
first trees; what is left after an element is read is the markup of its children with its end tag
behind it, and then the markup of its neighbours. -/
theorem markupAll_append_inj {first second : List NormalTree} {after other : Text}
    (readable : Readable first) (otherReadable : Readable second) (ends : EndsContent after)
    (otherEnds : EndsContent other) (same : markupAll first ++ after = markupAll second ++ other) :
    first = second ∧ after = other := by
  induction readable generalizing second after other with
  | nil =>
    cases second with
    | nil => exact ⟨rfl, same⟩
    | cons tree rest =>
      rw [markupAll, List.nil_append] at same
      rw [same] at ends
      exact absurd ends (not_endsContent_markupAll otherReadable other)
  | @text content rest filled apart afterText ih =>
    cases otherReadable with
    | nil =>
      change _ = other at same
      rw [← same] at otherEnds
      exact absurd otherEnds (not_endsContent_markupAll (.text filled apart afterText) after)
    | text otherFilled otherApart otherAfter =>
      rw [markupAll, markupAll, List.append_assoc, List.append_assoc, markup, markup] at same
      obtain ⟨rfl, rest⟩ := escapeText_append_inj same (endsText_markupAll apart ends)
        (endsText_markupAll otherApart otherEnds)
      obtain ⟨rfl, last⟩ := ih otherAfter ends otherEnds rest
      exact ⟨rfl, last⟩
    | element valid _ _ _ _ =>
      rw [markupAll, markupAll, List.append_assoc, List.append_assoc, markup,
        markup_element_append] at same
      refine absurd ?_ (not_endsText_escapeText filled (markupAll rest ++ after))
      rw [same]
      exact Or.inr ⟨_, rfl⟩
  | element valid names content inside afterElement insideIh afterIh =>
    cases otherReadable with
    | nil =>
      change _ = other at same
      rw [← same] at otherEnds
      exact absurd otherEnds
        (not_endsContent_markupAll (.element valid names content inside afterElement) after)
    | @text content rest otherFilled _ _ =>
      rw [markupAll, markupAll, List.append_assoc, List.append_assoc, markup_element_append,
        markup] at same
      refine absurd ?_ (not_endsText_escapeText otherFilled (markupAll rest ++ other))
      rw [← same]
      exact Or.inr ⟨_, rfl⟩
    | element otherValid otherNames otherContent otherInside otherAfter =>
      rw [markupAll, markupAll, List.append_assoc, List.append_assoc, markup_element_append,
        markup_element_append] at same
      obtain ⟨rfl, rfl, rest⟩ := startTagOf_append_inj same valid otherValid names otherNames
      split at rest
      · next void =>
        obtain ⟨rfl, last⟩ := afterIh otherAfter ends otherEnds rest
        rw [content void, otherContent void]
        exact ⟨rfl, last⟩
      · obtain ⟨rfl, closed⟩ := insideIh otherInside (endsContent_endTag _ _)
          (endsContent_endTag _ _) rest
        obtain ⟨rfl, last⟩ := afterIh otherAfter ends otherEnds (List.append_cancel_left closed)
        exact ⟨rfl, last⟩

theorem readable_before {tree : NormalTree} {rest : List NormalTree}
    (single : Readable (before tree [])) (readable : Readable rest) :
    Readable (before tree rest) := by
  cases tree with
  | element tag attributes children =>
    cases single with
    | element valid names content inside _ =>
      exact .element valid names content inside readable
  | text content =>
    cases content with
    | nil => exact readable
    | cons c content =>
      cases readable with
      | nil => exact .text (List.cons_ne_nil c content) not_false .nil
      | text filled apart after => exact .text (List.cons_ne_nil c _) apart after
      | element valid names inner inside after =>
        exact .text (List.cons_ne_nil c content) not_false (.element valid names inner inside after)

/-- Putting texts together does not show in the markup. -/
theorem markupAll_before (tree : NormalTree) (rest : List NormalTree) :
    markupAll (before tree rest) = markup tree ++ markupAll rest := by
  cases tree with
  | element tag attributes children => rfl
  | text content =>
    cases content with
    | nil => rfl
    | cons c content =>
      cases rest with
      | nil => rfl
      | cons next rest =>
        cases next with
        | element tag attributes children => rfl
        | text second =>
          rw [before, markupAll, markupAll, markup, markup, markup, escapeText_append,
            List.append_assoc]

/-- Two trees that read alike when they stand alone are the same. -/
theorem before_nil_inj {first second : NormalTree} (same : before first [] = before second []) :
    first = second := by
  cases first with
  | element tag attributes children =>
    cases second with
    | element otherTag otherAttributes otherChildren => exact List.head_eq_of_cons_eq same
    | text content => cases content <;> cases same
  | text content =>
    cases second with
    | element tag attributes children => cases content <;> cases same
    | text other => cases content <;> cases other <;> cases same <;> rfl

end NormalTree

namespace Tree

mutual

/-- The normal form of a tree. -/
def normal : Tree → NormalTree
  | .text content => .text content
  | .element data children => .element data.tag data.foldedAttributes (normalAll children)

/-- The normal form of trees in order. -/
def normalAll : List Tree → List NormalTree
  | [] => []
  | child :: rest => (normal child).before (normalAll rest)

end

/-- Trees whose markup can be read back: well-formed data, no raw text, and no content where there
can be none. -/
inductive Legible : List Tree → Prop where
  | nil : Legible []
  | text {content : Text} {rest : List Tree} (after : Legible rest) :
      Legible (.text content :: rest)
  | element {data : ElementData} {children rest : List Tree} (formed : data.WellFormed)
      (escaped : isRawTextElement data.tag = false)
      (content : isVoidElement data.tag = true → children = []) (inside : Legible children)
      (after : Legible rest) : Legible (.element data children :: rest)

theorem startTag_eq (data : ElementData) :
    startTag data = startTagOf data.tag data.foldedAttributes := rfl

theorem no_equals_in_foldedAttributes {data : ElementData} (formed : data.WellFormed) :
    ∀ name ∈ Entries.keys data.foldedAttributes, '=' ∉ name := by
  intro name member equals
  have valid := (formed.isWrittenName_foldedAttributes name member).valid
  rw [isAttributeName, Bool.and_eq_true, List.all_eq_true] at valid
  exact absurd (valid.2 '=' equals) (by decide)

theorem contentText_escaped {around : Option Text}
    (escaped : ∀ tag, around = some tag → isRawTextElement tag = false) (content : Text) :
    contentText around content = escapeText content := by
  cases around with
  | none => rfl
  | some tag =>
    rw [contentText, escaped tag rfl]
    rfl

theorem Legible.readable {trees : List Tree} (legible : Legible trees) :
    NormalTree.Readable (normalAll trees) := by
  induction legible with
  | nil => exact .nil
  | @text content rest _ ih =>
    rw [normalAll]
    apply NormalTree.readable_before _ ih
    rw [normal]
    cases content with
    | nil => exact .nil
    | cons c content => exact .text (List.cons_ne_nil c content) not_false .nil
  | @element data children rest formed _ content _ _ insideIh afterIh =>
    rw [normalAll]
    apply NormalTree.readable_before _ afterIh
    rw [normal]
    refine .element formed.tag (no_equals_in_foldedAttributes formed) ?_ insideIh .nil
    intro void
    rw [content void, normalAll]

/-- The normal form shows in the markup. -/
theorem Legible.markupAll_normalAll {trees : List Tree} (legible : Legible trees) {around : Text}
    (escaped : isRawTextElement around = false) :
    markupAll around trees = NormalTree.markupAll (normalAll trees) := by
  induction legible generalizing around with
  | nil => rfl
  | text _ ih =>
    have plain : ∀ tag, some around = some tag → isRawTextElement tag = false := by
      rintro tag ⟨⟩
      exact escaped
    rw [markupAll, normalAll, NormalTree.markupAll_before, ih escaped, markupIn,
      contentText_escaped plain, normal, NormalTree.markup]
  | element _ escapedInside _ _ _ insideIh afterIh =>
    rw [markupAll, normalAll, NormalTree.markupAll_before, afterIh escaped, markupIn, normal,
      NormalTree.markup, startTag_eq, insideIh escapedInside]

theorem Legible.markup_normal {tree : Tree} (legible : Legible [tree]) :
    markup tree = NormalTree.markup (normal tree) := by
  cases legible with
  | text _ => rfl
  | element _ escaped _ inside _ =>
    rw [markup, markupIn, normal, NormalTree.markup, startTag_eq,
      inside.markupAll_normalAll escaped]

/-- Trees with the same markup have the same normal form. -/
theorem normal_eq_of_same_markup {first second : Tree} (legible : Legible [first])
    (otherLegible : Legible [second]) (same : markup first = markup second) :
    normal first = normal second := by
  apply NormalTree.before_nil_inj
  refine (NormalTree.markupAll_append_inj legible.readable otherLegible.readable (Or.inl rfl)
    (Or.inl rfl) ?_).1
  rw [normalAll, normalAll, normalAll, NormalTree.markupAll_before, NormalTree.markupAll_before,
    ← legible.markup_normal, ← otherLegible.markup_normal, same]
  rfl

theorem Legible.cons {tree : Tree} {rest : List Tree} (single : Legible [tree])
    (legible : Legible rest) : Legible (tree :: rest) := by
  cases single with
  | text _ => exact .text legible
  | element formed escaped content inside _ => exact .element formed escaped content inside legible

end Tree

namespace Document

variable {document : Document}

/-- Whether no element at or below a node holds raw text. -/
def FreeOfRawText (document : Document) (top : NodeId) : Prop :=
  ∀ id, document.Below id top → ∀ data, document.element? id = some data →
    isRawTextElement data.tag = false

theorem legible_of_singles {ids : List NodeId}
    (singles : ∀ id ∈ ids, Tree.Legible (document.trees [id])) :
    Tree.Legible (document.trees ids) := by
  induction ids with
  | nil => exact .nil
  | cons id ids ih =>
    have single := singles id (by simp)
    have legible := ih fun other member => singles other (by simp [member])
    rw [trees] at single ⊢
    cases there : document.tree? id with
    | none =>
      rw [List.filterMap_cons_none there]
      exact legible
    | some tree =>
      rw [List.filterMap_cons_some there] at single ⊢
      exact single.cons legible

theorem Sound.legible (sound : document.Sound) {id : NodeId} (free : document.FreeOfRawText id) :
    Tree.Legible (document.trees [id]) := by
  induction id using sound.forest.induction_from_children with
  | _ id ih =>
    cases kind : document.kind? id with
    | none =>
      rw [trees, List.filterMap_cons_none (tree?_missing (kind?_eq_none_iff.mp kind))]
      exact .nil
    | some what =>
      cases what with
      | text content =>
        rw [trees_singleton (tree?_text kind)]
        exact .text .nil
      | element data =>
        have found := element?_eq_some_iff_kind?.mpr kind
        rw [trees_singleton (sound.forest.tree?_element found)]
        refine .element (sound.data found) (free id (below_refl id) data found) ?_ ?_ .nil
        · intro void
          rw [sound.forest.children_of_void found void]
          rfl
        · apply legible_of_singles
          intro child listed
          apply ih child listed
          intro low below
          have step := sound.forest.linked.mp listed
          exact free low (below_trans below (below_of_parent? step))

theorem Sound.exists_tree (sound : document.Sound) {id : NodeId} (live : document.contains id = true) :
    ∃ tree : Tree, document.tree? id = some tree := by
  obtain ⟨node, found⟩ := contains_iff.mp live
  cases kind : node.kind with
  | text content => exact ⟨_, tree?_text (by rw [kind?, found, Option.map_some, kind])⟩
  | element data =>
    exact ⟨_, sound.forest.tree?_element (element?_eq_some_iff.mpr ⟨node, found, kind⟩)⟩

/-- Live nodes of reachable documents that have no raw text at or below them have the same normal
form whenever they have the same markup. -/
theorem Reachable.normal_eq_of_markup_eq {first second : Document} (reachable : first.Reachable)
    (otherReachable : second.Reachable) {left right : NodeId} (live : first.contains left = true)
    (otherLive : second.contains right = true) (free : first.FreeOfRawText left)
    (otherFree : second.FreeOfRawText right) (same : first.markup left = second.markup right) :
    ∃ tree otherTree : Tree, first.tree? left = some tree ∧ second.tree? right = some otherTree ∧
      tree.normal = otherTree.normal := by
  obtain ⟨tree, found⟩ := reachable.sound.exists_tree live
  obtain ⟨otherTree, otherFound⟩ := otherReachable.sound.exists_tree otherLive
  refine ⟨tree, otherTree, found, otherFound, ?_⟩
  have legible := reachable.sound.legible free
  have otherLegible := otherReachable.sound.legible otherFree
  rw [trees_singleton found] at legible
  rw [trees_singleton otherFound] at otherLegible
  rw [markup_of_tree? found, markup_of_tree? otherFound] at same
  exact Tree.normal_eq_of_same_markup legible otherLegible same

/-- A paragraph with two texts. -/
def pairOfTexts : Document :=
  [Mutation.createElement ['p'], .createText "1 < ".toList, .createText ['2'], .appendChild 0 1,
    .appendChild 0 2].foldl (fun document mutation => mutation.apply document) {}

/-- A paragraph with one text. -/
def singleText : Document :=
  [Mutation.createElement ['p'], .setTextContent 0 "1 < 2".toList].foldl
    (fun document mutation => mutation.apply document) {}

theorem freeOfRawText_of_tags {top : NodeId}
    (tags : ∀ id < document.slots.size, ∀ tag ∈ document.tag? id, isRawTextElement tag = false) :
    document.FreeOfRawText top := by
  intro id _ data found
  apply tags id (lt_size_of_contains (contains_of_element? found))
  rw [tag?, found]
  rfl

theorem normal_eq_of_markup_eq_paragraphs :
    pairOfTexts.Reachable ∧ singleText.Reachable ∧ pairOfTexts.contains 0 = true ∧
      singleText.contains 0 = true ∧ pairOfTexts.FreeOfRawText 0 ∧ singleText.FreeOfRawText 0 ∧
      pairOfTexts.markup 0 = singleText.markup 0 ∧
      ∃ tree otherTree : Tree, pairOfTexts.tree? 0 = some tree ∧
        singleText.tree? 0 = some otherTree ∧ tree.normal = otherTree.normal := by
  have free : pairOfTexts.FreeOfRawText 0 := freeOfRawText_of_tags (by decide)
  have otherFree : singleText.FreeOfRawText 0 := freeOfRawText_of_tags (by decide)
  refine ⟨Reachable.empty.run _, Reachable.empty.run _, by decide, by decide, free, otherFree,
    by decide, ?_⟩
  exact (Reachable.empty.run _).normal_eq_of_markup_eq (Reachable.empty.run _) (by decide)
    (by decide) free otherFree (by decide)

end Document

end PageCompiler.Markup
