import PageCompiler.Proofs.Markup.Walks

/-!
# Replaced contents

The children of an element are replaced by one text, or by none. Texts among the children go, elements
among them stay with all that is below them but have no parent any more. What is around the element is as
it was, so a text put together elsewhere does not change.
-/

namespace PageCompiler.Markup.Document

open Steps

variable {document changed : Document} {id : NodeId} {content : Text}

/-- What a document becomes when the content of a node is replaced. -/
structure Refills (document : Document) (id : NodeId) (content : Text) (changed : Document) : Prop where
  text : changed.textContent id = content
  data : changed.element? id = document.element? id
  parent : changed.parent? id = document.parent? id
  none : (document.element? id).isSome → content = [] → changed.children id = []
  new : (document.element? id).isSome → content ≠ [] → ∃ added, document.slots.size ≤ added ∧
    changed.children id = [added] ∧
      changed.node? added = some { kind := .text content, parent := some id }
  texts : ∀ child ∈ document.children id, document.isText child = true → changed.node? child = Option.none
  elements : ∀ child ∈ document.children id, document.isText child = false →
    changed.contains child = true ∧
      changed.node? child = (document.node? child).map ({ · with parent := Option.none }) ∧
        changed.tree? child = document.tree? child
  others : ∀ other < document.slots.size, other ≠ id → other ∉ document.children id →
    changed.node? other = document.node? other
  added : ∀ other, document.slots.size ≤ other → changed.contains other = true →
    other ∈ changed.children id
  around : ∀ other < document.slots.size, ¬ document.Below id other → ¬ document.Below other id →
    changed.textContent other = document.textContent other

/-! ## Views of an element that was filled -/

theorem parent?_emptied (forest : document.Forest) (id other : NodeId) :
    (document.emptied id).parent? other =
      if document.parent? other = some id then none else document.parent? other := by
  rw [emptied, parent?_free, parent?_cleared, ite_eq_right_iff]
  intro member
  rw [if_pos (forest.linked.mp (List.mem_filter.mp member).1)]

theorem children_emptied (forest : document.Forest) (id other : NodeId) :
    (document.emptied id).children other = if other = id then [] else document.children other := by
  rw [emptied, children_free, children_cleared, ite_eq_right_iff]
  intro member
  rw [forest.children_of_text (List.mem_filter.mp member).2, ite_self]

theorem kind?_filled {other : NodeId} (old : other < document.slots.size) :
    (document.filled id content).kind? other =
      if other ∈ document.children id ∧ document.isText other = true then none
      else document.kind? other := by
  rw [filled]
  split
  · rw [kind?_emptied]
  · rw [kind?_grafted, size_emptied, if_neg (Nat.ne_of_lt old), kind?_emptied]

theorem parent?_filled (forest : document.Forest) {other : NodeId} (old : other < document.slots.size) :
    (document.filled id content).parent? other =
      if document.parent? other = some id then none else document.parent? other := by
  rw [filled]
  split
  · rw [parent?_emptied forest]
  · rw [parent?_grafted, size_emptied, if_neg (Nat.ne_of_lt old), parent?_emptied forest]

theorem size_filled : (document.filled id content).slots.size =
    if content.isEmpty then document.slots.size else document.slots.size + 1 := by
  rw [filled]
  split
  · rw [size_emptied]
  · rw [size_grafted, size_emptied]

theorem contains_emptied (forest : document.Forest) (live : document.contains id = true) :
    (document.emptied id).contains id = true := by
  rw [← live]
  apply contains_congr
  rw [kind?_emptied, if_neg]
  rintro ⟨listed, _⟩
  exact forest.ne_of_parent? (forest.linked.mp listed) rfl

theorem children_filled (forest : document.Forest) (live : document.contains id = true) (other : NodeId) :
    (document.filled id content).children other =
      if other = id then if content.isEmpty then [] else [document.slots.size]
      else document.children other := by
  rw [filled]
  split
  · rw [children_emptied forest]
  · rw [children_grafted (forest.emptied id) (contains_emptied forest live), size_emptied,
      children_emptied forest]
    split
    · rfl
    · rw [List.append_nil]

theorem node?_filled_new (forest : document.Forest) (live : document.contains id = true)
    (filling : ¬ content.isEmpty = true) :
    (document.filled id content).node? document.slots.size =
      some { kind := .text content, parent := some id } := by
  have kind : (document.filled id content).kind? document.slots.size = some (.text content) := by
    rw [filled, if_neg filling, kind?_grafted, if_pos (size_emptied id).symm]
  have parent : (document.filled id content).parent? document.slots.size = some id := by
    rw [filled, if_neg filling, parent?_grafted, if_pos (size_emptied id).symm]
  have list : (document.filled id content).children document.slots.size = [] := by
    rw [children_filled forest live, if_neg (Nat.ne_of_lt (lt_size_of_contains live)).symm]
    exact children_of_node?_none (node?_of_size_le (Nat.le_refl _))
  rw [node?_of_kind? kind, parent, list]

/-! ## What stays -/

/-- Trees stay as they are outside a node and what is above it, as long as the other nodes are what they
were, the texts in that node apart. -/
theorem tree?_eq_of_beside (forest : document.Forest) (after : changed.Forest)
    (kinds : ∀ other < document.slots.size, other ≠ id →
      (other ∈ document.children id → document.isText other = false) →
        changed.kind? other = document.kind? other)
    (lists : ∀ other, other ≠ id → changed.children other = document.children other)
    {other : NodeId} (old : other < document.slots.size) (apart : ¬ document.Below id other)
    (noText : other ∈ document.children id → document.isText other = false) :
    changed.tree? other = document.tree? other := by
  -- A child of such a node is such a node too: only the node itself lists the texts that go.
  let kept (other : NodeId) : Prop := other < document.slots.size ∧ ¬ document.Below id other ∧
    (other ∈ document.children id → document.isText other = false)
  have distinct {other : NodeId} (apart : ¬ document.Below id other) : other ≠ id := by
    rintro rfl
    exact apart (below_refl other)
  have closed {other child : NodeId} (member : kept other) (listed : child ∈ document.children other) :
      kept child := by
    have step := forest.linked.mp listed
    refine ⟨lt_size_of_contains (forest.contains_child listed), fun below => ?_, fun here => ?_⟩
    · exact member.2.1 (below_trans below (below_of_parent? step))
    · have same := step.symm.trans (forest.linked.mp here)
      exact absurd (Option.some.inj same) (distinct member.2.1)
  have member : kept other := ⟨old, apart, noText⟩
  exact tree?_eq_of_kept forest after (fun ⟨old, apart, noText⟩ => kinds _ old (distinct apart) noText)
    (fun ⟨_, apart, _⟩ => lists _ (distinct apart)) closed member

theorem textContent_congr {first second : Document} {id : NodeId} (same : first.tree? id = second.tree? id) :
    first.textContent id = second.textContent id := by
  rw [textContent, textContent, same]

theorem textContent_of_kind? (found : document.kind? id = some (.text content)) :
    document.textContent id = content := by
  rw [textContent, tree?_text found]
  rfl

theorem Forest.noText_of_outside (forest : document.Forest) {other : NodeId}
    (outside : ¬ document.Below other id) : other ∈ document.children id → document.isText other = false :=
  fun listed => absurd (below_of_parent? (forest.linked.mp listed)) outside

/-- An element that may have content is filled with a text; any element is filled with nothing. -/
theorem Forest.refills_filled (forest : document.Forest) {data : ElementData}
    (found : document.element? id = some data) (after : (document.filled id content).Forest) :
    document.Refills id content (document.filled id content) := by
  have live := contains_of_element? found
  have inside := lt_size_of_contains live
  have lists (other : NodeId) : (document.filled id content).children other =
      if other = id then if content.isEmpty then [] else [document.slots.size]
      else document.children other := children_filled forest live other
  have own : id ∉ document.children id := fun listed =>
    forest.not_below_child (forest.linked.mp listed) (below_refl id)
  have kinds {other : NodeId} (old : other < document.slots.size)
      (noText : other ∈ document.children id → document.isText other = false) :
      (document.filled id content).kind? other = document.kind? other := by
    rw [kind?_filled old, if_neg]
    rintro ⟨listed, text⟩
    rw [noText listed] at text
    cases text
  have data : (document.filled id content).element? id = document.element? id :=
    element?_congr (kinds inside fun listed => absurd listed own)
  have trees {other : NodeId} (old : other < document.slots.size) (apart : ¬ document.Below id other)
      (noText : other ∈ document.children id → document.isText other = false) :
      (document.filled id content).tree? other = document.tree? other :=
    tree?_eq_of_beside forest after (fun _ old _ noText => kinds old noText)
      (fun other apart => by rw [lists, if_neg apart]) old apart noText
  constructor
  · rw [textContent_element after (data.trans found), lists, if_pos rfl]
    split
    · next empty => rw [List.isEmpty_iff.mp empty, List.map_nil, List.flatten_nil]
    · next filling =>
      have new : (document.filled id content).textContent document.slots.size = content := by
        apply textContent_of_kind?
        rw [kind?, node?_filled_new forest live filling, Option.map_some]
      rw [List.map_singleton, List.flatten_singleton, new]
  · exact data
  · rw [parent?_filled forest inside, if_neg]
    exact fun step => forest.ne_of_parent? step rfl
  · intro _ empty
    rw [lists, if_pos rfl, if_pos (List.isEmpty_iff.mpr empty)]
  · intro _ filling
    rw [Ne, ← List.isEmpty_iff] at filling
    refine ⟨document.slots.size, Nat.le_refl _, ?_, node?_filled_new forest live filling⟩
    rw [lists, if_pos rfl, if_neg filling]
  · intro child listed text
    have old := lt_size_of_contains (forest.contains_child listed)
    rw [← kind?_eq_none_iff, kind?_filled old, if_pos ⟨listed, text⟩]
  · intro child listed noText
    have step := forest.linked.mp listed
    have liveChild := forest.contains_child listed
    have old := lt_size_of_contains liveChild
    have apart := forest.not_below_child step
    have kind := kinds old fun _ => noText
    have distinct : child ≠ id := by
      rintro rfl
      exact own listed
    refine ⟨(contains_congr kind).trans liveChild, ?_, trees old apart fun _ => noText⟩
    obtain ⟨node, there⟩ := contains_iff.mp liveChild
    have known : (document.filled id content).kind? child = some node.kind := by
      rw [kind, kind?, there, Option.map_some]
    rw [node?_of_kind? known, parent?_filled forest old, if_pos step, lists, if_neg distinct, there,
      children_of_node? there, Option.map_some]
  · intro other old distinct unlisted
    apply node?_congr
    · exact kinds old fun listed => absurd listed unlisted
    · rw [parent?_filled forest old, if_neg fun step => unlisted (forest.linked.mpr step)]
    · rw [lists, if_neg distinct]
  · intro other new there
    have bounded := lt_size_of_contains there
    rw [size_filled] at bounded
    rw [lists, if_pos rfl]
    split at bounded
    · exact absurd bounded (Nat.not_lt_of_le new)
    · next filling =>
      rw [if_neg filling, List.mem_singleton]
      exact Nat.le_antisymm (Nat.le_of_lt_succ bounded) new
  · intro other old apart outside
    exact textContent_congr (trees old apart (forest.noText_of_outside outside))

/-- A text is rewritten in its place. -/
theorem Forest.refills_withText (forest : document.Forest) (text : document.isText id = true) :
    document.Refills id content (document.withText id content) := by
  obtain ⟨node, old, there, kind⟩ := isText_iff.mp text
  have live := contains_iff.mpr ⟨node, there⟩
  have kinds := kind?_withText live content
  have childless := forest.children_of_text text
  have before := element?_of_isText text
  have now : (document.withText id content).kind? id = some (.text content) := by
    rw [kinds, if_pos rfl]
  constructor
  · exact textContent_of_kind? now
  · rw [element?_of_isText (isText_iff_kind?.mpr ⟨content, now⟩), before]
  · rw [parent?_withText]
  · intro element
    rw [before] at element
    cases element
  · intro element
    rw [before] at element
    cases element
  · intro child listed
    rw [childless] at listed
    cases listed
  · intro child listed
    rw [childless] at listed
    cases listed
  · intro other _ distinct _
    apply node?_congr
    · rw [kinds, if_neg distinct]
    · rw [parent?_withText]
    · rw [children_withText]
  · intro other new there
    have bounded := lt_size_of_contains there
    rw [Document.withText, size_altered] at bounded
    exact absurd bounded (Nat.not_lt_of_le new)
  · intro other inside apart outside
    refine textContent_congr (tree?_eq_of_beside forest (forest.withText text content) ?_ ?_ inside apart
      (forest.noText_of_outside outside))
    · intro other _ distinct _
      rw [kinds, if_neg distinct]
    · intro other _
      rw [children_withText]

/-- The content of a living node can be replaced unless the node is an element without content that is to
hold something. Its text is then the new one, only the node and its former children have changed, and so
have only the texts that are put together from the node or from above it. -/
theorem Arranged.setTextContent_refills (arranged : document.Arranged) (id : NodeId) (content : Text) :
    ((∃ changed, Edit.setTextContent id content document = .ok () changed) ↔
      document.contains id = true ∧
        ∀ data, document.element? id = some data → isVoidElement data.tag = true → content = []) ∧
      ∀ changed, Edit.setTextContent id content document = .ok () changed →
        document.Refills id content changed := by
  have forest := arranged.forest
  cases there : document.node? id with
  | none =>
    have missing : ¬ document.contains id = true := by simp [contains, there]
    exact succeeds_iff_of_error (Edit.setTextContent_run_missing there content) fun fits => missing fits.1
  | some node =>
    have live := contains_iff.mpr ⟨node, there⟩
    cases kind : node.kind with
    | text old =>
      have text := isText_iff.mpr ⟨node, old, there, kind⟩
      refine succeeds_iff_of_ok (Edit.setTextContent_run_text text content) ⟨live, fun data found => ?_⟩
        (forest.refills_withText text)
      rw [element?_of_isText text] at found
      cases found
    | element data =>
      have found := element?_eq_some_iff.mpr ⟨node, there, kind⟩
      cases void : isVoidElement data.tag with
      | false =>
        have host : document.MayHost id := ⟨data, found, void⟩
        refine succeeds_iff_of_ok (Edit.setTextContent_run forest host content)
          ⟨live, fun other same hollow => ?_⟩ (forest.refills_filled found (forest.filled host content))
        rw [found, Option.some.injEq] at same
        rw [← same, void] at hollow
        cases hollow
      | true =>
        have run := Edit.setTextContent_run_void forest found void content
        by_cases empty : content.isEmpty = true
        · have same : document.filled id content = document := by
            rw [Document.filled, if_pos empty]
            exact Edit.emptied_of_childless forest (forest.children_of_void found void)
          have after : (document.filled id content).Forest := same.symm ▸ forest
          have refills := forest.refills_filled found after
          rw [same] at refills
          rw [if_pos empty] at run
          exact succeeds_iff_of_ok run ⟨live, fun _ _ _ => List.isEmpty_iff.mp empty⟩ refills
        · rw [if_neg empty] at run
          refine succeeds_iff_of_error run fun fits => empty ?_
          exact List.isEmpty_iff.mpr (fits.2 data found void)

/-- A paragraph of a text and an emphasised word gets another text: the word stays, without a parent. -/
theorem setTextContent_refills_paragraph : ∃ document changed : Document, document.Arranged ∧
    Edit.setTextContent 0 "d".toList document = .ok () changed ∧ document.Refills 0 "d".toList changed ∧
      document.textContent 0 = "abc".toList ∧ changed.textContent 0 = "d".toList ∧
        changed.children 0 = [4] ∧ changed.node? 1 = none ∧
          changed.markup 2 = "<em>bc</em>".toList := by
  let built := [Mutation.createElement "p".toList, .createText "a".toList, .createElement "em".toList,
    .setTextContent 2 "bc".toList, .appendChild 0 1, .appendChild 0 2]
  let document := built.foldl (fun document mutation => mutation.apply document) {}
  have arranged : document.Arranged := Arranged.empty.run built
  have host : document.MayHost 0 := ⟨{ tag := "p".toList }, by decide, by decide⟩
  have run := Edit.setTextContent_run arranged.forest host "d".toList
  have refills := (arranged.setTextContent_refills 0 "d".toList).2 _ run
  exact ⟨document, _, arranged, run, refills, by decide, refills.text, by decide,
    refills.texts 1 (by decide) (by decide), by decide⟩

end PageCompiler.Markup.Document
