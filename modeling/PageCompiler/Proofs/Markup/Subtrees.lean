import PageCompiler.Proofs.Invariants
import PageCompiler.Proofs.Markup.Reachable
import PageCompiler.Proofs.Markup.Trees

/-!
# Subtrees that are spared

What is below a node stays as it was while nothing below it is written, emptied, appended to or removed.
The node itself may be moved, and what is around it may change in any way.
-/

namespace PageCompiler.Markup

open Steps

namespace Document

/-- What is below a node is below it in another document too when the other nodes keep their parents. -/
theorem below_of_parents {first second : Document} {top : NodeId}
    (kept : ∀ id, id ≠ top → ∀ parent, second.parent? id = some parent → first.parent? id = some parent)
    {id : NodeId} (below : second.Below id top) : first.Below id top := by
  induction below using Relation.ReflTransGen.head_induction_on with
  | refl => exact below_refl top
  | @head low high step _ ih =>
    by_cases here : low = top
    · rw [here]
      exact below_refl top
    · exact below_trans (below_of_parent? (kept low here high step)) ih

/-- What is below a node with fewer links is below it with more. -/
theorem below_of_fewer {first second : Document}
    (fewer : ∀ child parent, second.parent? child = some parent → first.parent? child = some parent)
    {id top : NodeId} (below : second.Below id top) : first.Below id top :=
  below_of_parents (fun child _ => fewer child) below

theorem contains_of_below {document : Document} {id top : NodeId} (live : document.contains top = true)
    (below : document.Below id top) : document.contains id = true := by
  rcases below_iff_eq_or_parent.mp below with rfl | ⟨parent, step, _⟩
  · exact live
  · exact contains_of_parent? step

/-- Whether what is at a node and below it is as it was in another document. -/
structure Spares (document origin : Document) (top : NodeId) : Prop where
  forest : document.Forest
  former : origin.Forest
  live : origin.contains top = true
  kinds : ∀ id, origin.Below id top → document.kind? id = origin.kind? id
  lists : ∀ id, origin.Below id top → document.children id = origin.children id

theorem Forest.spares_self {document : Document} (forest : document.Forest) {top : NodeId}
    (live : document.contains top = true) : document.Spares document top :=
  ⟨forest, forest, live, fun _ _ => rfl, fun _ _ => rfl⟩

namespace Spares

variable {document origin changed : Document} {top id child parent : NodeId}

/-- What is put below a spared node must have been there. -/
theorem below_of_parent? (spares : document.Spares origin top) (step : document.parent? child = some parent)
    (below : origin.Below parent top) : origin.Below child top := by
  have listed := spares.forest.linked.mpr step
  rw [spares.lists parent below] at listed
  exact below_trans (Document.below_of_parent? (spares.former.linked.mp listed)) below

/-- A node below a spared one has its parent there. -/
theorem parent_below (spares : document.Spares origin top) (below : origin.Below child top)
    (apart : child ≠ top) (step : document.parent? child = some parent) : origin.Below parent top := by
  obtain ⟨above, formerStep, inside⟩ := (below_iff_eq_or_parent.mp below).resolve_left apart
  have listed := spares.former.linked.mpr formerStep
  rw [← spares.lists above inside] at listed
  rw [spares.forest.linked.mp listed, Option.some.injEq] at step
  rwa [← step]

theorem contains (spares : document.Spares origin top) (below : origin.Below id top) :
    document.contains id = true := by
  rw [contains_congr (spares.kinds id below)]
  exact contains_of_below spares.live below

theorem element? (spares : document.Spares origin top) : document.element? top = origin.element? top :=
  element?_congr (spares.kinds top (below_refl top))

theorem tree? (spares : document.Spares origin top) : document.tree? top = origin.tree? top :=
  tree?_eq_of_kept spares.former spares.forest (fun {id} => spares.kinds id) (fun {id} => spares.lists id)
    (fun below listed => below_trans (Document.below_of_parent? (spares.former.linked.mp listed)) below)
    (below_refl top)

/-! ## Changes elsewhere -/

/-- A change spares a subtree when it changes neither what its nodes are nor what they list. -/
theorem step (spares : document.Spares origin top) (forest : changed.Forest)
    (kinds : ∀ id, origin.Below id top → changed.kind? id = document.kind? id)
    (lists : ∀ id, origin.Below id top → changed.children id = document.children id) :
    changed.Spares origin top :=
  { spares with
    forest
    kinds := fun id below => (kinds id below).trans (spares.kinds id below)
    lists := fun id below => (lists id below).trans (spares.lists id below) }

theorem pushed (spares : document.Spares origin top) (kind : NodeKind) :
    (document.push { kind }).Spares origin top := by
  refine spares.step (spares.forest.pushed kind) (fun id below => ?_) fun id _ => children_push _ _
  rw [kind?_push, if_neg (Nat.ne_of_lt (lt_size_of_contains (spares.contains below)))]

theorem withData (spares : document.Spares origin top) (outside : ¬ origin.Below id top) {data : ElementData}
    (found : document.element? id = some data) {change : ElementData → ElementData}
    (sameTag : (change data).tag = data.tag) : (document.withData id change).Spares origin top := by
  refine spares.step (spares.forest.withData found sameTag) (fun other below => ?_) fun other _ => ?_
  · rw [kind?_withData found, if_neg]
    rintro rfl
    exact outside below
  · rw [children_withData]

theorem withText (spares : document.Spares origin top) (outside : ¬ origin.Below id top)
    (text : document.isText id = true) (content : Text) :
    (document.withText id content).Spares origin top := by
  obtain ⟨node, _, found, _⟩ := isText_iff.mp text
  have live := contains_iff.mpr ⟨node, found⟩
  refine spares.step (spares.forest.withText text content) (fun other below => ?_) fun other _ => ?_
  · rw [kind?_withText live, if_neg]
    rintro rfl
    exact outside below
  · rw [children_withText]

theorem cleared (spares : document.Spares origin top) (outside : ¬ origin.Below id top) :
    (document.cleared id).Spares origin top := by
  refine spares.step (spares.forest.cleared id) (fun other _ => kind?_relinked _ _ _) fun other below => ?_
  rw [children_cleared, if_neg]
  rintro rfl
  exact outside below

/-- A node that is not below the spared one is in no list there. -/
theorem filter_children (spares : document.Spares origin top) (loose : id = top ∨ ¬ origin.Below id top)
    {other : NodeId} (below : origin.Below other top) :
    (document.children other).filter (· != id) = document.children other := by
  refine filter_children_eq_self spares.forest fun step => ?_
  rcases loose with rfl | outside
  · have listed := spares.forest.linked.mpr step
    rw [spares.lists other below] at listed
    exact spares.former.not_below_child (spares.former.linked.mp listed) below
  · exact outside (spares.below_of_parent? step below)

theorem detached (spares : document.Spares origin top) (loose : id = top ∨ ¬ origin.Below id top) :
    (document.detached id).Spares origin top := by
  refine spares.step (spares.forest.detached id) (fun other _ => kind?_relinked _ _ _) fun other below => ?_
  rw [children_detached, spares.filter_children loose below]

theorem moved (spares : document.Spares origin top) (outside : ¬ origin.Below parent top)
    (loose : child = top ∨ ¬ origin.Below child top)
    (possible : Edit.appendProblem document parent child = none) :
    (document.moved parent child).Spares origin top := by
  obtain ⟨host, live, apart⟩ := (Edit.appendProblem_eq_none_iff spares.forest).mp possible
  obtain ⟨data, found, _⟩ := host
  refine spares.step (spares.forest.moved ⟨data, found, ‹_›⟩ live apart)
    (fun other _ => kind?_relinked _ _ _) fun other below => ?_
  rw [children_moved (contains_of_element? found), spares.filter_children loose below, if_neg,
    List.append_nil]
  rintro rfl
  exact outside below

theorem freed (spares : document.Spares origin top) {ids : List NodeId} (forest : (document.free ids).Forest)
    (outside : ∀ id ∈ ids, ¬ origin.Below id top) : (document.free ids).Spares origin top := by
  refine spares.step forest (fun other below => ?_) fun other below => ?_
  · rw [kind?_free, if_neg fun member => outside other member below]
  · rw [children_free, if_neg fun member => outside other member below]

/-- The texts in an element are not below the spared node, which is none of them. -/
theorem emptied (spares : document.Spares origin top) (outside : ¬ origin.Below id top)
    (notText : origin.isText top = false) : (document.emptied id).Spares origin top := by
  refine (spares.cleared outside).freed (spares.forest.emptied id) fun child member below => ?_
  obtain ⟨listed, text⟩ := List.mem_filter.mp member
  refine outside (spares.parent_below below ?_ (spares.forest.linked.mp listed))
  rintro rfl
  rw [isText_congr (spares.kinds child below), notText] at text
  cases text

theorem filled (spares : document.Spares origin top) (outside : ¬ origin.Below id top)
    (notText : origin.isText top = false) (host : document.MayHost id) (content : Text) :
    (document.filled id content).Spares origin top := by
  have emptied := spares.emptied outside notText
  rw [Document.filled]
  split
  · exact emptied
  · have pushed := emptied.pushed (.text content)
    refine pushed.moved outside (Or.inr fun below => ?_) ?_
    · exact Nat.lt_irrefl _ (lt_size_of_contains (emptied.contains below))
    · exact Edit.appendProblem_pushed emptied.forest (mayHost_emptied spares.forest host) _

/-- What is below a node that is not spared is not spared either, unless the spared node is there too. -/
theorem outside_of_below (spares : document.Spares origin top) (outside : ¬ origin.Below parent top)
    (apart : ¬ document.Below top parent) (below : document.Below id parent) : ¬ origin.Below id top := by
  induction below using Relation.ReflTransGen.head_induction_on with
  | refl => exact outside
  | head step rest ih =>
    intro inside
    refine ih (spares.parent_below inside ?_ step)
    rintro rfl
    exact apart (below_trans (Document.below_of_parent? step) rest)

end Spares

end Document

/-! ## Edits elsewhere -/

namespace Document.Spares

variable {origin : Document} {top id parent child : NodeId}

theorem preserves_createElement (tag : Text) :
    Preserves (fun document => document.Spares origin top) (Edit.createElement tag)
      fun id => ¬ origin.Below id top := by
  intro document spares
  by_cases valid : isTagName tag = true
  · rw [Edit.createElement_run valid]
    exact ⟨spares.pushed _, fun below => Nat.lt_irrefl _ (lt_size_of_contains (spares.contains below))⟩
  · rw [Edit.createElement_run_invalid valid]
    exact spares

theorem preserves_setAttribute (outside : ¬ origin.Below id top) (name value : Text) :
    Preserves (fun document => document.Spares origin top) (Edit.setAttribute id name value)
      fun _ => True := by
  intro document spares
  by_cases valid : isAttributeName name = true
  · cases found : document.element? id with
    | none =>
      rw [Edit.setAttribute_run_missing found valid]
      exact spares
    | some data =>
      rw [Edit.setAttribute_run found valid]
      exact ⟨spares.withData outside found (ElementData.tag_setAttribute _ _), trivial⟩
  · rw [Edit.setAttribute_run_invalid valid]
    exact spares

theorem preserves_appendChild (outside : ¬ origin.Below parent top)
    (loose : child = top ∨ ¬ origin.Below child top) :
    Preserves (fun document => document.Spares origin top) (Edit.appendChild parent child)
      fun _ => True := by
  intro document spares
  cases problem : Edit.appendProblem document parent child with
  | some cause =>
    rw [Edit.appendChild_run_problem problem]
    exact spares
  | none =>
    rw [Edit.appendChild_run spares.forest problem]
    exact ⟨spares.moved outside loose problem, trivial⟩

/-- The children that are released are not below the spared node, though it may be one of them. -/
theorem preserves_clearChildren (outside : ¬ origin.Below id top) :
    Preserves (fun document => document.Spares origin top) (Edit.clearChildren id)
      fun children => ∀ child ∈ children, child = top ∨ ¬ origin.Below child top := by
  intro document spares
  cases found : document.node? id with
  | none =>
    rw [Edit.clearChildren_run_missing found]
    exact spares
  | some node =>
    rw [Edit.clearChildren_run spares.forest (contains_iff.mpr ⟨node, found⟩)]
    refine ⟨spares.cleared outside, fun child listed => ?_⟩
    refine Classical.or_iff_not_imp_left.mpr fun apart below => outside ?_
    exact spares.parent_below below apart (spares.forest.linked.mp listed)

theorem preserves_setTextContent (outside : ¬ origin.Below id top) (notText : origin.isText top = false)
    (content : Text) :
    Preserves (fun document => document.Spares origin top) (Edit.setTextContent id content)
      fun _ => True := by
  intro document spares
  cases found : document.node? id with
  | none =>
    rw [Edit.setTextContent_run_missing found]
    exact spares
  | some node =>
    obtain ⟨kind, parent, children⟩ := node
    cases kind with
    | text old =>
      have text : document.isText id = true := isText_iff.mpr ⟨_, old, found, rfl⟩
      rw [Edit.setTextContent_run_text text]
      exact ⟨spares.withText outside text content, trivial⟩
    | element data =>
      have element : document.element? id = some data := element?_eq_some_iff.mpr ⟨_, found, rfl⟩
      cases void : isVoidElement data.tag with
      | false =>
        rw [Edit.setTextContent_run spares.forest ⟨data, element, void⟩]
        exact ⟨spares.filled outside notText ⟨data, element, void⟩ content, trivial⟩
      | true =>
        rw [Edit.setTextContent_run_void spares.forest element void]
        by_cases empty : content.isEmpty = true
        · rw [if_pos empty]
          exact ⟨spares, trivial⟩
        · rw [if_neg empty]
          exact spares.pushed _

/-- A node is removed that is not below the spared one, nor above it. -/
theorem remove {document : Document} (spares : document.Spares origin top) (outside : ¬ origin.Below id top)
    (apart : ¬ document.Below top id) : (document.after (Edit.remove id)).Spares origin top := by
  cases found : document.node? id with
  | none =>
    rw [after_of_error (Edit.remove_run_missing found)]
    exact spares
  | some node =>
    rw [after_of_ok (Edit.remove_run spares.forest (contains_iff.mpr ⟨node, found⟩))]
    have detached := spares.detached (Or.inr outside)
    have orphan : (document.detached id).parent? id = none := by
      rw [parent?_detached, if_pos rfl]
    refine detached.freed (detached.forest.freed_family orphan) fun other member => ?_
    rw [detached.forest.mem_family_iff] at member
    refine detached.outside_of_below outside (fun below => apart ?_) member
    refine below_of_fewer (fun child parent step => ?_) below
    rw [parent?_detached] at step
    split at step
    · cases step
    · exact step

end Document.Spares

end PageCompiler.Markup
