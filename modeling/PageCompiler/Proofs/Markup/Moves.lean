import PageCompiler.Proofs.Markup.Subtrees
import PageCompiler.Proofs.Markup.Walks

/-!
# Moved nodes

A node that is appended to an element is moved there with everything below it. That is possible exactly
when the element may have content and is neither the node nor below it. Two lists of children and one
parent change; everything else stays as it was.
-/

namespace PageCompiler.Markup.Document

open Steps

variable {document changed : Document} {parent child : NodeId}

/-- What a document becomes when a node is moved to the end of the children of another one. -/
structure MovesTo (document : Document) (parent child : NodeId) (changed : Document) : Prop where
  step : changed.parent? child = some parent
  list : changed.children parent = (document.children parent).filter (· != child) ++ [child]
  left : ∀ former, document.parent? child = some former → former ≠ parent →
    ∃ before after, document.children former = before ++ child :: after ∧
      changed.children former = before ++ after
  lists : ∀ id, id ≠ parent → document.parent? child ≠ some id →
    changed.children id = document.children id
  parents : ∀ id, id ≠ child → changed.parent? id = document.parent? id
  kinds : ∀ id, changed.kind? id = document.kind? id
  below : ∀ id, changed.Below id child ↔ document.Below id child
  tree : changed.tree? child = document.tree? child

/-- A node is below itself, or what is above it is above its parent. -/
theorem below_iff_eq_or_above {id top : NodeId} :
    document.Below id top ↔
      top = id ∨ Relation.TransGen (fun low high => document.parent? low = some high) id top := by
  rw [Below, Relation.reflTransGen_iff_eq_or_transGen]

/-- What is below a node hangs on the parents of the other nodes. -/
theorem below_congr {first second : Document} {top : NodeId}
    (same : ∀ id, id ≠ top → second.parent? id = first.parent? id) (id : NodeId) :
    second.Below id top ↔ first.Below id top :=
  ⟨below_of_parents fun id apart _ step => (same id apart).symm.trans step,
    below_of_parents fun id apart _ step => (same id apart).trans step⟩

/-- In a list without repetitions an item stands at one place. -/
theorem exists_filter_ne_eq {ids : List NodeId} {id : NodeId} (distinct : ids.Nodup)
    (member : id ∈ ids) :
    ∃ before after, ids = before ++ id :: after ∧ ids.filter (· != id) = before ++ after := by
  obtain ⟨before, after, _, whole, rest⟩ := List.exists_erase_eq member
  rw [distinct.erase_eq_filter] at rest
  exact ⟨before, after, whole, rest⟩

namespace Forest

theorem movesTo (forest : document.Forest)
    (possible : Edit.appendProblem document parent child = none) :
    document.MovesTo parent child (document.moved parent child) := by
  obtain ⟨⟨data, found, content⟩, live, outside⟩ :=
    (Edit.appendProblem_eq_none_iff forest).mp possible
  have lists := children_moved (contains_of_element? found) child
  have parents := parent?_moved live parent
  have kept (id : NodeId) (apart : id ≠ child) :
      (document.moved parent child).parent? id = document.parent? id := by
    rw [parents, if_neg apart]
  constructor
  · rw [parents, if_pos rfl]
  · rw [lists, if_pos rfl]
  · intro former step apart
    obtain ⟨before, after, whole, rest⟩ :=
      exists_filter_ne_eq (forest.listedOnce former) (forest.linked.mpr step)
    refine ⟨before, after, whole, ?_⟩
    rw [lists, if_neg apart, List.append_nil, rest]
  · intro id apart loose
    rw [lists, if_neg apart, List.append_nil, filter_children_eq_self forest loose]
  · exact kept
  · exact fun id => kind?_relinked _ _ id
  · exact below_congr kept
  · exact ((forest.spares_self live).moved outside (Or.inl rfl) possible).tree?

end Forest

/-- A node can be appended to another one exactly when that is an element with content, both are there, and
the node is neither the element nor above it. It is then the last child of the element, the element that it
was a child of has lost it, and all else is as it was, so that what is below the node has moved with it. -/
theorem Arranged.appendChild_moves (arranged : document.Arranged) (parent child : NodeId) :
    ((∃ changed, Edit.appendChild parent child document = .ok () changed) ↔
      (∃ data, document.element? parent = some data ∧ isVoidElement data.tag = false) ∧
        document.contains child = true ∧ child ≠ parent ∧
        ¬ Relation.TransGen (fun low high => document.parent? low = some high) parent child) ∧
      ∀ changed, Edit.appendChild parent child document = .ok () changed →
        document.MovesTo parent child changed := by
  have forest := arranged.forest
  have possible_iff : Edit.appendProblem document parent child = none ↔ _ :=
    Edit.appendProblem_eq_none_iff forest
  rw [below_iff_eq_or_above, not_or] at possible_iff
  cases problem : Edit.appendProblem document parent child with
  | none =>
    exact succeeds_iff_of_ok (Edit.appendChild_run forest problem) (possible_iff.mp problem)
      (forest.movesTo problem)
  | some cause =>
    refine succeeds_iff_of_error (Edit.appendChild_run_problem problem) fun fits => ?_
    have possible := possible_iff.mpr fits
    rw [problem] at possible
    cases possible

/-- An item with a text changes its list. -/
theorem appendChild_moves_item : ∃ document changed : Document, document.Arranged ∧
    Edit.appendChild 3 1 document = .ok () changed ∧ document.MovesTo 3 1 changed ∧
      document.children 0 = [1] ∧ changed.children 0 = [] ∧
        changed.markup 3 = "<ol><li>one</li></ol>".toList := by
  let built := [Mutation.createElement "ul".toList, .createElement "li".toList, .appendChild 0 1,
    .setTextContent 1 "one".toList, .createElement "ol".toList]
  let document := built.foldl (fun document mutation => mutation.apply document) {}
  have arranged : document.Arranged := Arranged.empty.run built
  have run : Edit.appendChild 3 1 document = .ok () (document.moved 3 1) :=
    Edit.appendChild_run arranged.forest (by decide)
  exact ⟨document, _, arranged, run, (arranged.appendChild_moves 3 1).2 _ run, by decide, by decide,
    by decide⟩

end PageCompiler.Markup.Document
