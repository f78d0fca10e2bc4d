import PageCompiler.Proofs.Markup.Forest
import Mathlib.Data.List.Forall2

/-!
# Trees of a forest

In a forest the tree below a node is made of the trees below its children, whatever the number of
slots. Nodes of two forests that look the same all the way down have the same tree.
-/

namespace PageCompiler.Markup.Document

variable {document : Document}

/-- The trees below several nodes, in order. -/
def trees (document : Document) (ids : List NodeId) : List Tree :=
  ids.filterMap document.tree?

namespace Forest

theorem treeWithin_eq (forest : document.Forest) {height : NodeId → Nat}
    (grows : ∀ child parent, document.parent? child = some parent → height child < height parent)
    (depth other : Nat) (id : NodeId) (enough : height id < depth) (otherEnough : height id < other) :
    document.treeWithin depth id = document.treeWithin other id := by
  induction depth generalizing other id with
  | zero => omega
  | succ depth ih =>
    cases other with
    | zero => omega
    | succ other =>
      rw [treeWithin, treeWithin]
      cases found : document.node? id with
      | none => rfl
      | some node =>
        have same : node.children.filterMap (document.treeWithin depth) =
            node.children.filterMap (document.treeWithin other) := by
          apply List.filterMap_congr
          intro child listed
          have step : document.parent? child = some id := by
            rw [← forest.linked, children_of_node? found]
            exact listed
          have lower := grows child id step
          exact ih other child (by omega) (by omega)
        simp only [same]

/-- The tree below an element is made of the trees below its children. -/
theorem tree?_element (forest : document.Forest) {id : NodeId} {data : ElementData}
    (found : document.element? id = some data) :
    document.tree? id = some (.element data (document.trees (document.children id))) := by
  obtain ⟨node, there, kind⟩ := element?_eq_some_iff.mp found
  obtain ⟨height, bounded, grows⟩ := forest.exists_height
  rw [tree?, treeWithin, there]
  simp only [kind, children_of_node? there, trees]
  congr 2
  apply List.filterMap_congr
  intro child listed
  have step : document.parent? child = some id := by
    rw [← forest.linked, children_of_node? there]
    exact listed
  have lower := grows child id step
  have limit := bounded id
  exact forest.treeWithin_eq grows _ _ child (by omega) (by omega)

end Forest

theorem tree?_text {id : NodeId} {content : Text}
    (found : document.kind? id = some (.text content)) :
    document.tree? id = some (.text content) := by
  obtain ⟨node, there, kind⟩ := Option.map_eq_some_iff.mp found
  rw [tree?, treeWithin, there]
  simp only [kind]

theorem tree?_missing {id : NodeId} (missing : document.node? id = none) :
    document.tree? id = none := by
  rw [tree?, treeWithin, missing]

theorem trees_append (first second : List NodeId) :
    document.trees (first ++ second) = document.trees first ++ document.trees second :=
  List.filterMap_append

theorem trees_singleton {id : NodeId} {tree : Tree} (found : document.tree? id = some tree) :
    document.trees [id] = [tree] := by
  rw [trees, List.filterMap_cons_some found, List.filterMap_nil]

theorem trees_nil : document.trees [] = [] := rfl

theorem trees_congr {first second : Document} {ids : List NodeId}
    (same : ∀ id ∈ ids, first.tree? id = second.tree? id) : first.trees ids = second.trees ids :=
  List.filterMap_congr same

theorem filterMap_of_forall₂ {α β γ : Type} {related : α → β → Prop} {first : α → Option γ}
    {second : β → Option γ} {lefts : List α} {rights : List β}
    (pairs : List.Forall₂ related lefts rights)
    (same : ∀ left ∈ lefts, ∀ right, related left right → first left = second right) :
    lefts.filterMap first = rights.filterMap second := by
  induction pairs with
  | nil => rfl
  | cons pair _ ih =>
    rw [List.filterMap_cons, List.filterMap_cons, same _ (by simp) _ pair]
    rw [ih fun left member => same left (by simp [member])]

/-- Nodes that are of the same kind and have related children, all the way down, have the same
tree. -/
theorem tree?_eq_of_related {first second : Document} (forest : first.Forest)
    (other : second.Forest) {related : NodeId → NodeId → Prop}
    (kinds : ∀ {left right}, related left right → first.kind? left = second.kind? right)
    (lists : ∀ {left right}, related left right →
      List.Forall₂ related (first.children left) (second.children right))
    {left right : NodeId} (pair : related left right) : first.tree? left = second.tree? right := by
  induction left using forest.induction_from_children generalizing right with
  | _ left ih =>
    have kind := kinds pair
    cases found : first.kind? left with
    | none =>
      rw [tree?_missing (kind?_eq_none_iff.mp found),
        tree?_missing (kind?_eq_none_iff.mp (kind.symm.trans found))]
    | some what =>
      have otherFound := kind.symm.trans found
      cases what with
      | text content => rw [tree?_text found, tree?_text otherFound]
      | element data =>
        rw [forest.tree?_element (element?_eq_some_iff_kind?.mpr found),
          other.tree?_element (element?_eq_some_iff_kind?.mpr otherFound)]
        have same := filterMap_of_forall₂ (lists pair) fun child listed right step =>
          ih child listed step
        rw [trees, trees, same]

/-- A set of nodes that an edit leaves alone, with all that is below them, keeps its trees. -/
theorem tree?_eq_of_kept {first second : Document} (forest : first.Forest) (other : second.Forest)
    {kept : NodeId → Prop} (kinds : ∀ {id}, kept id → second.kind? id = first.kind? id)
    (lists : ∀ {id}, kept id → second.children id = first.children id)
    (closed : ∀ {id child}, kept id → child ∈ first.children id → kept child) {id : NodeId}
    (member : kept id) : second.tree? id = first.tree? id := by
  let related (left right : NodeId) : Prop := left = right ∧ kept right
  have pair : related id id := ⟨rfl, member⟩
  refine tree?_eq_of_related other forest ?_ ?_ pair
  · rintro left right ⟨rfl, inside⟩
    exact kinds inside
  · rintro left right ⟨rfl, inside⟩
    rw [lists inside, List.forall₂_same]
    intro child listed
    exact ⟨rfl, closed inside listed⟩

/-! ## Markup -/

theorem markup_of_tree? {id : NodeId} {tree : Tree} (found : document.tree? id = some tree) :
    document.markup id = tree.markup := by
  rw [markup, found]

end PageCompiler.Markup.Document

namespace PageCompiler.Markup.Tree

theorem markupIn_element (around : Option Text) (data : ElementData) (children : List Tree) :
    markupIn around (.element data children) = markup (.element data children) := by
  rw [markup, markupIn, markupIn]

theorem markup_element {data : ElementData} (content : isVoidElement data.tag = false)
    (children : List Tree) :
    markup (.element data children) =
      startTag data ++ markupAll data.tag children ++ endTag data.tag := by
  rw [markup, markupIn, content]
  rfl

theorem markupAll_singleton (around : Text) (tree : Tree) :
    markupAll around [tree] = markupIn (some around) tree := by
  rw [markupAll, markupAll, List.append_nil]

theorem markupAll_append (around : Text) (first second : List Tree) :
    markupAll around (first ++ second) = markupAll around first ++ markupAll around second := by
  induction first with
  | nil => rfl
  | cons tree first ih => rw [List.cons_append, markupAll, markupAll, ih, List.append_assoc]

end PageCompiler.Markup.Tree
