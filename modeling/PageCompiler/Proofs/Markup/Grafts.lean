import PageCompiler.Proofs.Markup.Reachable
import PageCompiler.Proofs.Markup.Trees

/-!
# New leaves and moved trees

A new leaf, or a tree moved below another node, changes no tree but those of the nodes above it.
-/

namespace PageCompiler.Markup

/-- Several attributes written one after another, names in small letters. -/
def ElementData.setAttributes (data : ElementData) (attributes : List (Text × Text)) : ElementData :=
  attributes.foldl (fun data (name, value) => data.setAttribute (Text.lowered name) value) data

namespace ElementData

variable {data : ElementData}

theorem setAttributes_cons (first : Text × Text) (rest : List (Text × Text)) :
    data.setAttributes (first :: rest) =
      (data.setAttribute (Text.lowered first.1) first.2).setAttributes rest := rfl

theorem tag_setAttributes (attributes : List (Text × Text)) :
    (data.setAttributes attributes).tag = data.tag := by
  induction attributes generalizing data with
  | nil => rfl
  | cons first rest ih => rw [setAttributes_cons, ih, tag_setAttribute]

theorem WellFormed.setAttributes (formed : data.WellFormed) {attributes : List (Text × Text)}
    (valid : ∀ pair ∈ attributes, isAttributeName pair.1 = true) :
    (data.setAttributes attributes).WellFormed := by
  induction attributes generalizing data with
  | nil => exact formed
  | cons first rest ih =>
    rw [List.forall_mem_cons] at valid
    rw [setAttributes_cons]
    exact ih (formed.setAttribute valid.1 first.2) valid.2

end ElementData

namespace Document

variable {document : Document}

/-! ## Trees after a graft -/

theorem element?_grafted (host : NodeId) (data : ElementData) :
    (document.grafted host (.element data)).element? document.slots.size = some data := by
  rw [element?_eq_some_iff_kind?, kind?_grafted, if_pos rfl]

theorem Forest.size_not_mem_children (forest : document.Forest) (id : NodeId) :
    document.slots.size ∉ document.children id := by
  intro listed
  have inside := lt_size_of_contains (forest.contains_child listed)
  exact Nat.lt_irrefl _ inside

/-- A graft keeps every tree that its host is not in. -/
theorem Forest.tree?_grafted (forest : document.Forest) {host : NodeId}
    (possible : document.MayHost host) (kind : NodeKind) {id : NodeId} (apart : ¬ document.Below host id)
    (inside : id ≠ document.slots.size) :
    (document.grafted host kind).tree? id = document.tree? id := by
  obtain ⟨data, found, content⟩ := possible
  have after := forest.grafted ⟨data, found, content⟩ kind
  let kept (id : NodeId) : Prop := ¬ document.Below host id ∧ id ≠ document.slots.size
  have member : kept id := ⟨apart, inside⟩
  apply tree?_eq_of_kept forest after _ _ _ member
  · rintro other ⟨_, old⟩
    rw [kind?_grafted, if_neg old]
  · rintro other ⟨outside, _⟩
    rw [children_grafted forest (contains_of_element? found), if_neg, List.append_nil]
    rintro rfl
    exact outside (below_refl other)
  · rintro other child ⟨outside, _⟩ listed
    refine ⟨fun below => outside ?_, ?_⟩
    · exact below_trans below (below_of_parent? (forest.linked.mp listed))
    · rintro rfl
      exact forest.size_not_mem_children other listed

theorem Forest.children_new (forest : document.Forest) {host : NodeId}
    (possible : document.MayHost host) (kind : NodeKind) :
    (document.grafted host kind).children document.slots.size = [] := by
  have live := contains_of_element? possible.choose_spec.1
  rw [children_grafted forest live, if_neg (Nat.ne_of_lt (lt_size_of_contains live)).symm,
    children_of_node?_none (node?_of_size_le (Nat.le_refl _))]
  rfl

/-- The tree of a new leaf. -/
theorem Forest.tree?_new_element (forest : document.Forest) {host : NodeId}
    (possible : document.MayHost host) (data : ElementData) :
    (document.grafted host (.element data)).tree? document.slots.size = some (.element data []) := by
  rw [(forest.grafted possible _).tree?_element (element?_grafted host data),
    forest.children_new possible, trees_nil]

/-- A sibling of a node is not below it. -/
theorem Forest.not_below_sibling (forest : document.Forest) {id sibling parent : NodeId}
    (step : document.parent? id = some parent) (siblingStep : document.parent? sibling = some parent)
    (different : id ≠ sibling) : ¬ document.Below id sibling := by
  intro below
  rcases below_iff_eq_or_parent.mp below with same | ⟨above, first, lower⟩
  · exact different same
  · rw [step, Option.some.injEq] at first
    rw [← first] at lower
    exact forest.not_below_child siblingStep lower

/-- A graft keeps the trees that its host already had. -/
theorem Forest.trees_grafted_old (forest : document.Forest) {host : NodeId}
    (possible : document.MayHost host) (kind : NodeKind) :
    (document.grafted host kind).trees (document.children host) =
      document.trees (document.children host) := by
  apply trees_congr
  intro child listed
  apply forest.tree?_grafted possible
  · exact forest.not_below_child (forest.linked.mp listed)
  · rintro rfl
    exact forest.size_not_mem_children host listed

/-- The trees below a node after a new leaf was put there. -/
theorem Forest.trees_grafted (forest : document.Forest) {host : NodeId}
    (possible : document.MayHost host) (data : ElementData) :
    (document.grafted host (.element data)).trees
        ((document.grafted host (.element data)).children host) =
      document.trees (document.children host) ++ [.element data []] := by
  have live := contains_of_element? possible.choose_spec.1
  rw [children_grafted forest live, if_pos rfl, trees_append, forest.trees_grafted_old possible,
    trees_singleton (forest.tree?_new_element possible data)]

/-- A text put into a new leaf changes only the tree of that leaf. -/
theorem Forest.trees_grafted_text (forest : document.Forest) {host : NodeId}
    (possible : document.MayHost host) {data : ElementData}
    (fillable : isVoidElement data.tag = false) (content : Text) :
    let leaf := document.grafted host (.element data)
    let filled := leaf.grafted document.slots.size (.text content)
    filled.trees (filled.children host) =
      document.trees (document.children host) ++ [.element data [.text content]] := by
  intro leaf filled
  have live := contains_of_element? possible.choose_spec.1
  have leafForest : leaf.Forest := forest.grafted possible _
  have leafFound : leaf.element? document.slots.size = some data := element?_grafted host data
  have leafPossible : leaf.MayHost document.slots.size := ⟨data, leafFound, fillable⟩
  have leafLive := contains_of_element? leafFound
  have filledForest : filled.Forest := leafForest.grafted leafPossible _
  have step : leaf.parent? document.slots.size = some host := by
    rw [parent?_grafted, if_pos rfl]
  have list : filled.children host = document.children host ++ [document.slots.size] := by
    rw [children_grafted leafForest leafLive, if_neg (Nat.ne_of_lt (lt_size_of_contains live)),
      List.append_nil, children_grafted forest live, if_pos rfl]
  have old : filled.trees (document.children host) = leaf.trees (document.children host) := by
    apply trees_congr
    intro child listed
    have inside := lt_size_of_contains (forest.contains_child listed)
    have childStep : leaf.parent? child = some host := by
      rw [parent?_grafted, if_neg (Nat.ne_of_lt inside), forest.linked.mp listed]
    apply leafForest.tree?_grafted leafPossible
    · exact leafForest.not_below_sibling step childStep (Nat.ne_of_lt inside).symm
    · rw [size_grafted]
      exact Nat.ne_of_lt (Nat.lt_succ_of_lt inside)
  have new : filled.tree? document.slots.size = some (.element data [.text content]) := by
    have found : filled.element? document.slots.size = some data := by
      rw [← leafFound]
      apply element?_congr
      rw [kind?_grafted, if_neg (Nat.ne_of_lt (lt_size_of_contains leafLive))]
    have text : filled.tree? leaf.slots.size = some (.text content) := by
      apply tree?_text
      rw [kind?_grafted, if_pos rfl]
    rw [filledForest.tree?_element found, children_grafted leafForest leafLive, if_pos rfl,
      forest.children_new possible, List.nil_append, trees_singleton text]
  rw [list, trees_append, old, forest.trees_grafted_old possible, trees_singleton new]

/-! ## Trees after a move -/

theorem Forest.children_moved_orphan (forest : document.Forest) {host child : NodeId}
    (live : document.contains host = true) (orphan : document.parent? child = none) (id : NodeId) :
    (document.moved host child).children id =
      document.children id ++ if id = host then [child] else [] := by
  rw [children_moved live, filter_children_eq_self forest]
  rw [orphan]
  simp

end Document

/-! ## Attributes of a new leaf -/

namespace Document

variable {document : Document}

/-- Changing the data of a new leaf is the same as making it with other data. -/
theorem withData_grafted (host : NodeId) (data : ElementData) (change : ElementData → ElementData) :
    (document.grafted host (.element data)).withData document.slots.size change =
      document.grafted host (.element (change data)) := by
  apply ext_node?
  · simp [size_grafted]
  · intro other
    rw [withData, node?_onlyAt, grafted, grafted, moved, moved, relinked, relinked, node?_altered,
      node?_altered, node?_push, node?_push]
    by_cases same : other = document.slots.size
    · rw [if_pos same, if_pos same, if_pos same]
      rfl
    · rw [if_neg same, if_neg same, if_neg same]

end Document

namespace Edit

open Steps Document

variable {document : Document}

/-- Attributes written to a new leaf. -/
theorem setAttributes_run (host : NodeId) (data : ElementData) {attributes : List (Text × Text)}
    (valid : ∀ pair ∈ attributes, isAttributeName pair.1 = true) :
    (attributes.forM fun (name, value) => setAttribute document.slots.size name value)
        (document.grafted host (.element data)) =
      .ok () (document.grafted host (.element (data.setAttributes attributes))) := by
  induction attributes generalizing data with
  | nil => rfl
  | cons first rest ih =>
    rw [List.forall_mem_cons] at valid
    have made : (document.grafted host (.element data)).element? document.slots.size = some data :=
      element?_grafted host data
    have run := setAttribute_run made valid.1 first.2
    rw [withData_grafted] at run
    rw [forM_cons_of_ok first rest run, ih _ valid.2]
    rfl

/-- An invalid name stops the writing; the attributes before it have been written. -/
theorem setAttributes_run_invalid (host : NodeId) (data : ElementData)
    {attributes : List (Text × Text)}
    (invalid : ¬ ∀ pair ∈ attributes, isAttributeName pair.1 = true) :
    ∃ cause written, (∀ pair ∈ written, isAttributeName pair.1 = true) ∧
      (attributes.forM fun (name, value) => setAttribute document.slots.size name value)
          (document.grafted host (.element data)) =
        .error cause (document.grafted host (.element (data.setAttributes written))) := by
  induction attributes generalizing data with
  | nil => exact absurd (by simp) invalid
  | cons first rest ih =>
    by_cases valid : isAttributeName first.1 = true
    · have invalidRest : ¬ ∀ pair ∈ rest, isAttributeName pair.1 = true := fun validRest =>
        invalid (List.forall_mem_cons.mpr ⟨valid, validRest⟩)
      have made : (document.grafted host (.element data)).element? document.slots.size = some data :=
        element?_grafted host data
      have run := setAttribute_run made valid first.2
      rw [withData_grafted] at run
      obtain ⟨cause, written, validWritten, rest_run⟩ := ih _ invalidRest
      refine ⟨cause, first :: written, List.forall_mem_cons.mpr ⟨valid, validWritten⟩, ?_⟩
      rw [forM_cons_of_ok first rest run, rest_run]
      rfl
    · have run : setAttribute document.slots.size first.1 first.2
          (document.grafted host (.element data)) =
            .error (.invalidAttributeName first.1) (document.grafted host (.element data)) :=
        setAttribute_run_invalid valid _ _
      exact ⟨.invalidAttributeName first.1, [], (by simp), forM_cons_of_error first rest run⟩

end Edit

end PageCompiler.Markup
