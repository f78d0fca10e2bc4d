import PageCompiler.Markup.Document
import PageCompiler.Proofs.Steps
import Mathlib.Tactic

/-!
# Nodes under edits

A document is known by the nodes in its slots. Every edit is described here by what it does to the
node in each slot: some fill a new slot, some empty slots, and the others change nodes in place,
either the data of one node or the links between nodes.
-/

namespace PageCompiler.Markup

namespace Document

variable {document : Document}

theorem ext_node? {first second : Document} (size : first.slots.size = second.slots.size)
    (nodes : ∀ id, first.node? id = second.node? id) : first = second := by
  obtain ⟨slots⟩ := first
  obtain ⟨others⟩ := second
  congr 1
  apply Array.ext_getElem?
  intro id
  have same := nodes id
  simp only [node?] at same
  by_cases inside : id < slots.size
  · have otherInside : id < others.size := by
      rw [← size]
      exact inside
    simpa [Array.getElem?_eq_getElem, inside, otherInside] using same
  · have otherOutside : ¬ id < others.size := by
      rw [← size]
      exact inside
    simp [inside, otherOutside]

theorem lt_size_of_node? {id : NodeId} {node : Node} (found : document.node? id = some node) :
    id < document.slots.size := by
  by_contra outside
  simp [node?, Array.getElem?_eq_none (Nat.le_of_not_lt outside)] at found

theorem node?_of_size_le {id : NodeId} (outside : document.slots.size ≤ id) :
    document.node? id = none := by
  simp [node?, Array.getElem?_eq_none outside]

theorem node?_empty (id : NodeId) : ({} : Document).node? id = none := by
  simp [node?]

/-! ## Views of a node -/

theorem contains_iff {id : NodeId} :
    document.contains id = true ↔ ∃ node, document.node? id = some node := by
  rw [contains, Option.isSome_iff_exists]

theorem contains_of_parent? {id parent : NodeId} (below : document.parent? id = some parent) :
    document.contains id = true := by
  rw [parent?, Option.bind_eq_some_iff] at below
  obtain ⟨node, found, _⟩ := below
  exact contains_iff.mpr ⟨node, found⟩

theorem lt_size_of_contains {id : NodeId} (live : document.contains id = true) :
    id < document.slots.size := by
  obtain ⟨node, found⟩ := contains_iff.mp live
  exact lt_size_of_node? found

theorem parent?_of_node? {id : NodeId} {node : Node} (found : document.node? id = some node) :
    document.parent? id = node.parent := by
  simp [parent?, found]

theorem children_of_node? {id : NodeId} {node : Node} (found : document.node? id = some node) :
    document.children id = node.children := by
  simp [children, found]

theorem children_of_node?_none {id : NodeId} (missing : document.node? id = none) :
    document.children id = [] := by
  simp [children, missing]

theorem children_of_not_contains {id : NodeId} (missing : ¬ document.contains id = true) :
    document.children id = [] := by
  apply children_of_node?_none
  simpa [contains] using missing

theorem parent?_of_not_contains {id : NodeId} (missing : ¬ document.contains id = true) :
    document.parent? id = none := by
  rw [Option.eq_none_iff_forall_ne_some]
  exact fun parent step => missing (contains_of_parent? step)

theorem element?_eq_some_iff {id : NodeId} {data : ElementData} :
    document.element? id = some data ↔
      ∃ node, document.node? id = some node ∧ node.kind = .element data := by
  unfold element?
  split
  · next found => simp_all
  · next other =>
    simp only [reduceCtorEq, false_iff, not_exists, not_and]
    rintro ⟨kind, parent, children⟩ found rfl
    exact other data parent children found

theorem contains_of_element? {id : NodeId} {data : ElementData}
    (found : document.element? id = some data) : document.contains id = true := by
  obtain ⟨node, live, _⟩ := element?_eq_some_iff.mp found
  exact contains_iff.mpr ⟨node, live⟩

theorem isText_iff {id : NodeId} :
    document.isText id = true ↔
      ∃ node content, document.node? id = some node ∧ node.kind = .text content := by
  unfold isText
  split
  · next found => simp_all
  · next other =>
    simp only [Bool.false_eq_true, false_iff, not_exists, not_and]
    rintro ⟨kind, parent, children⟩ content found rfl
    exact other content parent children found

theorem not_isText_of_element? {id : NodeId} {data : ElementData}
    (found : document.element? id = some data) : document.isText id = false := by
  obtain ⟨node, live, kind⟩ := element?_eq_some_iff.mp found
  rw [Bool.eq_false_iff]
  intro text
  obtain ⟨other, content, otherLive, otherKind⟩ := isText_iff.mp text
  rw [live, Option.some.injEq] at otherLive
  rw [← otherLive, kind] at otherKind
  cases otherKind

theorem element?_of_isText {id : NodeId} (text : document.isText id = true) :
    document.element? id = none := by
  rw [Option.eq_none_iff_forall_ne_some]
  intro data found
  rw [not_isText_of_element? found] at text
  cases text

/-- What a node is, whatever its links are. -/
def kind? (document : Document) (id : NodeId) : Option NodeKind :=
  (document.node? id).map Node.kind

theorem element?_eq_some_iff_kind? {id : NodeId} {data : ElementData} :
    document.element? id = some data ↔ document.kind? id = some (.element data) := by
  rw [element?_eq_some_iff, kind?, Option.map_eq_some_iff]

theorem isText_iff_kind? {id : NodeId} :
    document.isText id = true ↔ ∃ content, document.kind? id = some (.text content) := by
  simp only [isText_iff, kind?, Option.map_eq_some_iff]
  exact exists_comm

/-- A node is known by what it is and by its links. -/
theorem node?_of_kind? {id : NodeId} {kind : NodeKind} (found : document.kind? id = some kind) :
    document.node? id = some { kind, parent := document.parent? id, children := document.children id } := by
  obtain ⟨node, there, rfl⟩ := Option.map_eq_some_iff.mp found
  rw [there, parent?_of_node? there, children_of_node? there]

theorem kind?_eq_none_iff {id : NodeId} : document.kind? id = none ↔ document.node? id = none := by
  rw [kind?, Option.map_eq_none_iff]

theorem node?_congr {first second : Document} {id : NodeId} (kinds : first.kind? id = second.kind? id)
    (parents : first.parent? id = second.parent? id) (lists : first.children id = second.children id) :
    first.node? id = second.node? id := by
  cases found : second.kind? id with
  | none => rw [kind?_eq_none_iff.mp found, kind?_eq_none_iff.mp (kinds.trans found)]
  | some kind => rw [node?_of_kind? found, node?_of_kind? (kinds.trans found), parents, lists]

section Kinds

variable {first second : Document} {left right : NodeId}

theorem contains_congr (same : first.kind? left = second.kind? right) :
    first.contains left = second.contains right := by
  have found := congrArg Option.isSome same
  simpa [kind?, contains] using found

theorem element?_congr (same : first.kind? left = second.kind? right) :
    first.element? left = second.element? right := by
  apply Option.ext
  intro data
  rw [element?_eq_some_iff_kind?, element?_eq_some_iff_kind?, same]

theorem isText_congr (same : first.kind? left = second.kind? right) :
    first.isText left = second.isText right := by
  rw [Bool.eq_iff_iff, isText_iff_kind?, isText_iff_kind?, same]

end Kinds

/-! ## New slots and empty slots -/

theorem node?_push (node : Node) (id : NodeId) :
    (document.push node).node? id =
      if id = document.slots.size then some node else document.node? id := by
  simp only [node?, push, Array.getElem?_push]
  split <;> simp_all

@[simp]
theorem size_push (node : Node) :
    (document.push node).slots.size = document.slots.size + 1 := by
  simp [push]

theorem free_cons (first : NodeId) (rest : List NodeId) :
    document.free (first :: rest) = (document.free [first]).free rest := rfl

theorem node?_free (ids : List NodeId) (id : NodeId) :
    (document.free ids).node? id = if id ∈ ids then none else document.node? id := by
  induction ids generalizing document with
  | nil => simp [free]
  | cons first rest ih =>
    rw [free_cons, ih]
    have emptied : (document.free [first]).node? id = if id = first then none else document.node? id := by
      simp only [free, List.foldl_cons, List.foldl_nil, node?, Array.getElem?_setIfInBounds]
      by_cases same : first = id
      · subst same
        by_cases inside : first < document.slots.size <;> simp [inside]
      · simp [same, Ne.symm same]
    rw [emptied]
    by_cases later : id ∈ rest <;> by_cases same : id = first <;> simp [later, same]

@[simp]
theorem size_free (ids : List NodeId) : (document.free ids).slots.size = document.slots.size := by
  induction ids generalizing document with
  | nil => rfl
  | cons first rest ih =>
    rw [free_cons, ih]
    simp [free]

theorem parent?_push (kind : NodeKind) (id : NodeId) :
    (document.push { kind }).parent? id = document.parent? id := by
  rw [parent?, node?_push]
  by_cases fresh : id = document.slots.size
  · subst fresh
    simp [parent?, node?_of_size_le (Nat.le_refl _)]
  · rw [if_neg fresh, parent?]

theorem children_push (kind : NodeKind) (id : NodeId) :
    (document.push { kind }).children id = document.children id := by
  rw [children, node?_push]
  by_cases fresh : id = document.slots.size
  · subst fresh
    simp [children, node?_of_size_le (Nat.le_refl _)]
  · rw [if_neg fresh, children]

theorem kind?_push (kind : NodeKind) (id : NodeId) :
    (document.push { kind }).kind? id =
      if id = document.slots.size then some kind else document.kind? id := by
  rw [kind?, node?_push]
  split <;> rfl

theorem parent?_free (ids : List NodeId) (id : NodeId) :
    (document.free ids).parent? id = if id ∈ ids then none else document.parent? id := by
  rw [parent?, node?_free]
  split <;> rfl

theorem children_free (ids : List NodeId) (id : NodeId) :
    (document.free ids).children id = if id ∈ ids then [] else document.children id := by
  rw [children, node?_free]
  by_cases member : id ∈ ids
  · rw [if_pos member, if_pos member]
  · rw [if_neg member, if_neg member, children]

theorem kind?_free (ids : List NodeId) (id : NodeId) :
    (document.free ids).kind? id = if id ∈ ids then none else document.kind? id := by
  rw [kind?, node?_free]
  split <;> rfl

section Discarded

variable (kind : NodeKind) (id : NodeId)

/-- A new node that is removed again leaves all nodes as they were. -/
theorem node?_discarded :
    ((document.push { kind }).free [document.slots.size]).node? id = document.node? id := by
  rw [node?_free, node?_push]
  by_cases made : id = document.slots.size
  · rw [if_pos (List.mem_singleton.mpr made), made, node?_of_size_le (Nat.le_refl _)]
  · rw [if_neg (mt List.mem_singleton.mp made), if_neg made]

theorem kind?_discarded :
    ((document.push { kind }).free [document.slots.size]).kind? id = document.kind? id := by
  rw [kind?, node?_discarded, kind?]

theorem parent?_discarded :
    ((document.push { kind }).free [document.slots.size]).parent? id = document.parent? id := by
  rw [parent?, node?_discarded, parent?]

theorem children_discarded :
    ((document.push { kind }).free [document.slots.size]).children id = document.children id := by
  rw [children, node?_discarded, children]

end Discarded

/-! ## Changes in place -/

/-- Changes every node in place. -/
def altered (document : Document) (change : NodeId → Node → Node) : Document :=
  ⟨document.slots.mapIdx fun id slot => slot.map (change id)⟩

@[simp]
theorem node?_altered (change : NodeId → Node → Node) (id : NodeId) :
    (document.altered change).node? id = (document.node? id).map (change id) := by
  simp only [node?, altered, Array.getElem?_mapIdx]
  cases document.slots[id]? <;> rfl

@[simp]
theorem size_altered (change : NodeId → Node → Node) :
    (document.altered change).slots.size = document.slots.size := by
  simp [altered]

@[simp]
theorem contains_altered (change : NodeId → Node → Node) (id : NodeId) :
    (document.altered change).contains id = document.contains id := by
  simp [contains]

/-- A change to one node only. -/
def onlyAt (id : NodeId) (change : Node → Node) : NodeId → Node → Node :=
  fun other node => if other = id then change node else node

theorem node?_onlyAt (id : NodeId) (change : Node → Node) (other : NodeId) :
    (document.altered (onlyAt id change)).node? other =
      if other = id then (document.node? other).map change else document.node? other := by
  rw [node?_altered]
  by_cases same : other = id <;> cases document.node? other <;> simp [onlyAt, same]

theorem put_eq_altered {id : NodeId} {node : Node} (found : document.node? id = some node)
    (change : Node → Node) :
    document.put id (change node) = document.altered (onlyAt id change) := by
  have inside := lt_size_of_node? found
  apply ext_node?
  · simp [put]
  · intro other
    rw [node?_onlyAt]
    by_cases same : other = id
    · subst same
      rw [if_pos rfl, found]
      simp [put, node?, inside]
    · simp [put, node?, same, Ne.symm same]

/-- Changes the data of an element. -/
def withData (document : Document) (id : NodeId) (change : ElementData → ElementData) : Document :=
  document.altered (onlyAt id fun node =>
    match node.kind with
    | .element data => { node with kind := .element (change data) }
    | .text _ => node)

/-- Changes the content of a text. -/
def withText (document : Document) (id : NodeId) (content : Text) : Document :=
  document.altered (onlyAt id fun node => { node with kind := .text content })

theorem parent?_altered {change : NodeId → Node → Node}
    (links : ∀ id node, (change id node).parent = node.parent) (id : NodeId) :
    (document.altered change).parent? id = document.parent? id := by
  rw [parent?, node?_altered, parent?]
  cases document.node? id with
  | none => rfl
  | some node => exact links id node

theorem children_altered {change : NodeId → Node → Node}
    (links : ∀ id node, (change id node).children = node.children) (id : NodeId) :
    (document.altered change).children id = document.children id := by
  rw [children, node?_altered, children]
  cases document.node? id with
  | none => rfl
  | some node => exact links id node

@[simp]
theorem size_withData (id : NodeId) (change : ElementData → ElementData) :
    (document.withData id change).slots.size = document.slots.size := by
  rw [withData, size_altered]

theorem parent?_withData (id : NodeId) (change : ElementData → ElementData) (other : NodeId) :
    (document.withData id change).parent? other = document.parent? other := by
  apply parent?_altered
  intro id node
  unfold onlyAt
  split
  · dsimp only
    split <;> rfl
  · rfl

theorem children_withData (id : NodeId) (change : ElementData → ElementData) (other : NodeId) :
    (document.withData id change).children other = document.children other := by
  apply children_altered
  intro id node
  unfold onlyAt
  split
  · dsimp only
    split <;> rfl
  · rfl

theorem kind?_withData {id : NodeId} {data : ElementData}
    (found : document.element? id = some data) (change : ElementData → ElementData)
    (other : NodeId) :
    (document.withData id change).kind? other =
      if other = id then some (.element (change data)) else document.kind? other := by
  obtain ⟨node, live, kind⟩ := element?_eq_some_iff.mp found
  rw [kind?, withData, node?_onlyAt]
  by_cases same : other = id
  · subst same
    simp [live, kind]
  · rw [if_neg same, if_neg same, kind?]

theorem element?_withData {id : NodeId} {data : ElementData}
    (found : document.element? id = some data) (change : ElementData → ElementData) :
    (document.withData id change).element? id = some (change data) := by
  rw [element?_eq_some_iff_kind?, kind?_withData found, if_pos rfl]

/-- A change that leaves the data as it is leaves the document as it is. -/
theorem withData_eq_self {id : NodeId} {data : ElementData}
    (found : document.element? id = some data) {change : ElementData → ElementData}
    (same : change data = data) : document.withData id change = document := by
  obtain ⟨node, live, kind⟩ := element?_eq_some_iff.mp found
  apply ext_node? (size_withData id change)
  intro other
  rw [withData, node?_onlyAt]
  split
  · next here =>
    obtain ⟨_, parent, children⟩ := node
    cases kind
    simp [here, live, same]
  · rfl

theorem parent?_withText (id : NodeId) (content : Text) (other : NodeId) :
    (document.withText id content).parent? other = document.parent? other := by
  apply parent?_altered
  intro id node
  unfold onlyAt
  split <;> rfl

theorem children_withText (id : NodeId) (content : Text) (other : NodeId) :
    (document.withText id content).children other = document.children other := by
  apply children_altered
  intro id node
  unfold onlyAt
  split <;> rfl

theorem kind?_withText {id : NodeId} (live : document.contains id = true) (content : Text)
    (other : NodeId) :
    (document.withText id content).kind? other =
      if other = id then some (.text content) else document.kind? other := by
  obtain ⟨node, found⟩ := contains_iff.mp live
  rw [kind?, withText, node?_onlyAt]
  by_cases same : other = id
  · subst same
    simp [found]
  · rw [if_neg same, if_neg same, kind?]

/-- Changes the links of all nodes. -/
def relinked (document : Document) (parent : NodeId → Option NodeId → Option NodeId)
    (children : NodeId → List NodeId → List NodeId) : Document :=
  document.altered fun id node =>
    { node with parent := parent id node.parent, children := children id node.children }

section Relinked

variable (parents : NodeId → Option NodeId → Option NodeId)
  (lists : NodeId → List NodeId → List NodeId)

theorem kind?_relinked (id : NodeId) :
    (document.relinked parents lists).kind? id = document.kind? id := by
  simp [kind?, relinked, Function.comp_def]

@[simp]
theorem contains_relinked (id : NodeId) :
    (document.relinked parents lists).contains id = document.contains id :=
  contains_congr (kind?_relinked parents lists id)

@[simp]
theorem element?_relinked (id : NodeId) :
    (document.relinked parents lists).element? id = document.element? id :=
  element?_congr (kind?_relinked parents lists id)

@[simp]
theorem isText_relinked (id : NodeId) :
    (document.relinked parents lists).isText id = document.isText id :=
  isText_congr (kind?_relinked parents lists id)

theorem parent?_relinked (id : NodeId) :
    (document.relinked parents lists).parent? id =
      if document.contains id then parents id (document.parent? id) else none := by
  cases found : document.node? id <;> simp [parent?, relinked, contains, found]

theorem children_relinked (id : NodeId) :
    (document.relinked parents lists).children id =
      if document.contains id then lists id (document.children id) else [] := by
  cases found : document.node? id <;> simp [children, relinked, contains, found]

end Relinked

end Document

namespace Edit

open Steps

variable {document : Document}

theorem node_run {id : NodeId} {found : Node} (live : document.node? id = some found) :
    node id document = .ok found document := by
  rw [node, bind_of_ok (get_run document), live]
  rfl

theorem node_run_missing {id : NodeId} (missing : document.node? id = none) :
    node id document = .error (.missingNode id) document := by
  rw [node, bind_of_ok (get_run document), missing]
  rfl

theorem element_run {id : NodeId} {data : ElementData}
    (found : document.element? id = some data) : element id document = .ok data document := by
  obtain ⟨node, live, kind⟩ := Document.element?_eq_some_iff.mp found
  rw [element, bind_of_ok (node_run live), kind]
  rfl

/-- Why a node is no element. -/
def elementProblem (document : Document) (id : NodeId) : DomError :=
  if document.contains id then .notAnElement id else .missingNode id

theorem element_run_missing {id : NodeId} (missing : document.element? id = none) :
    element id document = .error (elementProblem document id) document := by
  rw [element]
  cases live : document.node? id with
  | none =>
    rw [bind_of_error (node_run_missing live)]
    simp [elementProblem, Document.contains, live]
  | some node =>
    rw [bind_of_ok (node_run live)]
    obtain ⟨kind, parent, children⟩ := node
    cases kind with
    | element data => simp [Document.element?, live] at missing
    | text content =>
      simp only [elementProblem, Document.contains, live, Option.isSome_some, if_true]
      rfl

theorem updateNode_run {id : NodeId} {found : Node} (live : document.node? id = some found)
    (change : Node → Node) :
    updateNode id change document = .ok () (document.altered (Document.onlyAt id change)) := by
  rw [updateNode, bind_of_ok (node_run live), ← Document.put_eq_altered live]
  rfl

theorem updateElement_run {id : NodeId} {data : ElementData}
    (found : document.element? id = some data) (change : ElementData → ElementData) :
    updateElement id change document = .ok () (document.withData id change) := by
  obtain ⟨node, live, kind⟩ := Document.element?_eq_some_iff.mp found
  rw [updateElement, bind_of_ok (element_run found), updateNode_run live, Document.withData]
  apply congrArg (EStateM.Result.ok ())
  apply Document.ext_node?
  · simp
  · intro other
    rw [Document.node?_onlyAt, Document.node?_onlyAt]
    by_cases same : other = id
    · subst same
      simp [live, kind]
    · simp [same]

theorem updateElement_run_missing {id : NodeId} (missing : document.element? id = none)
    (change : ElementData → ElementData) :
    updateElement id change document = .error (elementProblem document id) document := by
  rw [updateElement, bind_of_error (element_run_missing missing)]

theorem create_run (node : Node) :
    create node document = .ok document.slots.size (document.push node) := by
  rw [create, bind_of_ok (get_run document), bind_of_ok (modify_run _ document)]
  rfl

end Edit

end PageCompiler.Markup
