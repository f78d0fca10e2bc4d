import PageCompiler.Proofs.Engine.Frames
import PageCompiler.Proofs.Lockstep

/-!
# Documents side by side

Two documents with the same nodes and the same links, which may differ in what is written in some texts.
Every edit does the same to both: it fails for one reason or fills the same slots, moves the same nodes and
removes the same ones, since no edit looks at what is written in a text. What identifiers elements may have
is watched at the same time; only writing an identifier brings in one.
-/

namespace PageCompiler

open Markup Steps

/-- Which texts of two documents may differ, and which identifiers elements may have. -/
structure Leeway where
  texts : NodeId → Prop
  names : NodeId → Text → Prop

namespace Leeway

/-- Two documents that differ at most in some texts, with elements that have only some identifiers. -/
structure Beside (leeway : Leeway) (first second : Document) : Prop where
  forest : first.Forest
  otherForest : second.Forest
  size : second.slots.size = first.slots.size
  parents : ∀ id, second.parent? id = first.parent? id
  lists : ∀ id, second.children id = first.children id
  kinds : ∀ id, second.kind? id = first.kind? id ∨
    (leeway.texts id ∧ first.isText id = true ∧ second.isText id = true)
  names : ∀ id name, first.attribute? id "id".toList = some name → leeway.names id name

/-- Whether an identifier may be written at an element if a name is that of identifiers. -/
def Permits (leeway : Leeway) (id : NodeId) (name value : Text) : Prop :=
  Text.lowered name = "id".toList → leeway.names id value

end Leeway

namespace Markup.Document

theorem contains_of_isText {document : Document} {id : NodeId} (text : document.isText id = true) :
    document.contains id = true := by
  obtain ⟨node, _, found, _⟩ := isText_iff.mp text
  exact contains_iff.mpr ⟨node, found⟩

theorem familyWithin_congr {first second : Document} (lists : ∀ id, second.children id = first.children id)
    (depth : Nat) (id : NodeId) : second.familyWithin depth id = first.familyWithin depth id := by
  induction depth generalizing id with
  | zero => rfl
  | succ depth ih =>
    rw [familyWithin, familyWithin, lists]
    exact congrArg (List.cons id) (List.flatMap_congr fun child _ => ih child)

theorem isAncestorWithin_congr {first second : Document}
    (parents : ∀ id, second.parent? id = first.parent? id) (ancestor : NodeId) (count : Nat) (id : NodeId) :
    second.isAncestorWithin ancestor count id = first.isAncestorWithin ancestor count id := by
  induction count generalizing id with
  | zero => rfl
  | succ count ih =>
    rw [isAncestorWithin, isAncestorWithin, parents]
    cases first.parent? id with
    | none => rfl
    | some parent => exact congrArg (decide (id = ancestor) || ·) (ih parent)

end Markup.Document

namespace Leeway.Beside

variable {leeway : Leeway} {first second changed otherChanged : Document} {id : NodeId}

theorem element? (beside : leeway.Beside first second) (id : NodeId) :
    second.element? id = first.element? id := by
  rcases beside.kinds id with same | ⟨_, text, otherText⟩
  · exact Document.element?_congr same
  · have noElement {document : Document} (text : document.isText id = true) :
        document.element? id = none := by
      rw [Option.eq_none_iff_forall_ne_some]
      intro data found
      rw [Document.not_isText_of_element? found] at text
      cases text
    rw [noElement text, noElement otherText]

theorem isText (beside : leeway.Beside first second) (id : NodeId) :
    second.isText id = first.isText id := by
  rcases beside.kinds id with same | ⟨_, text, otherText⟩
  · exact Document.isText_congr same
  · rw [text, otherText]

theorem contains (beside : leeway.Beside first second) (id : NodeId) :
    second.contains id = first.contains id := by
  rcases beside.kinds id with same | ⟨_, text, otherText⟩
  · exact Document.contains_congr same
  · rw [Document.contains_of_isText text, Document.contains_of_isText otherText]

theorem attribute? (beside : leeway.Beside first second) (id : NodeId) (name : Text) :
    second.attribute? id name = first.attribute? id name := by
  rw [Document.attribute?, Document.attribute?, beside.element?]

theorem tag? (beside : leeway.Beside first second) (id : NodeId) : second.tag? id = first.tag? id := by
  rw [Document.tag?, Document.tag?, beside.element?]

theorem family (beside : leeway.Beside first second) (id : NodeId) : second.family id = first.family id := by
  rw [Document.family, Document.family, beside.size]
  exact Document.familyWithin_congr beside.lists _ id

theorem elementProblem (beside : leeway.Beside first second) (id : NodeId) :
    Edit.elementProblem second id = Edit.elementProblem first id := by
  rw [Edit.elementProblem, Edit.elementProblem, beside.contains]

theorem appendProblem (beside : leeway.Beside first second) (parent child : NodeId) :
    Edit.appendProblem second parent child = Edit.appendProblem first parent child := by
  have above : second.isInclusiveAncestor child parent = first.isInclusiveAncestor child parent := by
    rw [Document.isInclusiveAncestor, Document.isInclusiveAncestor, beside.size]
    exact Document.isAncestorWithin_congr beside.parents child _ parent
  rw [Edit.appendProblem, Edit.appendProblem, beside.element?, beside.elementProblem, beside.contains, above]

/-- A node is missing in both documents or in none. -/
theorem node?_eq_none (beside : leeway.Beside first second) (missing : first.node? id = none) :
    second.node? id = none := by
  rw [← Option.isNone_iff_eq_none, ← Option.not_isSome] at missing ⊢
  have same := beside.contains id
  rw [Document.contains, Document.contains] at same
  rwa [same]

/-- Documents side by side may differ in more texts and have more identifiers. -/
theorem weaken {wider : Leeway} (beside : leeway.Beside first second)
    (texts : ∀ id, leeway.texts id → first.isText id = true → wider.texts id)
    (names : ∀ id name, leeway.names id name → wider.names id name) : wider.Beside first second :=
  { beside with
    kinds := fun id => (beside.kinds id).imp_right fun ⟨loose, text, otherText⟩ =>
      ⟨texts id loose text, text, otherText⟩
    names := fun id name found => names id name (beside.names id name found) }

/-! ## Changes of documents -/

/-- The new nodes may be texts that differ. -/
theorem pushedBoth (beside : leeway.Beside first second) {kind otherKind : NodeKind}
    (alike : otherKind = kind ∨ leeway.texts first.slots.size ∧
      ∃ content otherContent, kind = .text content ∧ otherKind = .text otherContent)
    (unnamed : ∀ data, kind = .element data → data.attributes.get? "id".toList = none) :
    leeway.Beside (first.push { kind }) (second.push { kind := otherKind }) where
  forest := beside.forest.pushed kind
  otherForest := beside.otherForest.pushed otherKind
  size := by rw [Document.size_push, Document.size_push, beside.size]
  parents id := by rw [Document.parent?_push, Document.parent?_push, beside.parents]
  lists id := by rw [Document.children_push, Document.children_push, beside.lists]
  kinds id := by
    by_cases new : id = first.slots.size
    · subst new
      have kinds : (first.push { kind }).kind? first.slots.size = some kind := by
        rw [Document.kind?_push, if_pos rfl]
      have otherKinds : (second.push { kind := otherKind }).kind? first.slots.size = some otherKind := by
        rw [Document.kind?_push, beside.size, if_pos rfl]
      rcases alike with rfl | ⟨texts, content, otherContent, rfl, rfl⟩
      · exact Or.inl (otherKinds.trans kinds.symm)
      · exact Or.inr ⟨texts, Document.isText_iff_kind?.mpr ⟨_, kinds⟩,
          Document.isText_iff_kind?.mpr ⟨_, otherKinds⟩⟩
    · have same : (first.push { kind }).kind? id = first.kind? id :=
        (Document.kind?_push kind id).trans (if_neg new)
      have otherSame : (second.push { kind := otherKind }).kind? id = second.kind? id :=
        (Document.kind?_push otherKind id).trans (if_neg (beside.size ▸ new))
      rw [same, otherSame, Document.isText_congr same, Document.isText_congr otherSame]
      exact beside.kinds id
  names id name found := by
    by_cases new : id = first.slots.size
    · rw [Document.attribute?, Option.bind_eq_some_iff] at found
      obtain ⟨data, element, named⟩ := found
      rw [Document.element?_eq_some_iff_kind?, Document.kind?_push, if_pos new, Option.some.injEq] at element
      rw [unnamed data element] at named
      cases named
    · rw [Document.attribute?_congr ((Document.kind?_push kind id).trans (if_neg new))] at found
      exact beside.names id name found

theorem pushed (beside : leeway.Beside first second) {kind : NodeKind}
    (unnamed : ∀ data, kind = .element data → data.attributes.get? "id".toList = none) :
    leeway.Beside (first.push { kind }) (second.push { kind }) :=
  beside.pushedBoth (Or.inl rfl) unnamed

theorem withData (beside : leeway.Beside first second) {data : ElementData}
    (found : first.element? id = some data) {change : ElementData → ElementData}
    (sameTag : (change data).tag = data.tag)
    (named : ∀ name, (change data).attributes.get? "id".toList = some name →
      data.attributes.get? "id".toList = some name ∨ leeway.names id name) :
    leeway.Beside (first.withData id change) (second.withData id change) := by
  have otherFound := (beside.element? id).trans found
  have kinds (other : NodeId) : (first.withData id change).kind? other =
      if other = id then some (.element (change data)) else first.kind? other :=
    Document.kind?_withData found change other
  have otherKinds (other : NodeId) : (second.withData id change).kind? other =
      if other = id then some (.element (change data)) else second.kind? other :=
    Document.kind?_withData otherFound change other
  constructor
  · exact beside.forest.withData found sameTag
  · exact beside.otherForest.withData otherFound sameTag
  · rw [Document.size_withData, Document.size_withData, beside.size]
  · intro other
    rw [Document.parent?_withData, Document.parent?_withData, beside.parents]
  · intro other
    rw [Document.children_withData, Document.children_withData, beside.lists]
  · intro other
    by_cases own : other = id
    · exact Or.inl (by rw [kinds, otherKinds, if_pos own, if_pos own])
    · rw [kinds, otherKinds, if_neg own, if_neg own,
        Document.isText_congr ((kinds other).trans (if_neg own)),
        Document.isText_congr ((otherKinds other).trans (if_neg own))]
      exact beside.kinds other
  · intro other name written
    by_cases own : other = id
    · subst own
      have element : (first.withData other change).element? other = some (change data) := by
        rw [Document.element?_eq_some_iff_kind?, kinds, if_pos rfl]
      rw [Document.attribute?, element, Option.bind_some] at written
      refine (named name written).elim (fun old => beside.names other name ?_) fun new => new
      rw [Document.attribute?, found, Option.bind_some, old]
    · rw [Document.attribute?_congr ((kinds other).trans (if_neg own))] at written
      exact beside.names other name written

theorem withText (beside : leeway.Beside first second) (text : first.isText id = true) (content : Text) :
    leeway.Beside (first.withText id content) (second.withText id content) := by
  have otherText := (beside.isText id).trans text
  have kinds {document : Document} (text : document.isText id = true) (other : NodeId) :
      (document.withText id content).kind? other =
        if other = id then some (.text content) else document.kind? other :=
    Document.kind?_withText (Document.contains_of_isText text) content other
  constructor
  · exact beside.forest.withText text content
  · exact beside.otherForest.withText otherText content
  · simp [Document.withText, beside.size]
  · intro other
    rw [Document.parent?_withText, Document.parent?_withText, beside.parents]
  · intro other
    rw [Document.children_withText, Document.children_withText, beside.lists]
  · intro other
    by_cases own : other = id
    · exact Or.inl (by rw [kinds text, kinds otherText, if_pos own, if_pos own])
    · rw [kinds text, kinds otherText, if_neg own, if_neg own,
        Document.isText_congr ((kinds text other).trans (if_neg own)),
        Document.isText_congr ((kinds otherText other).trans (if_neg own))]
      exact beside.kinds other
  · intro other name written
    by_cases own : other = id
    · rw [Document.attribute?, Option.bind_eq_some_iff] at written
      obtain ⟨data, element, _⟩ := written
      rw [Document.element?_eq_some_iff_kind?, kinds text, if_pos own] at element
      cases element
    · rw [Document.attribute?_congr ((kinds text other).trans (if_neg own))] at written
      exact beside.names other name written

/-- Changes of links change the same links. -/
theorem relinked (beside : leeway.Beside first second) {parents : NodeId → Option NodeId → Option NodeId}
    {lists : NodeId → List NodeId → List NodeId} (forest : (first.relinked parents lists).Forest)
    (otherForest : (second.relinked parents lists).Forest) :
    leeway.Beside (first.relinked parents lists) (second.relinked parents lists) where
  forest := forest
  otherForest := otherForest
  size := by simp [Document.relinked, beside.size]
  parents id := by rw [Document.parent?_relinked, Document.parent?_relinked, beside.contains, beside.parents]
  lists id := by
    rw [Document.children_relinked, Document.children_relinked, beside.contains, beside.lists]
  kinds id := by
    rw [Document.kind?_relinked, Document.kind?_relinked, Document.isText_relinked, Document.isText_relinked]
    exact beside.kinds id
  names id name found := by
    rw [Document.attribute?_congr (Document.kind?_relinked parents lists id)] at found
    exact beside.names id name found

theorem freed (beside : leeway.Beside first second) {ids : List NodeId} (forest : (first.free ids).Forest)
    (otherForest : (second.free ids).Forest) : leeway.Beside (first.free ids) (second.free ids) where
  forest := forest
  otherForest := otherForest
  size := by rw [Document.size_free, Document.size_free, beside.size]
  parents id := by rw [Document.parent?_free, Document.parent?_free, beside.parents]
  lists id := by rw [Document.children_free, Document.children_free, beside.lists]
  kinds id := by
    by_cases member : id ∈ ids
    · exact Or.inl (by rw [Document.kind?_free, Document.kind?_free, if_pos member, if_pos member])
    · have same (document : Document) : (document.free ids).kind? id = document.kind? id :=
        (Document.kind?_free ids id).trans (if_neg member)
      rw [same, same, Document.isText_congr (same first), Document.isText_congr (same second)]
      exact beside.kinds id
  names id name found := by
    by_cases member : id ∈ ids
    · rw [Document.attribute?, Option.bind_eq_some_iff] at found
      obtain ⟨data, element, _⟩ := found
      rw [Document.element?_eq_some_iff_kind?, Document.kind?_free, if_pos member] at element
      cases element
    · rw [Document.attribute?_congr ((Document.kind?_free ids id).trans (if_neg member))] at found
      exact beside.names id name found

end Leeway.Beside

/-! ## Edits -/

namespace Leeway

variable {leeway : Leeway}

theorem agrees_createElement (tag : Text) :
    Agrees leeway.Beside (Edit.createElement tag) (Edit.createElement tag) fun _ => True := by
  intro first second beside
  by_cases valid : isTagName tag = true
  · rw [Edit.createElement_run valid, Edit.createElement_run valid]
    refine ⟨beside.size, trivial, beside.pushed ?_⟩
    rintro data same
    cases same
    rfl
  · rw [Edit.createElement_run_invalid valid, Edit.createElement_run_invalid valid]
    exact ⟨rfl, beside⟩

theorem agrees_createText (content : Text) :
    Agrees leeway.Beside (Edit.createText content) (Edit.createText content) fun _ => True := by
  intro first second beside
  rw [Edit.createText, Edit.create_run, Edit.create_run]
  exact ⟨beside.size, trivial, beside.pushed (by simp)⟩

theorem agrees_updateElement {id : NodeId} {change : ElementData → ElementData}
    (sameTag : ∀ data, (change data).tag = data.tag)
    (named : ∀ data : ElementData, ∀ name, (change data).attributes.get? "id".toList = some name →
      data.attributes.get? "id".toList = some name ∨ leeway.names id name) :
    Agrees leeway.Beside (Edit.updateElement id change) (Edit.updateElement id change) fun _ => True := by
  intro first second beside
  cases found : first.element? id with
  | none =>
    have otherFound := (beside.element? id).trans found
    rw [Edit.updateElement_run_missing found, Edit.updateElement_run_missing otherFound]
    exact ⟨beside.elementProblem id, beside⟩
  | some data =>
    have otherFound := (beside.element? id).trans found
    rw [Edit.updateElement_run found, Edit.updateElement_run otherFound]
    exact ⟨rfl, trivial, beside.withData found (sameTag data) (named data)⟩

theorem agrees_setAttribute {id : NodeId} {name value : Text} (permitted : leeway.Permits id name value) :
    Agrees leeway.Beside (Edit.setAttribute id name value) (Edit.setAttribute id name value)
      fun _ => True := by
  rw [Edit.setAttribute]
  refine Agrees.branch (fun _ => ?_) fun _ => Agrees.failure _
  apply agrees_updateElement
  · exact fun data => ElementData.tag_setAttribute _ value
  · intro data written found
    by_cases own : Text.lowered name = "id".toList
    · have same : (data.setAttribute "id".toList value).attributes.get? "id".toList = some value :=
        Entries.get?_put_self _ _ _
      rw [own, same, Option.some.injEq] at found
      exact Or.inr (found ▸ permitted own)
    · rw [ElementData.get?_setAttribute_of_ne own] at found
      exact Or.inl found

theorem agrees_addClasses (id : NodeId) (names : Text) :
    Agrees leeway.Beside (Edit.addClasses id names) (Edit.addClasses id names) fun _ => True := by
  apply agrees_updateElement
  · exact fun data => ElementData.tag_addClasses names
  · intro data name found
    rw [ElementData.attributes_addClasses] at found
    exact Or.inl found

theorem agrees_setStyle (id : NodeId) (property value : Text) :
    Agrees leeway.Beside (Edit.setStyle id property value) (Edit.setStyle id property value)
      fun _ => True :=
  agrees_updateElement (fun _ => ElementData.tag_setStyle property value) fun _ _ found => Or.inl found

theorem agrees_appendChild (parent child : NodeId) :
    Agrees leeway.Beside (Edit.appendChild parent child) (Edit.appendChild parent child) fun _ => True := by
  intro first second beside
  have same := beside.appendProblem parent child
  cases problem : Edit.appendProblem first parent child with
  | some cause =>
    rw [Edit.appendChild_run_problem problem, Edit.appendChild_run_problem (same.trans problem)]
    exact ⟨rfl, beside⟩
  | none =>
    have otherProblem := same.trans problem
    rw [Edit.appendChild_run beside.forest problem, Edit.appendChild_run beside.otherForest otherProblem]
    obtain ⟨host, live, apart⟩ := (Edit.appendProblem_eq_none_iff beside.forest).mp problem
    obtain ⟨otherHost, otherLive, otherApart⟩ :=
      (Edit.appendProblem_eq_none_iff beside.otherForest).mp otherProblem
    exact ⟨rfl, trivial, beside.relinked (beside.forest.moved host live apart)
      (beside.otherForest.moved otherHost otherLive otherApart)⟩

theorem agrees_remove (id : NodeId) :
    Agrees leeway.Beside (Edit.remove id) (Edit.remove id) fun _ => True := by
  intro first second beside
  by_cases live : first.contains id = true
  · rw [Edit.remove_run beside.forest live,
      Edit.remove_run beside.otherForest ((beside.contains id).trans live)]
    have detached : leeway.Beside (first.detached id) (second.detached id) :=
      beside.relinked (beside.forest.detached id) (beside.otherForest.detached id)
    have orphan (document : Document) : (document.detached id).parent? id = none := by
      rw [Document.parent?_detached, if_pos rfl]
    have otherFreed := detached.otherForest.freed_family (orphan second)
    rw [detached.family id] at otherFreed ⊢
    exact ⟨rfl, trivial, detached.freed (detached.forest.freed_family (orphan first)) otherFreed⟩
  · have missing : first.node? id = none := by simpa [Document.contains] using live
    rw [Edit.remove_run_missing missing, Edit.remove_run_missing (beside.node?_eq_none missing)]
    exact ⟨rfl, beside⟩

theorem agrees_clearChildren (id : NodeId) :
    Agrees leeway.Beside (Edit.clearChildren id) (Edit.clearChildren id) fun _ => True := by
  intro first second beside
  by_cases live : first.contains id = true
  · rw [Edit.clearChildren_run beside.forest live,
      Edit.clearChildren_run beside.otherForest ((beside.contains id).trans live)]
    exact ⟨beside.lists id, trivial,
      beside.relinked (beside.forest.cleared id) (beside.otherForest.cleared id)⟩
  · have missing : first.node? id = none := by simpa [Document.contains] using live
    rw [Edit.clearChildren_run_missing missing, Edit.clearChildren_run_missing (beside.node?_eq_none missing)]
    exact ⟨rfl, beside⟩

theorem agrees_setTextContent (id : NodeId) (content : Text) :
    Agrees leeway.Beside (Edit.setTextContent id content) (Edit.setTextContent id content)
      fun _ => True := by
  have emptied (children : List NodeId) : Agrees leeway.Beside
      (children.forM fun child => do
        if (← get).isText child then
          Edit.remove child)
      (children.forM fun child => do
        if (← get).isText child then
          Edit.remove child) fun _ => True := by
    refine Agrees.loop fun child _ => Matches.read fun first second beside => ?_
    rw [beside.isText]
    exact Agrees.branch (fun _ => agrees_remove child) fun _ => Agrees.result trivial
  have filled : Agrees leeway.Beside (Edit.createText content >>= fun text => Edit.appendChild id text)
      (Edit.createText content >>= fun text => Edit.appendChild id text) fun _ => True :=
    (agrees_createText content).andThen fun text => agrees_appendChild id text
  intro first second beside
  by_cases live : first.contains id = true
  · obtain ⟨node, found⟩ := Document.contains_iff.mp live
    by_cases text : first.isText id = true
    · rw [Edit.setTextContent_run_text text, Edit.setTextContent_run_text ((beside.isText id).trans text)]
      exact ⟨rfl, trivial, beside.withText text content⟩
    · obtain ⟨data, element⟩ : ∃ data, first.element? id = some data := by
        obtain ⟨kind, parent, children⟩ := node
        cases kind with
        | text old => exact absurd (Document.isText_iff.mpr ⟨_, old, found, rfl⟩) text
        | element data => exact ⟨data, Document.element?_eq_some_iff.mpr ⟨_, found, rfl⟩⟩
      obtain ⟨_, there, kind⟩ := Document.element?_eq_some_iff.mp element
      obtain ⟨_, otherThere, otherKind⟩ :=
        Document.element?_eq_some_iff.mp ((beside.element? id).trans element)
      rw [Edit.setTextContent, bind_of_ok (Edit.node_run there), bind_of_ok (Edit.node_run otherThere),
        kind, otherKind]
      refine (agrees_clearChildren id).andThen (fun children => (emptied children).andThen fun _ => ?_)
        first second beside
      exact Agrees.branch (fun _ => filled) fun _ => Agrees.result trivial
  · have missing : first.node? id = none := by simpa [Document.contains] using live
    rw [Edit.setTextContent_run_missing missing,
      Edit.setTextContent_run_missing (beside.node?_eq_none missing)]
    exact ⟨rfl, beside⟩

end Leeway

end PageCompiler
