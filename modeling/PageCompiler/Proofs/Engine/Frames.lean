import PageCompiler.Engine
import PageCompiler.Proofs.Invariants
import PageCompiler.Proofs.Markup.Reachable

/-!
# Frames of documents

What edits leave alone when any node may have been put below the elements of users, those around the
roots included: elements of users stay elements, the identifiers that are kept do not change, and no
element of a user gets below a node that a render removes. Nodes that are neither elements of users nor
around the roots, such as texts and what is in the head, may go.
-/

namespace PageCompiler

open Markup Steps

/-- What is watched of a document: the elements of users, the identifiers that some of them keep, the
elements around the roots, and whether the body is to stay in its page, or is not to get back there. -/
structure Frame where
  users : NodeId → Prop
  names : NodeId → Option Text
  shell : Option Shell
  whole : Prop
  lost : Prop

namespace Markup.Document

section Kinds

variable {first second : Document} {id : NodeId}

theorem tag?_congr (same : first.kind? id = second.kind? id) : first.tag? id = second.tag? id := by
  rw [tag?, tag?, element?_congr same]

theorem attribute?_congr (same : first.kind? id = second.kind? id) (name : Text) :
    first.attribute? id name = second.attribute? id name := by
  rw [attribute?, attribute?, element?_congr same]

end Kinds

theorem isSome_tag? (document : Document) (id : NodeId) :
    (document.tag? id).isSome = (document.element? id).isSome :=
  Option.isSome_map

theorem contains_of_tag? {document : Document} {id : NodeId} (found : (document.tag? id).isSome) :
    document.contains id = true := by
  rw [isSome_tag?] at found
  obtain ⟨data, found⟩ := Option.isSome_iff_exists.mp found
  exact contains_of_element? found

end Markup.Document

namespace Frame

/-- Whether a node is one of the elements around the roots. -/
def IsPart (frame : Frame) (id : NodeId) : Prop :=
  ∃ shell, frame.shell = some shell ∧ (id = shell.html ∨ id = shell.head ∨ id = shell.body)

/-- Whether a node may not be removed. -/
def IsKept (frame : Frame) (id : NodeId) : Prop :=
  frame.users id ∨ frame.IsPart id

end Frame

/-- The elements around the roots are there, in a page that has nothing else in it; nothing that is in
the head, nor the script, is to be kept. -/
structure Shell.Remains (shell : Shell) (frame : Frame) (document : Document) : Prop where
  html : document.tag? shell.html = some "html".toList
  head : document.tag? shell.head = some "head".toList
  body : document.tag? shell.body = some "body".toList
  parts : (document.children shell.html).Sublist [shell.head, shell.body]
  inHead : ∀ child, document.parent? child = some shell.head → ¬ frame.IsKept child
  script : ∀ script, shell.script = some script →
    script < document.slots.size ∧ ¬ frame.IsKept script
  whole : frame.whole → document.parent? shell.body = some shell.html

namespace Frame

/-- A document in which everything that is watched is as it should be: what is above a node that may
not be removed may not be removed either. -/
structure Fits (frame : Frame) (document : Document) : Prop where
  sound : document.Sound
  users : ∀ id, frame.users id → (document.element? id).isSome ∧ ¬ frame.IsPart id
  names : ∀ id name, frame.names id = some name →
    frame.users id ∧ document.attribute? id "id".toList = some name
  hosts : ∀ child parent, document.parent? child = some parent → frame.IsKept child →
    frame.IsKept parent
  shell : ∀ shell, frame.shell = some shell → shell.Remains frame document
  lost : frame.lost →
    ∃ shell, frame.shell = some shell ∧ document.parent? shell.body ≠ some shell.html

namespace Fits

variable {frame : Frame} {document changed : Document}

theorem tag?_of_kept (fits : frame.Fits document) {id : NodeId} (kept : frame.IsKept id) :
    (document.tag? id).isSome := by
  rcases kept with user | ⟨shell, known, rfl | rfl | rfl⟩
  · rw [Document.isSome_tag?]
    exact (fits.users id user).1
  · rw [(fits.shell shell known).html]
    rfl
  · rw [(fits.shell shell known).head]
    rfl
  · rw [(fits.shell shell known).body]
    rfl

theorem contains_of_kept (fits : frame.Fits document) {id : NodeId} (kept : frame.IsKept id) :
    document.contains id = true :=
  Document.contains_of_tag? (fits.tag?_of_kept kept)

theorem lt_size_of_kept (fits : frame.Fits document) {id : NodeId} (kept : frame.IsKept id) :
    id < document.slots.size :=
  Document.lt_size_of_contains (fits.contains_of_kept kept)

theorem not_kept_size (fits : frame.Fits document) : ¬ frame.IsKept document.slots.size :=
  fun kept => Nat.lt_irrefl _ (fits.lt_size_of_kept kept)

theorem not_kept_of_text (fits : frame.Fits document) {id : NodeId} (text : document.isText id = true) :
    ¬ frame.IsKept id := by
  intro kept
  have found := fits.tag?_of_kept kept
  rw [Document.isSome_tag?] at found
  obtain ⟨data, found⟩ := Option.isSome_iff_exists.mp found
  rw [Document.not_isText_of_element? found] at text
  cases text

theorem isPart_html {shell : Shell} (known : frame.shell = some shell) : frame.IsPart shell.html :=
  ⟨shell, known, Or.inl rfl⟩

theorem isPart_head {shell : Shell} (known : frame.shell = some shell) : frame.IsPart shell.head :=
  ⟨shell, known, Or.inr (Or.inl rfl)⟩

theorem isPart_body {shell : Shell} (known : frame.shell = some shell) : frame.IsPart shell.body :=
  ⟨shell, known, Or.inr (Or.inr rfl)⟩

/-- The tags of what is kept and the identifiers that are kept decide whether a change fits, together
with the links at the elements around the roots. -/
theorem step (fits : frame.Fits document) (sound : changed.Sound)
    (grows : document.slots.size ≤ changed.slots.size)
    (tags : ∀ id, frame.IsKept id → changed.tag? id = document.tag? id)
    (names : ∀ id name, frame.names id = some name →
      changed.attribute? id "id".toList = document.attribute? id "id".toList)
    (hosts : ∀ child parent, changed.parent? child = some parent → frame.IsKept child →
      frame.IsKept parent)
    (parts : ∀ shell, frame.shell = some shell →
      (changed.children shell.html).Sublist [shell.head, shell.body])
    (inHead : ∀ shell, frame.shell = some shell → ∀ child, changed.parent? child = some shell.head →
      ¬ frame.IsKept child)
    (whole : ∀ shell, frame.shell = some shell → frame.whole →
      changed.parent? shell.body = some shell.html)
    (lost : ∀ shell, frame.shell = some shell → changed.parent? shell.body = some shell.html →
      document.parent? shell.body = some shell.html) : frame.Fits changed where
  sound := sound
  users id user := by
    obtain ⟨live, apart⟩ := fits.users id user
    rw [← Document.isSome_tag?, tags id (Or.inl user), Document.isSome_tag?]
    exact ⟨live, apart⟩
  names id name known := by
    obtain ⟨user, named⟩ := fits.names id name known
    exact ⟨user, (names id name known).trans named⟩
  hosts := hosts
  shell shell known := {
    html := (tags _ (Or.inr (isPart_html known))).trans (fits.shell shell known).html
    head := (tags _ (Or.inr (isPart_head known))).trans (fits.shell shell known).head
    body := (tags _ (Or.inr (isPart_body known))).trans (fits.shell shell known).body
    parts := parts shell known
    inHead := inHead shell known
    script := fun script scriptKnown => by
      obtain ⟨inside, apart⟩ := (fits.shell shell known).script script scriptKnown
      exact ⟨Nat.lt_of_lt_of_le inside grows, apart⟩
    whole := whole shell known }
  lost isLost := by
    obtain ⟨shell, known, apart⟩ := fits.lost isLost
    exact ⟨shell, known, fun back => apart (lost shell known back)⟩

/-- A change that adds no links fits when it keeps what is to be kept, and the body in its page. -/
theorem fewer (fits : frame.Fits document) (sound : changed.Sound)
    (grows : document.slots.size ≤ changed.slots.size)
    (tags : ∀ id, frame.IsKept id → changed.tag? id = document.tag? id)
    (names : ∀ id name, frame.names id = some name →
      changed.attribute? id "id".toList = document.attribute? id "id".toList)
    (parents : ∀ child parent, changed.parent? child = some parent →
      document.parent? child = some parent)
    (parts : ∀ id, (changed.children id).Sublist (document.children id))
    (whole : ∀ shell, frame.shell = some shell → frame.whole →
      changed.parent? shell.body = document.parent? shell.body) : frame.Fits changed :=
  fits.step sound grows tags names
    (fun child parent step => fits.hosts child parent (parents child parent step))
    (fun shell known => (parts shell.html).trans (fits.shell shell known).parts)
    (fun shell known child step => (fits.shell shell known).inHead child (parents _ _ step))
    (fun shell known watched => (whole shell known watched).trans ((fits.shell shell known).whole watched))
    fun _ _ back => parents _ _ back

theorem pushed (fits : frame.Fits document) (kind : NodeKind)
    (formed : ∀ data, kind = .element data → data.WellFormed) :
    frame.Fits (document.push { kind }) := by
  have kinds {id : NodeId} (kept : frame.IsKept id) :
      (document.push { kind }).kind? id = document.kind? id := by
    rw [Document.kind?_push, if_neg (Nat.ne_of_lt (fits.lt_size_of_kept kept))]
  apply fits.fewer (fits.sound.pushed formed)
  · simp
  · exact fun id kept => Document.tag?_congr (kinds kept)
  · exact fun id name known => Document.attribute?_congr (kinds (Or.inl (fits.names id name known).1)) _
  · intro child parent step
    rwa [Document.parent?_push] at step
  · intro id
    rw [Document.children_push]
  · intro shell _ _
    rw [Document.parent?_push]

theorem withData (fits : frame.Fits document) {id : NodeId} {data : ElementData}
    (found : document.element? id = some data) {change : ElementData → ElementData}
    (sameTag : (change data).tag = data.tag) (formed : (change data).WellFormed)
    (sameName : ∀ name, frame.names id = some name → data.attributes.get? "id".toList = some name →
      (change data).attributes.get? "id".toList = some name) :
    frame.Fits (document.withData id change) := by
  have elements (other : NodeId) : (document.withData id change).element? other =
      if other = id then some (change data) else document.element? other := by
    apply Option.ext
    intro changed
    rw [Document.element?_eq_some_iff_kind?, Document.kind?_withData found]
    split
    · simp
    · rw [← Document.element?_eq_some_iff_kind?]
  apply fits.fewer (fits.sound.withData found sameTag formed)
  · rw [Document.size_withData]
  · intro other _
    rw [Document.tag?, Document.tag?, elements]
    split
    · next same =>
      subst same
      rw [found, Option.map_some, Option.map_some, sameTag]
    · rfl
  · intro other name known
    rw [Document.attribute?, Document.attribute?, elements]
    split
    · next same =>
      subst same
      have named := (fits.names other name known).2
      rw [Document.attribute?, found, Option.bind_some] at named
      rw [found, Option.bind_some, Option.bind_some, named]
      exact sameName name known named
    · rfl
  · intro child parent step
    rwa [Document.parent?_withData] at step
  · intro other
    rw [Document.children_withData]
  · intro shell _ _
    rw [Document.parent?_withData]

theorem withText (fits : frame.Fits document) {id : NodeId} (text : document.isText id = true)
    (content : Text) : frame.Fits (document.withText id content) := by
  obtain ⟨node, _, found, _⟩ := Document.isText_iff.mp text
  have live := Document.contains_iff.mpr ⟨node, found⟩
  have kinds {other : NodeId} (kept : frame.IsKept other) :
      (document.withText id content).kind? other = document.kind? other := by
    rw [Document.kind?_withText live, if_neg]
    rintro rfl
    exact fits.not_kept_of_text text kept
  apply fits.fewer (fits.sound.withText text content)
  · simp [Document.withText]
  · exact fun other kept => Document.tag?_congr (kinds kept)
  · exact fun other name known =>
      Document.attribute?_congr (kinds (Or.inl (fits.names other name known).1)) _
  · intro child parent step
    rwa [Document.parent?_withText] at step
  · intro other
    rw [Document.children_withText]
  · intro shell _ _
    rw [Document.parent?_withText]

theorem cleared (fits : frame.Fits document) {id : NodeId}
    (apart : ∀ shell, frame.shell = some shell → frame.whole → id ≠ shell.html) :
    frame.Fits (document.cleared id) := by
  have kinds (other : NodeId) : (document.cleared id).kind? other = document.kind? other :=
    Document.kind?_relinked _ _ _
  apply fits.fewer (fits.sound.cleared id)
  · simp [Document.cleared, Document.relinked]
  · exact fun other _ => Document.tag?_congr (kinds other)
  · exact fun other _ _ => Document.attribute?_congr (kinds other) _
  · intro child parent step
    rw [Document.parent?_cleared] at step
    split at step
    · cases step
    · exact step
  · intro other
    rw [Document.children_cleared]
    split
    · exact List.nil_sublist _
    · exact List.Sublist.refl _
  · intro shell known watched
    rw [Document.parent?_cleared, if_neg]
    rw [(fits.shell shell known).whole watched, Option.some.injEq]
    exact (apart shell known watched).symm

theorem detached (fits : frame.Fits document) {id : NodeId} (loose : ¬ frame.IsKept id) :
    frame.Fits (document.detached id) := by
  have kinds (other : NodeId) : (document.detached id).kind? other = document.kind? other :=
    Document.kind?_relinked _ _ _
  apply fits.fewer (fits.sound.detached id)
  · simp [Document.detached, Document.relinked]
  · exact fun other _ => Document.tag?_congr (kinds other)
  · exact fun other _ _ => Document.attribute?_congr (kinds other) _
  · intro child parent step
    rw [Document.parent?_detached] at step
    split at step
    · cases step
    · exact step
  · intro other
    rw [Document.children_detached]
    exact List.filter_sublist
  · intro shell known _
    rw [Document.parent?_detached, if_neg]
    rintro same
    exact loose (same ▸ Or.inr (isPart_body known))

/-- Nothing that is to be kept is below a node that is not. -/
theorem not_kept_of_below (fits : frame.Fits document) {id top : NodeId} (loose : ¬ frame.IsKept top)
    (below : document.Below id top) : ¬ frame.IsKept id := by
  induction below with
  | refl => exact loose
  | tail _ step ih => exact ih fun kept => loose (fits.hosts _ _ step kept)

/-- A node without a parent is removed with everything below it. -/
theorem removed (fits : frame.Fits document) {id : NodeId} (loose : ¬ frame.IsKept id)
    (orphan : document.parent? id = none) : frame.Fits (document.free (document.family id)) := by
  have forest := fits.sound.forest
  have outside {other : NodeId} (kept : frame.IsKept other) : other ∉ document.family id := by
    rw [forest.mem_family_iff]
    exact fun below => fits.not_kept_of_below loose below kept
  have kinds {other : NodeId} (kept : frame.IsKept other) :
      (document.free (document.family id)).kind? other = document.kind? other := by
    rw [Document.kind?_free, if_neg (outside kept)]
  apply fits.fewer (fits.sound.freed (forest.freed_family orphan))
  · simp
  · exact fun other kept => Document.tag?_congr (kinds kept)
  · exact fun other name known =>
      Document.attribute?_congr (kinds (Or.inl (fits.names other name known).1)) _
  · intro child parent step
    rw [Document.parent?_free] at step
    split at step
    · cases step
    · exact step
  · intro other
    rw [Document.children_free]
    split
    · exact List.nil_sublist _
    · exact List.Sublist.refl _
  · intro shell known _
    rw [Document.parent?_free, if_neg (outside (Or.inr (isPart_body known)))]

/-- A node is moved below another one: not into the page, and into the head only what may be removed. -/
theorem moved (fits : frame.Fits document) {parent child : NodeId}
    (possible : Edit.appendProblem document parent child = none)
    (host : frame.IsKept child → frame.IsKept parent)
    (apart : ∀ shell, frame.shell = some shell → parent ≠ shell.html ∧
      (parent = shell.head → ¬ frame.IsKept child) ∧ (frame.whole → child ≠ shell.body)) :
    frame.Fits (document.moved parent child) := by
  obtain ⟨⟨data, found, _⟩, live, _⟩ :=
    (Edit.appendProblem_eq_none_iff fits.sound.forest).mp possible
  have kinds (other : NodeId) : (document.moved parent child).kind? other = document.kind? other :=
    Document.kind?_relinked _ _ _
  apply fits.step (fits.sound.moved possible)
  · rw [Document.size_moved]
  · exact fun other _ => Document.tag?_congr (kinds other)
  · exact fun other _ _ => Document.attribute?_congr (kinds other) _
  · intro other above step kept
    rw [Document.parent?_moved live] at step
    split at step
    · next same =>
      subst same
      rw [← Option.some.inj step]
      exact host kept
    · exact fits.hosts other above step kept
  · intro shell known
    rw [Document.children_moved (Document.contains_of_element? found),
      if_neg (apart shell known).1.symm, List.append_nil]
    exact List.filter_sublist.trans (fits.shell shell known).parts
  · intro shell known other step
    rw [Document.parent?_moved live] at step
    split at step
    · next same =>
      subst same
      exact (apart shell known).2.1 (Option.some.inj step)
    · exact (fits.shell shell known).inHead other step
  · intro shell known watched
    rw [Document.parent?_moved live, if_neg ((apart shell known).2.2 watched).symm]
    exact (fits.shell shell known).whole watched
  · intro shell known back
    rw [Document.parent?_moved live] at back
    split at back
    · exact absurd (Option.some.inj back) (apart shell known).1
    · exact back

/-- A new element becomes one of a user. -/
theorem admitted (fits : frame.Fits document) {data : ElementData} (formed : data.WellFormed) :
    Frame.Fits { frame with users := fun id => frame.users id ∨ id = document.slots.size }
      (document.push { kind := .element data }) := by
  have pushed := fits.pushed (.element data) fun _ same => by
    cases same
    exact formed
  have orphan : (document.push { kind := .element data }).parent? document.slots.size = none :=
    Document.parent?_pushed _
  have oldOrNew {id : NodeId}
      (kept : IsKept { frame with users := fun id => frame.users id ∨ id = document.slots.size } id) :
      frame.IsKept id ∨ id = document.slots.size := by
    rcases kept with (user | same) | part
    · exact Or.inl (Or.inl user)
    · exact Or.inr same
    · exact Or.inl (Or.inr part)
  constructor
  · exact pushed.sound
  · rintro id (user | rfl)
    · exact pushed.users id user
    · refine ⟨?_, fun part => fits.not_kept_size (Or.inr part)⟩
      rw [Document.element?_eq_some_iff_kind?.mpr ((Document.kind?_push _ _).trans (if_pos rfl))]
      rfl
  · intro id name known
    exact ⟨Or.inl (fits.names id name known).1, (pushed.names id name known).2⟩
  · intro child parent step kept
    rcases oldOrNew kept with old | rfl
    · exact (pushed.hosts child parent step old).imp_left Or.inl
    · rw [orphan] at step
      cases step
  · intro shell known
    refine { pushed.shell shell known with inHead := ?_, script := ?_ }
    · intro child step kept
      rcases oldOrNew kept with old | rfl
      · exact (pushed.shell shell known).inHead child step old
      · rw [orphan] at step
        cases step
    · intro script scriptKnown
      refine ⟨((pushed.shell shell known).script script scriptKnown).1, fun kept => ?_⟩
      obtain ⟨inside, loose⟩ := (fits.shell shell known).script script scriptKnown
      exact (oldOrNew kept).elim loose (Nat.ne_of_lt inside)
  · exact pushed.lost

end Fits

end Frame

/-! ## Edits -/

namespace Frame

variable {frame : Frame}

theorem preserves_createElement (tag : Text) :
    Preserves frame.Fits (Edit.createElement tag) fun id => ¬ frame.IsKept id := by
  intro document fits
  by_cases valid : isTagName tag = true
  · rw [Edit.createElement_run valid]
    refine ⟨fits.pushed _ ?_, fits.not_kept_size⟩
    intro data same
    cases same
    exact ElementData.wellFormed_new valid
  · rw [Edit.createElement_run_invalid valid]
    exact fits

theorem preserves_createText (content : Text) :
    Preserves frame.Fits (Edit.createText content) fun id => ¬ frame.IsKept id := by
  intro document fits
  rw [Edit.createText, Edit.create_run]
  exact ⟨fits.pushed _ (by simp), fits.not_kept_size⟩

theorem preserves_updateElement (id : NodeId) {change : ElementData → ElementData}
    (sameTag : ∀ data, (change data).tag = data.tag)
    (formed : ∀ data : ElementData, data.WellFormed → (change data).WellFormed)
    (sameName : ∀ data : ElementData, ∀ name, frame.names id = some name →
      data.attributes.get? "id".toList = some name →
        (change data).attributes.get? "id".toList = some name) :
    Preserves frame.Fits (Edit.updateElement id change) fun _ => True := by
  intro document fits
  cases found : document.element? id with
  | none =>
    rw [Edit.updateElement_run_missing found]
    exact fits
  | some data =>
    rw [Edit.updateElement_run found]
    exact ⟨fits.withData found (sameTag data) (formed data (fits.sound.data found)) (sameName data),
      trivial⟩

/-- An identifier that is kept can only be written as it is. -/
theorem preserves_setAttribute {id : NodeId} {name value : Text}
    (same : Text.lowered name = "id".toList → ∀ kept, frame.names id = some kept → value = kept) :
    Preserves frame.Fits (Edit.setAttribute id name value) fun _ => True := by
  rw [Edit.setAttribute]
  split
  · next valid =>
    apply preserves_updateElement id
    · exact fun data => ElementData.tag_setAttribute _ value
    · exact fun data formed => formed.setAttribute valid value
    · intro data kept known named
      by_cases own : Text.lowered name = "id".toList
      · rw [own, same own kept known]
        exact Entries.get?_put_self _ _ _
      · rw [ElementData.get?_setAttribute_of_ne own, named]
  · exact Preserves.failure _

theorem preserves_addClasses (id : NodeId) (names : Text) :
    Preserves frame.Fits (Edit.addClasses id names) fun _ => True := by
  apply preserves_updateElement id
  · exact fun data => ElementData.tag_addClasses names
  · exact fun data formed => formed.addClasses names
  · intro data _ _ named
    rw [ElementData.attributes_addClasses, named]

theorem preserves_setStyle (id : NodeId) (property value : Text) :
    Preserves frame.Fits (Edit.setStyle id property value) fun _ => True := by
  apply preserves_updateElement id
  · exact fun data => ElementData.tag_setStyle property value
  · exact fun data formed => formed.setStyle property value
  · exact fun _ _ _ named => named

/-- What was appended is there. -/
theorem meets_appendChild {parent child : NodeId} (host : frame.IsKept child → frame.IsKept parent)
    (apart : ∀ shell, frame.shell = some shell → parent ≠ shell.html ∧
      (parent = shell.head → ¬ frame.IsKept child) ∧ (frame.whole → child ≠ shell.body)) :
    Meets frame.Fits (Edit.appendChild parent child)
      (fun _ changed => frame.Fits changed ∧ child < changed.slots.size) frame.Fits := by
  intro document fits
  cases problem : Edit.appendProblem document parent child with
  | some cause =>
    rw [Edit.appendChild_run_problem problem]
    exact fits
  | none =>
    rw [Edit.appendChild_run fits.sound.forest problem]
    refine ⟨fits.moved problem host apart, ?_⟩
    rw [Document.size_moved]
    exact Document.lt_size_of_contains
      ((Edit.appendProblem_eq_none_iff fits.sound.forest).mp problem).2.1

theorem preserves_appendChild {parent child : NodeId} (host : frame.IsKept child → frame.IsKept parent)
    (apart : ∀ shell, frame.shell = some shell → parent ≠ shell.html ∧
      (parent = shell.head → ¬ frame.IsKept child) ∧ (frame.whole → child ≠ shell.body)) :
    Preserves frame.Fits (Edit.appendChild parent child) fun _ => True :=
  (meets_appendChild host apart).weaken (fun _ start => start) (fun _ _ ends => ⟨ends.1, trivial⟩)
    fun _ ends => ends

theorem preserves_remove {id : NodeId} (loose : ¬ frame.IsKept id) :
    Preserves frame.Fits (Edit.remove id) fun _ => True := by
  intro document fits
  cases found : document.node? id with
  | none =>
    rw [Edit.remove_run_missing found]
    exact fits
  | some node =>
    rw [Edit.remove_run fits.sound.forest (Document.contains_iff.mpr ⟨node, found⟩)]
    refine ⟨(fits.detached loose).removed loose ?_, trivial⟩
    rw [Document.parent?_detached, if_pos rfl]

/-- The children that are taken out of the head may all be removed. -/
theorem preserves_clearChildren {id : NodeId}
    (apart : ∀ shell, frame.shell = some shell → frame.whole → id ≠ shell.html) :
    Preserves frame.Fits (Edit.clearChildren id) fun children =>
      ∀ shell, frame.shell = some shell → id = shell.head → ∀ child ∈ children, ¬ frame.IsKept child := by
  intro document fits
  cases found : document.node? id with
  | none =>
    rw [Edit.clearChildren_run_missing found]
    exact fits
  | some node =>
    rw [Edit.clearChildren_run fits.sound.forest (Document.contains_iff.mpr ⟨node, found⟩)]
    refine ⟨fits.cleared apart, ?_⟩
    rintro shell known rfl child listed
    exact (fits.shell shell known).inHead child (fits.sound.forest.linked.mp listed)

theorem preserves_setTextContent {id : NodeId} (content : Text)
    (apart : ∀ shell, frame.shell = some shell → id ≠ shell.html) :
    Preserves frame.Fits (Edit.setTextContent id content) fun _ => True := by
  have cleaned : Preserves frame.Fits (Edit.clearChildren id) fun _ => True :=
    (preserves_clearChildren fun shell known _ => apart shell known).forget
  have emptied (children : List NodeId) : Preserves frame.Fits
      (children.forM fun child => do
        if (← get).isText child then
          Edit.remove child) fun _ => True := by
    refine Preserves.loop fun child _ => Preserves.state.bind fun document fits => ?_
    split
    · next text => exact preserves_remove (fits.not_kept_of_text text)
    · exact Preserves.result trivial
  have filled : Preserves frame.Fits (Edit.createText content >>= fun text => Edit.appendChild id text)
      fun _ => True := by
    refine (preserves_createText content).bind fun text loose => ?_
    apply preserves_appendChild (fun kept => absurd kept loose)
    exact fun shell known => ⟨apart shell known, fun _ => loose, fun watched same =>
      loose (same ▸ Or.inr (Fits.isPart_body known))⟩
  intro document fits
  cases found : document.node? id with
  | none =>
    rw [Edit.setTextContent_run_missing found]
    exact fits
  | some node =>
    obtain ⟨kind, parent, children⟩ := node
    cases kind with
    | text old =>
      have text : document.isText id = true := Document.isText_iff.mpr ⟨_, old, found, rfl⟩
      rw [Edit.setTextContent_run_text text]
      exact ⟨fits.withText text content, trivial⟩
    | element data =>
      rw [Edit.setTextContent, bind_of_ok (Edit.node_run found)]
      dsimp only
      refine cleaned.andThen (fun children => (emptied children).andThen fun _ => ?_) document fits
      split
      · exact filled
      · exact Preserves.result trivial

end Frame

end PageCompiler
