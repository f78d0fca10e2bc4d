import PageCompiler.Proofs.Markup.Data
import PageCompiler.Proofs.Markup.Edits

/-!
# Reachable documents

The documents that mutations make out of the empty one. Any node may be named in a mutation, and one
that fails counts with the document it leaves. Every reachable document is a forest whose elements
have well-formed data.
-/

namespace PageCompiler.Markup

open Steps Document

/-- A call that may change a document. -/
inductive Mutation where
  | createElement (tag : Text)
  | createText (content : Text)
  | setAttribute (id : NodeId) (name value : Text)
  | removeAttribute (id : NodeId) (name : Text)
  | addClasses (id : NodeId) (names : Text)
  | setStyle (id : NodeId) (property value : Text)
  | setTextContent (id : NodeId) (content : Text)
  | appendChild (parent child : NodeId)
  | detach (id : NodeId)
  | clearChildren (id : NodeId)
  | remove (id : NodeId)
deriving DecidableEq

namespace Document

/-- The document that an edit leaves, whether it fails or not. -/
def after {α : Type} (document : Document) (edit : Edit α) : Document :=
  match edit document with
  | .ok _ changed => changed
  | .error _ changed => changed

variable {document : Document} {α : Type} {edit : Edit α}

theorem after_of_ok {value : α} {changed : Document} (run : edit document = .ok value changed) :
    document.after edit = changed := by
  rw [after, run]

theorem after_of_error {cause : DomError} {changed : Document}
    (run : edit document = .error cause changed) : document.after edit = changed := by
  rw [after, run]

end Document

/-- The document that a mutation leaves. -/
def Mutation.apply : Mutation → Document → Document
  | .createElement tag, document => document.after (Edit.createElement tag)
  | .createText content, document => document.after (Edit.createText content)
  | .setAttribute id name value, document => document.after (Edit.setAttribute id name value)
  | .removeAttribute id name, document => document.after (Edit.removeAttribute id name)
  | .addClasses id names, document => document.after (Edit.addClasses id names)
  | .setStyle id property value, document => document.after (Edit.setStyle id property value)
  | .setTextContent id content, document => document.after (Edit.setTextContent id content)
  | .appendChild parent child, document => document.after (Edit.appendChild parent child)
  | .detach id, document => document.after (Edit.detach id)
  | .clearChildren id, document => document.after (Edit.clearChildren id)
  | .remove id, document => document.after (Edit.remove id)

namespace Document

/-- The documents that mutations make out of the empty one. -/
inductive Reachable : Document → Prop where
  | empty : Reachable {}
  | mutated {document : Document} (mutation : Mutation) (reachable : Reachable document) :
      Reachable (mutation.apply document)

/-- A forest whose elements have well-formed data. -/
structure Sound (document : Document) : Prop where
  forest : document.Forest
  data : ∀ {id : NodeId} {data : ElementData}, document.element? id = some data → data.WellFormed

variable {document : Document}

theorem parent?_empty (id : NodeId) : ({} : Document).parent? id = none := by
  rw [parent?, node?_empty]
  rfl

theorem Sound.empty : ({} : Document).Sound where
  forest := {
    linked := by
      intro child parent
      rw [parent?_empty, children_of_node?_none (node?_empty parent)]
      simp
    listedOnce := by
      intro parent
      rw [children_of_node?_none (node?_empty parent)]
      exact List.nodup_nil
    hosts := by
      intro child parent step
      rw [parent?_empty] at step
      cases step
    grounded := by
      refine ⟨fun id => Acc.intro id fun above step => ?_⟩
      rw [parent?_empty] at step
      cases step }
  data := by
    intro id data found
    rw [element?_eq_some_iff_kind?, kind?, node?_empty] at found
    cases found

namespace Sound

/-- An outcome is sound when it is a forest and has no elements but old ones and well-formed ones. -/
theorem of_kinds (sound : document.Sound) {changed : Document} (forest : changed.Forest)
    (kinds : ∀ id data, changed.kind? id = some (.element data) →
      document.kind? id = some (.element data) ∨ data.WellFormed) : changed.Sound where
  forest := forest
  data := by
    intro id data found
    rcases kinds id data (element?_eq_some_iff_kind?.mp found) with old | formed
    · exact sound.data (element?_eq_some_iff_kind?.mpr old)
    · exact formed

theorem relinked (sound : document.Sound) {parents : NodeId → Option NodeId → Option NodeId}
    {lists : NodeId → List NodeId → List NodeId}
    (forest : (document.relinked parents lists).Forest) : (document.relinked parents lists).Sound := by
  apply sound.of_kinds forest
  intro id data kind
  rw [kind?_relinked] at kind
  exact Or.inl kind

theorem freed (sound : document.Sound) {ids : List NodeId} (forest : (document.free ids).Forest) :
    (document.free ids).Sound := by
  apply sound.of_kinds forest
  intro id data kind
  rw [kind?_free] at kind
  split at kind
  · cases kind
  · exact Or.inl kind

theorem pushed (sound : document.Sound) {kind : NodeKind}
    (formed : ∀ data, kind = .element data → data.WellFormed) : (document.push { kind }).Sound := by
  apply sound.of_kinds (sound.forest.pushed kind)
  intro id data found
  rw [kind?_push] at found
  split at found
  · exact Or.inr (formed data (Option.some.inj found))
  · exact Or.inl found

theorem withData (sound : document.Sound) {id : NodeId} {data : ElementData}
    (found : document.element? id = some data) {change : ElementData → ElementData}
    (sameTag : (change data).tag = data.tag) (formed : (change data).WellFormed) :
    (document.withData id change).Sound := by
  apply sound.of_kinds (sound.forest.withData found sameTag)
  intro other changed kind
  rw [kind?_withData found] at kind
  split at kind
  · cases kind
    exact Or.inr formed
  · exact Or.inl kind

theorem withText (sound : document.Sound) {id : NodeId} (text : document.isText id = true)
    (content : Text) : (document.withText id content).Sound := by
  apply sound.of_kinds (sound.forest.withText text content)
  intro other data kind
  obtain ⟨node, old, there, _⟩ := isText_iff.mp text
  rw [kind?_withText (contains_iff.mpr ⟨node, there⟩)] at kind
  split at kind
  · cases kind
  · exact Or.inl kind

theorem detached (sound : document.Sound) (id : NodeId) : (document.detached id).Sound :=
  sound.relinked (sound.forest.detached id)

theorem cleared (sound : document.Sound) (id : NodeId) : (document.cleared id).Sound :=
  sound.relinked (sound.forest.cleared id)

theorem moved (sound : document.Sound) {parent child : NodeId}
    (possible : Edit.appendProblem document parent child = none) :
    (document.moved parent child).Sound := by
  obtain ⟨host, live, outside⟩ := (Edit.appendProblem_eq_none_iff sound.forest).mp possible
  exact sound.relinked (sound.forest.moved host live outside)

theorem removed (sound : document.Sound) (id : NodeId) :
    ((document.detached id).free ((document.detached id).family id)).Sound := by
  have apart := sound.detached id
  apply apart.freed
  apply apart.forest.freed_family
  rw [parent?_detached, if_pos rfl]

theorem emptied (sound : document.Sound) (id : NodeId) : (document.emptied id).Sound :=
  (sound.cleared id).freed (sound.forest.emptied id)

theorem grafted (sound : document.Sound) {host : NodeId} (possible : document.MayHost host)
    {kind : NodeKind} (formed : ∀ data, kind = .element data → data.WellFormed) :
    (document.grafted host kind).Sound := by
  have forest := sound.forest.grafted possible kind
  rw [Document.grafted, Document.moved] at forest ⊢
  exact (sound.pushed formed).relinked forest

theorem filled (sound : document.Sound) {id : NodeId} (host : document.MayHost id) (content : Text) :
    (document.filled id content).Sound := by
  rw [Document.filled]
  split
  · exact sound.emptied id
  · exact (sound.emptied id).grafted (mayHost_emptied sound.forest host) fun _ same => by cases same

end Sound

end Document

namespace Edit

variable {document : Document}

theorem createText_run (content : Text) :
    createText content document =
      .ok document.slots.size (document.push { kind := .text content }) :=
  create_run _

end Edit

namespace Document

/-! ## Outcomes of mutations -/

/-- What one mutation can make of a forest. -/
inductive Outcome (document : Document) : Document → Prop where
  | kept : Outcome document document
  | pushed {kind : NodeKind} (formed : ∀ data, kind = .element data → data.WellFormed) :
      Outcome document (document.push { kind })
  | withData {id : NodeId} {data : ElementData} {change : ElementData → ElementData}
      (found : document.element? id = some data) (sameTag : (change data).tag = data.tag)
      (formed : data.WellFormed → (change data).WellFormed) :
      Outcome document (document.withData id change)
  | withText {id : NodeId} (text : document.isText id = true) (content : Text) :
      Outcome document (document.withText id content)
  | filled {id : NodeId} (host : document.MayHost id) (content : Text) :
      Outcome document (document.filled id content)
  | moved {parent child : NodeId} (possible : Edit.appendProblem document parent child = none) :
      Outcome document (document.moved parent child)
  | detached (id : NodeId) : Outcome document (document.detached id)
  | cleared (id : NodeId) : Outcome document (document.cleared id)
  | removed (id : NodeId) :
      Outcome document ((document.detached id).free ((document.detached id).family id))

variable {document changed : Document}

namespace Outcome

theorem forest (outcome : Outcome document changed) (forest : document.Forest) :
    changed.Forest := by
  cases outcome with
  | kept => exact forest
  | pushed _ => exact forest.pushed _
  | withData found sameTag _ => exact forest.withData found sameTag
  | withText text content => exact forest.withText text content
  | filled host content => exact forest.filled host content
  | moved possible =>
    obtain ⟨host, live, outside⟩ := (Edit.appendProblem_eq_none_iff forest).mp possible
    exact forest.moved host live outside
  | detached id => exact forest.detached id
  | cleared id => exact forest.cleared id
  | removed id =>
    apply (forest.detached id).freed_family
    rw [parent?_detached, if_pos rfl]

theorem sound (outcome : Outcome document changed) (sound : document.Sound) : changed.Sound := by
  cases outcome with
  | kept => exact sound
  | pushed formed => exact sound.pushed formed
  | withData found sameTag formed => exact sound.withData found sameTag (formed (sound.data found))
  | withText text content => exact sound.withText text content
  | filled host content => exact sound.filled host content
  | moved possible => exact sound.moved possible
  | detached id => exact sound.detached id
  | cleared id => exact sound.cleared id
  | removed id => exact sound.removed id

theorem pushedText (content : Text) : Outcome document (document.push { kind := .text content }) :=
  pushed fun _ same => by cases same

theorem pushedElement {tag : Text} (valid : isTagName tag = true) :
    Outcome document (document.push { kind := .element { tag := Text.lowered tag } }) := by
  apply pushed
  intro data same
  cases same
  exact ElementData.wellFormed_new valid

/-- A change to the data of one element, which fails on anything else. -/
theorem updateElement (id : NodeId) {change : ElementData → ElementData}
    (sameTag : ∀ data, document.element? id = some data → (change data).tag = data.tag)
    (formed : ∀ data : ElementData, data.WellFormed → (change data).WellFormed) :
    Outcome document (document.after (Edit.updateElement id change)) := by
  cases found : document.element? id with
  | none =>
    rw [after_of_error (Edit.updateElement_run_missing found change)]
    exact kept
  | some data =>
    rw [after_of_ok (Edit.updateElement_run found change)]
    exact withData found (sameTag data found) (formed data)

theorem setAttribute (id : NodeId) (name value : Text) :
    Outcome document (document.after (Edit.setAttribute id name value)) := by
  by_cases valid : isAttributeName name = true
  · rw [Edit.setAttribute, if_pos valid]
    apply updateElement
    · exact fun data _ => ElementData.tag_setAttribute _ value
    · exact fun data formed => formed.setAttribute valid value
  · rw [after_of_error (Edit.setAttribute_run_invalid valid id value)]
    exact kept

theorem removeAttribute (id : NodeId) (name : Text) :
    Outcome document (document.after (Edit.removeAttribute id name)) := by
  cases found : document.element? id with
  | none =>
    rw [after_of_error (Edit.removeAttribute_run_missing found name)]
    exact kept
  | some data =>
    rw [after_of_ok (Edit.removeAttribute_run found name)]
    exact withData found rfl fun formed => formed.removeAttribute name

theorem setTextContent (forest : document.Forest) (id : NodeId) (content : Text) :
    Outcome document (document.after (Edit.setTextContent id content)) := by
  cases there : document.node? id with
  | none =>
    rw [after_of_error (Edit.setTextContent_run_missing there content)]
    exact kept
  | some node =>
    cases kind : node.kind with
    | text old =>
      have text := isText_iff.mpr ⟨node, old, there, kind⟩
      rw [after_of_ok (Edit.setTextContent_run_text text content)]
      exact withText text content
    | element data =>
      have found := element?_eq_some_iff.mpr ⟨node, there, kind⟩
      by_cases void : isVoidElement data.tag = true
      · have run := Edit.setTextContent_run_void forest found void content
        split at run
        · rw [after_of_ok run]
          exact kept
        · rw [after_of_error run]
          exact pushedText content
      · have host : document.MayHost id := ⟨data, found, by simpa using void⟩
        rw [after_of_ok (Edit.setTextContent_run forest host content)]
        exact filled host content

theorem appendChild (forest : document.Forest) (parent child : NodeId) :
    Outcome document (document.after (Edit.appendChild parent child)) := by
  cases problem : Edit.appendProblem document parent child with
  | none =>
    rw [after_of_ok (Edit.appendChild_run forest problem)]
    exact moved problem
  | some cause =>
    rw [after_of_error (Edit.appendChild_run_problem problem)]
    exact kept

end Outcome

/-- Whatever it is applied to, a mutation has one of the outcomes. -/
theorem Forest.outcome (forest : document.Forest) (mutation : Mutation) :
    Outcome document (mutation.apply document) := by
  cases mutation with
  | createElement tag =>
    by_cases valid : isTagName tag = true
    · rw [Mutation.apply, after_of_ok (Edit.createElement_run valid)]
      exact .pushedElement valid
    · rw [Mutation.apply, after_of_error (Edit.createElement_run_invalid valid)]
      exact .kept
  | createText content =>
    rw [Mutation.apply, after_of_ok (Edit.createText_run content)]
    exact .pushedText content
  | setAttribute id name value => exact .setAttribute id name value
  | removeAttribute id name => exact .removeAttribute id name
  | addClasses id names =>
    apply Outcome.updateElement
    · exact fun data _ => ElementData.tag_addClasses names
    · exact fun data formed => formed.addClasses names
  | setStyle id property value =>
    apply Outcome.updateElement
    · exact fun data _ => ElementData.tag_setStyle property value
    · exact fun data formed => formed.setStyle property value
  | setTextContent id content => exact .setTextContent forest id content
  | appendChild parent child => exact .appendChild forest parent child
  | detach id =>
    by_cases live : document.contains id = true
    · rw [Mutation.apply, after_of_ok (Edit.detach_run forest live)]
      exact .detached id
    · rw [Mutation.apply,
        after_of_error (Edit.detach_run_missing (by simpa [contains] using live))]
      exact .kept
  | clearChildren id =>
    by_cases live : document.contains id = true
    · rw [Mutation.apply, after_of_ok (Edit.clearChildren_run forest live)]
      exact .cleared id
    · rw [Mutation.apply,
        after_of_error (Edit.clearChildren_run_missing (by simpa [contains] using live))]
      exact .kept
  | remove id =>
    by_cases live : document.contains id = true
    · rw [Mutation.apply, after_of_ok (Edit.remove_run forest live)]
      exact .removed id
    · rw [Mutation.apply,
        after_of_error (Edit.remove_run_missing (by simpa [contains] using live))]
      exact .kept

end Document

variable {document : Document}

/-- Any sequence of mutations leads from a reachable document to a reachable one. -/
theorem Document.Reachable.run (reachable : document.Reachable) (mutations : List Mutation) :
    (mutations.foldl (fun document mutation => mutation.apply document) document).Reachable := by
  induction mutations generalizing document with
  | nil => exact reachable
  | cons mutation rest ih => exact ih (reachable.mutated mutation)

/-- Every reachable document is sound. -/
theorem Document.Reachable.sound (reachable : document.Reachable) : document.Sound := by
  induction reachable with
  | empty => exact Sound.empty
  | mutated mutation _ sound => exact (sound.forest.outcome mutation).sound sound

end PageCompiler.Markup
