import PageCompiler.Proofs.Markup.Reachable

/-!
# Mutations that fail

A mutation finds out whether it can be done before it changes anything, so one that fails leaves the document
as it was. Only the text of an element without content is made before it turns out that it cannot be put
there, and then it stays behind, without a parent.
-/

namespace PageCompiler.Markup

open Steps Document

variable {document changed : Document} {cause : DomError}

/-- A mutation as an edit, without its result. -/
def Mutation.edit : Mutation → Edit Unit
  | .createElement tag => do
    let _ ← Edit.createElement tag
  | .createText content => do
    let _ ← Edit.createText content
  | .setAttribute id name value => Edit.setAttribute id name value
  | .removeAttribute id name => do
    let _ ← Edit.removeAttribute id name
  | .addClasses id names => Edit.addClasses id names
  | .setStyle id property value => Edit.setStyle id property value
  | .setTextContent id content => Edit.setTextContent id content
  | .appendChild parent child => Edit.appendChild parent child
  | .detach id => Edit.detach id
  | .clearChildren id => do
    let _ ← Edit.clearChildren id
  | .remove id => Edit.remove id

/-- Whether a mutation writes a text into an element that has no content. -/
def Mutation.FillsVoid (document : Document) : Mutation → Prop
  | .setTextContent id content =>
    content ≠ [] ∧ ∃ data, document.element? id = some data ∧ isVoidElement data.tag = true
  | _ => False

/-! ## Edits that change nothing when they fail -/

/-- An edit that, if it fails, has changed nothing. -/
def Document.KeptBy {α : Type} (document : Document) (edit : Edit α) : Prop :=
  ∀ cause changed, edit document = .error cause changed → changed = document

namespace Document.KeptBy

variable {α : Type} {edit : Edit α}

theorem of_ok {value : α} {after : Document} (run : edit document = .ok value after) :
    document.KeptBy edit := by
  intro cause changed failed
  rw [run] at failed
  cases failed

theorem of_error (run : edit document = .error cause document) : document.KeptBy edit := by
  intro other changed failed
  rw [run] at failed
  cases failed
  rfl

/-- Leaving out a result is no change. -/
theorem unit (kept : document.KeptBy edit) :
    document.KeptBy (do let _ ← edit : Edit Unit) := by
  intro cause changed failed
  apply kept cause changed
  change (edit >>= fun _ => pure ()) document = .error cause changed at failed
  rw [bind_run] at failed
  cases run : edit document with
  | ok value after =>
    rw [run] at failed
    cases failed
  | error other after =>
    rw [run] at failed
    cases failed
    rfl

theorem updateElement (id : NodeId) (change : ElementData → ElementData) :
    document.KeptBy (Edit.updateElement id change) := by
  cases found : document.element? id with
  | none => exact of_error (Edit.updateElement_run_missing found change)
  | some data => exact of_ok (Edit.updateElement_run found change)

theorem setAttribute (id : NodeId) (name value : Text) :
    document.KeptBy (Edit.setAttribute id name value) := by
  by_cases valid : isAttributeName name = true
  · rw [Edit.setAttribute, if_pos valid]
    exact updateElement id _
  · exact of_error (Edit.setAttribute_run_invalid valid id value)

theorem removeAttribute (id : NodeId) (name : Text) :
    document.KeptBy (Edit.removeAttribute id name) := by
  cases found : document.element? id with
  | none => exact of_error (Edit.removeAttribute_run_missing found name)
  | some data => exact of_ok (Edit.removeAttribute_run found name)

theorem createElement (tag : Text) : document.KeptBy (Edit.createElement tag) := by
  by_cases valid : isTagName tag = true
  · exact of_ok (Edit.createElement_run valid)
  · exact of_error (Edit.createElement_run_invalid valid)

section Links

variable (forest : document.Forest)

include forest

theorem appendChild (parent child : NodeId) :
    document.KeptBy (Edit.appendChild parent child) := by
  cases problem : Edit.appendProblem document parent child with
  | none => exact of_ok (Edit.appendChild_run forest problem)
  | some cause => exact of_error (Edit.appendChild_run_problem problem)

theorem detach (id : NodeId) : document.KeptBy (Edit.detach id) := by
  cases there : document.node? id with
  | none => exact of_error (Edit.detach_run_missing there)
  | some node => exact of_ok (Edit.detach_run forest (contains_iff.mpr ⟨node, there⟩))

theorem clearChildren (id : NodeId) : document.KeptBy (Edit.clearChildren id) := by
  cases there : document.node? id with
  | none => exact of_error (Edit.clearChildren_run_missing there)
  | some node => exact of_ok (Edit.clearChildren_run forest (contains_iff.mpr ⟨node, there⟩))

theorem remove (id : NodeId) : document.KeptBy (Edit.remove id) := by
  cases there : document.node? id with
  | none => exact of_error (Edit.remove_run_missing there)
  | some node => exact of_ok (Edit.remove_run forest (contains_iff.mpr ⟨node, there⟩))

/-- A text is replaced, and so is the content of an element that may have one. -/
theorem setTextContent {id : NodeId} {content : Text}
    (fillable : ¬ (Mutation.setTextContent id content).FillsVoid document) :
    document.KeptBy (Edit.setTextContent id content) := by
  cases there : document.node? id with
  | none => exact of_error (Edit.setTextContent_run_missing there content)
  | some node =>
    cases kind : node.kind with
    | text old =>
      exact of_ok (Edit.setTextContent_run_text (isText_iff.mpr ⟨node, old, there, kind⟩) content)
    | element data =>
      have found := element?_eq_some_iff.mpr ⟨node, there, kind⟩
      by_cases void : isVoidElement data.tag = true
      · obtain rfl : content = [] := by
          by_contra filled
          exact fillable ⟨filled, data, found, void⟩
        exact of_ok (Edit.setTextContent_run_void forest found void [])
      · exact of_ok (Edit.setTextContent_run forest ⟨data, found, by simpa using void⟩ content)

/-- Every mutation but those that fill an element without content keeps the document when it fails. -/
theorem mutation {mutation : Mutation} (fillable : ¬ mutation.FillsVoid document) :
    document.KeptBy mutation.edit := by
  cases mutation with
  | createElement tag => exact (createElement tag).unit
  | createText content => exact (of_ok (Edit.createText_run content)).unit
  | setAttribute id name value => exact setAttribute id name value
  | removeAttribute id name => exact (removeAttribute id name).unit
  | addClasses id names => exact updateElement id _
  | setStyle id property value => exact updateElement id _
  | setTextContent id content => exact setTextContent forest fillable
  | appendChild parent child => exact appendChild forest parent child
  | detach id => exact detach forest id
  | clearChildren id => exact (clearChildren forest id).unit
  | remove id => exact remove forest id

end Links

end Document.KeptBy

/-! ## Texts that stay behind -/

/-- A text for an element without content is left without a parent. -/
theorem Mutation.FillsVoid.failed {mutation : Mutation} (fills : mutation.FillsVoid document)
    (forest : document.Forest) :
    ∃ cause content, mutation.edit document =
      .error cause (document.push { kind := .text content }) := by
  cases mutation with
  | setTextContent id content =>
    obtain ⟨filled, data, found, void⟩ := fills
    refine ⟨.voidElement data.tag, content, ?_⟩
    rw [Mutation.edit, Edit.setTextContent_run_void forest found void,
      if_neg fun empty => filled (List.isEmpty_iff.mp empty)]
  | _ => exact fills.elim

namespace Document

theorem size_push_text (content : Text) :
    (document.push { kind := .text content }).size = document.size + 1 := by
  simp [size, push]

/-- A mutation that fails leaves every reachable document exactly as it was, unless it writes a text into
an element that has no content: then it always fails, and one more node, the text, stays in the document. -/
theorem Reachable.eq_iff_of_failed (reachable : document.Reachable) {mutation : Mutation}
    (failed : mutation.edit document = .error cause changed) :
    (changed = document ↔ ¬ mutation.FillsVoid document) ∧
      (mutation.FillsVoid document →
        changed.size = document.size + 1 ∧ ∃ content, changed = document.push { kind := .text content }) := by
  have forest := reachable.sound.forest
  by_cases fills : mutation.FillsVoid document
  · obtain ⟨other, content, run⟩ := fills.failed forest
    rw [run] at failed
    cases failed
    have grown : (document.push { kind := .text content }).size = document.size + 1 :=
      size_push_text content
    refine ⟨iff_of_false (fun same => ?_) (not_not_intro fills), fun _ => ⟨grown, content, rfl⟩⟩
    rw [same] at grown
    exact Nat.succ_ne_self _ grown.symm
  · exact ⟨iff_of_true (KeptBy.mutation forest fills cause changed failed) fills,
      fun filled => absurd filled fills⟩

/-- A list that is to be put below its own item is refused, and stays where it was. -/
theorem eq_iff_of_failed_list : ∃ (document changed : Document) (cause : DomError),
    document.Reachable ∧ document.children 0 = [1] ∧
      (Mutation.appendChild 1 0).edit document = .error cause changed ∧ changed = document := by
  let built := [Mutation.createElement "ul".toList, .createElement "li".toList, .appendChild 0 1]
  let document := built.foldl (fun document mutation => mutation.apply document) {}
  have reachable : document.Reachable := Reachable.empty.run built
  have failed : (Mutation.appendChild 1 0).edit document =
      .error (.hierarchyRequest 1 0) document := Edit.appendChild_run_problem (by decide)
  refine ⟨document, document, .hierarchyRequest 1 0, reachable, by decide, failed, ?_⟩
  exact (reachable.eq_iff_of_failed failed).1.mpr not_false

/-- A text for a line break is refused and stays in the document. -/
theorem failed_text_can_stay :
    ¬ ∀ (document changed : Document) (mutation : Mutation) (cause : DomError), document.Reachable →
      mutation.edit document = .error cause changed → changed = document := by
  intro kept
  let document := (Mutation.createElement "br".toList).apply {}
  have reachable : document.Reachable := .mutated _ .empty
  have failed : (Mutation.setTextContent 0 "x".toList).edit document =
      .error (.voidElement "br".toList) (document.push { kind := .text "x".toList }) := rfl
  have sizes := congrArg Document.size (kept document _ _ _ reachable failed)
  rw [size_push_text] at sizes
  exact Nat.succ_ne_self _ sizes

end Document

end PageCompiler.Markup
