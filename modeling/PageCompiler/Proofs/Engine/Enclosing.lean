import PageCompiler.Proofs.Engine.Building
import PageCompiler.Proofs.Invariants

/-!
# Pages in one piece

The page of an engine is in one piece while its html element is on top with exactly the head and the body
below it. No edit takes it apart but one that appends one of these three elements: what is below the head
and the body may be changed, moved and removed in any way.
-/

namespace PageCompiler

open Markup Steps

/-- Whether the elements around the roots are in one piece. The script of the last render may be
anywhere. -/
def Shell.IsWhole (shell : Shell) (document : Document) : Prop :=
  Shell.Stands { shell with script := none } document

/-- The elements around the roots that are to stay in one piece, if there are any, whether the body is to
stay empty, and the language of the page, if that is to stay too. -/
structure Enclosure where
  shell : Option Shell
  empty : Prop := False
  language : Option Text := none

namespace Enclosure

/-- Whether a node is one of the elements around the roots. -/
def IsPart (enclosure : Enclosure) (id : NodeId) : Prop :=
  ∃ shell, enclosure.shell = some shell ∧ (id = shell.html ∨ id = shell.head ∨ id = shell.body)

/-- A document in which the elements around the roots are as they should be. -/
structure Fits (enclosure : Enclosure) (document : Document) : Prop where
  sound : document.Sound
  whole : ∀ shell, enclosure.shell = some shell → shell.IsWhole document
  empty : enclosure.empty → ∀ shell, enclosure.shell = some shell → document.children shell.body = []
  language : ∀ language, enclosure.language = some language → ∀ shell, enclosure.shell = some shell →
    document.element? shell.html =
      some { tag := "html".toList, attributes := [("lang".toList, language)] }

variable {enclosure : Enclosure} {shell : Shell} {document changed : Document} {id part : NodeId}

theorem isPart_html (known : enclosure.shell = some shell) : enclosure.IsPart shell.html :=
  ⟨shell, known, Or.inl rfl⟩

theorem isPart_head (known : enclosure.shell = some shell) : enclosure.IsPart shell.head :=
  ⟨shell, known, Or.inr (Or.inl rfl)⟩

theorem isPart_body (known : enclosure.shell = some shell) : enclosure.IsPart shell.body :=
  ⟨shell, known, Or.inr (Or.inr rfl)⟩

namespace Fits

theorem exists_element (fits : enclosure.Fits document) (isPart : enclosure.IsPart part) :
    ∃ data, document.element? part = some data := by
  obtain ⟨shell, known, rfl | rfl | rfl⟩ := isPart
  · obtain ⟨_, found, _⟩ := (fits.whole shell known).html
    exact ⟨_, found⟩
  · exact ⟨_, (fits.whole shell known).head⟩
  · exact ⟨_, (fits.whole shell known).body⟩

theorem contains_part (fits : enclosure.Fits document) (isPart : enclosure.IsPart part) :
    document.contains part = true := by
  obtain ⟨data, found⟩ := fits.exists_element isPart
  exact Document.contains_of_element? found

theorem not_isPart_size (fits : enclosure.Fits document) : ¬ enclosure.IsPart document.slots.size :=
  fun isPart => Nat.lt_irrefl _ (Document.lt_size_of_contains (fits.contains_part isPart))

theorem not_isPart_of_text (fits : enclosure.Fits document) (text : document.isText id = true) :
    ¬ enclosure.IsPart id := by
  intro isPart
  obtain ⟨data, found⟩ := fits.exists_element isPart
  rw [Document.not_isText_of_element? found] at text
  cases text

/-- What is above an element around the roots is one too. -/
theorem isPart_of_parent? (fits : enclosure.Fits document) (isPart : enclosure.IsPart part)
    {parent : NodeId} (step : document.parent? part = some parent) : enclosure.IsPart parent := by
  obtain ⟨shell, known, place⟩ := isPart
  have whole := fits.whole shell known
  have forest := fits.sound.forest
  rcases place with rfl | rfl | rfl
  · rw [whole.top] at step
    cases step
  · rw [whole.parent_head forest] at step
    exact ⟨shell, known, Or.inl (Option.some.inj step).symm⟩
  · rw [whole.parent_body forest] at step
    exact ⟨shell, known, Or.inl (Option.some.inj step).symm⟩

/-- So none of them is below a node that is not one of them. -/
theorem not_below (fits : enclosure.Fits document) (apart : ¬ enclosure.IsPart id)
    (below : document.Below part id) : ¬ enclosure.IsPart part := by
  induction below with
  | refl => exact apart
  | tail _ step ih => exact ih fun isPart => apart (fits.isPart_of_parent? isPart step)

/-- The children of the head and the body are no elements around the roots. -/
theorem not_isPart_of_child (fits : enclosure.Fits document) (known : enclosure.shell = some shell)
    (inside : id ≠ shell.html) {child : NodeId} (listed : child ∈ document.children id) :
    ¬ enclosure.IsPart child := by
  rintro ⟨other, otherKnown, place⟩
  rw [known, Option.some.injEq] at otherKnown
  subst otherKnown
  have whole := fits.whole shell known
  have forest := fits.sound.forest
  have step := forest.linked.mp listed
  rcases place with rfl | rfl | rfl
  · rw [whole.top] at step
    cases step
  · rw [whole.parent_head forest] at step
    exact inside (Option.some.inj step).symm
  · rw [whole.parent_body forest] at step
    exact inside (Option.some.inj step).symm

/-! ## Changes of documents -/

/-- The elements around the roots decide whether a change fits. -/
theorem step (fits : enclosure.Fits document) (sound : changed.Sound)
    (kinds : ∀ part, enclosure.IsPart part → changed.kind? part = document.kind? part)
    (top : ∀ shell, enclosure.shell = some shell → changed.parent? shell.html = none)
    (parts : ∀ shell, enclosure.shell = some shell →
      changed.children shell.html = document.children shell.html)
    (body : enclosure.empty → ∀ shell, enclosure.shell = some shell →
      document.children shell.body = [] → changed.children shell.body = []) :
    enclosure.Fits changed where
  sound := sound
  whole shell known := by
    have whole := fits.whole shell known
    apply whole.kept
    · exact kinds shell.html (isPart_html known)
    · exact kinds shell.head (isPart_head known)
    · exact kinds shell.body (isPart_body known)
    · exact (top shell known).trans whole.top.symm
    · exact parts shell known
    · exact fun _ none => nomatch none
  empty watched shell known := body watched shell known (fits.empty watched shell known)
  language language written shell known := by
    rw [Document.element?_congr (kinds shell.html (isPart_html known)),
      fits.language language written shell known]

theorem pushed (fits : enclosure.Fits document) {kind : NodeKind}
    (formed : ∀ data, kind = .element data → data.WellFormed) :
    enclosure.Fits (document.push { kind }) := by
  apply fits.step (fits.sound.pushed formed)
  · intro part isPart
    have inside := Document.lt_size_of_contains (fits.contains_part isPart)
    rw [Document.kind?_push, if_neg (Nat.ne_of_lt inside)]
  · intro shell known
    rw [Document.parent?_push, (fits.whole shell known).top]
  · intro shell _
    rw [Document.children_push]
  · intro _ shell _ empty
    rw [Document.children_push, empty]

theorem withData (fits : enclosure.Fits document) (apart : ¬ enclosure.IsPart id) {data : ElementData}
    (found : document.element? id = some data) {change : ElementData → ElementData}
    (sameTag : (change data).tag = data.tag) (formed : (change data).WellFormed) :
    enclosure.Fits (document.withData id change) := by
  apply fits.step (fits.sound.withData found sameTag formed)
  · intro part isPart
    rw [Document.kind?_withData found, if_neg]
    rintro rfl
    exact apart isPart
  · intro shell known
    rw [Document.parent?_withData, (fits.whole shell known).top]
  · intro shell _
    rw [Document.children_withData]
  · intro _ shell _ empty
    rw [Document.children_withData, empty]

/-- The page may be given another language. -/
theorem withLanguage {empty : Prop} {former : Option Text}
    (fits : Fits ⟨some shell, empty, former⟩ document) {data : ElementData}
    (found : document.element? shell.html = some data) (language : Text) :
    Fits ⟨some shell, empty, some language⟩
      (document.withData shell.html (·.setAttribute (Text.lowered "lang".toList) language)) := by
  have whole := fits.whole shell rfl
  have valid : isAttributeName "lang".toList = true := by decide
  have others {other : NodeId} (different : other ≠ shell.html) :
      (document.withData shell.html (·.setAttribute (Text.lowered "lang".toList) language)).element? other =
        document.element? other := by
    apply Document.element?_congr
    rw [Document.kind?_withData found, if_neg different]
  have written : (document.withData shell.html
      (·.setAttribute (Text.lowered "lang".toList) language)).element? shell.html =
        some { tag := "html".toList, attributes := [("lang".toList, language)] } := by
    obtain ⟨attributes, element, plain⟩ := whole.html
    rw [found, Option.some.injEq] at element
    rw [Document.element?_eq_some_iff_kind?, Document.kind?_withData found, if_pos rfl, element,
      Building.language_written language plain]
  constructor
  · exact fits.sound.withData found (ElementData.tag_setAttribute _ _)
      ((fits.sound.data found).setAttribute valid language)
  · rintro _ ⟨⟩
    constructor
    · exact ⟨_, written, Or.inr ⟨language, rfl⟩⟩
    · rw [others (whole.html_ne_head fits.sound.forest).symm, whole.head]
    · rw [others (whole.html_ne_body fits.sound.forest).symm, whole.body]
    · rw [Document.parent?_withData, whole.top]
    · rw [Document.children_withData, whole.parts]
    · exact fun _ none => nomatch none
  · rintro watched _ ⟨⟩
    rw [Document.children_withData, fits.empty watched shell rfl]
  · rintro _ ⟨⟩ _ ⟨⟩
    exact written

/-- The script around the roots may be any node. -/
theorem rescripted {empty : Prop} {language : Option Text}
    (fits : Fits ⟨some shell, empty, language⟩ document) (script : Option NodeId) :
    Fits ⟨some { shell with script }, empty, language⟩ document where
  sound := fits.sound
  whole := by
    rintro _ ⟨⟩
    exact fits.whole shell rfl
  empty := by
    rintro watched _ ⟨⟩
    exact fits.empty watched shell rfl
  language := by
    rintro language written _ ⟨⟩
    exact fits.language language written shell rfl

theorem withText (fits : enclosure.Fits document) (text : document.isText id = true) (content : Text) :
    enclosure.Fits (document.withText id content) := by
  obtain ⟨node, _, found, _⟩ := Document.isText_iff.mp text
  apply fits.step (fits.sound.withText text content)
  · intro part isPart
    rw [Document.kind?_withText (Document.contains_iff.mpr ⟨node, found⟩), if_neg]
    rintro rfl
    exact fits.not_isPart_of_text text isPart
  · intro shell known
    rw [Document.parent?_withText, (fits.whole shell known).top]
  · intro shell _
    rw [Document.children_withText]
  · intro _ shell _ empty
    rw [Document.children_withText, empty]

theorem cleared (fits : enclosure.Fits document)
    (inside : ∀ shell, enclosure.shell = some shell → id ≠ shell.html) :
    enclosure.Fits (document.cleared id) := by
  apply fits.step (fits.sound.cleared id)
  · exact fun part _ => Document.kind?_relinked _ _ _
  · intro shell known
    rw [Document.parent?_cleared, (fits.whole shell known).top, if_neg (by simp)]
  · intro shell known
    rw [Document.children_cleared, if_neg (inside shell known).symm]
  · intro _ shell _ empty
    rw [Document.children_cleared, empty, ite_self]

/-- The body may be emptied. -/
theorem emptied {empty : Prop} {language : Option Text}
    (fits : Fits ⟨some shell, empty, language⟩ document) :
    Fits ⟨some shell, True, language⟩ (document.cleared shell.body) := by
  have cleared : Fits ⟨some shell, empty, language⟩ (document.cleared shell.body) := by
    apply fits.cleared
    rintro _ ⟨⟩
    exact ((fits.whole shell rfl).html_ne_body fits.sound.forest).symm
  refine ⟨cleared.sound, cleared.whole, ?_, cleared.language⟩
  rintro _ _ ⟨⟩
  rw [Document.children_cleared, if_pos rfl]

theorem detached (fits : enclosure.Fits document) (apart : ¬ enclosure.IsPart id) :
    enclosure.Fits (document.detached id) := by
  have forest := fits.sound.forest
  apply fits.step (fits.sound.detached id)
  · exact fun part _ => Document.kind?_relinked _ _ _
  · intro shell known
    rw [Document.parent?_detached, (fits.whole shell known).top, ite_self]
  · intro shell known
    rw [Document.children_detached, Document.filter_children_eq_self forest]
    intro step
    have listed := forest.linked.mpr step
    rw [(fits.whole shell known).parts, List.mem_cons, List.mem_singleton] at listed
    exact apart ⟨shell, known, Or.inr listed⟩
  · intro _ shell _ empty
    rw [Document.children_detached, empty, List.filter_nil]

/-- A node without a parent is removed with everything below it. -/
theorem removed (fits : enclosure.Fits document) (apart : ¬ enclosure.IsPart id)
    (orphan : document.parent? id = none) : enclosure.Fits (document.free (document.family id)) := by
  have forest := fits.sound.forest
  have outside {part : NodeId} (isPart : enclosure.IsPart part) : part ∉ document.family id := by
    rw [forest.mem_family_iff]
    exact fun below => fits.not_below apart below isPart
  apply fits.step (fits.sound.freed (forest.freed_family orphan))
  · intro part isPart
    rw [Document.kind?_free, if_neg (outside isPart)]
  · intro shell known
    rw [Document.parent?_free, if_neg (outside (isPart_html known)), (fits.whole shell known).top]
  · intro shell known
    rw [Document.children_free, if_neg (outside (isPart_html known))]
  · intro _ shell known empty
    rw [Document.children_free, if_neg (outside (isPart_body known)), empty]

theorem moved (fits : enclosure.Fits document) {parent child : NodeId}
    (possible : Edit.appendProblem document parent child = none)
    (inside : ∀ shell, enclosure.shell = some shell →
      parent ≠ shell.html ∧ (enclosure.empty → parent ≠ shell.body))
    (apart : ¬ enclosure.IsPart child) : enclosure.Fits (document.moved parent child) := by
  have forest := fits.sound.forest
  obtain ⟨⟨data, found, _⟩, live, _⟩ := (Edit.appendProblem_eq_none_iff forest).mp possible
  have host := Document.contains_of_element? found
  apply fits.step (fits.sound.moved possible)
  · exact fun part _ => Document.kind?_relinked _ _ _
  · intro shell known
    rw [Document.parent?_moved live, if_neg, (fits.whole shell known).top]
    rintro rfl
    exact apart (isPart_html known)
  · intro shell known
    rw [Document.children_moved host, if_neg (inside shell known).1.symm, List.append_nil,
      Document.filter_children_eq_self forest]
    intro step
    have listed := forest.linked.mpr step
    rw [(fits.whole shell known).parts, List.mem_cons, List.mem_singleton] at listed
    exact apart ⟨shell, known, Or.inr listed⟩
  · intro watched shell known empty
    rw [Document.children_moved host, empty, if_neg ((inside shell known).2 watched).symm]
    rfl

end Fits

/-! ## Edits -/

theorem preserves_createElement (tag : Text) :
    Preserves enclosure.Fits (Edit.createElement tag) fun id => ¬ enclosure.IsPart id := by
  intro document fits
  by_cases valid : isTagName tag = true
  · rw [Edit.createElement_run valid]
    refine ⟨fits.pushed ?_, fits.not_isPart_size⟩
    intro data same
    cases same
    exact ElementData.wellFormed_new valid
  · rw [Edit.createElement_run_invalid valid]
    exact fits

theorem preserves_createText (content : Text) :
    Preserves enclosure.Fits (Edit.createText content) fun id => ¬ enclosure.IsPart id := by
  intro document fits
  rw [Edit.createText_run]
  exact ⟨fits.pushed (by simp), fits.not_isPart_size⟩

theorem preserves_updateElement (apart : ¬ enclosure.IsPart id) {change : ElementData → ElementData}
    (sameTag : ∀ data, (change data).tag = data.tag)
    (formed : ∀ data : ElementData, data.WellFormed → (change data).WellFormed) :
    Preserves enclosure.Fits (Edit.updateElement id change) fun _ => True := by
  intro document fits
  cases found : document.element? id with
  | none =>
    rw [Edit.updateElement_run_missing found]
    exact fits
  | some data =>
    rw [Edit.updateElement_run found]
    exact ⟨fits.withData apart found (sameTag data) (formed data (fits.sound.data found)), trivial⟩

theorem preserves_setAttribute (apart : ¬ enclosure.IsPart id) (name value : Text) :
    Preserves enclosure.Fits (Edit.setAttribute id name value) fun _ => True := by
  rw [Edit.setAttribute]
  refine Preserves.branch (fun valid => ?_) fun _ => Preserves.failure _
  exact preserves_updateElement apart (fun _ => ElementData.tag_setAttribute _ value)
    fun _ formed => formed.setAttribute valid value

theorem preserves_addClasses (apart : ¬ enclosure.IsPart id) (names : Text) :
    Preserves enclosure.Fits (Edit.addClasses id names) fun _ => True :=
  preserves_updateElement apart (fun _ => ElementData.tag_addClasses names)
    fun _ formed => formed.addClasses names

theorem preserves_setStyle (apart : ¬ enclosure.IsPart id) (property value : Text) :
    Preserves enclosure.Fits (Edit.setStyle id property value) fun _ => True :=
  preserves_updateElement apart (fun _ => ElementData.tag_setStyle property value)
    fun _ formed => formed.setStyle property value

theorem preserves_appendChild {parent child : NodeId}
    (inside : ∀ shell, enclosure.shell = some shell →
      parent ≠ shell.html ∧ (enclosure.empty → parent ≠ shell.body))
    (apart : ¬ enclosure.IsPart child) :
    Preserves enclosure.Fits (Edit.appendChild parent child) fun _ => True := by
  intro document fits
  cases problem : Edit.appendProblem document parent child with
  | some cause =>
    rw [Edit.appendChild_run_problem problem]
    exact fits
  | none =>
    rw [Edit.appendChild_run fits.sound.forest problem]
    exact ⟨fits.moved problem inside apart, trivial⟩

theorem preserves_remove (apart : ¬ enclosure.IsPart id) :
    Preserves enclosure.Fits (Edit.remove id) fun _ => True := by
  intro document fits
  cases found : document.node? id with
  | none =>
    rw [Edit.remove_run_missing found]
    exact fits
  | some node =>
    rw [Edit.remove_run fits.sound.forest (Document.contains_iff.mpr ⟨node, found⟩)]
    refine ⟨(fits.detached apart).removed apart ?_, trivial⟩
    rw [Document.parent?_detached, if_pos rfl]

theorem preserves_clearChildren (inside : ∀ shell, enclosure.shell = some shell → id ≠ shell.html) :
    Preserves enclosure.Fits (Edit.clearChildren id) fun children =>
      enclosure.shell.isSome → ∀ child ∈ children, ¬ enclosure.IsPart child := by
  intro document fits
  cases found : document.node? id with
  | none =>
    rw [Edit.clearChildren_run_missing found]
    exact fits
  | some node =>
    rw [Edit.clearChildren_run fits.sound.forest (Document.contains_iff.mpr ⟨node, found⟩)]
    refine ⟨fits.cleared inside, fun shown child listed => ?_⟩
    obtain ⟨shell, known⟩ := Option.isSome_iff_exists.mp shown
    exact fits.not_isPart_of_child known (inside shell known) listed

/-- Texts may be written anywhere but around the roots. -/
theorem preserves_setTextContent (apart : ¬ enclosure.IsPart id) (content : Text) :
    Preserves enclosure.Fits (Edit.setTextContent id content) fun _ => True := by
  have inside : ∀ shell, enclosure.shell = some shell →
      id ≠ shell.html ∧ (enclosure.empty → id ≠ shell.body) := by
    intro shell known
    constructor
    · rintro rfl
      exact apart (isPart_html known)
    · rintro _ rfl
      exact apart (isPart_body known)
  have emptied (children : List NodeId) : Preserves enclosure.Fits
      (children.forM fun child => do
        if (← get).isText child then
          Edit.remove child) fun _ => True := by
    refine Preserves.loop fun child _ => Preserves.state.bind fun document fits => ?_
    exact Preserves.branch (fun text => preserves_remove (fits.not_isPart_of_text text))
      fun _ => Preserves.result trivial
  have filled : Preserves enclosure.Fits
      (Edit.createText content >>= fun text => Edit.appendChild id text) fun _ => True :=
    (preserves_createText content).bind fun _ loose => preserves_appendChild inside loose
  intro document fits
  cases found : document.node? id with
  | none =>
    rw [Edit.setTextContent_run_missing found]
    exact fits
  | some node =>
    obtain ⟨kind, parent, children⟩ := node
    cases kind with
    | text old =>
      have text : document.isText id = true := Document.isText_iff.mpr ⟨_, old, found, rfl⟩
      rw [Edit.setTextContent_run_text text]
      exact ⟨fits.withText text content, trivial⟩
    | element data =>
      rw [Edit.setTextContent, bind_of_ok (Edit.node_run found)]
      dsimp only
      have cleaned := preserves_clearChildren fun shell known => (inside shell known).1
      refine cleaned.andThen (fun children => (emptied children).andThen fun _ => ?_) document fits
      exact Preserves.branch (fun _ => filled) fun _ => Preserves.result trivial

end Enclosure

end PageCompiler
