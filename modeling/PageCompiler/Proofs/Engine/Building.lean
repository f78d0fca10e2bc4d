import PageCompiler.Proofs.Engine.Reset

/-!
# Building the page

From the emptied page on, a render puts new elements into the head and roots into the body, each at
the end. The only thing that can stop it is an attribute name from the settings that is not valid.
-/

namespace PageCompiler

open Markup Steps

/-- An element with one text in it, or nothing if the text is empty. -/
def Markup.Tree.filled (data : ElementData) (content : Text) : Tree :=
  .element data (if content.isEmpty then [] else [.text content])

/-- An element with attributes and nothing in it. -/
def Markup.Tree.leaf (tag : Text) (attributes : List (Text × Text)) : Tree :=
  .element (ElementData.setAttributes { tag } attributes) []

/-! ## New elements at the end of an element -/

namespace Markup.Document

variable {document : Document} {host : NodeId} {made : List Tree} {data : ElementData}

theorem mayHost_grafted {id : NodeId} (possible : document.MayHost id) (host : NodeId) (kind : NodeKind) :
    (document.grafted host kind).MayHost id := by
  have ⟨data, found, _⟩ := possible
  refine mayHost_of_element?_eq (element?_congr ?_) possible
  rw [kind?_grafted, if_neg (Nat.ne_of_lt (lt_size_of_contains (contains_of_element? found)))]

theorem mayHost_new (host : NodeId) (fillable : isVoidElement data.tag = false) :
    (document.grafted host (.element data)).MayHost document.slots.size :=
  ⟨data, element?_grafted host data, fillable⟩

/-- An element that may have content and whose content is made of some trees. -/
structure Contains (document : Document) (host : NodeId) (made : List Tree) : Prop where
  forest : document.Forest
  possible : document.MayHost host
  trees : document.trees (document.children host) = made

namespace Contains

theorem grafted (holds : document.Contains host made) (data : ElementData) :
    (document.grafted host (.element data)).Contains host (made ++ [.element data []]) where
  forest := holds.forest.grafted holds.possible _
  possible := mayHost_grafted holds.possible host _
  trees := by rw [holds.forest.trees_grafted holds.possible, holds.trees]

/-- A text is put into a new element. -/
theorem setTextContent_run (holds : document.Contains host made) (fillable : isVoidElement data.tag = false)
    (content : Text) :
    Edit.setTextContent document.slots.size content (document.grafted host (.element data)) =
      .ok () (if content.isEmpty then document.grafted host (.element data)
        else (document.grafted host (.element data)).grafted document.slots.size (.text content)) := by
  have leaf := holds.grafted data
  rw [Edit.setTextContent_run leaf.forest (mayHost_new host fillable) content, Document.filled,
    Edit.emptied_of_childless leaf.forest (holds.forest.children_new holds.possible _)]

theorem filled (holds : document.Contains host made) (fillable : isVoidElement data.tag = false)
    (content : Text) :
    (if content.isEmpty then document.grafted host (.element data)
      else (document.grafted host (.element data)).grafted document.slots.size (.text content)).Contains host
        (made ++ [Tree.filled data content]) := by
  have leaf := holds.grafted data
  rw [Tree.filled]
  by_cases empty : content.isEmpty
  · rw [if_pos empty, if_pos empty]
    exact leaf
  · rw [if_neg empty, if_neg empty]
    refine ⟨leaf.forest.grafted (mayHost_new host fillable) _, mayHost_grafted leaf.possible _ _, ?_⟩
    rw [holds.forest.trees_grafted_text holds.possible fillable, holds.trees]

end Contains

end Markup.Document

/-- An element without attributes is put at the end of the head, then its attributes are written. -/
theorem RenderStep.addToHead_eq {engine : Engine} {host : NodeId} {made : List Tree} {tag : Text}
    (holds : engine.document.Contains host made) (validTag : isTagName tag = true)
    (small : Text.lowered tag = tag) (attributes : List (Text × Text)) :
    addToHead host tag attributes engine =
      (edit (attributes.forM fun (name, value) => Edit.setAttribute engine.document.slots.size name value) >>=
        fun _ => pure engine.document.slots.size : RenderStep NodeId)
      { engine with document := engine.document.grafted host (.element { tag }) } := by
  have created : Edit.createElement tag engine.document =
      .ok engine.document.slots.size (engine.document.push { kind := .element { tag } }) := by
    rw [Edit.createElement_run validTag, small]
  have appended := Edit.appendChild_run (holds.forest.pushed (.element { tag }))
    (Edit.appendProblem_pushed holds.forest holds.possible _)
  rw [addToHead, bind_of_ok (edit_of_ok created), bind_of_ok (edit_of_ok appended)]
  rfl

/-! ## Stages of a page -/

/-- A stage at which the page has its language, the head holds some trees and the body some roots. -/
structure Building (origin : Engine) (shell : Shell) (language : Text) (made : List Tree)
    (mounted : List NodeId) (document : Document) : Prop where
  stage : Stage origin shell document
  noScript : shell.script = none
  html : document.element? shell.html =
    some { tag := "html".toList, attributes := [("lang".toList, language)] }
  head : document.trees (document.children shell.head) = made
  body : document.children shell.body = mounted

namespace Building

variable {origin : Engine} {shell : Shell} {language : Text} {made : List Tree}
  {mounted : List NodeId} {document : Document}

theorem language_written {attributes : Entries Text} (language : Text)
    (shape : attributes = [] ∨ ∃ other, attributes = [("lang".toList, other)]) :
    ElementData.setAttribute { tag := "html".toList, attributes }
        (Text.lowered "lang".toList) language =
      { tag := "html".toList, attributes := [("lang".toList, language)] } := by
  rcases shape with rfl | ⟨other, rfl⟩ <;> rfl

/-- The language is written, over that of the last render if there is one. -/
theorem language_run (stage : Stage origin shell document) (noScript : shell.script = none)
    (emptyHead : document.children shell.head = []) (emptyBody : document.children shell.body = [])
    (language : Text) :
    ∃ changed, Edit.setAttribute shell.html "lang".toList language document = .ok () changed ∧
      Building origin shell language [] [] changed := by
  obtain ⟨attributes, found, shape⟩ := stage.stands.html
  have valid : isAttributeName "lang".toList = true := by decide
  have forest := stage.sound.forest
  have formed := (stage.sound.data found).setAttribute valid language
  let change (data : ElementData) := data.setAttribute (Text.lowered "lang".toList) language
  have sound : (document.withData shell.html change).Sound :=
    stage.sound.withData found (ElementData.tag_setAttribute _ _) formed
  have html : (document.withData shell.html change).element? shell.html =
      some { tag := "html".toList, attributes := [("lang".toList, language)] } := by
    rw [Document.element?_eq_some_iff_kind?, Document.kind?_withData found, if_pos rfl,
      ← language_written language shape]
  have kinds {id : NodeId} (other : id ≠ shell.html) :
      (document.withData shell.html change).kind? id = document.kind? id := by
    rw [Document.kind?_withData found, if_neg other]
  have stands : shell.Stands (document.withData shell.html change) := by
    refine ⟨⟨_, html, Or.inr ⟨language, rfl⟩⟩, ?_, ?_, ?_, ?_, ?_⟩
    · rw [Document.element?_congr (kinds (stage.stands.html_ne_head forest).symm), stage.stands.head]
    · rw [Document.element?_congr (kinds (stage.stands.html_ne_body forest).symm), stage.stands.body]
    · rw [Document.parent?_withData, stage.stands.top]
    · rw [Document.children_withData, stage.stands.parts]
    · intro script known
      rw [noScript] at known
      cases known
  refine ⟨_, Edit.setAttribute_run found valid language, ?_, noScript, html, ?_, ?_⟩
  · apply stage.step sound stands
    · simp
    · intro id user
      apply kinds
      rintro rfl
      exact stage.htmlApart user
    · exact fun _ => Document.children_withData _ _ _
    · intro id _ parent _
      rw [Document.parent?_withData]
  · rw [Document.children_withData, emptyHead]
    rfl
  · rw [Document.children_withData, emptyBody]

/-! ## The head -/

section Head

variable (building : Building origin shell language made mounted document)

include building

theorem contains : document.Contains shell.head made :=
  ⟨building.stage.sound.forest, building.stage.stands.mayHost_head, building.head⟩

theorem html_grafted {host : NodeId} (kind : NodeKind) :
    (document.grafted host kind).element? shell.html =
      some { tag := "html".toList, attributes := [("lang".toList, language)] } := by
  rw [← building.html]
  apply Document.element?_congr
  rw [Document.kind?_grafted, if_neg building.stage.html_ne_size]

/-- A new element at the end of the head. -/
theorem grafted {data : ElementData} (formed : data.WellFormed) :
    Building origin shell language (made ++ [.element data []]) mounted
      (document.grafted shell.head (.element data)) := by
  have possible := building.stage.stands.mayHost_head
  have forest := building.stage.sound.forest
  refine ⟨?_, building.noScript, building.html_grafted _, ?_, ?_⟩
  · apply building.stage.grafted possible building.stage.headApart
    · exact (building.stage.stands.html_ne_head forest).symm
    · intro other same
      cases same
      exact formed
  · exact (building.contains.grafted data).trees
  · rw [Document.children_grafted forest building.stage.stands.contains_head,
      if_neg building.stage.stands.head_ne_body.symm, List.append_nil, building.body]

/-- A text is put into the new element at the end of the head. -/
theorem filled_run {data : ElementData} (formed : data.WellFormed)
    (fillable : isVoidElement data.tag = false) (content : Text) :
    ∃ changed, Edit.setTextContent document.slots.size content
        (document.grafted shell.head (.element data)) = .ok () changed ∧
      Building origin shell language (made ++ [Tree.filled data content]) mounted changed := by
  have leaf := building.grafted formed
  have found : (document.grafted shell.head (.element data)).element? document.slots.size = some data :=
    Document.element?_grafted shell.head data
  refine ⟨_, building.contains.setTextContent_run fillable content, ?_⟩
  have inHead := (building.contains.filled fillable content).trees
  by_cases empty : content.isEmpty
  · rw [Tree.filled, if_pos empty, if_pos empty]
    exact leaf
  · rw [if_neg empty] at inHead ⊢
    refine ⟨?_, building.noScript, leaf.html_grafted _, inHead, ?_⟩
    · apply leaf.stage.grafted (Document.mayHost_new shell.head fillable)
      · exact fun user => Nat.lt_irrefl _ (building.stage.lt_size_of_user user)
      · exact building.stage.html_ne_size.symm
      · simp
    · rw [Document.children_grafted leaf.stage.sound.forest (Document.contains_of_element? found),
        if_neg building.stage.body_ne_size, List.append_nil, leaf.body]

end Head

/-! ## Steps that add to the head -/

section Steps

/-- The same stage, seen from an engine that is at it. -/
theorem within (building : Building origin shell language made mounted document) (engine : Engine) :
    Building origin shell language made mounted { engine with document }.document :=
  building

variable {engine : Engine} (building : Building origin shell language made mounted engine.document)
  (tag : Text)

include building

theorem addToHead_run (validTag : isTagName tag = true) (small : Text.lowered tag = tag)
    {attributes : List (Text × Text)} (valid : ∀ pair ∈ attributes, isAttributeName pair.1 = true) :
    RenderStep.addToHead shell.head tag attributes engine = .ok engine.document.slots.size
      { engine with
        document := engine.document.grafted shell.head
          (.element (ElementData.setAttributes { tag } attributes)) } := by
  rw [RenderStep.addToHead_eq building.contains validTag small,
    bind_of_ok (RenderStep.edit_of_ok (Edit.setAttributes_run shell.head _ valid))]
  rfl

theorem addToHead_run_plain (validTag : isTagName tag = true) (small : Text.lowered tag = tag) :
    RenderStep.addToHead shell.head tag [] engine = .ok engine.document.slots.size
      { engine with document := engine.document.grafted shell.head (.element { tag }) } :=
  building.addToHead_run tag validTag small (by simp)

/-- One element added to the head. -/
theorem added (validTag : isTagName tag = true) (small : Text.lowered tag = tag)
    {attributes : List (Text × Text)} (valid : ∀ pair ∈ attributes, isAttributeName pair.1 = true) :
    ∃ changed, RenderStep.addToHead shell.head tag attributes engine =
        .ok engine.document.slots.size { engine with document := changed } ∧
      Building origin shell language
        (made ++ [Tree.leaf tag attributes]) mounted changed := by
  have formed := ElementData.wellFormed_named validTag small
  exact ⟨_, building.addToHead_run tag validTag small valid, building.grafted (formed.setAttributes valid)⟩

/-- An invalid attribute name stops the render; a part of the element has been made. -/
theorem added_invalid (validTag : isTagName tag = true) (small : Text.lowered tag = tag)
    {attributes : List (Text × Text)}
    (invalid : ¬ ∀ pair ∈ attributes, isAttributeName pair.1 = true) :
    ∃ cause changed partly, RenderStep.addToHead shell.head tag attributes engine =
        .error (.document cause) { engine with document := changed } ∧
      Building origin shell language partly mounted changed := by
  have formed := ElementData.wellFormed_named validTag small
  obtain ⟨cause, written, valid, run⟩ := Edit.setAttributes_run_invalid shell.head { tag } invalid
  refine ⟨cause, _, _, ?_, building.grafted (formed.setAttributes valid)⟩
  rw [RenderStep.addToHead_eq building.contains validTag small, bind_of_error (RenderStep.edit_of_error run)]

/-- One element for each of several values. -/
theorem added_all {α : Type} (validTag : isTagName tag = true) (small : Text.lowered tag = tag)
    {attributesOf : α → List (Text × Text)} (values : List α)
    (valid : ∀ value ∈ values, ∀ pair ∈ attributesOf value, isAttributeName pair.1 = true) :
    ∃ changed, (values.forM fun value => do
        let _ ← RenderStep.addToHead shell.head tag (attributesOf value)) engine =
          .ok () { engine with document := changed } ∧
      Building origin shell language (made ++ values.map fun value => Tree.leaf tag (attributesOf value))
        mounted changed := by
  induction values generalizing engine made with
  | nil =>
    refine ⟨engine.document, rfl, ?_⟩
    rw [List.map_nil, List.append_nil]
    exact building
  | cons first rest ih =>
    rw [List.forall_mem_cons] at valid
    obtain ⟨changed, run, after⟩ := building.added tag validTag small valid.1
    obtain ⟨last, restRun, afterRest⟩ := ih (after.within engine) valid.2
    rw [List.append_assoc] at afterRest
    refine ⟨last, ?_, afterRest⟩
    have step : (do
        let _ ← RenderStep.addToHead shell.head tag (attributesOf first) : RenderStep Unit) engine =
          .ok () { engine with document := changed } := by
      rw [bind_of_ok run]
      rfl
    rw [forM_cons_of_ok first rest step]
    exact restRun

/-- If a name is invalid for one of several values, the render stops there. -/
theorem added_all_invalid {α : Type} (validTag : isTagName tag = true)
    (small : Text.lowered tag = tag) {attributesOf : α → List (Text × Text)} (values : List α)
    (invalid : ¬ ∀ value ∈ values, ∀ pair ∈ attributesOf value, isAttributeName pair.1 = true) :
    ∃ cause changed partly, (values.forM fun value => do
        let _ ← RenderStep.addToHead shell.head tag (attributesOf value)) engine =
          .error (.document cause) { engine with document := changed } ∧
      Building origin shell language partly mounted changed := by
  induction values generalizing engine made with
  | nil => exact absurd (by simp) invalid
  | cons first rest ih =>
    by_cases valid : ∀ pair ∈ attributesOf first, isAttributeName pair.1 = true
    · have invalidRest : ¬ ∀ value ∈ rest, ∀ pair ∈ attributesOf value,
          isAttributeName pair.1 = true := fun validRest =>
        invalid (List.forall_mem_cons.mpr ⟨valid, validRest⟩)
      obtain ⟨changed, run, after⟩ := building.added tag validTag small valid
      obtain ⟨cause, last, partly, restRun, afterRest⟩ := ih (after.within engine) invalidRest
      refine ⟨cause, last, partly, ?_, afterRest⟩
      have step : (do
          let _ ← RenderStep.addToHead shell.head tag (attributesOf first) : RenderStep Unit) engine =
            .ok () { engine with document := changed } := by
        rw [bind_of_ok run]
        rfl
      rw [forM_cons_of_ok first rest step]
      exact restRun
    · obtain ⟨cause, changed, partly, run, after⟩ := building.added_invalid tag validTag small valid
      refine ⟨cause, changed, partly, ?_, after⟩
      exact forM_cons_of_error first rest (bind_of_error run _)

end Steps

/-! ## The whole head -/

end Building

/-- The trees in the head of a page, in order. -/
def headTrees (config : EngineConfig) (sheet : Stylesheet) (head : HeadConfig) : List Tree :=
  [Tree.leaf "meta".toList [("charset".toList, "utf-8".toList)]] ++
    [Tree.filled { tag := "title".toList } (head.title.getD config.defaultTitle)] ++
    (if head.hasViewport then [] else [Tree.leaf "meta".toList RenderStep.defaultViewport]) ++
    (head.metaTags.map fun attributes => Tree.leaf "meta".toList attributes) ++
    (head.scripts.map fun source => Tree.leaf "script".toList [("src".toList, source)]) ++
    (head.stylesheets.map fun reference =>
      Tree.leaf "link".toList (RenderStep.linkAttributes "stylesheet".toList reference)) ++
    (head.icon.map fun reference =>
      Tree.leaf "link".toList (RenderStep.linkAttributes "icon".toList reference)).toList ++
    [Tree.filled { tag := "style".toList } sheet.text]

/-- Every attribute name in the meta tags is valid. -/
def HeadConfig.NamesValid (head : HeadConfig) : Prop :=
  ∀ attributes ∈ head.metaTags, ∀ pair ∈ attributes, isAttributeName pair.1 = true

namespace Building

variable {origin : Engine} {shell : Shell} {language : Text} {made : List Tree}
  {mounted : List NodeId} {engine : Engine}

theorem charset_valid : ∀ pair ∈ [("charset".toList, "utf-8".toList)],
    isAttributeName pair.1 = true := by
  decide

theorem viewport_valid : ∀ pair ∈ RenderStep.defaultViewport, isAttributeName pair.1 = true := by
  decide

theorem linkAttributes_valid (relation reference : Text) :
    ∀ pair ∈ RenderStep.linkAttributes relation reference, isAttributeName pair.1 = true := by
  have relationValid : isAttributeName "rel".toList = true := by decide
  have referenceValid : isAttributeName "href".toList = true := by decide
  rw [RenderStep.linkAttributes, List.forall_mem_cons, List.forall_mem_singleton]
  exact ⟨relationValid, referenceValid⟩

theorem source_valid (source : Text) :
    ∀ pair ∈ [("src".toList, source)], isAttributeName pair.1 = true := by
  have valid : isAttributeName "src".toList = true := by decide
  rw [List.forall_mem_singleton]
  exact valid

/-- The head up to the meta tags from the settings. -/
theorem beginning_run (building : Building origin shell language [] [] engine.document)
    (head : HeadConfig) {rest : RenderStep Unit} :
    ∃ changed, (do
        let _ ← RenderStep.addToHead shell.head "meta".toList [("charset".toList, "utf-8".toList)]
        let title ← RenderStep.addToHead shell.head "title".toList []
        RenderStep.edit
          (Edit.setTextContent title (head.title.getD (← get).config.defaultTitle))
        if !head.hasViewport then
          let _ ← RenderStep.addToHead shell.head "meta".toList RenderStep.defaultViewport
        rest) engine = rest { engine with document := changed } ∧
      Building origin shell language
        ([Tree.leaf "meta".toList [("charset".toList, "utf-8".toList)]] ++
          [Tree.filled { tag := "title".toList } (head.title.getD engine.config.defaultTitle)] ++
          if head.hasViewport then [] else [Tree.leaf "meta".toList RenderStep.defaultViewport])
        [] changed := by
  obtain ⟨one, runOne, afterOne⟩ := building.added "meta".toList (by decide) (by decide) charset_valid
  have title := (afterOne.within engine).addToHead_run_plain "title".toList (by decide) (by decide)
  have titleFormed : ElementData.WellFormed { tag := "title".toList } :=
    ElementData.wellFormed_named (by decide) (by decide)
  obtain ⟨two, runTwo, afterTwo⟩ := afterOne.filled_run titleFormed (by decide)
    (head.title.getD engine.config.defaultTitle)
  rw [bind_of_ok runOne, bind_of_ok title, bind_of_ok (get_run _),
    bind_of_ok (RenderStep.edit_of_ok runTwo)]
  by_cases viewport : head.hasViewport = true
  · refine ⟨two, ?_, ?_⟩
    · simp [viewport]
    · rw [if_pos viewport, List.append_nil]
      exact afterTwo
  · obtain ⟨three, runThree, afterThree⟩ := (afterTwo.within engine).added "meta".toList
      (by decide) (by decide) viewport_valid
    refine ⟨three, ?_, ?_⟩
    · rw [if_pos (by simpa using viewport)]
      exact bind_of_ok runThree _
    · rw [if_neg viewport]
      exact afterThree

/-- The head from the icon on; the stylesheet is taken out of the buffers. -/
theorem ending_run (building : Building origin shell language made [] engine.document)
    (icon : Option Text) :
    ∃ changed, (do
        match icon with
        | some reference =>
          let _ ← RenderStep.addToHead shell.head "link".toList
            (RenderStep.linkAttributes "icon".toList reference)
        | none => pure ()
        let style ← RenderStep.addToHead shell.head "style".toList []
        let css := (← get).buffers.styles.text
        modify fun engine => { engine with buffers.styles := [] }
        if !css.isEmpty then
          RenderStep.edit (Edit.setTextContent style css) : RenderStep Unit) engine =
          .ok () { engine with document := changed, buffers.styles := [] } ∧
      Building origin shell language
        (made ++ (icon.map fun reference => Tree.leaf "link".toList
            (RenderStep.linkAttributes "icon".toList reference)).toList ++
          [Tree.filled { tag := "style".toList } engine.buffers.styles.text]) [] changed := by
  have styleFormed : ElementData.WellFormed { tag := "style".toList } :=
    ElementData.wellFormed_named (by decide) (by decide)
  have styled {made : List Tree} {document : Document}
      (building : Building origin shell language made [] document) :
      ∃ changed, (do
          let style ← RenderStep.addToHead shell.head "style".toList []
          let css := (← get).buffers.styles.text
          modify fun engine => { engine with buffers.styles := [] }
          if !css.isEmpty then
            RenderStep.edit (Edit.setTextContent style css) : RenderStep Unit)
          { engine with document } = .ok () { engine with document := changed, buffers.styles := [] } ∧
        Building origin shell language
          (made ++ [Tree.filled { tag := "style".toList } engine.buffers.styles.text]) [] changed := by
    have style := (building.within engine).addToHead_run_plain "style".toList (by decide) (by decide)
    rw [bind_of_ok style, bind_of_ok (get_run _), bind_of_ok (modify_run _ _)]
    by_cases empty : engine.buffers.styles.text.isEmpty = true
    · refine ⟨_, by rw [empty]; rfl, ?_⟩
      rw [Tree.filled, if_pos empty]
      exact building.grafted styleFormed
    · obtain ⟨changed, run, after⟩ := building.filled_run styleFormed (by decide)
        engine.buffers.styles.text
      refine ⟨changed, ?_, after⟩
      rw [if_pos (by simpa using empty)]
      exact RenderStep.edit_of_ok run
  cases icon with
  | none =>
    rw [Option.map_none, Option.toList_none, List.append_nil]
    exact styled building
  | some reference =>
    have valid : ∀ pair ∈ RenderStep.linkAttributes "icon".toList reference,
        isAttributeName pair.1 = true := linkAttributes_valid _ _
    obtain ⟨one, runOne, afterOne⟩ := building.added "link".toList (by decide) (by decide) valid
    obtain ⟨two, runTwo, afterTwo⟩ := styled afterOne
    refine ⟨two, ?_, afterTwo⟩
    dsimp only
    rw [bind_of_ok runOne]
    exact runTwo

/-- The head is built when every attribute name in the meta tags is valid. -/
theorem buildHead_run (building : Building origin shell language [] [] engine.document)
    (head : HeadConfig) (valid : head.NamesValid) :
    ∃ changed, RenderStep.buildHead shell.head head engine =
        .ok () { engine with document := changed, buffers.styles := [] } ∧
      Building origin shell language (headTrees engine.config engine.buffers.styles head) [] changed := by
  obtain ⟨one, runOne, afterOne⟩ := building.beginning_run head
  obtain ⟨two, runTwo, afterTwo⟩ := (afterOne.within engine).added_all "meta".toList (by decide)
    (by decide) head.metaTags valid
  obtain ⟨three, runThree, afterThree⟩ := (afterTwo.within engine).added_all "script".toList
    (by decide) (by decide) head.scripts fun source _ => source_valid source
  obtain ⟨four, runFour, afterFour⟩ := (afterThree.within engine).added_all "link".toList
    (by decide) (by decide) head.stylesheets fun reference _ =>
      linkAttributes_valid "stylesheet".toList reference
  obtain ⟨five, runFive, afterFive⟩ := (afterFour.within engine).ending_run head.icon
  refine ⟨five, ?_, afterFive⟩
  rw [RenderStep.buildHead, runOne, bind_of_ok runTwo, bind_of_ok runThree, bind_of_ok runFour]
  exact runFive

/-- Otherwise the building stops at a meta tag. -/
theorem buildHead_run_invalid (building : Building origin shell language [] [] engine.document)
    (head : HeadConfig) (invalid : ¬ head.NamesValid) :
    ∃ cause changed partly, RenderStep.buildHead shell.head head engine =
        .error (.document cause) { engine with document := changed } ∧
      Building origin shell language partly [] changed := by
  obtain ⟨one, runOne, afterOne⟩ := building.beginning_run head
  obtain ⟨cause, two, partly, runTwo, afterTwo⟩ :=
    (afterOne.within engine).added_all_invalid "meta".toList (by decide) (by decide) head.metaTags
      invalid
  refine ⟨cause, two, partly, ?_, afterTwo⟩
  rw [RenderStep.buildHead, runOne]
  exact bind_of_error runTwo _

end Building

end PageCompiler
