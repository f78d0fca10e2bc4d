import PageCompiler.Proofs.Blueprint.Drafts
import PageCompiler.Proofs.Engine.Reached
import PageCompiler.Proofs.Engine.Wiring
import PageCompiler.Proofs.Markup.Growth
import PageCompiler.Proofs.Markup.Tables

/-!
# Elements of blueprints

An element of a blueprint is built in three parts: it is begun, it is filled with its content, and it is
finished. Whenever a part succeeds, the engine stands where the draft of that part does, and nothing of the
document has changed but the element itself.
-/

namespace PageCompiler

open Markup Steps

/-! ## New elements -/

namespace Markup

variable {document changed : Document} {data : ElementData}

/-- Changing the data of a new element is the same as making it with other data. -/
theorem Document.withData_push (data : ElementData) (change : ElementData → ElementData) :
    (document.push { kind := .element data }).withData document.slots.size change =
      document.push { kind := .element (change data) } := by
  apply ext_node?
  · simp
  · intro other
    rw [withData, node?_onlyAt, node?_push, node?_push]
    by_cases same : other = document.slots.size
    · simp [same]
    · simp [same]

theorem Edit.updateElement_pushed (data : ElementData) (change : ElementData → ElementData) :
    Edit.updateElement document.slots.size change (document.push { kind := .element data }) =
      .ok () (document.push { kind := .element (change data) }) := by
  have found : (document.push { kind := .element data }).element? document.slots.size = some data := by
    rw [Document.element?_eq_some_iff_kind?, Document.kind?_push, if_pos rfl]
  rw [Edit.updateElement_run found, Document.withData_push]

theorem Edit.setAttribute_pushed {name value : Text}
    (run : Edit.setAttribute document.slots.size name value (document.push { kind := .element data }) =
      .ok () changed) :
    changed = document.push { kind := .element (data.setAttribute (Text.lowered name) value) } := by
  rw [Edit.setAttribute] at run
  split at run
  · rw [Edit.updateElement_pushed] at run
    cases run
    rfl
  · cases run

/-- A text that is set on a new element is its content, unless it is empty. Elements that can have no content
take no other. -/
theorem Document.Forest.grows_text (forest : document.Forest) {content : Text}
    (run : Edit.setTextContent document.slots.size content (document.push { kind := .element data }) =
      .ok () changed) :
    ∃ added, document.Grows document.slots.size data added changed ∧
      (isVoidElement data.tag = false →
        Tree.markupAll data.tag (changed.trees added) = Tree.contentText (some data.tag) content) := by
  have begun := forest.grows_pushed data
  have pushed := begun.forest
  cases fillable : isVoidElement data.tag with
  | true =>
    rw [Edit.setTextContent_run_void pushed begun.found fillable] at run
    split at run
    · cases run
      exact ⟨[], begun, nofun⟩
    · cases run
  | false =>
    have childless : (document.push { kind := .element data }).children document.slots.size = [] :=
      Document.children_pushed _
    rw [Edit.setTextContent_run pushed ⟨data, begun.found, fillable⟩, Document.filled,
      Edit.emptied_of_childless pushed childless] at run
    cases content with
    | nil =>
      cases run
      refine ⟨[], begun, fun _ => ?_⟩
      rw [Tree.contentText_nil]
      rfl
    | cons first rest =>
      rw [if_neg (by simp)] at run
      cases run
      have grafted := pushed.grows_grafted begun.found begun.orphanStill fillable (first :: rest)
      refine ⟨_, begun.trans grafted, fun _ => ?_⟩
      rw [List.nil_append, Document.trees_new_text, Tree.markupAll_singleton, Tree.markupIn]

end Markup

namespace Blueprint

theorem ofMembers_eq_declared {members : List (Text × Json.Value)} {styles : Declarations}
    (read : Declarations.ofMembers members = .ok styles) : styles = declared members := by
  induction members generalizing styles with
  | nil =>
    cases read
    rfl
  | cons first rest ih =>
    obtain ⟨property, value⟩ := first
    cases value with
    | string value =>
      obtain ⟨others, readRest, same⟩ := bind_eq_ok.mp read
      cases same
      rw [ih readRest]
      rfl
    | number value =>
      obtain ⟨others, readRest, same⟩ := bind_eq_ok.mp read
      cases same
      rw [ih readRest]
      rfl
    | _ => cases read

theorem declarations_ok {members : List (Text × Json.Value)} {engine after : Engine}
    {styles : Declarations} (run : declarations members engine = .ok styles after) :
    styles = declared members ∧ after = engine := by
  rw [declarations, Declarations.ofJson] at run
  cases read : Declarations.ofMembers members with
  | ok others =>
    rw [read] at run
    cases run
    exact ⟨ofMembers_eq_declared read, rfl⟩
  | error cause =>
    rw [read] at run
    cases run

namespace Properties

/-- The step of a blueprint that draws a class. -/
def giveScopedClass (properties : Properties) (element : Element) : Action Unit := do
  if !properties.scopedStyle.isEmpty then
    Action.generateScopedClass element (← declarations properties.scopedStyle)

theorem begin_eq (properties : Properties) :
    properties.begin = (do
      let element ← Action.createElement properties.tag
      properties.id.forM fun id => Action.setId element id
      properties.attributes.forM fun (name, value) => Action.setAttribute element name value
      Action.addClasses element properties.classes
      Action.setInlineStyle element (← declarations properties.inlineStyle)
      properties.giveScopedClass element
      properties.text.forM fun content => Action.setText element content
      return element) := by
  unfold begin
  congr 1
  funext element
  congr 1
  funext _
  congr 1
  funext _
  have unclassed (rest : Action Element) : (if !properties.classes.isEmpty then
      Action.addClasses element properties.classes >>= fun _ => rest else rest) =
        Action.addClasses element properties.classes >>= fun _ => rest := by
    cases properties.classes with
    | nil => rfl
    | cons first rest => rfl
  have unstyled (rest : Action Element) : (if !properties.inlineStyle.isEmpty then
      declarations properties.inlineStyle >>= fun styles =>
        Action.setInlineStyle element styles >>= fun _ => rest else rest) =
      declarations properties.inlineStyle >>= fun styles =>
        Action.setInlineStyle element styles >>= fun _ => rest := by
    cases properties.inlineStyle with
    | nil => rfl
    | cons first rest => rfl
  refine (unclassed _).trans ?_
  congr 1
  funext _
  refine (unstyled _).trans ?_
  congr 1
  funext _
  congr 1
  funext _
  rw [giveScopedClass]
  split
  · exact (bind_assoc _ _ _).symm
  · rfl

/-- The properties that are given one after another come to the data of the draft. -/
theorem data_eq (properties : Properties) (generated : Option Text) :
    generated.toList.foldl ElementData.addClasses
      ((declared properties.inlineStyle).foldl (fun data (property, value) =>
          data.setStyle (Style.kebabCase (Text.trim property)) (Text.trim value))
        (properties.classes.foldl ElementData.addClasses
          (ElementData.setAttributes { tag := Text.lowered properties.tag }
            (properties.id.toList.map (fun id => ("id".toList, id)) ++ properties.attributes)))) =
      properties.data generated := by
  have blank : ({ tag := Text.lowered properties.tag } : ElementData) =
      ElementData.ofTable (Text.lowered properties.tag) [] := rfl
  have small : Text.lowered "id".toList = "id".toList := by decide
  have table : ((properties.id.toList.map (fun id => ("id".toList, id)) ++ properties.attributes).map
      fun (name, value) => (Text.lowered name, value)).foldl
        (fun entries (key, value) => Entries.put key value entries) [] = properties.attributeTable := by
    rw [attributeTable, Entries.ofPairs, List.map_append, List.map_map]
    simp only [Function.comp_def, small]
  have styles (data : ElementData) := @ElementData.setStyles_eq data
    ((declared properties.inlineStyle).map fun (property, value) =>
      (Style.kebabCase (Text.trim property), Text.trim value))
  simp only [List.foldl_map] at styles
  let attributed := ElementData.ofTable (Text.lowered properties.tag) properties.attributeTable
  have classed := @ElementData.addAllClasses_collected attributed _ rfl properties.classes
  rw [blank, ElementData.setAttributes_ofTable, table, classed, styles,
    ElementData.addAllClasses_collected rfl]
  simp [data, classNames, inlineTable, attributed, ElementData.ofTable, Entries.ofPairs, List.foldl_append,
    List.foldl_map, List.flatMap_append]

theorem finish_eq (properties : Properties) (element : Element) :
    properties.finish element = properties.hooks.forM fun hook => hook.action element := by
  have optional {α : Type} (value : Option α) (step : α → Action PUnit) :
      value.forM step = forM value.toList step := by
    cases value <;> simp [Option.forM]
  simp only [finish, hooks, List.forM_eq_forM, List.forM_append, List.forM_map, optional, Change.action,
    bind_assoc]

theorem needsIdentifier_of_mem_hooks (properties : Properties) :
    ∀ hook ∈ properties.hooks, hook.NeedsIdentifier := by
  simp only [hooks, List.forall_mem_append, List.forall_mem_map]
  exact ⟨⟨fun _ _ => trivial, fun _ _ => trivial⟩, fun _ _ => trivial⟩

end Properties

end Blueprint

namespace Engine

open Blueprint
open Blueprint.Properties (begin_eq enter_of_scoped enter_of_unscoped finish_eq identify leave_of_hooked
  leave_of_unhooked)

/-- Whether an engine stands where a draft does that was begun at another one: it drew the same identifiers
and registered the same. -/
structure Follows (origin : Engine) (draft : Draft) (document : Document) (engine : Engine) : Prop where
  uid : engine.uid = origin.uid
  config : engine.config = origin.config
  ids : engine.ids = draft.ids
  buffers : engine.buffers = draft.registered.foldl Buffers.add origin.buffers
  document : engine.document = document

namespace Follows

variable {origin engine after : Engine} {draft : Draft} {document : Document} {data : ElementData}
  {element : Element}

theorem withDocument (follows : origin.Follows draft document engine) (changed : Document) :
    origin.Follows draft changed { engine with document := changed } :=
  ⟨follows.uid, follows.config, follows.ids, follows.buffers, rfl⟩

theorem edit {α : Type} {change : Edit α} {value : α} (follows : origin.Follows draft document engine)
    (run : Action.edit change engine = .ok value after) :
    ∃ changed, change document = .ok value changed ∧ origin.Follows draft changed after := by
  rw [Action.edit, Engine.edit, follows.document] at run
  cases ran : change document with
  | ok other changed =>
    rw [ran] at run
    cases run
    exact ⟨changed, rfl, follows.withDocument changed⟩
  | error cause changed =>
    rw [ran] at run
    cases run

theorem report (follows : origin.Follows draft document engine) (event : Event) :
    origin.Follows draft document (engine.report event) :=
  ⟨follows.uid, follows.config, follows.ids, follows.buffers, follows.document⟩

theorem collect (follows : origin.Follows draft document engine) (what : Registration) :
    origin.Follows { draft with registered := draft.registered ++ [what] } document
      (engine.collect what) where
  uid := follows.uid
  config := follows.config
  ids := follows.ids
  buffers := by rw [List.foldl_append, ← follows.buffers]; rfl
  document := follows.document

/-! ## The properties of a new element -/

section New

variable (follows : origin.Follows draft (document.push { kind := .element data }) engine)
  (new : element.node = document.slots.size)

include follows new

theorem setId {id : Text} (run : Action.setId element id engine = .ok ⟨⟩ after) :
    origin.Follows draft
      (document.push { kind := .element (data.setAttribute (Text.lowered "id".toList) id) }) after := by
  rw [Action.setId, bind_of_ok (get_run engine)] at run
  dsimp only at run
  split at run
  · cases run
  · rw [new] at run
    obtain ⟨changed, ran, still⟩ := follows.edit run
    rwa [Edit.setAttribute_pushed ran] at still

theorem setAttribute {name value : Text}
    (run : Action.setAttribute element name value engine = .ok ⟨⟩ after) :
    origin.Follows draft
      (document.push { kind := .element (data.setAttribute (Text.lowered name) value) }) after := by
  rw [Action.setAttribute] at run
  split at run
  · next isId =>
    rw [isId]
    exact follows.setId new run
  · rw [new] at run
    obtain ⟨changed, ran, still⟩ := follows.edit run
    rwa [Edit.setAttribute_pushed ran] at still

theorem addClasses {classes : List Text} (run : Action.addClasses element classes engine = .ok ⟨⟩ after) :
    origin.Follows draft (document.push { kind := .element (classes.foldl ElementData.addClasses data) })
      after := by
  rw [Action.addClasses, new] at run
  obtain ⟨changed, ran, still⟩ := follows.edit run
  let holds (data : ElementData) (changed : Document) : Prop :=
    changed = document.push { kind := .element data }
  have ends : holds (classes.foldl ElementData.addClasses data) changed := by
    refine forM_ok_induction ?_ classes (rfl : holds data _) ran
    intro names data state last start step
    rw [start, Edit.addClasses, Edit.updateElement_pushed] at step
    cases step
    rfl
  rwa [ends] at still

theorem setInlineStyle {styles : Declarations}
    (run : Action.setInlineStyle element styles engine = .ok ⟨⟩ after) :
    origin.Follows draft (document.push { kind := .element (styles.foldl (fun data (property, value) =>
      data.setStyle (Style.kebabCase (Text.trim property)) (Text.trim value)) data) }) after := by
  rw [Action.setInlineStyle, new] at run
  obtain ⟨changed, ran, still⟩ := follows.edit run
  let holds (data : ElementData) (changed : Document) : Prop :=
    changed = document.push { kind := .element data }
  have ends : holds (styles.foldl (fun data (property, value) =>
      data.setStyle (Style.kebabCase (Text.trim property)) (Text.trim value)) data) changed := by
    refine forM_ok_induction ?_ styles (rfl : holds data _) ran
    rintro ⟨property, value⟩ data state last start step
    dsimp only at step
    rw [start, Edit.setStyle, Edit.updateElement_pushed] at step
    cases step
    rfl
  rwa [ends] at still

theorem giveScopedClass (properties : Properties)
    (run : properties.giveScopedClass element engine = .ok ⟨⟩ after) :
    origin.Follows (properties.enter draft).2
      (document.push { kind := .element <|
        (properties.enter draft).1.toList.foldl ElementData.addClasses data }) after := by
  rw [Properties.giveScopedClass] at run
  cases scope : properties.scopedStyle.isEmpty with
  | true =>
    rw [scope] at run
    rw [enter_of_unscoped scope]
    cases run
    exact follows
  | false =>
    rw [scope] at run
    rw [enter_of_scoped scope]
    obtain ⟨styles, same, given, generates⟩ := bind_run_eq_ok.mp run
    obtain ⟨rfl, rfl⟩ := declarations_ok given
    rw [Action.generateScopedClass, bind_of_ok (get_run _)] at generates
    dsimp only at generates
    rw [bind_of_ok (modify_run _ _), bind_of_ok (get_run _), follows.ids] at generates
    dsimp only at generates
    have drawn : origin.Follows { draft with ids := draft.ids.className.2 }
        (document.push { kind := .element data }) { same with ids := draft.ids.className.2 } :=
      ⟨follows.uid, follows.config, rfl, follows.buffers, follows.document⟩
    cases accepted : Style.ruleOf draft.ids.className.1 (declared properties.scopedStyle) false with
    | ok rule =>
      rw [Stylesheet.define_of_ok accepted] at generates
      dsimp only at generates
      rw [bind_of_ok (modify_run _ _), new] at generates
      have registered := drawn.collect (.style rule)
      obtain ⟨changed, ran, still⟩ := registered.edit generates
      rw [Edit.addClasses, Edit.updateElement_pushed] at ran
      cases ran
      exact still
    | error cause =>
      rw [Stylesheet.define_of_error accepted] at generates
      cases generates
      exact drawn.report _

end New

theorem collectAll (follows : origin.Follows draft document engine) (what : List Registration) :
    origin.Follows { draft with registered := draft.registered ++ what } document
      (what.foldl Engine.collect engine) := by
  induction what generalizing engine draft with
  | nil => simpa using follows
  | cons first rest ih => simpa using ih (follows.collect first)

end Follows

/-- Whether an engine stands where a draft does, and has given an element this data and, unless it can have
no content, children with this markup. -/
structure Fills (origin : Engine) (document : Document) (host : NodeId) (data : ElementData)
    (inside : Text) (draft : Draft) (engine : Engine) : Prop where
  follows : origin.Follows draft engine.document engine
  grown : ∃ added, document.Grows host data added engine.document ∧
    (isVoidElement data.tag = false →
      Tree.markupAll data.tag (engine.document.trees added) = inside)

theorem Follows.fills {origin engine : Engine} {draft : Draft} {document changed : Document} {host : NodeId}
    {data : ElementData} {inside : Text} {added : List NodeId} (follows : origin.Follows draft changed engine)
    (grows : document.Grows host data added changed)
    (written : isVoidElement data.tag = false → Tree.markupAll data.tag (changed.trees added) = inside) :
    origin.Fills document host data inside draft engine := by
  obtain ⟨uid, config, ids, buffers, rfl⟩ := follows
  exact ⟨⟨uid, config, ids, buffers, rfl⟩, added, grows, written⟩

namespace Fills

variable {origin engine after : Engine} {document : Document} {host : NodeId} {data changed : ElementData}
  {inside more : Text} {draft drafted : Draft}

theorem trans (first : origin.Fills document host data inside draft engine)
    (second : origin.Fills engine.document host changed more drafted after)
    (sameTag : changed.tag = data.tag) :
    origin.Fills document host changed (inside ++ more) drafted after := by
  obtain ⟨added, grows, written⟩ := first.grown
  obtain ⟨others, further, writtenOthers⟩ := second.grown
  refine ⟨second.follows, added ++ others, grows.trans further, fun fillable => ?_⟩
  rw [grows.trees_append further, Tree.markupAll_append, writtenOthers fillable, sameTag]
  rw [sameTag] at fillable
  rw [written fillable]

/-- What a new element is written out as. -/
theorem markup (fills : origin.Fills document host data inside draft engine)
    (new : document.slots.size ≤ host) :
    (∃ trees, engine.document.tree? host = some (.element data trees)) ∧
      engine.document.markup host =
        if isVoidElement data.tag then Tree.startTag data
        else Tree.startTag data ++ inside ++ Tree.endTag data.tag := by
  obtain ⟨added, grows, written⟩ := fills.grown
  have tree := grows.forest.tree?_element grows.found
  refine ⟨⟨_, tree⟩, ?_⟩
  rw [Document.markup_of_tree? tree]
  cases fillable : isVoidElement data.tag with
  | true => rw [Tree.markup, Tree.markupIn, fillable, if_pos rfl, if_pos rfl]
  | false =>
    have childless := Document.children_of_node?_none (Document.node?_of_size_le new)
    rw [Tree.markup_element fillable, grows.list, childless, List.nil_append, written fillable,
      if_neg Bool.false_ne_true]

end Fills

/-! ## Beginning an element -/

section Begin

variable {origin engine after : Engine} {draft : Draft} {document : Document} {data : ElementData}
  {element : Element}

theorem Follows.setAttributes (properties : Properties) {middle : Engine}
    (follows : origin.Follows draft (document.push { kind := .element data }) engine)
    (new : element.node = document.slots.size)
    (named : properties.id.forM (fun id => Action.setId element id) engine = .ok ⟨⟩ middle)
    (run : (properties.attributes.forM fun (name, value) =>
      Action.setAttribute element name value : Action PUnit) middle = .ok ⟨⟩ after) :
    origin.Follows draft
      (document.push { kind := .element <|
        data.setAttributes (properties.id.toList.map (fun id => ("id".toList, id)) ++ properties.attributes) })
      after := by
  let holds (data : ElementData) (engine : Engine) : Prop :=
    origin.Follows draft (document.push { kind := .element data }) engine
  have started : holds (data.setAttributes (properties.id.toList.map fun id => ("id".toList, id))) middle := by
    cases given : properties.id with
    | none =>
      rw [given] at named
      cases named
      exact follows
    | some id =>
      rw [given] at named
      exact follows.setId new named
  rw [ElementData.setAttributes, List.foldl_append]
  refine @forM_ok_induction _ _ _ _ holds _ _ ?_ properties.attributes _ _ _ started run
  rintro ⟨name, value⟩ data state last still step
  exact still.setAttribute new step

theorem fills_text (forest : document.Forest)
    (follows : origin.Follows draft (document.push { kind := .element data }) engine)
    (new : element.node = document.slots.size) (content : Option Text)
    (run : content.forM (fun content => Action.setText element content) engine = .ok ⟨⟩ after) :
    origin.Fills document element.node data (Tree.contentText (some data.tag) (content.getD [])) draft
      after := by
  cases content with
  | none =>
    cases run
    rw [new]
    exact follows.fills (forest.grows_pushed data) fun _ => (Tree.contentText_nil _).symm
  | some content =>
    obtain ⟨changed, ran, still⟩ := follows.edit run
    rw [new] at ran ⊢
    obtain ⟨added, grows, written⟩ := forest.grows_text ran
    exact still.fills grows written

theorem fills_begin (properties : Properties) (forest : engine.document.Forest)
    (follows : origin.Follows draft engine.document engine)
    (run : properties.begin engine = .ok element after) :
    element.node = engine.document.slots.size ∧ element.owner = origin.uid ∧
      origin.Fills engine.document element.node (properties.data (properties.enter draft).1)
        (Tree.contentText (some (Text.lowered properties.tag)) (properties.text.getD []))
        (properties.enter draft).2 after := by
  by_cases valid : isTagName properties.tag = true
  · rw [begin_eq, bind_of_ok (Action.createElement_run valid engine)] at run
    simp only [bind_run_eq_ok] at run
    obtain ⟨_, named, nameRun, _, attributed, attributeRun, _, classed, classRun, styles, declared,
      declareRun, _, styled, styleRun, _, classGiven, scopeRun, _, texted, textRun, run⟩ := run
    cases run
    obtain ⟨rfl, rfl⟩ := declarations_ok declareRun
    let element : Element := ⟨engine.uid, engine.document.slots.size, Text.lowered properties.tag⟩
    have new : element.node = engine.document.slots.size := rfl
    have created := follows.withDocument
      (engine.document.push { kind := .element { tag := Text.lowered properties.tag } })
    have filled := (((created.setAttributes properties new nameRun attributeRun).addClasses new
      classRun).setInlineStyle new styleRun).giveScopedClass new properties scopeRun
    rw [properties.data_eq] at filled
    exact ⟨rfl, follows.uid, fills_text forest filled new properties.text textRun⟩
  · rw [Properties.begin, bind_of_error (Action.createElement_run_invalid valid engine)] at run
    cases run

end Begin

/-! ## Finishing an element -/

section Finish

variable {origin engine after : Engine} {draft : Draft} {data : ElementData} {element : Element}

theorem Follows.withHook {document : Document} (follows : origin.Follows draft document engine)
    (node : NodeId) : origin.Follows draft document (engine.withHook node) := by
  rw [Engine.withHook]
  split
  · exact follows
  · exact ⟨follows.uid, follows.config, follows.ids, follows.buffers, follows.document⟩

theorem eq_collect_of_hook {hook : Change} (needs : hook.NeedsIdentifier)
    (run : hook.action element engine = .ok ⟨⟩ after) :
    ∃ what, hook.registration? (engine.idFor element.node) = some what ∧
      (engine.document.element? element.node).isSome ∧
      after = (engine.identified element.node).collect what := by
  rcases Action.hook_run needs engine with ⟨what, registers, live, ran⟩ | ⟨cause, last, ran, _⟩
  · rw [ran] at run
    cases run
    exact ⟨what, registers, live, rfl⟩
  · rw [ran] at run
    cases run

theorem hooks_run_of_isHooked (hooked : engine.IsHooked element.node) {hooks : List Change}
    (needs : ∀ hook ∈ hooks, hook.NeedsIdentifier)
    (run : (hooks.forM fun hook => hook.action element) engine = .ok ⟨⟩ after) :
    after = (hooks.filterMap (Change.registration? (engine.idFor element.node))).foldl Engine.collect
      engine := by
  induction hooks generalizing engine with
  | nil =>
    cases run
    rfl
  | cons hook rest ih =>
    rw [List.forall_mem_cons] at needs
    obtain ⟨_, between, hookRun, restRun⟩ := bind_run_eq_ok.mp run
    obtain ⟨what, registers, _, rfl⟩ := eq_collect_of_hook needs.1 hookRun
    rw [identified_eq_self_iff.mpr hooked] at restRun
    have hookedStill : (engine.collect what).IsHooked element.node := hooked
    rw [ih hookedStill needs.2 restRun, List.filterMap_cons_some registers]
    rfl

/-- The first hook sees to the identifier, the others find it. -/
theorem hooks_run {hooks : List Change} (some : hooks ≠ [])
    (needs : ∀ hook ∈ hooks, hook.NeedsIdentifier)
    (run : (hooks.forM fun hook => hook.action element) engine = .ok ⟨⟩ after) :
    after = (hooks.filterMap (Change.registration? (engine.idFor element.node))).foldl Engine.collect
      (engine.identified element.node) := by
  cases hooks with
  | nil => exact absurd rfl some
  | cons hook rest =>
    rw [List.forall_mem_cons] at needs
    obtain ⟨_, between, hookRun, restRun⟩ := bind_run_eq_ok.mp run
    obtain ⟨what, registers, live, rfl⟩ := eq_collect_of_hook needs.1 hookRun
    have named : ((engine.identified element.node).collect what).namedId? element.node =
        Option.some (engine.idFor element.node) := namedId?_identified live
    have hooked : ((engine.identified element.node).collect what).IsHooked element.node :=
      ⟨mem_hooked_identified engine element.node, Option.isSome_of_eq_some named⟩
    have same : ((engine.identified element.node).collect what).idFor element.node =
        engine.idFor element.node := by
      conv_lhs => rw [idFor, named, Option.getD_some]
    rw [hooks_run_of_isHooked hooked needs.2 restRun, same, List.filterMap_cons_some registers]
    rfl

/-- An element gets the identifier that the draft has for it. -/
theorem Follows.identified (follows : origin.Follows draft engine.document engine)
    (forest : engine.document.Forest) (found : engine.document.element? element.node = some data)
    (orphan : engine.document.parent? element.node = none) :
    (identify data draft).1 = engine.idFor element.node ∧
      origin.Follows (identify data draft).2 (engine.identified element.node).document
        (engine.identified element.node) ∧
      engine.document.Grows element.node
        { data with attributes := data.attributes.put "id".toList (identify data draft).1 } []
        (engine.identified element.node).document := by
  have written : engine.document.attribute? element.node "id".toList =
      data.attributes.get? "id".toList := by
    rw [Document.attribute?, found]
    rfl
  cases named : engine.namedId? element.node with
  | some id =>
    obtain ⟨same, filled⟩ := namedId?_eq_some_iff.mp named
    rw [written] at same
    have identifies : identify data draft = (id, draft) := by
      rw [identify, same]
      cases id with
      | nil => exact absurd rfl filled
      | cons first rest => rfl
    rw [Engine.identified, named, identifies]
    refine ⟨by rw [idFor, named]; rfl, ?_, ?_⟩
    · dsimp only
      rw [document_withHook]
      exact follows.withHook _
    · dsimp only
      rw [document_withHook, Entries.put_of_get? same]
      exact .none forest found orphan
  | none =>
    have identifies : identify data draft =
        (draft.ids.element.1, { draft with ids := draft.ids.element.2 }) := by
      rw [namedId?, written] at named
      rw [identify]
      generalize data.attributes.get? "id".toList = own at named ⊢
      rcases own with _ | _ | _
      · rfl
      · rfl
      · cases named
    rw [Engine.identified, named, identifies]
    dsimp only
    have drawn : origin.Follows { draft with ids := draft.ids.element.2 }
        (engine.withNewId element.node).document (engine.withNewId element.node) :=
      ⟨follows.uid, follows.config, by rw [withNewId, follows.ids], follows.buffers, rfl⟩
    refine ⟨by rw [idFor, named, follows.ids]; rfl, ?_, ?_⟩
    · rw [document_withHook]
      exact drawn.withHook _
    · rw [document_withHook, withNewId, follows.ids]
      have written : data.setAttribute "id".toList draft.ids.element.1 =
          { data with attributes := data.attributes.put "id".toList draft.ids.element.1 } := rfl
      rw [← written]
      exact @Document.Forest.grows_withData _ _ _ forest found orphan
        (fun data => data.setAttribute "id".toList draft.ids.element.1) (ElementData.tag_setAttribute _ _)

theorem fills_finish (properties : Properties) (forest : engine.document.Forest)
    (follows : origin.Follows draft engine.document engine)
    (found : engine.document.element? element.node = some data)
    (orphan : engine.document.parent? element.node = none)
    (run : properties.finish element engine = .ok ⟨⟩ after) :
    origin.Fills engine.document element.node (properties.leave data draft).1 []
      (properties.leave data draft).2 after := by
  rw [finish_eq] at run
  by_cases hooked : properties.hooks = []
  · rw [hooked] at run
    rw [leave_of_unhooked hooked]
    cases run
    exact follows.fills (.none forest found orphan) fun _ => rfl
  · obtain ⟨id, identified, grows⟩ := follows.identified forest found orphan
    have ends := hooks_run hooked properties.needsIdentifier_of_mem_hooks run
    rw [leave_of_hooked hooked, id]
    rw [id] at grows
    have collected := identified.collectAll (properties.hooks.filterMap
      (Change.registration? (engine.idFor element.node)))
    rw [← ends] at collected
    exact collected.fills grows fun _ => rfl

end Finish

end Engine

end PageCompiler
