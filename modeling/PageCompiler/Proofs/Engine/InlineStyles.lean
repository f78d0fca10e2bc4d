import PageCompiler.Proofs.Engine.Renders
import PageCompiler.Proofs.Markup.Tables
import PageCompiler.Proofs.Stylesheet

/-!
# Inline styles written back

Inline declarations are folded into a style attribute, and a style attribute that is written replaces them.
The reader of style attributes ends a declaration at every semicolon, also at one inside quotes or
parentheses, which the check of rules lets pass. So the declarations come back exactly when no value holds a
semicolon.
-/

namespace PageCompiler

open Markup Steps

namespace Markup.ElementData

variable {data : ElementData} {declaration : Text × Text} {gap : Text}

/-- A declaration as it is written into a style attribute. -/
def inlineText (declaration : Text × Text) : Text :=
  declaration.1 ++ [':', ' '] ++ declaration.2

theorem declarationIn_inlineText (stored : Style.IsStored declaration)
    (blank : ∀ c ∈ gap, Text.isBlank c = true) :
    declarationIn (gap ++ inlineText declaration) = some declaration := by
  have apart : ':' ∉ gap ++ declaration.1 := by
    rw [List.mem_append, not_or]
    exact ⟨fun member => absurd (blank ':' member) (by decide), stored.not_mem_property rfl⟩
  have cut := Text.cutAt_append apart (' ' :: declaration.2)
  have property : Text.trim (gap ++ declaration.1) = declaration.1 :=
    (Text.trim_blank_append blank).trans (Text.trim_of_isTrimmed stored.property_trimmed)
  have space : ∀ c ∈ [' '], Text.isBlank c = true := List.forall_mem_singleton.mpr rfl
  have value : Text.trim (' ' :: declaration.2) = declaration.2 :=
    (Text.trim_blank_append space).trans (Text.trim_of_isTrimmed stored.value_trimmed)
  have filled : ¬ declaration.1.isEmpty = true := by
    simpa using stored.property_ne_nil
  have written : gap ++ inlineText declaration = (gap ++ declaration.1) ++ ':' :: ' ' :: declaration.2 := by
    simp [inlineText]
  rw [declarationIn, written, cut]
  dsimp only
  rw [property, value, if_neg filled]

theorem unbroken_inlineText (stored : Style.IsStored declaration) (whole : ';' ∉ declaration.2) :
    ∀ c ∈ inlineText declaration, decide (c = ';') = false := by
  intro c inside
  refine decide_eq_false ?_
  rintro rfl
  rcases List.mem_append.mp inside with front | back
  · rcases List.mem_append.mp front with property | colon
    · exact stored.not_mem_property rfl property
    · revert colon
      decide
  · exact whole back

/-- The pieces of a style attribute hold no semicolon, and neither do the values that are read of them. -/
theorem no_semicolon_of_readStyle {value : Text} (member : declaration ∈ (data.readStyle value).style) :
    ';' ∉ declaration.2 := by
  rw [readStyle_eq] at member
  rcases Entries.mem_foldl_put member with nothing | written
  · cases nothing
  · obtain ⟨piece, listed, read⟩ := List.mem_filterMap.mp written
    have whole : ';' ∉ piece := fun inside =>
      absurd (Text.unbroken_of_mem_segments listed ';' inside) (by decide)
    unfold declarationIn at read
    split at read
    · cases read
    · next property rest cut =>
      split at read
      · cases read
      · cases read
        intro inside
        apply whole
        rw [Text.eq_of_cutAt cut]
        exact List.mem_append_right _ (List.mem_cons_of_mem _ (Text.mem_of_mem_trim inside))

/-- The style attribute of stored declarations reads back as these if their values hold no semicolon. -/
theorem readStyle_styleText (stored : ∀ declaration ∈ data.style, Style.IsStored declaration)
    (distinct : data.style.keys.Nodup) (whole : ∀ declaration ∈ data.style, ';' ∉ declaration.2) :
    data.readStyle data.styleText = data := by
  obtain ⟨tag, attributes, classes, style⟩ := data
  cases style with
  | nil => rfl
  | cons first rest =>
    have unbroken : ∀ text ∈ (first :: rest).map inlineText, ∀ c ∈ text, decide (c = ';') = false := by
      intro text listed
      obtain ⟨declaration, member, rfl⟩ := List.mem_map.mp listed
      exact unbroken_inlineText (stored declaration member) (whole declaration member)
    have pieces : Text.segments (· = ';') (styleText ⟨tag, attributes, classes, first :: rest⟩) =
        inlineText first :: (rest.map inlineText).map ([' '] ++ ·) :=
      Text.segments_intercalate rfl (List.forall_mem_singleton.mpr rfl) unbroken
    rw [List.forall_mem_cons] at stored
    -- Only the first piece has no blank in front.
    have readFirst : declarationIn (inlineText first) = some first :=
      declarationIn_inlineText stored.1 (List.forall_mem_nil _)
    have readRest : ((rest.map inlineText).map ([' '] ++ ·)).filterMap declarationIn = rest := by
      rw [List.map_map, List.filterMap_map, List.filterMap_congr (g := some), List.filterMap_some]
      exact fun declaration member =>
        declarationIn_inlineText (stored.2 declaration member) (List.forall_mem_singleton.mpr rfl)
    rw [readStyle_eq, pieces, List.filterMap_cons_some readFirst, readRest, Entries.ofPairs_of_nodup distinct]

end Markup.ElementData

/-! ## The style of an element -/

namespace Engine

variable {engine after : Engine} {element : Element}

/-- The inline declarations of an element. -/
def inlineStyle? (engine : Engine) (element : Element) : Option (Entries Text) :=
  (engine.document.element? element.node).map ElementData.style

/-- Inline declarations that are written come after those that were there, in their form of a rule. -/
theorem inlineStyle?_of_setInlineStyle {declarations : Declarations} {style : Entries Text}
    (start : engine.inlineStyle? element = some style)
    (run : Action.setInlineStyle element declarations engine = .ok ⟨⟩ after) :
    after.inlineStyle? element =
      some ((declarations.map fun (property, value) =>
          (Style.kebabCase (Text.trim property), Text.trim value)).foldl
        (fun style (property, value) => style.put property value) style) := by
  rw [Action.setInlineStyle, Action.edit, edit] at run
  split at run
  · next document ran =>
    cases run
    let holds (style : Entries Text) (document : Document) : Prop :=
      (document.element? element.node).map ElementData.style = some style
    rw [List.foldl_map]
    have starts : holds style engine.document := start
    refine forM_ok_induction ?_ declarations starts ran
    rintro ⟨property, value⟩ style document last styled step
    obtain ⟨data, found, rfl⟩ := Option.map_eq_some_iff.mp styled
    dsimp only at step
    rw [Edit.setStyle, Edit.updateElement_run found] at step
    cases step
    exact congrArg (Option.map ElementData.style) (Document.element?_withData found _)
  · cases run

/-- An element that got its inline declarations by writing such as a rule would be accepted with. -/
inductive StylesAccepted (element : Element) : Engine → Prop where
  | unstyled {engine : Engine} (plain : engine.inlineStyle? element = some []) :
      StylesAccepted element engine
  | written {engine after : Engine} {sheet extended : Stylesheet} {name : Text}
      {declarations : Declarations} {raw : Bool} (before : StylesAccepted element engine)
      (accepted : sheet.define name declarations raw = .ok extended)
      (run : Action.setInlineStyle element declarations engine = .ok ⟨⟩ after) :
      StylesAccepted element after
  | elsewhere {engine after : Engine} (before : StylesAccepted element engine)
      (same : after.inlineStyle? element = engine.inlineStyle? element) : StylesAccepted element after

/-- Inline declarations with different properties that are stored in the form of a rule. -/
structure HasStored (engine : Engine) (element : Element) (style : Entries Text) : Prop where
  found : engine.inlineStyle? element = some style
  distinct : style.keys.Nodup
  stored : ∀ declaration ∈ style, Style.IsStored declaration

/-- Writing declarations of an accepted rule leaves stored declarations with different properties. -/
theorem HasStored.setInlineStyle {style : Entries Text} {name : Text} {declarations : Declarations}
    {raw : Bool} {rule : Style.Rule} (before : engine.HasStored element style)
    (accepted : Style.ruleOf name declarations raw = .ok rule)
    (run : Action.setInlineStyle element declarations engine = .ok ⟨⟩ after) :
    after.HasStored element
      (rule.declarations.foldl (fun style (property, value) => style.put property value) style) where
  found := by
    rw [Style.declarations_of_ruleOf accepted]
    exact inlineStyle?_of_setInlineStyle before.found run
  distinct := Entries.nodup_keys_foldl_put before.distinct
  stored declaration member := by
    rcases Entries.mem_foldl_put member with old | written
    · exact before.stored declaration old
    · exact (Style.isStored_of_ruleOf accepted).declarations declaration written

theorem StylesAccepted.hasStored (accepted : StylesAccepted element engine) :
    ∃ style, engine.HasStored element style := by
  induction accepted with
  | unstyled plain => exact ⟨[], plain, List.nodup_nil, List.forall_mem_nil _⟩
  | written _ accepted run ih =>
    obtain ⟨style, before⟩ := ih
    obtain ⟨rule, ruled, _⟩ := Stylesheet.exists_of_define accepted
    exact ⟨_, before.setInlineStyle ruled run⟩
  | elsewhere _ same ih =>
    obtain ⟨style, before⟩ := ih
    exact ⟨style, same.trans before.found, before.distinct, before.stored⟩

theorem setAttribute_style_run {data : ElementData}
    (found : engine.document.element? element.node = some data) (value : Text) :
    Action.setAttribute element "style".toList value engine =
      .ok ⟨⟩ { engine with document :=
        engine.document.withData element.node fun data => data.readStyle value } := by
  have valid : isAttributeName "style".toList = true := by decide
  have other : ¬ Text.lowered "style".toList = "id".toList := by decide
  rw [Action.setAttribute, if_neg other, Action.edit, edit, Edit.setAttribute_run found valid]
  rfl

/-- An element whose inline declarations were written such as a rule would be accepted with is given its own
style attribute. That leaves its inline declarations and its markup, and indeed the whole engine, as they
were if and only if no value holds a semicolon. -/
theorem StylesAccepted.written_back_iff (accepted : StylesAccepted element engine) :
    ∃ style, engine.inlineStyle? element = some style ∧
      (style = [] → engine.attribute? element "style".toList = none) ∧
      (style ≠ [] → ∃ text after, engine.attribute? element "style".toList = some text ∧
        Action.setAttribute element "style".toList text engine = .ok ⟨⟩ after ∧
        ((after.inlineStyle? element = some style ∧ after.markup element = engine.markup element) ↔
          ∀ declaration ∈ style, ';' ∉ declaration.2) ∧
        ((∀ declaration ∈ style, ';' ∉ declaration.2) → after = engine)) := by
  obtain ⟨style, has⟩ := accepted.hasStored
  obtain ⟨data, found, rfl⟩ := Option.map_eq_some_iff.mp has.found
  refine ⟨data.style, has.found, fun bare => ?_, fun styled => ?_⟩
  · rw [attribute?, found]
    simp [bare]
  · have folded : engine.attribute? element "style".toList = some data.styleText := by
      rw [attribute?, found]
      simp [styled]
    have unchanged (whole : ∀ declaration ∈ data.style, ';' ∉ declaration.2) :
        engine.document.withData element.node (fun old => old.readStyle data.styleText) = engine.document :=
      Document.withData_eq_self found (ElementData.readStyle_styleText has.stored has.distinct whole)
    refine ⟨data.styleText, _, folded, setAttribute_style_run found _,
      ⟨fun same => ?_, fun whole => ?_⟩, fun whole => ?_⟩
    · have read : (data.readStyle data.styleText).style = data.style := by
        have now := same.1
        rw [inlineStyle?, Document.element?_withData found, Option.map_some] at now
        exact Option.some.inj now
      intro declaration member
      rw [← read] at member
      exact ElementData.no_semicolon_of_readStyle member
    · rw [unchanged whole]
      exact ⟨has.found, rfl⟩
    · rw [unchanged whole]

end Engine

/-- A paragraph with a colon in one of its inline values is given its own style attribute. -/
theorem written_back_iff_colon :
    let declarations : Declarations :=
      [("backgroundImage".toList, " url(\"a:b\")".toList), ("color".toList, "red".toList)]
    (∃ sheet, Stylesheet.define [] "c".toList declarations false = .ok sheet) ∧
      ∃ made styled, Action.createElement "p".toList (Engine.new 0 {} 7) = .ok paragraph made ∧
        Action.setInlineStyle paragraph declarations made = .ok ⟨⟩ styled ∧
        styled.attribute? paragraph "style".toList =
          some "background-image: url(\"a:b\"); color: red".toList ∧
        Action.setAttribute paragraph "style".toList "background-image: url(\"a:b\"); color: red".toList
          styled = .ok ⟨⟩ styled := by
  intro declarations
  have accepted : ∃ sheet, Stylesheet.define [] "c".toList declarations false = .ok sheet := ⟨_, rfl⟩
  obtain ⟨made, styled, made_run, run, plain, folded, inline⟩ : ∃ made styled,
      Action.createElement "p".toList (Engine.new 0 {} 7) = .ok paragraph made ∧
        Action.setInlineStyle paragraph declarations made = .ok ⟨⟩ styled ∧
        made.inlineStyle? paragraph = some [] ∧
        styled.attribute? paragraph "style".toList =
          some "background-image: url(\"a:b\"); color: red".toList ∧
        styled.inlineStyle? paragraph = some [("background-image".toList, "url(\"a:b\")".toList),
          ("color".toList, "red".toList)] :=
    ⟨_, _, rfl, rfl, rfl, by decide, by decide⟩
  obtain ⟨sheet, defined⟩ := accepted
  have written : styled.StylesAccepted paragraph := .written (.unstyled plain) defined run
  obtain ⟨style, found, _, back⟩ := written.written_back_iff
  rw [inline, Option.some.injEq] at found
  subst found
  obtain ⟨text, after, same, ran, _, kept⟩ := back (List.cons_ne_nil _ _)
  rw [folded, Option.some.injEq] at same
  subst same
  rw [kept (by decide)] at ran
  exact ⟨⟨sheet, defined⟩, made, styled, made_run, run, folded, ran⟩

/-- A semicolon in quotes is accepted in a rule and stands in the style attribute, but when this is written
back the value ends there. -/
theorem written_back_can_cut_style :
    let declarations : Declarations :=
      [("backgroundImage".toList, "url(\"data:image/png;base64,iVBORw0KGgo=\")".toList)]
    let text := "background-image: url(\"data:image/png;base64,iVBORw0KGgo=\")".toList
    (∃ sheet, Stylesheet.define [] "c".toList declarations false = .ok sheet) ∧
      ∃ made styled after, Action.createElement "p".toList (Engine.new 0 {} 7) = .ok paragraph made ∧
        Action.setInlineStyle paragraph declarations made = .ok ⟨⟩ styled ∧
        styled.attribute? paragraph "style".toList = some text ∧
        Action.setAttribute paragraph "style".toList text styled = .ok ⟨⟩ after ∧
        after.inlineStyle? paragraph =
          some [("background-image".toList, "url(\"data:image/png".toList)] ∧
        after.inlineStyle? paragraph ≠ styled.inlineStyle? paragraph ∧
        after.markup paragraph = "<p style=\"background-image: url(&quot;data:image/png\"></p>".toList ∧
        after.markup paragraph ≠ styled.markup paragraph := by
  refine ⟨⟨_, rfl⟩, _, _, _, rfl, rfl, ?_, rfl, ?_, ?_, ?_, ?_⟩ <;> decide

end PageCompiler
