import PageCompiler.Engine.Element
import PageCompiler.Proofs.Markup.Reading

/-!
# Start tags read back

A start tag is read with the lexical rules of markup: its name and the names of its attributes end at white
space or at a sign, capitals are small letters, and a value stands between double quotes. Plain attributes,
classes and inline declarations are kept apart in an element and put together twice, when its start tag is
written and when one of its attributes is asked for; what is read of the start tag shows that both agree.
-/

namespace PageCompiler

namespace Markup

/-! ## Reading -/

/-- Whether a character is white space of markup. -/
def isSpace (c : Char) : Bool :=
  c = ' ' || c = '\t' || c = '\n' || c = '\x0c' || c = '\r'

/-- Whether a character ends a name in a start tag. -/
def endsName (c : Char) : Bool :=
  isSpace c || c = '/' || c = '>' || c = '='

/-- The name at the start of a text, in small letters, and what follows it. -/
def readName (text : Text) : Text × Text :=
  (Text.lowered (text.takeWhile fun c => !endsName c), text.dropWhile fun c => !endsName c)

/-- Reads attributes up to the end of their start tag, fewer than the limit. Values are left as they are
written. -/
def readAttributes : Nat → Text → Option (List (Text × Text) × Text)
  | 0, _ => none
  | limit + 1, text =>
    match text.dropWhile isSpace with
    | '>' :: rest => some ([], rest)
    | start =>
      match readName start with
      | (name, '=' :: '"' :: rest) => do
        let (value, rest) ← Text.cutAt '"' rest
        let (attributes, rest) ← readAttributes limit rest
        return ((name, value) :: attributes, rest)
      | _ => none

/-- Reads a start tag at the start of a text. -/
def readStartTag : Text → Option (Text × List (Text × Text) × Text)
  | '<' :: text => do
    let (tag, start) := readName text
    let (attributes, rest) ← readAttributes (text.length + 1) start
    return (tag, attributes, rest)
  | _ => none

/-! ## Written start tags read back -/

theorem endsName_of_isAttributeNameChar {c : Char} (valid : isAttributeNameChar c = true) :
    endsName c = false := by
  refine eq_false_of_ne_true fun ends => ?_
  simp only [endsName, isSpace, Bool.or_eq_true, decide_eq_true_eq] at ends
  rcases ends with ((((((rfl | rfl) | rfl) | rfl) | rfl) | rfl) | rfl) | rfl <;> revert valid <;> decide

theorem isSpace_of_not_endsName {c : Char} (inside : endsName c = false) : isSpace c = false := by
  simp only [endsName, Bool.or_eq_false_iff] at inside
  exact inside.1.1.1

theorem IsWrittenName.inside {name : Text} (written : IsWrittenName name) :
    ∀ c ∈ name, endsName c = false := by
  have valid := written.valid
  rw [isAttributeName, Bool.and_eq_true, List.all_eq_true] at valid
  exact fun c member => endsName_of_isAttributeNameChar (valid.2 c member)

theorem IsWrittenName.ne_nil {name : Text} (written : IsWrittenName name) : name ≠ [] := by
  rintro rfl
  exact absurd written.valid (by decide)

theorem endsName_of_isTagChar {c : Char} (valid : IsTagChar c) : endsName c = false := by
  refine eq_false_of_ne_true fun ends => ?_
  simp only [endsName, isSpace, Bool.or_eq_true, decide_eq_true_eq] at ends
  rcases ends with ((((((rfl | rfl) | rfl) | rfl) | rfl) | rfl) | rfl) | rfl <;> revert valid <;>
    unfold IsTagChar <;> decide

theorem readName_append {name : Text} (inside : ∀ c ∈ name, endsName c = false)
    (small : Text.lowered name = name) {c : Char} (ends : endsName c = true) (rest : Text) :
    readName (name ++ c :: rest) = (name, c :: rest) := by
  have front : ∀ d ∈ name, (!endsName d) = true := fun d member => by rw [inside d member]; rfl
  rw [readName, List.takeWhile_append_of_pos front, List.dropWhile_append_of_pos front]
  simp [ends, small]

theorem quote_not_mem_escapeAttribute (value : Text) : '"' ∉ escapeAttribute value := by
  intro member
  obtain ⟨c, _, written⟩ := List.mem_flatMap.mp member
  unfold escapedInAttribute escapedInText at written
  split_ifs at written with double
  case neg => exact double (List.mem_singleton.mp written).symm
  all_goals exact absurd written (by decide)

theorem readAttributes_written {attributes : List (Text × Text)}
    (names : ∀ name ∈ Entries.keys attributes, IsWrittenName name) {limit : Nat}
    (enough : attributes.length < limit) (rest : Text) :
    readAttributes limit (attributesText attributes ++ '>' :: rest) =
      some (attributes.map fun entry => (entry.1, escapeAttribute entry.2), rest) := by
  induction attributes generalizing limit with
  | nil =>
    obtain ⟨limit, rfl⟩ := Nat.exists_eq_add_one.mpr enough
    rfl
  | cons entry attributes ih =>
    obtain ⟨name, value⟩ := entry
    obtain ⟨limit, rfl⟩ := Nat.exists_eq_add_one.mpr (Nat.zero_lt_of_lt enough)
    rw [Entries.keys, List.map_cons, List.forall_mem_cons] at names
    have later := ih names.2 (Nat.lt_of_succ_lt_succ enough)
    -- The name is not empty and starts with no white space, so the reader goes into it, and it holds
    -- nothing that ends a name, so the reader goes on to the equals sign.
    have inside := names.1.inside
    obtain ⟨first, others, rfl⟩ := List.exists_cons_of_ne_nil names.1.ne_nil
    have solid : isSpace first = false := isSpace_of_not_endsName (inside first List.mem_cons_self)
    have unclosed : first ≠ '>' := by
      rintro rfl
      exact absurd (inside '>' List.mem_cons_self) (by decide)
    have read := readName_append inside names.1.small (c := '=') rfl
      ('"' :: (escapeAttribute value ++ '"' :: (attributesText attributes ++ '>' :: rest)))
    have blank (text : Text) : (' ' :: text).dropWhile isSpace = text.dropWhile isSpace := rfl
    rw [attributesText_cons_append, readAttributes, blank, List.cons_append,
      List.dropWhile_cons_of_neg (by simp [solid])]
    split
    · next same => exact absurd (List.cons.inj same).1 unclosed
    · rw [← List.cons_append, read]
      simp only
      rw [Text.cutAt_append (quote_not_mem_escapeAttribute value)]
      simp only [bind, Option.bind_some, later]
      rfl

theorem length_le_attributesText (attributes : List (Text × Text)) :
    attributes.length ≤ (attributesText attributes).length := by
  induction attributes with
  | nil => exact Nat.zero_le _
  | cons entry attributes ih =>
    obtain ⟨name, value⟩ := entry
    have written := congrArg List.length (attributesText_cons_append name value attributes [])
    simp only [List.append_nil, List.length_cons, List.length_append] at written ⊢
    omega

theorem readStartTag_written {tag : Text} {attributes : List (Text × Text)}
    (valid : isTagName tag = true) (small : Text.lowered tag = tag)
    (names : ∀ name ∈ Entries.keys attributes, IsWrittenName name) (rest : Text) :
    readStartTag (startTagOf tag attributes ++ rest) =
      some (tag, attributes.map (fun entry => (entry.1, escapeAttribute entry.2)), rest) := by
  have inside : ∀ c ∈ tag, endsName c = false := fun c member =>
    endsName_of_isTagChar (isTagChar_of_isTagName valid c member)
  have written : startTagOf tag attributes ++ rest =
      '<' :: (tag ++ (attributesText attributes ++ '>' :: rest)) := by
    simp [startTagOf]
  have enough : attributes.length < (tag ++ (attributesText attributes ++ '>' :: rest)).length + 1 := by
    have := length_le_attributesText attributes
    simp only [List.length_append]
    omega
  have read : readName (tag ++ (attributesText attributes ++ '>' :: rest)) =
      (tag, attributesText attributes ++ '>' :: rest) := by
    cases attributes with
    | nil => exact readName_append inside small rfl rest
    | cons entry attributes =>
      rw [attributesText_cons_append]
      exact readName_append inside small rfl _
  rw [written, readStartTag, read]
  simp only
  rw [readAttributes_written names enough]
  rfl

/-- Other names than those of the class and style attributes are found among the plain attributes. -/
theorem ElementData.get?_foldedAttributes {data : ElementData} {name : Text} (plain : name ∉ foldedNames) :
    Entries.get? name data.foldedAttributes = data.attributes.get? name := by
  have noClass (value : Text) : Entries.get? name [("class".toList, value)] = none :=
    if_neg fun same : "class".toList = name => plain (same ▸ List.mem_cons_self)
  have noStyle (value : Text) : Entries.get? name [("style".toList, value)] = none :=
    if_neg fun same : "style".toList = name => plain (same ▸ List.mem_cons_of_mem _ List.mem_cons_self)
  have nothing : Entries.get? name ([] : Entries Text) = none := rfl
  rw [foldedAttributes, Entries.get?_append, Entries.get?_append]
  split <;> split <;> simp only [noClass, noStyle, nothing, Option.or_none]

/-! ## Start tags in documents -/

namespace Tree

theorem infix_markupAll (around : Text) {tree : Tree} {trees : List Tree} (member : tree ∈ trees) :
    markupIn (some around) tree <:+: markupAll around trees := by
  obtain ⟨before, after, rfl⟩ := List.append_of_mem member
  rw [markupAll_append, markupAll, ← List.append_assoc]
  exact ⟨_, _, rfl⟩

/-- An element is written from its start tag on. -/
theorem exists_markup_eq (data : ElementData) (children : List Tree) :
    ∃ rest, (Tree.element data children).markup = startTagOf data.tag data.foldedAttributes ++ rest := by
  rw [Tree.markup, Tree.markupIn]
  split
  · exact ⟨[], (List.append_nil _).symm⟩
  · exact ⟨_, List.append_assoc _ _ _⟩

end Tree

namespace Document

variable {document : Document}

/-- The markup of an element starts with its start tag. -/
theorem Forest.exists_markup_eq (forest : document.Forest) {id : NodeId} {data : ElementData}
    (found : document.element? id = some data) :
    ∃ rest, document.markup id = startTagOf data.tag data.foldedAttributes ++ rest := by
  rw [markup_of_tree? (forest.tree?_element found)]
  exact Tree.exists_markup_eq data _

/-- The markup of an element stands in that of its parent. -/
theorem Forest.markup_infix_parent (forest : document.Forest) {id parent : NodeId} {data : ElementData}
    (found : document.element? id = some data) (step : document.parent? id = some parent) :
    document.markup id <:+: document.markup parent := by
  obtain ⟨host, hostFound, content⟩ := forest.hosts step
  have tree := forest.tree?_element found
  have listed : Tree.element data (document.trees (document.children id)) ∈
      document.trees (document.children parent) :=
    List.mem_filterMap.mpr ⟨id, forest.linked.mpr step, tree⟩
  rw [markup_of_tree? tree, markup_of_tree? (forest.tree?_element hostFound), Tree.markup_element content]
  obtain ⟨before, after, inside⟩ := Tree.infix_markupAll host.tag listed
  rw [Tree.markupIn_element] at inside
  exact ⟨Tree.startTag host ++ before, after ++ Tree.endTag host.tag, by simp [← inside]⟩

/-- The markup of an element stands in that of every node above it. -/
theorem Forest.markup_infix (forest : document.Forest) {id top : NodeId} {data : ElementData}
    (found : document.element? id = some data) (below : document.Below id top) :
    document.markup id <:+: document.markup top := by
  induction below using Relation.ReflTransGen.head_induction_on generalizing data with
  | refl => exact List.infix_rfl
  | head step _ ih =>
    obtain ⟨host, hostFound, _⟩ := forest.hosts step
    exact (forest.markup_infix_parent found step).trans (ih hostFound)

end Document

end Markup

open Markup

namespace Engine

variable {engine : Engine} {element : Element}

/-- An attribute of an element is what stands under its name among the folded attributes. -/
theorem attribute?_eq {data : ElementData} (found : engine.document.element? element.node = some data)
    (formed : data.WellFormed) (name : Text) :
    engine.attribute? element name = Entries.get? name data.foldedAttributes := by
  have fresh : name ∈ foldedNames → data.attributes.get? name = none := fun folded =>
    Entries.get?_of_fresh fun member => (formed.names name member).plain folded
  rw [attribute?, found]
  dsimp only
  by_cases isClass : name = "class".toList
  · subst isClass
    rw [if_pos rfl, ElementData.foldedAttributes, Entries.get?_append, Entries.get?_append,
      fresh List.mem_cons_self]
    split <;> split <;> rfl
  · by_cases isStyle : name = "style".toList
    · subst isStyle
      rw [if_neg isClass, if_pos rfl, ElementData.foldedAttributes, Entries.get?_append, Entries.get?_append,
        fresh (List.mem_cons_of_mem _ List.mem_cons_self)]
      split <;> split <;> rfl
    · rw [if_neg isClass, if_neg isStyle]
      refine (ElementData.get?_foldedAttributes ?_).symm
      exact fun folded => (List.mem_pair.mp folded).elim isClass isStyle

/-- Every element of a document that mutations have made keeps plain attributes, classes and inline
declarations apart and each in good order. So its start tag, which stands at the front of its markup and with
it in the markup of every node above, names each attribute once, and reading a name there comes to reading
the attribute of the element. -/
theorem start_tag_agrees (reachable : engine.document.Reachable) {data : ElementData}
    (found : engine.document.element? element.node = some data) :
    (∀ name ∈ data.attributes.keys, isAttributeName name = true ∧ (∀ c ∈ name, c.isUpper = false) ∧
        name ≠ "class".toList ∧ name ≠ "style".toList) ∧
      data.attributes.keys.Nodup ∧
      (∀ name ∈ data.classes, name ≠ [] ∧ ∀ c ∈ name, Text.isBlank c = false) ∧
      data.classes.Nodup ∧ data.style.keys.Nodup ∧
      (∃ written rest, readStartTag (engine.markup element) = some (data.tag, written, rest) ∧
        (Entries.keys written).Nodup ∧
        ∀ name, Entries.get? name written = (engine.attribute? element name).map escapeAttribute) ∧
      ∀ top, engine.document.Below element.node top →
        engine.markup element <:+: engine.document.markup top := by
  have sound := reachable.sound
  have formed := sound.data found
  refine ⟨fun name member => ?_, formed.namesOnce, formed.classes, formed.classesOnce,
    formed.propertiesOnce, ?_, fun top below => sound.forest.markup_infix found below⟩
  · have plain := formed.names name member
    refine ⟨plain.valid, Text.lowered_eq_self_iff.mp plain.small, ?_, ?_⟩
    · rintro rfl
      exact plain.plain List.mem_cons_self
    · rintro rfl
      exact plain.plain (List.mem_cons_of_mem _ List.mem_cons_self)
  · obtain ⟨rest, markup⟩ := sound.forest.exists_markup_eq found
    refine ⟨data.foldedAttributes.map fun entry => (entry.1, escapeAttribute entry.2), rest, ?_, ?_,
      fun name => ?_⟩
    · rw [Engine.markup, markup]
      exact readStartTag_written formed.tag formed.smallTag formed.isWrittenName_foldedAttributes rest
    · have names := formed.nodup_keys_foldedAttributes
      rw [Entries.keys] at names ⊢
      rwa [List.map_map]
    · rw [Entries.get?_map, attribute?_eq found formed]

/-- The mutations that make a link with a title, two classes and an inline declaration. -/
def linkMutations : List Mutation :=
  [.createElement "A".toList, .setAttribute 0 "Title".toList "\"b\"".toList,
    .setAttribute 0 "CLASS".toList "c d c".toList, .setStyle 0 "color".toList "red".toList,
    .setAttribute 0 "title".toList "a & b".toList]

theorem start_tag_agrees_link :
    let document := linkMutations.foldl (fun document mutation => mutation.apply document) {}
    let engine := { Engine.new 0 {} 7 with document }
    let link : Element := ⟨0, 0, "a".toList⟩
    document.Reachable ∧
      engine.markup link =
        "<a title=\"a &amp; b\" class=\"c d\" style=\"color: red\"></a>".toList ∧
      engine.attribute? link "title".toList = some "a & b".toList ∧
      ∃ written rest, readStartTag (engine.markup link) = some ("a".toList, written, rest) ∧
        Entries.get? "title".toList written = some "a &amp; b".toList := by
  intro document engine link
  have reachable : document.Reachable := Document.Reachable.empty.run linkMutations
  have found : engine.document.element? link.node = some
      { tag := "a".toList, attributes := [("title".toList, "a & b".toList)],
        classes := ["c".toList, "d".toList], style := [("color".toList, "red".toList)] } := by
    decide
  have title : engine.attribute? link "title".toList = some "a & b".toList := by decide
  obtain ⟨_, _, _, _, _, ⟨written, rest, read, _, agree⟩, _⟩ :=
    @start_tag_agrees engine link reachable _ found
  refine ⟨reachable, by decide, title, written, rest, read, ?_⟩
  rw [agree, title]
  rfl

end Engine

end PageCompiler
