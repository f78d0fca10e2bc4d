import Mathlib
import PageCompiler.Proofs.Entries
import PageCompiler.Proofs.Markup.Nodes
import PageCompiler.Proofs.Text

/-!
# Well-formed element data

What every edit keeps about the data of an element: its tag and the names of its attributes are valid
and in small letters, class and style never stand among the plain attributes, and no attribute, class
or inline property is there twice.
-/

namespace PageCompiler

namespace Markup

theorem isTagName_lowered {tag : Text} (valid : isTagName tag = true) :
    isTagName (Text.lowered tag) = true := by
  cases tag with
  | nil => cases valid
  | cons first rest =>
    simp only [isTagName, Bool.and_eq_true, List.all_eq_true, Bool.or_eq_true] at valid
    simp only [Text.lowered, List.map_cons, isTagName, Bool.and_eq_true, List.all_eq_true,
      List.mem_map, forall_exists_index, and_imp, forall_apply_eq_imp_iff₂, Bool.or_eq_true]
    refine ⟨by simpa using valid.1, ?_⟩
    intro c member
    rcases valid.2 c member with word | hyphen
    · left
      rw [Char.isAlphanum, Char.isAlpha_toLower_eq_isAlpha]
      by_cases letter : c.isAlpha = true
      · simp [letter]
      · rw [Char.isAlphanum] at word
        rw [Char.toLower_eq_of_not_isUpper]
        · exact word
        · intro upper
          exact letter (by simp [Char.isAlpha, upper])
    · right
      rw [decide_eq_true_eq] at hyphen
      rw [hyphen]
      decide

theorem isAttributeNameChar_of_isLower {c : Char} (letter : c.isLower = true) :
    isAttributeNameChar c = true := by
  have range : 97 ≤ c.toNat ∧ c.toNat ≤ 122 := by
    simpa [Char.isLower, UInt32.le_iff_toNat_le] using letter
  have apart : ∀ d ∈ attributeDelimiters, c ≠ d := by
    rintro d member rfl
    simp only [attributeDelimiters, List.mem_cons, List.not_mem_nil, or_false] at member
    rcases member with rfl | rfl | rfl | rfl | rfl | rfl <;> simp at range
  simp only [isAttributeNameChar, Text.isBlank, isControl, Bool.and_eq_true, Bool.not_eq_true',
    Bool.or_eq_false_iff, Bool.and_eq_false_iff, decide_eq_false_iff_not]
  refine ⟨⟨by omega, by omega⟩, ?_⟩
  rw [← Bool.not_eq_true, List.contains_iff_mem]
  exact fun member => apart c member rfl

theorem isAttributeName_lowered {name : Text} (valid : isAttributeName name = true) :
    isAttributeName (Text.lowered name) = true := by
  simp only [isAttributeName, Bool.and_eq_true, List.all_eq_true, Bool.not_eq_true',
    List.isEmpty_eq_false_iff] at valid
  simp only [Text.lowered, isAttributeName, Bool.and_eq_true, List.all_eq_true, Bool.not_eq_true',
    List.isEmpty_eq_false_iff, List.mem_map, forall_exists_index, and_imp,
    forall_apply_eq_imp_iff₂, ne_eq, List.map_eq_nil_iff]
  refine ⟨valid.1, fun c member => ?_⟩
  by_cases upper : c.isUpper = true
  · apply isAttributeNameChar_of_isLower
    rw [Char.isLower_toLower_eq_isAlpha, Char.isAlpha, upper]
    rfl
  · rw [Char.toLower_eq_of_not_isUpper upper]
    exact valid.2 c member

/-- The names of the class and style attributes. -/
def foldedNames : List Text :=
  ["class".toList, "style".toList]

/-- A name that a plain attribute may have. -/
structure IsPlainName (name : Text) : Prop where
  valid : isAttributeName name = true
  small : Text.lowered name = name
  plain : name ∉ foldedNames

/-- A name that an attribute may have in a start tag. -/
structure IsWrittenName (name : Text) : Prop where
  valid : isAttributeName name = true
  small : Text.lowered name = name

theorem isWrittenName_of_mem_foldedNames {name : Text} (member : name ∈ foldedNames) :
    IsWrittenName name := by
  rcases List.mem_pair.mp member with rfl | rfl
  · exact ⟨by decide, by decide⟩
  · exact ⟨by decide, by decide⟩

namespace ElementData

/-- What every edit keeps about the data of an element. -/
structure WellFormed (data : ElementData) : Prop where
  tag : isTagName data.tag = true
  smallTag : Text.lowered data.tag = data.tag
  names : ∀ name ∈ data.attributes.keys, IsPlainName name
  namesOnce : data.attributes.keys.Nodup
  classes : ∀ name ∈ data.classes, name ≠ [] ∧ ∀ c ∈ name, Text.isBlank c = false
  classesOnce : data.classes.Nodup
  propertiesOnce : data.style.keys.Nodup

variable {data : ElementData}

/-! ## What edits change -/

/-- Adding classes changes the class list only. -/
theorem exists_addClasses_eq (names : Text) : ∃ classes, data.addClasses names = { data with classes } := by
  rw [addClasses]
  generalize Text.words names = words
  induction words generalizing data with
  | nil => exact ⟨data.classes, rfl⟩
  | cons first rest ih =>
    obtain ⟨classes, same⟩ := @ih (data.addClass first)
    rw [List.foldl_cons, same, addClass]
    split
    · exact ⟨classes, rfl⟩
    · exact ⟨classes, rfl⟩

/-- Setting declarations changes the inline style only. -/
theorem setStyles_eq (declarations : List (Text × Text)) :
    declarations.foldl (fun data (property, value) => data.setStyle property value) data =
      { data with style :=
          declarations.foldl (fun style (property, value) => style.put property value) data.style } := by
  induction declarations generalizing data with
  | nil => rfl
  | cons first rest ih =>
    rw [List.foldl_cons, ih]
    rfl

theorem readStyle_eq (value : Text) :
    data.readStyle value =
      { data with style :=
          Entries.ofPairs ((Text.segments (· = ';') value).filterMap declarationIn) } := by
  rw [readStyle, setStyles_eq]
  rfl

theorem tag_addClasses (names : Text) : (data.addClasses names).tag = data.tag := by
  obtain ⟨classes, same⟩ := @exists_addClasses_eq data names
  rw [same]

theorem attributes_addClasses (names : Text) : (data.addClasses names).attributes = data.attributes := by
  obtain ⟨classes, same⟩ := @exists_addClasses_eq data names
  rw [same]

theorem tag_setStyle (property value : Text) : (data.setStyle property value).tag = data.tag := rfl

theorem tag_setAttribute (name value : Text) : (data.setAttribute name value).tag = data.tag := by
  rw [setAttribute]
  split
  · exact tag_addClasses value
  · split
    · rw [readStyle_eq]
    · rfl

/-- Writing an attribute leaves those of other names alone. -/
theorem get?_setAttribute_of_ne {name other : Text} (different : name ≠ other) (value : Text) :
    (data.setAttribute name value).attributes.get? other = data.attributes.get? other := by
  rw [setAttribute]
  split
  · rw [readClasses, attributes_addClasses]
  · split
    · rw [readStyle_eq]
    · exact Entries.get?_put_of_ne different value _

/-! ## What edits keep -/

theorem wellFormed_new {tag : Text} (valid : isTagName tag = true) :
    WellFormed { tag := Text.lowered tag } where
  tag := isTagName_lowered valid
  smallTag := Text.lowered_idem tag
  names := List.forall_mem_nil _
  namesOnce := List.nodup_nil
  classes := List.forall_mem_nil _
  classesOnce := List.nodup_nil
  propertiesOnce := List.nodup_nil

theorem wellFormed_named {tag : Text} (valid : isTagName tag = true) (small : Text.lowered tag = tag) :
    WellFormed { tag } := by
  have formed := wellFormed_new valid
  rwa [small] at formed

namespace WellFormed

theorem setStyle (sound : data.WellFormed) (property value : Text) :
    (data.setStyle property value).WellFormed :=
  { sound with propertiesOnce := Entries.nodup_keys_put sound.propertiesOnce property value }

theorem addClass (sound : data.WellFormed) {name : Text}
    (word : name ≠ [] ∧ ∀ c ∈ name, Text.isBlank c = false) : (data.addClass name).WellFormed := by
  rw [ElementData.addClass]
  split
  · exact sound
  · next fresh =>
    rw [List.contains_iff_mem] at fresh
    refine { sound with classes := ?_, classesOnce := ?_ }
    · intro other member
      rcases List.mem_append.mp member with old | new
      · exact sound.classes other old
      · rw [List.mem_singleton.mp new]
        exact word
    · rw [List.nodup_append]
      refine ⟨sound.classesOnce, List.nodup_singleton name, ?_⟩
      intro old member new last
      rw [List.mem_singleton.mp last]
      rintro rfl
      exact fresh member

theorem addWords (sound : data.WellFormed) {words : List Text}
    (sane : ∀ word ∈ words, word ≠ [] ∧ ∀ c ∈ word, Text.isBlank c = false) :
    (words.foldl ElementData.addClass data).WellFormed := by
  induction words generalizing data with
  | nil => exact sound
  | cons first rest ih =>
    apply ih (sound.addClass (sane first (by simp)))
    intro word member
    exact sane word (by simp [member])

theorem addClasses (sound : data.WellFormed) (names : Text) : (data.addClasses names).WellFormed :=
  sound.addWords fun _ member => Text.word_of_mem_words member

theorem setAttribute (sound : data.WellFormed) {name : Text} (valid : isAttributeName name = true)
    (value : Text) : (data.setAttribute (Text.lowered name) value).WellFormed := by
  rw [ElementData.setAttribute]
  split
  · have emptied : WellFormed { data with classes := [] } :=
      { sound with classes := (by simp), classesOnce := List.nodup_nil }
    exact emptied.addClasses value
  · split
    · rw [readStyle_eq]
      exact { sound with propertiesOnce := Entries.nodup_keys_foldl_put List.nodup_nil }
    · next notClass notStyle =>
      refine { sound with names := ?_, namesOnce := Entries.nodup_keys_put sound.namesOnce _ _ }
      intro other member
      rcases Entries.mem_keys_put member with rfl | old
      · exact ⟨isAttributeName_lowered valid, Text.lowered_idem name, by
          simpa [foldedNames] using ⟨notClass, notStyle⟩⟩
      · exact sound.names other old

theorem removeAttribute (sound : data.WellFormed) (name : Text) :
    WellFormed { data with attributes := data.attributes.erase name } where
  tag := sound.tag
  smallTag := sound.smallTag
  names other member := sound.names other ((Entries.keys_erase_sublist _ _).subset member)
  namesOnce := sound.namesOnce.sublist (Entries.keys_erase_sublist _ _)
  classes := sound.classes
  classesOnce := sound.classesOnce
  propertiesOnce := sound.propertiesOnce

end WellFormed

/-! ## Folded attributes -/

theorem keys_foldedAttributes_sublist (data : ElementData) :
    (Entries.keys data.foldedAttributes).Sublist (data.attributes.keys ++ foldedNames) := by
  rw [foldedAttributes, Entries.keys, List.map_append, List.map_append, List.append_assoc, foldedNames]
  apply List.Sublist.append (List.Sublist.refl _)
  split <;> split <;> simp only [List.map_nil, List.map_singleton] <;> decide

namespace WellFormed

theorem isWrittenName_foldedAttributes (sound : data.WellFormed) :
    ∀ name ∈ Entries.keys data.foldedAttributes, IsWrittenName name := by
  intro name member
  rcases List.mem_append.mp ((keys_foldedAttributes_sublist data).subset member) with plain | folded
  · exact ⟨(sound.names name plain).valid, (sound.names name plain).small⟩
  · exact isWrittenName_of_mem_foldedNames folded

/-- Class and style do not stand among the plain attributes, so every name is written once. -/
theorem nodup_keys_foldedAttributes (sound : data.WellFormed) :
    (Entries.keys data.foldedAttributes).Nodup := by
  apply List.Nodup.sublist (keys_foldedAttributes_sublist data)
  rw [List.nodup_append']
  refine ⟨sound.namesOnce, by decide, ?_⟩
  exact fun name plain folded => (sound.names name plain).plain folded

end WellFormed

end ElementData

end Markup

end PageCompiler
