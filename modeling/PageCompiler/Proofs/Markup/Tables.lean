import PageCompiler.Proofs.Markup.Grafts

/-!
# Elements from tables

Attributes that are written one after another, class names that are added one after another and inline
declarations that are set one after another come to what a table of the attributes says.
-/

namespace PageCompiler

open Markup

namespace Markup.ElementData

variable {data : ElementData}

theorem addClass_collected (known : List Text) (word : Text) :
    addClass { data with classes := known.eraseDups } word =
      { data with classes := (known ++ [word]).eraseDups } := by
  rw [addClass, List.eraseDups_append]
  by_cases there : word ∈ known
  · simp [there, List.removeAll]
  · simp [there, List.removeAll, List.eraseDups_cons]

theorem addWords_collected (known words : List Text) :
    words.foldl addClass { data with classes := known.eraseDups } =
      { data with classes := (known ++ words).eraseDups } := by
  induction words generalizing known with
  | nil => simp
  | cons word rest ih =>
    rw [List.foldl_cons, addClass_collected, ih, List.append_assoc, List.singleton_append]

theorem addAllClasses_collected {known : List Text} (collected : data.classes = known.eraseDups)
    (names : List Text) :
    names.foldl addClasses data =
      { data with classes := (known ++ names.flatMap Text.words).eraseDups } := by
  induction names generalizing data known with
  | nil => simp [← collected]
  | cons first rest ih =>
    have added := @addWords_collected data known (Text.words first)
    rw [← collected] at added
    rw [List.foldl_cons, addClasses, added, ih rfl, List.flatMap_cons, List.append_assoc]

/-- The element with the attributes of a table, whose names are in small letters. -/
def ofTable (tag : Text) (table : Entries Text) : ElementData where
  tag := tag
  attributes := table.filter fun (name, _) => !foldedNames.contains name
  classes := ((table.get? "class".toList).toList.flatMap Text.words).eraseDups
  style := Entries.ofPairs ((table.get? "style".toList).toList.flatMap fun value =>
      (Text.segments (· = ';') value).filterMap declarationIn)

theorem setAttribute_ofTable (tag : Text) (table : Entries Text) (name value : Text) :
    (ofTable tag table).setAttribute name value = ofTable tag (table.put name value) := by
  have apart : "class".toList ≠ "style".toList := by decide
  unfold ofTable setAttribute
  rw [Entries.filter_put fun name => !foldedNames.contains name]
  by_cases isClass : name = "class".toList
  · have words := @addWords_collected { ofTable tag table with classes := [] } [] (Text.words value)
    subst isClass
    rw [if_pos rfl, readClasses, addClasses, Entries.get?_put_self, Entries.get?_put_of_ne apart]
    simpa [ofTable, foldedNames] using words
  · by_cases isStyle : name = "style".toList
    · subst isStyle
      rw [if_neg isClass, if_pos rfl, readStyle_eq, Entries.get?_put_self,
        Entries.get?_put_of_ne apart.symm]
      simp [foldedNames]
    · have plain : (!foldedNames.contains name) = true := by
        simpa [foldedNames] using ⟨isClass, isStyle⟩
      rw [if_neg isClass, if_neg isStyle, Entries.get?_put_of_ne isClass, Entries.get?_put_of_ne isStyle,
        if_pos plain]

theorem setAttributes_ofTable (tag : Text) (table : Entries Text) (attributes : List (Text × Text)) :
    (ofTable tag table).setAttributes attributes =
      ofTable tag ((attributes.map fun (name, value) => (Text.lowered name, value)).foldl
        (fun entries (key, value) => entries.put key value) table) := by
  induction attributes generalizing table with
  | nil => rfl
  | cons first rest ih =>
    rw [setAttributes_cons, setAttribute_ofTable, ih, List.map_cons, List.foldl_cons]

end Markup.ElementData

end PageCompiler
