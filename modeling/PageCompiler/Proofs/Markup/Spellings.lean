import PageCompiler.Proofs.Markup.Reachable

/-!
# Spellings of attribute names

An attribute is written under the small form of its name, but it is read and removed by the name as it is
spelled. So what was written is found again under every spelling without capitals, and under no other one.
-/

namespace PageCompiler.Markup

open Document

namespace ElementData

variable {data : ElementData} {name value spelling : Text}

theorem setAttribute_plain (plain : name ∉ foldedNames) (value : Text) :
    data.setAttribute name value = { data with attributes := data.attributes.put name value } := by
  simp only [foldedNames, List.mem_cons, List.not_mem_nil, or_false, not_or] at plain
  rw [setAttribute, if_neg plain.1, if_neg plain.2]

/-- No attribute has a name with a capital. -/
theorem WellFormed.not_mem_keys (formed : data.WellFormed) (capital : ∃ c ∈ spelling, c.isUpper = true) :
    spelling ∉ data.attributes.keys := by
  intro member
  obtain ⟨c, inside, upper⟩ := capital
  have small := Text.lowered_eq_self_iff.mp (formed.names spelling member).small c inside
  rw [upper] at small
  cases small

end ElementData

namespace Document

variable {document : Document} {id : NodeId} {data : ElementData} {name spelling value : Text}

/-- The attributes of an element under all names but one, whatever the case of letters, in order. -/
def otherAttributes (document : Document) (id : NodeId) (name : Text) : Option (Entries Text) :=
  (document.element? id).map fun data =>
    data.attributes.filter fun entry => Text.lowered entry.1 ≠ Text.lowered name

theorem Sound.not_read (sound : document.Sound) (capital : ∃ c ∈ spelling, c.isUpper = true) :
    document.attribute? id spelling = none := by
  cases found : document.element? id with
  | none => rw [attribute?, found, Option.bind_none]
  | some data =>
    rw [attribute?, found, Option.bind_some]
    exact Entries.get?_of_fresh ((sound.data found).not_mem_keys capital)

theorem Sound.not_removed (sound : document.Sound) (found : document.element? id = some data)
    (capital : ∃ c ∈ spelling, c.isUpper = true) :
    Edit.removeAttribute id spelling document = .ok none document := by
  have fresh := (sound.data found).not_mem_keys capital
  have same : { data with attributes := data.attributes.erase spelling } = data := by
    rw [Entries.erase_of_fresh fresh]
  rw [Edit.removeAttribute_run found, Entries.get?_of_fresh fresh, withData_eq_self found same]

theorem otherAttributes_withData (found : document.element? id = some data)
    {change : ElementData → ElementData}
    (same : (change data).attributes.filter (fun entry => Text.lowered entry.1 ≠ Text.lowered name) =
      data.attributes.filter fun entry => Text.lowered entry.1 ≠ Text.lowered name) :
    (document.withData id change).otherAttributes id name = document.otherAttributes id name := by
  rw [otherAttributes, element?_withData found, otherAttributes, found, Option.map_some, Option.map_some,
    same]

theorem filter_put_lowered (attributes : Entries Text) (name value : Text) :
    (attributes.put (Text.lowered name) value).filter
        (fun entry => Text.lowered entry.1 ≠ Text.lowered name) =
      attributes.filter fun entry => Text.lowered entry.1 ≠ Text.lowered name := by
  have kept := Entries.filter_put (fun other => Text.lowered other ≠ Text.lowered name) (Text.lowered name)
    value attributes
  simpa [Text.lowered_idem] using kept

theorem filter_erase_lowered {attributes : Entries Text} (distinct : attributes.keys.Nodup)
    (alike : Text.lowered spelling = Text.lowered name) :
    (attributes.erase spelling).filter (fun entry => Text.lowered entry.1 ≠ Text.lowered name) =
      attributes.filter fun entry => Text.lowered entry.1 ≠ Text.lowered name := by
  rw [Entries.erase_eq_filter distinct, List.filter_filter]
  apply List.filter_congr
  intro entry _
  by_cases here : entry.1 = spelling
  · simp [here, alike]
  · simp [here]

/-- A plain attribute is written under the small form of its name. -/
theorem setAttribute_run_plain (found : document.element? id = some data)
    (valid : isAttributeName name = true) (plain : Text.lowered name ∉ foldedNames) (value : Text) :
    ∃ written, Edit.setAttribute id name value document = .ok ⟨⟩ written ∧
      written.element? id =
        some { data with attributes := data.attributes.put (Text.lowered name) value } ∧
      written.otherAttributes id name = document.otherAttributes id name := by
  have changed : data.setAttribute (Text.lowered name) value = _ := ElementData.setAttribute_plain plain value
  refine ⟨_, Edit.setAttribute_run found valid value, ?_, ?_⟩
  · rw [element?_withData found, changed]
  · apply otherAttributes_withData found
    rw [changed]
    exact filter_put_lowered data.attributes name value

/-- What is removed by the small form of a name is gone under all its spellings. -/
theorem Reachable.removeAttribute_run (reachable : document.Reachable)
    (found : document.element? id = some data) (spelling : Text) :
    ∃ removed, Edit.removeAttribute id spelling document =
        .ok (data.attributes.get? spelling) removed ∧
      (∀ other, Text.lowered other = spelling → removed.attribute? id other = none) ∧
      ∀ name, Text.lowered spelling = Text.lowered name →
        removed.otherAttributes id name = document.otherAttributes id name := by
  have distinct := (reachable.sound.data found).namesOnce
  have run := Edit.removeAttribute_run found spelling
  refine ⟨_, run, fun other alike => ?_, fun name alike => ?_⟩
  · by_cases capital : ∃ c ∈ other, c.isUpper = true
    · have after := reachable.mutated (.removeAttribute id spelling)
      rw [Mutation.apply, after_of_ok run] at after
      exact after.sound.not_read capital
    · have same : other = spelling := by
        rw [← alike, Text.lowered_eq_self_iff.mpr (by simpa using capital)]
      rw [attribute?, element?_withData found, Option.bind_some, same]
      exact Entries.get?_erase_self distinct
  · exact otherAttributes_withData found (filter_erase_lowered distinct alike)

/-- A plain attribute of a live element can always be written. It keeps its place or comes last, and the
other attributes stay as they are, in their order. What was written is read and removed under a spelling of
the name exactly when this spelling has no capital; under any other one nothing is found, and removing leaves
the document as it is. -/
theorem Reachable.attribute_spellings (reachable : document.Reachable)
    (found : document.element? id = some data) (valid : isAttributeName name = true)
    (plain : Text.lowered name ∉ foldedNames) (value : Text) :
    ∃ written, Edit.setAttribute id name value document = .ok ⟨⟩ written ∧
      (written.element? id).map (fun changed => changed.attributes.keys) =
        some (if Text.lowered name ∈ data.attributes.keys then data.attributes.keys
          else data.attributes.keys ++ [Text.lowered name]) ∧
      written.otherAttributes id name = document.otherAttributes id name ∧
      ∀ spelling, Text.lowered spelling = Text.lowered name →
        ((∀ c ∈ spelling, c.isUpper = false) →
          written.attribute? id spelling = some value ∧
            ∃ removed, Edit.removeAttribute id spelling written = .ok (some value) removed ∧
              (∀ other, Text.lowered other = Text.lowered name → removed.attribute? id other = none) ∧
              removed.otherAttributes id name = document.otherAttributes id name) ∧
        ((∃ c ∈ spelling, c.isUpper = true) →
          written.attribute? id spelling = none ∧
            Edit.removeAttribute id spelling written = .ok none written) := by
  obtain ⟨written, run, there, others⟩ := setAttribute_run_plain found valid plain value
  have after : written.Reachable := by
    have mutated := reachable.mutated (.setAttribute id name value)
    rwa [Mutation.apply, after_of_ok run] at mutated
  refine ⟨written, run, ?_, others, fun spelling alike => ⟨fun small => ?_, fun capital => ?_⟩⟩
  · rw [there, Option.map_some, Entries.keys_put]
  -- Without capitals there is one spelling only, the one under which the attribute is stored.
  · have same : spelling = Text.lowered name := (Text.lowered_eq_self_iff.mpr small).symm.trans alike
    have read : Entries.get? spelling (data.attributes.put (Text.lowered name) value) = some value := by
      rw [same, Entries.get?_put_self]
    obtain ⟨removed, removedRun, gone, kept⟩ := after.removeAttribute_run there spelling
    rw [read] at removedRun
    refine ⟨by rw [attribute?, there, Option.bind_some, read], removed, removedRun, ?_, ?_⟩
    · exact fun other otherAlike => gone other (otherAlike.trans same.symm)
    · exact (kept name alike).trans others
  · exact ⟨after.sound.not_read capital, after.sound.not_removed there capital⟩

/-- A paragraph with a title gets an identifier: it is read as `id`, not as `ID`. -/
theorem attribute_spellings_identifier :
    let mutations : List Mutation :=
      [.createElement "p".toList, .setAttribute 0 "title".toList "t".toList]
    let document := mutations.foldl (fun document mutation => mutation.apply document) {}
    document.Reachable ∧ ∃ written, Edit.setAttribute 0 "ID".toList "x".toList document = .ok ⟨⟩ written ∧
      written.attribute? 0 "id".toList = some "x".toList ∧ written.attribute? 0 "ID".toList = none := by
  intro mutations document
  have reachable : document.Reachable := Reachable.empty.run mutations
  have found : document.element? 0 = some
      { tag := "p".toList, attributes := [("title".toList, "t".toList)] } := by
    decide
  obtain ⟨written, run, _, _, spellings⟩ := reachable.attribute_spellings found
    (show isAttributeName "ID".toList = true by decide) (by decide) "x".toList
  refine ⟨reachable, written, run, ?_, ?_⟩
  · have small : ∀ c ∈ "id".toList, c.isUpper = false := Text.lowered_eq_self_iff.mp (by decide)
    exact ((spellings "id".toList (by decide)).1 small).1
  · exact ((spellings "ID".toList rfl).2 ⟨'I', by decide, by decide⟩).1

/-- An attribute that was written is neither read nor removed under the spelling that it was written with. -/
theorem attribute_can_be_unread :
    let document := Mutation.apply (.createElement "p".toList) {}
    document.Reachable ∧ ∃ written, Edit.setAttribute 0 "ID".toList "x".toList document = .ok ⟨⟩ written ∧
      written.attribute? 0 "ID".toList = none ∧
      Edit.removeAttribute 0 "ID".toList written = .ok none written ∧
      written.attribute? 0 "id".toList = some "x".toList := by
  exact ⟨.mutated _ .empty, _, rfl, by decide, rfl, by decide⟩

end Document

end PageCompiler.Markup
