import PageCompiler.Proofs.Markup.Data
import PageCompiler.Markup.Tree

/-!
# Reading escapes and tags

Escaped characters form a prefix code, so that an escaped text can be read back up to the delimiter
after it. With the characters that names may hold, a start tag can be read back in the same way.
-/

namespace PageCompiler.Markup

/-- Whether the words of a code can be told apart at their start. -/
def IsPrefixCode (code : Char → Text) : Prop :=
  ∀ (c d : Char) (first second : Text),
    code c ++ first = code d ++ second → c = d ∧ first = second

/-- An encoded text ends where no word of the code can start. -/
theorem flatMap_append_inj {code : Char → Text} (distinct : IsPrefixCode code)
    {stops : Text → Prop} (apart : ∀ c rest, ¬ stops (code c ++ rest)) {first second : Text}
    {after other : Text} (same : first.flatMap code ++ after = second.flatMap code ++ other)
    (firstStops : stops after) (secondStops : stops other) : first = second ∧ after = other := by
  induction first generalizing second with
  | nil =>
    cases second with
    | nil => exact ⟨rfl, same⟩
    | cons d second =>
      rw [List.flatMap_cons, List.append_assoc] at same
      rw [List.flatMap_nil, List.nil_append] at same
      rw [same] at firstStops
      exact absurd firstStops (apart d _)
  | cons c first ih =>
    cases second with
    | nil =>
      rw [List.flatMap_cons, List.append_assoc] at same
      rw [List.flatMap_nil, List.nil_append] at same
      rw [← same] at secondStops
      exact absurd secondStops (apart c _)
    | cons d second =>
      rw [List.flatMap_cons, List.flatMap_cons, List.append_assoc, List.append_assoc] at same
      obtain ⟨rfl, rest⟩ := distinct c d _ _ same
      obtain ⟨rfl, last⟩ := ih rest
      exact ⟨rfl, last⟩

theorem isPrefixCode_text : IsPrefixCode escapedInText := by
  intro c d first second same
  unfold escapedInText at same
  split_ifs at same <;> simp_all <;> exact absurd same.1.symm (by assumption)

theorem isPrefixCode_attribute : IsPrefixCode escapedInAttribute := by
  intro c d first second same
  unfold escapedInAttribute escapedInText at same
  split_ifs at same <;> simp_all <;> exact absurd same.1.symm (by assumption)

/-- Where an escaped text ends: at a tag or at the end. -/
def EndsText (rest : Text) : Prop :=
  rest = [] ∨ ∃ after, rest = '<' :: after

theorem not_endsText_escaped (c : Char) (rest : Text) : ¬ EndsText (escapedInText c ++ rest) := by
  unfold EndsText escapedInText
  split_ifs <;> simp_all

theorem escapeText_append_inj {first second after other : Text}
    (same : escapeText first ++ after = escapeText second ++ other) (firstEnds : EndsText after)
    (secondEnds : EndsText other) : first = second ∧ after = other :=
  flatMap_append_inj isPrefixCode_text not_endsText_escaped same firstEnds secondEnds

theorem escapeText_append (first second : Text) :
    escapeText (first ++ second) = escapeText first ++ escapeText second :=
  List.flatMap_append

/-- Escaped text that is not empty does not start with a tag. -/
theorem not_endsText_escapeText {content : Text} (filled : content ≠ []) (rest : Text) :
    ¬ EndsText (escapeText content ++ rest) := by
  obtain ⟨c, others, rfl⟩ := List.exists_cons_of_ne_nil filled
  rw [escapeText, List.flatMap_cons, List.append_assoc]
  exact not_endsText_escaped c _

/-- Where an escaped attribute value ends: at the quote after it. -/
def EndsValue (rest : Text) : Prop :=
  ∃ after, rest = '"' :: after

theorem not_endsValue_escaped (c : Char) (rest : Text) :
    ¬ EndsValue (escapedInAttribute c ++ rest) := by
  unfold EndsValue escapedInAttribute escapedInText
  split_ifs <;> simp_all

theorem escapeAttribute_append_inj {first second after other : Text}
    (same : escapeAttribute first ++ '"' :: after = escapeAttribute second ++ '"' :: other) :
    first = second ∧ after = other := by
  have read := flatMap_append_inj isPrefixCode_attribute not_endsValue_escaped same ⟨_, rfl⟩ ⟨_, rfl⟩
  exact ⟨read.1, List.tail_eq_of_cons_eq read.2⟩

/-- A word ends where the first character that it cannot hold stands. -/
theorem word_append_inj {holds : Char → Prop} {first second after other : Text} {c d : Char}
    (same : first ++ c :: after = second ++ d :: other) (inFirst : ∀ c ∈ first, holds c)
    (inSecond : ∀ c ∈ second, holds c) (notAfter : ¬ holds c) (notOther : ¬ holds d) :
    first = second ∧ c :: after = d :: other := by
  induction first generalizing second with
  | nil =>
    cases second with
    | nil => exact ⟨rfl, same⟩
    | cons head second =>
      rw [List.nil_append, List.cons_append, List.cons.injEq] at same
      rw [same.1] at notAfter
      exact absurd (inSecond head (by simp)) notAfter
  | cons head first ih =>
    cases second with
    | nil =>
      rw [List.nil_append, List.cons_append, List.cons.injEq] at same
      rw [← same.1] at notOther
      exact absurd (inFirst head (by simp)) notOther
    | cons otherHead second =>
      rw [List.cons_append, List.cons_append, List.cons.injEq] at same
      obtain ⟨rfl, rest⟩ := same
      obtain ⟨rfl, last⟩ := ih rest (fun c member => inFirst c (by simp [member]))
        fun c member => inSecond c (by simp [member])
      exact ⟨rfl, last⟩

/-! ## Tags -/

/-- Whether a character may stand in a tag. -/
def IsTagChar (c : Char) : Prop :=
  c.isAlphanum = true ∨ c = '-'

theorem isTagChar_of_isTagName {tag : Text} (valid : isTagName tag = true) :
    ∀ c ∈ tag, IsTagChar c := by
  cases tag with
  | nil => simp
  | cons first rest =>
    simp only [isTagName, Bool.and_eq_true, List.all_eq_true, Bool.or_eq_true,
      decide_eq_true_eq] at valid
    intro c member
    rcases List.mem_cons.mp member with rfl | inside
    · exact Or.inl (by rw [Char.isAlphanum, valid.1]; rfl)
    · exact valid.2 c inside

/-- The attributes of a start tag. -/
def attributesText (attributes : List (Text × Text)) : Text :=
  attributes.flatMap fun (name, value) => Tree.attributeText name value

theorem attributesText_cons_append (name value : Text) (rest : List (Text × Text)) (after : Text) :
    attributesText ((name, value) :: rest) ++ after =
      ' ' :: (name ++ '=' :: '"' :: (escapeAttribute value ++
        '"' :: (attributesText rest ++ after))) := by
  rw [attributesText, List.flatMap_cons, ← attributesText]
  simp [Tree.attributeText]

theorem attributesText_append_inj {first second : List (Text × Text)} {after other : Text}
    (same : attributesText first ++ '>' :: after = attributesText second ++ '>' :: other)
    (inFirst : ∀ name ∈ Entries.keys first, '=' ∉ name)
    (inSecond : ∀ name ∈ Entries.keys second, '=' ∉ name) : first = second ∧ after = other := by
  induction first generalizing second with
  | nil =>
    cases second with
    | nil => exact ⟨rfl, List.tail_eq_of_cons_eq same⟩
    | cons entry second =>
      rw [attributesText_cons_append] at same
      exact absurd (List.head_eq_of_cons_eq same) (by decide)
  | cons entry first ih =>
    obtain ⟨name, value⟩ := entry
    cases second with
    | nil =>
      rw [attributesText_cons_append] at same
      exact absurd (List.head_eq_of_cons_eq same) (by decide)
    | cons entry second =>
      obtain ⟨otherName, otherValue⟩ := entry
      rw [attributesText_cons_append, attributesText_cons_append, List.cons.injEq] at same
      simp only [Entries.keys, List.map_cons, List.forall_mem_cons] at inFirst inSecond
      have plain : ∀ {text : Text}, '=' ∉ text → ∀ c ∈ text, c ≠ '=' := by
        rintro text free c member rfl
        exact free member
      obtain ⟨rfl, rest⟩ := word_append_inj same.2 (plain inFirst.1) (plain inSecond.1) (by simp)
        (by simp)
      simp only [List.cons.injEq, true_and] at rest
      obtain ⟨rfl, more⟩ := escapeAttribute_append_inj rest
      obtain ⟨rfl, last⟩ := ih more inFirst.2 inSecond.2
      exact ⟨rfl, last⟩

/-- What follows the tag in a start tag: an attribute or the end. -/
theorem attributesText_starts (attributes : List (Text × Text)) (after : Text) :
    ∃ c rest, ¬ IsTagChar c ∧ attributesText attributes ++ '>' :: after = c :: rest := by
  cases attributes with
  | nil => exact ⟨'>', after, by unfold IsTagChar; decide, rfl⟩
  | cons entry attributes =>
    obtain ⟨name, value⟩ := entry
    exact ⟨' ', _, by unfold IsTagChar; decide, attributesText_cons_append name value attributes _⟩

/-- The start tag of an element with a tag and folded attributes. -/
def startTagOf (tag : Text) (attributes : List (Text × Text)) : Text :=
  '<' :: (tag ++ attributesText attributes ++ ['>'])

theorem startTagOf_append_inj {tag otherTag : Text} {first second : List (Text × Text)}
    {after other : Text} (same : startTagOf tag first ++ after = startTagOf otherTag second ++ other)
    (valid : isTagName tag = true) (otherValid : isTagName otherTag = true)
    (inFirst : ∀ name ∈ Entries.keys first, '=' ∉ name)
    (inSecond : ∀ name ∈ Entries.keys second, '=' ∉ name) :
    tag = otherTag ∧ first = second ∧ after = other := by
  simp only [startTagOf, List.cons_append, List.append_assoc, List.nil_append, List.cons.injEq,
    true_and] at same
  obtain ⟨c, rest, stops, split⟩ := attributesText_starts first after
  obtain ⟨d, otherRest, otherStops, otherSplit⟩ := attributesText_starts second other
  rw [split, otherSplit] at same
  obtain ⟨sameTag, more⟩ := word_append_inj same (isTagChar_of_isTagName valid)
    (isTagChar_of_isTagName otherValid) stops otherStops
  rw [← split, ← otherSplit] at more
  exact ⟨sameTag, attributesText_append_inj more inFirst inSecond⟩

end PageCompiler.Markup
