import PageCompiler.Proofs.Stylesheet.Contained

/-!
# Written stylesheets read back

A rule that is written in front of any text is the first rule read from it, if its declarations are
contained. So the text of a stylesheet of accepted class rules reads back as these rules exactly when all
their declarations are contained, and there are accepted values that are not.
-/

namespace PageCompiler

namespace Style

/-! ## Written rules read back -/

theorem dropWhile_isSpace {c : Char} (solid : isSpace c = false) (rest : Text) :
    (c :: rest).dropWhile isSpace = c :: rest :=
  List.dropWhile_cons_of_neg (by simp [solid])

theorem readDeclarations_blank (limit : Nat) (text : Text) :
    readDeclarations limit (' ' :: text) = readDeclarations limit text := by
  cases limit <;> rfl

theorem readRules_lineFeed (limit : Nat) (text : Text) :
    readRules limit ('\n' :: text) = readRules limit text := by
  cases limit <;> rfl

theorem readDeclarations_append {declaration : Text × Text} (checked : IsChecked declaration)
    (contained : IsContained declaration) (limit : Nat) (rest : Text) :
    readDeclarations (limit + 1) (declarationText declaration.1 declaration.2 ++ rest) =
      (readDeclarations limit rest).map fun read => (declaration :: read.1, read.2) := by
  obtain ⟨property, value⟩ := declaration
  obtain ⟨first, others, rfl⟩ := List.exists_cons_of_ne_nil checked.property_ne_nil
  obtain ⟨head, tail, rfl, headSolid⟩ := checked.value_head
  have firstChar := checked.property_char first List.mem_cons_self
  have firstSolid : isSpace first = false := by
    rw [isPropertyChar, Bool.and_eq_true, Bool.not_eq_true'] at firstChar
    exact isSpace_eq_false firstChar.1
  have firstOther : first ≠ '\x7d' := by
    rintro rfl
    cases firstChar
  have written : declarationText (first :: others) (head :: tail) ++ rest =
      (first :: others) ++ ':' :: ' ' :: ((head :: tail) ++ ';' :: rest) := by
    simp [declarationText]
  have propertyRead := cutAt_append contained.1 ':' rfl
  have valueRead := cutAt_append contained.2 ';' rfl
  have blank (text : Text) : (' ' :: text).dropWhile isSpace = text.dropWhile isSpace := rfl
  rw [written, readDeclarations, List.cons_append, dropWhile_isSpace firstSolid]
  split
  · next same => exact absurd (List.cons.inj same).1 firstOther
  · rw [← List.cons_append, propertyRead]
    simp only [bind, Option.bind_some, blank]
    rw [List.cons_append, dropWhile_isSpace headSolid, ← List.cons_append, valueRead]
    simp only [Option.bind_some]
    cases readDeclarations limit rest <;> rfl

/-- The declarations of a rule as they are written. -/
def declarationsText (declarations : List (Text × Text)) : Text :=
  List.intercalate [' '] (declarations.map fun (property, value) => declarationText property value)

theorem readDeclarations_written {declarations : List (Text × Text)}
    (checked : ∀ declaration ∈ declarations, IsChecked declaration)
    (contained : ∀ declaration ∈ declarations, IsContained declaration) {limit : Nat}
    (enough : declarations.length < limit) (rest : Text) :
    readDeclarations limit (declarationsText declarations ++ ' ' :: '\x7d' :: rest) =
      some (declarations, rest) := by
  induction declarations generalizing limit with
  | nil =>
    obtain ⟨limit, rfl⟩ := Nat.exists_eq_add_one.mpr enough
    rfl
  | cons first others ih =>
    obtain ⟨limit, rfl⟩ := Nat.exists_eq_add_one.mpr (Nat.zero_lt_of_lt enough)
    rw [List.forall_mem_cons] at checked contained
    have later := ih checked.2 contained.2 (Nat.lt_of_succ_lt_succ enough)
    obtain ⟨after, written, afterRead⟩ : ∃ after,
        declarationsText (first :: others) ++ ' ' :: '\x7d' :: rest =
          declarationText first.1 first.2 ++ after ∧
        readDeclarations limit after = some (others, rest) := by
      cases others with
      | nil => exact ⟨_, by simp [declarationsText], later⟩
      | cons second others =>
        refine ⟨_, ?_, (readDeclarations_blank limit _).trans later⟩
        simp [declarationsText, List.intercalate_cons_cons]
    rw [written, readDeclarations_append checked.1 contained.1, afterRead]
    rfl

theorem length_le_length_intercalate (separator : Text) {texts : List Text}
    (written : ∀ text ∈ texts, text ≠ []) :
    texts.length ≤ (List.intercalate separator texts).length := by
  induction texts with
  | nil => exact Nat.zero_le _
  | cons first others ih =>
    rw [List.forall_mem_cons] at written
    have one := List.length_pos_of_ne_nil written.1
    have later := ih written.2
    cases others with
    | nil => rwa [List.intercalate_singleton]
    | cons second others =>
      rw [List.intercalate_cons_cons, List.length_append, List.length_append, List.length_cons]
      omega

theorem length_le_length_declarationsText (declarations : List (Text × Text)) :
    declarations.length ≤ (declarationsText declarations).length := by
  rw [← List.length_map fun (property, value) => declarationText property value]
  refine length_le_length_intercalate _ fun text member => ?_
  obtain ⟨declaration, _, rfl⟩ := List.mem_map.mp member
  simp [declarationText]

theorem readRules_append {rule : Rule} (checked : IsClassRule rule)
    (contained : ∀ declaration ∈ rule.declarations, IsContained declaration) (limit : Nat)
    (rest : Text) :
    readRules (limit + 1) (rule.text ++ rest) = (readRules limit rest).map (rule :: ·) := by
  obtain ⟨selector, declarations⟩ := rule
  obtain ⟨name, rfl, isClass⟩ := checked.selector
  have written : Rule.text ⟨'.' :: name, declarations⟩ ++ rest =
      ('.' :: name ++ [' ']) ++ '\x7b' ::
        (' ' :: (declarationsText declarations ++ ' ' :: '\x7d' :: rest)) := by
    simp [Rule.text, declarationsText]
  have selectorRead := cutAt_append (isContained_selector isClass) '\x7b' rfl
  have enough : declarations.length <
      (' ' :: (declarationsText declarations ++ ' ' :: '\x7d' :: rest)).length + 1 := by
    have bound := length_le_length_declarationsText declarations
    rw [List.length_cons, List.length_append]
    omega
  rw [written, readRules, List.cons_append, List.cons_append, dropWhile_isSpace rfl]
  dsimp only
  rw [← List.cons_append, ← List.cons_append, selectorRead]
  simp only [bind, Option.bind_some, readDeclarations_blank]
  rw [readDeclarations_written checked.declarations contained enough, Option.bind_some,
    rdropWhile_selector isClass]
  cases readRules limit rest <;> rfl

theorem readRules_written {sheet : List Rule} (checked : ∀ rule ∈ sheet, IsClassRule rule)
    (contained : ∀ rule ∈ sheet, ∀ declaration ∈ rule.declarations, IsContained declaration)
    {limit : Nat} (enough : sheet.length < limit) :
    readRules limit (Stylesheet.text sheet) = some sheet := by
  induction sheet generalizing limit with
  | nil =>
    obtain ⟨limit, rfl⟩ := Nat.exists_eq_add_one.mpr enough
    rfl
  | cons first others ih =>
    obtain ⟨limit, rfl⟩ := Nat.exists_eq_add_one.mpr (Nat.zero_lt_of_lt enough)
    rw [List.forall_mem_cons] at checked contained
    have later := ih checked.2 contained.2 (Nat.lt_of_succ_lt_succ enough)
    obtain ⟨after, written, afterRead⟩ : ∃ after,
        Stylesheet.text (first :: others) = first.text ++ after ∧
        readRules limit after = some others := by
      cases others with
      | nil => exact ⟨_, by simp [Stylesheet.text], later⟩
      | cons second others =>
        refine ⟨_, ?_, (readRules_lineFeed limit _).trans later⟩
        simp [Stylesheet.text, List.intercalate_cons_cons]
    rw [written, readRules_append checked.1 contained.1, afterRead]
    rfl

end Style

namespace Stylesheet

theorem defineAll_eq (sheet : Stylesheet) (calls : List (Text × Declarations)) :
    defineAll sheet calls =
      sheet ++ calls.filterMap fun call => (Style.ruleOf call.1 call.2 false).toOption := by
  induction calls generalizing sheet with
  | nil => exact (List.append_nil sheet).symm
  | cons call rest ih =>
    obtain ⟨name, declarations⟩ := call
    rw [defineAll, define]
    cases run : Style.ruleOf name declarations false with
    | ok rule => simp [Except.map, ih, run, Except.toOption]
    | error cause => simp [Except.map, ih, run, Except.toOption]

theorem isClassRule_of_defineAll {calls : List (Text × Declarations)} :
    ∀ rule ∈ defineAll [] calls, Style.IsClassRule rule := by
  intro rule member
  rw [defineAll_eq, List.nil_append] at member
  obtain ⟨⟨name, declarations⟩, _, accepted⟩ := List.mem_filterMap.mp member
  cases run : Style.ruleOf name declarations false with
  | ok stored =>
    simp only [run, Except.toOption, Option.some.injEq] at accepted
    subst accepted
    exact Style.isClassRule_of_ruleOf run
  | error cause => simp [run, Except.toOption] at accepted

theorem read_text {sheet : Stylesheet} (checked : ∀ rule ∈ sheet, Style.IsClassRule rule)
    (contained : ∀ rule ∈ sheet, ∀ declaration ∈ rule.declarations, Style.IsContained declaration) :
    read sheet.text = some sheet := by
  refine Style.readRules_written checked contained (Nat.lt_succ_of_le ?_)
  rw [text, ← List.length_map Style.Rule.text]
  refine Style.length_le_length_intercalate _ fun written member => ?_
  obtain ⟨rule, _, rfl⟩ := List.mem_map.mp member
  simp [Style.Rule.text]

/-- Class rules are defined one after another on an empty stylesheet. The stylesheet holds the accepted
rules in order, and its text reads back as exactly these if and only if each stored property and value is
contained. They are contained when nothing stands in them that the check of rules reads otherwise than a
stylesheet is read. -/
theorem read_defineAll_iff (calls : List (Text × Declarations)) :
    defineAll [] calls =
        calls.filterMap (fun call => (Style.ruleOf call.1 call.2 false).toOption) ∧
      (read (text (defineAll [] calls)) = some (defineAll [] calls) ↔
        ∀ rule ∈ defineAll [] calls, ∀ declaration ∈ rule.declarations,
          Style.IsContained declaration) ∧
      ∀ rule ∈ defineAll [] calls, ∀ declaration ∈ rule.declarations,
        Style.ReadsAlike declaration.1 → (∀ c ∈ ['\\', '(', ')'], c ∉ declaration.1) →
        Style.ReadsAlike declaration.2 → Style.IsContained declaration := by
  refine ⟨defineAll_eq [] calls, ⟨fun readBack => ?_, read_text isClassRule_of_defineAll⟩, ?_⟩
  · exact Style.isContained_of_readRules readBack
  · intro rule member declaration listed propertyAlike plain valueAlike
    have checked := (isClassRule_of_defineAll rule member).declarations declaration listed
    exact ⟨Style.isContained_property checked.property_char propertyAlike.noComment plain,
      Style.isContained_start checked.value_closes (fun _ _ => rfl) valueAlike⟩

/-- Delimiters inside quotes and parentheses do no harm, and a rule that is refused leaves no trace. -/
theorem read_defineAll_iff_quoted :
    let calls : List (Text × Declarations) :=
      [("card".toList, [("backgroundImage".toList, "url(\";\")".toList)]),
        ("card".toList, [("color".toList, "red; \x7d".toList)]),
        ("note".toList, [("content".toList, "';\x7d'".toList), ("margin".toList, "0".toList)])]
    (∀ rule ∈ defineAll [] calls, ∀ declaration ∈ rule.declarations,
        Style.ReadsAlike declaration.1 ∧ (∀ c ∈ ['\\', '(', ')'], c ∉ declaration.1) ∧
          Style.ReadsAlike declaration.2) ∧
      read (text (defineAll [] calls)) = some (defineAll [] calls) ∧
      (defineAll [] calls).length = 2 := by
  intro calls
  have accepted : defineAll [] calls =
      [⟨".card".toList, [("background-image".toList, "url(\";\")".toList)]⟩,
        ⟨".note".toList, [("content".toList, "';\x7d'".toList), ("margin".toList, "0".toList)]⟩] := by
    decide
  have plain : ∀ rule ∈ defineAll [] calls, ∀ declaration ∈ rule.declarations,
      (∀ c ∈ declaration.1, c ∉ ['/', '\\', '\r', '\x0c', '(', ')']) ∧
        ∀ c ∈ declaration.2, c ∉ ['/', '\\', '\r', '\x0c'] := by
    rw [accepted]
    simp [-Prod.forall]
  have alike : ∀ rule ∈ defineAll [] calls, ∀ declaration ∈ rule.declarations,
      Style.ReadsAlike declaration.1 ∧ (∀ c ∈ ['\\', '(', ')'], c ∉ declaration.1) ∧
        Style.ReadsAlike declaration.2 := by
    intro rule member declaration listed
    obtain ⟨property, value⟩ := plain rule member declaration listed
    exact ⟨Style.readsAlike_of_plain fun c inside marked => property c inside (by grind),
      fun c marked inside => property c inside (by grind), Style.readsAlike_of_plain value⟩
  obtain ⟨_, readBack, contained⟩ := read_defineAll_iff calls
  refine ⟨alike, readBack.mpr fun rule member declaration listed => ?_, by rw [accepted]; rfl⟩
  obtain ⟨property, plain, value⟩ := alike rule member declaration listed
  exact contained rule member declaration listed property plain value

/-- Two comments, each with a quote in it, hide the end of the declaration from the check of values: the
text of the one accepted rule reads as two rules. -/
theorem value_can_leave_rule :
    let value := "/*'*/red; \x7d p \x7b color: blue/*'*/".toList
    let sheet := defineAll [] [("c".toList, [("color".toList, value)])]
    sheet = [⟨".c".toList, [("color".toList, value)]⟩] ∧
      read sheet.text =
        some [⟨".c".toList, [("color".toList, "/*'*/red".toList)]⟩,
          ⟨"p".toList, [("color".toList, "blue/*'*/".toList)]⟩] := by
  decide

end Stylesheet

end PageCompiler
