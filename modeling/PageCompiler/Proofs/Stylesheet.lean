import Mathlib
import PageCompiler.Proofs.Steps
import PageCompiler.Proofs.Text
import PageCompiler.Style

/-!
# Accepted rules

What the check of a rule guarantees about the rule that is stored: its properties are hyphenated and its
values trimmed, so that storing them once more changes nothing, and no part of it holds a delimiter of
markup, so that no stylesheet can end the element it is written into.
-/

namespace PageCompiler

namespace Steps

variable {ε α β : Type}

/-- Every result of a traversal comes from one of the values traversed. -/
theorem exists_of_mem_mapM {step : α → Except ε β} {values : List α} {results : List β}
    (run : values.mapM step = .ok results) :
    ∀ result ∈ results, ∃ value ∈ values, step value = .ok result := by
  induction values generalizing results with
  | nil =>
    cases run
    simp
  | cons first rest ih =>
    rw [List.mapM_cons, bind_eq_ok] at run
    obtain ⟨head, headRun, run⟩ := run
    rw [bind_eq_ok] at run
    obtain ⟨tail, tailRun, run⟩ := run
    cases run
    intro result member
    rcases List.mem_cons.mp member with rfl | later
    · exact ⟨first, by simp, headRun⟩
    · obtain ⟨value, inside, found⟩ := ih tailRun result later
      exact ⟨value, by simp [inside], found⟩

/-- A traversal whose step can give one result only for each value. -/
theorem eq_map_of_mapM {step : α → Except ε β} {only : α → β} {values : List α} {results : List β}
    (each : ∀ value result, step value = .ok result → result = only value)
    (run : values.mapM step = .ok results) : results = values.map only := by
  induction values generalizing results with
  | nil =>
    cases run
    rfl
  | cons first rest ih =>
    rw [List.mapM_cons, bind_eq_ok] at run
    obtain ⟨head, headRun, run⟩ := run
    obtain ⟨tail, tailRun, run⟩ := bind_eq_ok.mp run
    cases run
    rw [each first head headRun, ih tailRun, List.map_cons]

/-- A traversal whose step gives back each value gives back the values. -/
theorem mapM_eq_self {step : α → Except ε α} {values : List α}
    (fixed : ∀ value ∈ values, step value = .ok value) : values.mapM step = .ok values := by
  induction values with
  | nil => rfl
  | cons first rest ih =>
    rw [List.forall_mem_cons] at fixed
    rw [List.mapM_cons, fixed.1, ih fixed.2]
    rfl

end Steps

namespace Style

open Steps

theorem not_mem_of_all {text : Text} {holds : Char → Bool} (every : text.all holds = true) {c : Char}
    (refused : holds c = false) : c ∉ text := by
  intro member
  rw [List.all_eq_true] at every
  rw [every c member] at refused
  cases refused

/-! ## Hyphenated names -/

/-- Whether a name is in the hyphenated form: that of a custom property, or one without capitals. -/
def IsHyphenated (name : Text) : Prop :=
  ['-', '-'] <+: name ∨ ∀ c ∈ name, c.isUpper = false

theorem kebabCase_of_isHyphenated {name : Text} (hyphenated : IsHyphenated name) :
    kebabCase name = name := by
  apply if_pos
  rw [Bool.or_eq_true, List.isPrefixOf_iff_prefix, Bool.not_eq_true', List.any_eq_false]
  exact hyphenated.imp_right fun small c member => by simp [small c member]

/-- A capital becomes a hyphen and a small letter, so no capital is left. -/
theorem isHyphenated_kebabCase (name : Text) : IsHyphenated (kebabCase name) := by
  rw [kebabCase]
  split
  · next kept =>
    rw [Bool.or_eq_true, List.isPrefixOf_iff_prefix, Bool.not_eq_true', List.any_eq_false] at kept
    exact kept.imp_right fun small c member => by simpa using small c member
  · have small : ∀ c ∈ name.flatMap fun c => if c.isUpper then ['-', c.toLower] else [c],
        c.isUpper = false := by
      intro c member
      obtain ⟨d, _, inside⟩ := List.mem_flatMap.mp member
      split at inside
      · rcases List.mem_pair.mp inside with rfl | rfl
        · rfl
        · exact Char.isUpper_toLower_eq_false d
      · next plain =>
        rw [List.mem_singleton.mp inside]
        exact eq_false_of_ne_true plain
    dsimp only
    split
    · exact Or.inr (List.forall_mem_cons.mpr ⟨rfl, small⟩)
    · exact Or.inr small

theorem kebabCase_idem (name : Text) : kebabCase (kebabCase name) = kebabCase name :=
  kebabCase_of_isHyphenated (isHyphenated_kebabCase name)

/-! ## Stored selectors and declarations -/

theorem ruleOf_eq_ok {name : Text} {declarations : Declarations} {raw : Bool} {rule : Rule} :
    ruleOf name declarations raw = .ok rule ↔
      selectorOf (Text.trim name) raw = .ok rule.selector ∧
        declarations.mapM (fun (property, value) => normalized rule.selector property value) =
          .ok rule.declarations := by
  rw [ruleOf, bind_eq_ok]
  constructor
  · rintro ⟨selector, selectorRun, run⟩
    obtain ⟨stored, storedRun, run⟩ := bind_eq_ok.mp run
    cases run
    exact ⟨selectorRun, storedRun⟩
  · rintro ⟨selectorRun, storedRun⟩
    exact ⟨_, selectorRun, bind_eq_ok.mpr ⟨_, storedRun, rfl⟩⟩

/-- A selector as it is stored, and as it may be written. -/
structure IsSelector (selector : Text) : Prop where
  filled : selector ≠ []
  trimmed : Text.IsTrimmed selector
  free : ∀ c ∈ ['\x7b', '\x7d', '<'], c ∉ selector

/-- A declaration as it is stored. -/
structure IsStored (declaration : Text × Text) : Prop where
  hyphenated : IsHyphenated declaration.1
  property_ne_nil : declaration.1 ≠ []
  property_char : ∀ c ∈ declaration.1, isPropertyChar c = true
  value_ne_nil : declaration.2 ≠ []
  value_trimmed : Text.IsTrimmed declaration.2
  value_inside : staysInsideRule declaration.2 = true

/-- Whether a character may stand in a class selector. -/
def isSelectorChar (c : Char) : Bool :=
  c = '.' || (c.isAlphanum || c = '_' || c = '-')

theorem isSelectorChar_of_isClassName {name : Text} (isClass : isClassName name = true) :
    ∀ c ∈ '.' :: name, isSelectorChar c = true := by
  cases name with
  | nil => cases isClass
  | cons first rest =>
    rw [isClassName, Bool.and_eq_true, List.all_eq_true] at isClass
    rw [List.forall_mem_cons, List.forall_mem_cons]
    refine ⟨rfl, ?_, fun c member => by rw [isSelectorChar, isClass.2 c member, Bool.or_true]⟩
    have start := isClass.1
    simp only [Bool.or_eq_true] at start
    rcases start with (letter | line) | hyphen
    · simp [isSelectorChar, Char.isAlphanum, letter]
    · simp [isSelectorChar, line]
    · simp [isSelectorChar, hyphen]

/-- The characters of class selectors stand between the blank characters of ASCII and the others. -/
theorem isBlank_of_isSelectorChar {c : Char} (char : isSelectorChar c = true) :
    Text.isBlank c = false := by
  have range : 33 ≤ c.toNat ∧ c.toNat < 0x85 := by
    simp only [isSelectorChar, Char.isAlphanum, Char.isAlpha, Char.isUpper, Char.isLower, Char.isDigit,
      Bool.or_eq_true, Bool.and_eq_true, decide_eq_true_eq, ge_iff_le, UInt32.le_iff_toNat_le] at char
    rcases char with rfl | ((((upper | lower) | digit) | rfl) | rfl)
    · decide
    · exact ⟨le_trans (by decide) upper.1, lt_of_le_of_lt upper.2 (by decide)⟩
    · exact ⟨le_trans (by decide) lower.1, lt_of_le_of_lt lower.2 (by decide)⟩
    · exact ⟨le_trans (by decide) digit.1, lt_of_le_of_lt digit.2 (by decide)⟩
    · decide
    · decide
  simp only [Text.isBlank, Bool.or_eq_false_iff, Bool.and_eq_false_iff, decide_eq_false_iff_not]
  omega
/-- What is stored as a selector is itself accepted as one, whether it names a class or was given raw. -/
theorem isSelector_of_selectorOf {name selector : Text} {raw : Bool}
    (accepted : selectorOf (Text.trim name) raw = .ok selector) : IsSelector selector := by
  unfold selectorOf at accepted
  split at accepted
  · split at accepted
    · cases accepted
    · next sane =>
      cases accepted
      rw [Bool.or_eq_true, not_or, List.isEmpty_iff, Bool.not_eq_true, List.any_eq_false] at sane
      refine ⟨sane.1, Text.isTrimmed_trim name, fun c delimiter member => ?_⟩
      exact sane.2 c member (List.contains_iff_mem.mpr delimiter)
  · split at accepted
    · next isClass =>
      cases accepted
      have chars := isSelectorChar_of_isClassName isClass
      refine ⟨List.cons_ne_nil _ _, ?_, fun c delimiter member => ?_⟩
      · exact Text.isTrimmed_of_solid fun c member => isBlank_of_isSelectorChar (chars c member)
      · have char := chars c member
        simp only [List.mem_cons, List.not_mem_nil, or_false] at delimiter
        rcases delimiter with rfl | rfl | rfl <;> cases char
    · cases accepted

theorem selectorOf_of_isSelector {selector : Text} (stored : IsSelector selector) :
    selectorOf selector true = .ok selector := by
  rw [selectorOf, if_pos rfl, if_neg]
  rw [Bool.or_eq_true, not_or, List.isEmpty_iff, Bool.not_eq_true, List.any_eq_false]
  refine ⟨stored.filled, fun c member delimiter => ?_⟩
  exact stored.free c (List.contains_iff_mem.mp delimiter) member

theorem isStored_of_normalized {selector property value : Text} {stored : Text × Text}
    (accepted : normalized selector property value = .ok stored) : IsStored stored := by
  simp only [normalized] at accepted
  split at accepted
  · cases accepted
  · next named =>
    split at accepted
    · cases accepted
    · next valued =>
      cases accepted
      rw [Bool.or_eq_true, not_or, List.isEmpty_iff, Bool.not_eq_true, Bool.not_eq_false',
        List.all_eq_true] at named
      rw [Bool.or_eq_true, not_or, List.isEmpty_iff, Bool.not_eq_true, Bool.not_eq_false'] at valued
      exact
        { hyphenated := isHyphenated_kebabCase _
          property_ne_nil := named.1
          property_char := named.2
          value_ne_nil := valued.1
          value_trimmed := Text.isTrimmed_trim value
          value_inside := valued.2 }

theorem eq_of_normalized {selector property value : Text} {stored : Text × Text}
    (accepted : normalized selector property value = .ok stored) :
    stored = (kebabCase (Text.trim property), Text.trim value) := by
  simp only [normalized] at accepted
  split at accepted
  · cases accepted
  · split at accepted
    · cases accepted
    · exact (Except.ok.inj accepted).symm

namespace IsStored

variable {declaration : Text × Text}

theorem property_trimmed (stored : IsStored declaration) : Text.IsTrimmed declaration.1 := by
  refine Text.isTrimmed_of_solid fun c member => ?_
  have char := stored.property_char c member
  rw [isPropertyChar, Bool.and_eq_true, Bool.not_eq_true'] at char
  exact char.1

theorem not_mem_property {c : Char} (stored : IsStored declaration)
    (refused : isPropertyChar c = false) : c ∉ declaration.1 :=
  not_mem_of_all (List.all_eq_true.mpr stored.property_char) refused

theorem value_closes (stored : IsStored declaration) :
    closesWithin .plain 0 declaration.2 = true := by
  have inside := stored.value_inside
  rw [staysInsideRule, Bool.and_eq_true] at inside
  exact inside.2

theorem no_delimiter (stored : IsStored declaration) :
    '<' ∉ declaration.1 ∧ '<' ∉ declaration.2 := by
  refine ⟨stored.not_mem_property rfl, ?_⟩
  have inside := stored.value_inside
  rw [staysInsideRule, Bool.and_eq_true, Bool.not_eq_true'] at inside
  simpa using inside.1

/-- A stored declaration is stored again as it stands. -/
theorem normalized_eq (stored : IsStored declaration) (selector : Text) :
    normalized selector declaration.1 declaration.2 = .ok declaration := by
  have named : ¬(declaration.1.isEmpty || !declaration.1.all isPropertyChar) = true := by
    rw [Bool.or_eq_true, not_or, List.isEmpty_iff, Bool.not_eq_true, Bool.not_eq_false',
      List.all_eq_true]
    exact ⟨stored.property_ne_nil, stored.property_char⟩
  have valued : ¬(declaration.2.isEmpty || !staysInsideRule declaration.2) = true := by
    rw [Bool.or_eq_true, not_or, List.isEmpty_iff, Bool.not_eq_true, Bool.not_eq_false']
    exact ⟨stored.value_ne_nil, stored.value_inside⟩
  simp only [normalized]
  rw [Text.trim_of_isTrimmed stored.property_trimmed, kebabCase_of_isHyphenated stored.hyphenated,
    if_neg named, Text.trim_of_isTrimmed stored.value_trimmed, if_neg valued]

end IsStored

/-! ## Stored rules -/

/-- A rule as it is stored. -/
structure Rule.IsStored (rule : Rule) : Prop where
  selector : IsSelector rule.selector
  declarations : ∀ declaration ∈ rule.declarations, Style.IsStored declaration

theorem isStored_of_ruleOf {name : Text} {declarations : Declarations} {raw : Bool} {rule : Rule}
    (accepted : ruleOf name declarations raw = .ok rule) : rule.IsStored := by
  obtain ⟨selectorRun, storedRun⟩ := ruleOf_eq_ok.mp accepted
  refine ⟨isSelector_of_selectorOf selectorRun, fun declaration member => ?_⟩
  obtain ⟨given, _, found⟩ := exists_of_mem_mapM storedRun declaration member
  exact isStored_of_normalized found

/-- The declarations of an accepted rule are the given ones, each hyphenated and trimmed. -/
theorem declarations_of_ruleOf {name : Text} {declarations : Declarations} {raw : Bool} {rule : Rule}
    (accepted : ruleOf name declarations raw = .ok rule) :
    rule.declarations =
      declarations.map fun (property, value) => (kebabCase (Text.trim property), Text.trim value) :=
  eq_map_of_mapM (fun _ _ => eq_of_normalized) (ruleOf_eq_ok.mp accepted).2

/-- A stored rule is stored again as it stands when its selector is given raw. -/
theorem Rule.IsStored.ruleOf_eq {rule : Rule} (stored : rule.IsStored) :
    ruleOf rule.selector rule.declarations true = .ok rule := by
  rw [ruleOf_eq_ok, Text.trim_of_isTrimmed stored.selector.trimmed]
  refine ⟨selectorOf_of_isSelector stored.selector, ?_⟩
  exact mapM_eq_self fun declaration member =>
    (stored.declarations declaration member).normalized_eq rule.selector

theorem not_mem_intercalate {separator : Text} {texts : List Text} {c : Char}
    (apart : c ∉ separator) (free : ∀ text ∈ texts, c ∉ text) :
    c ∉ List.intercalate separator texts := by
  induction texts with
  | nil => exact List.not_mem_nil
  | cons first rest ih =>
    rw [List.forall_mem_cons] at free
    cases rest with
    | nil => simpa [List.intercalate] using free.1
    | cons second rest =>
      have later := ih free.2
      rw [List.intercalate] at later
      simp [List.intercalate, free.1, apart, later]

/-- An accepted rule holds no delimiter of markup. -/
theorem no_delimiter_of_ruleOf {name : Text} {declarations : Declarations} {raw : Bool} {rule : Rule}
    (accepted : ruleOf name declarations raw = .ok rule) : '<' ∉ rule.text := by
  have stored := isStored_of_ruleOf accepted
  simp only [Rule.text, List.mem_append, not_or]
  refine ⟨⟨⟨stored.selector.free '<' (by decide), by decide⟩, ?_⟩, by decide⟩
  apply not_mem_intercalate (by decide)
  intro text member
  obtain ⟨declaration, listed, rfl⟩ := List.mem_map.mp member
  have free := (stored.declarations declaration listed).no_delimiter
  simp [declarationText, free.1, free.2]

end Style

namespace Stylesheet

section Defining

variable {sheet extended : Stylesheet} {name : Text} {declarations : Declarations} {raw : Bool}
  {rule : Style.Rule}

theorem define_of_ok (accepted : Style.ruleOf name declarations raw = .ok rule) :
    sheet.define name declarations raw = .ok (sheet ++ [rule]) := by
  rw [define, accepted]
  rfl

theorem define_of_error {cause : Style.RuleError}
    (refused : Style.ruleOf name declarations raw = .error cause) :
    sheet.define name declarations raw = .error cause := by
  rw [define, refused]
  rfl

theorem exists_of_define (accepted : sheet.define name declarations raw = .ok extended) :
    ∃ rule, Style.ruleOf name declarations raw = .ok rule ∧ extended = sheet ++ [rule] := by
  cases run : Style.ruleOf name declarations raw with
  | error cause =>
    rw [define_of_error run] at accepted
    cases accepted
  | ok rule =>
    rw [define_of_ok run] at accepted
    cases accepted
    exact ⟨rule, rfl, rfl⟩

/-- A stylesheet that takes a rule holds no delimiter of markup if it did not before. -/
theorem no_delimiter_of_define (free : ∀ rule ∈ sheet, '<' ∉ rule.text)
    (accepted : sheet.define name declarations raw = .ok extended) :
    ∀ rule ∈ extended, '<' ∉ rule.text := by
  obtain ⟨added, run, rfl⟩ := exists_of_define accepted
  intro rule member
  rcases List.mem_append.mp member with old | new
  · exact free rule old
  · rw [List.mem_singleton.mp new]
    exact Style.no_delimiter_of_ruleOf run

end Defining

theorem no_delimiter_of_text {sheet : Stylesheet} (free : ∀ rule ∈ sheet, '<' ∉ rule.text) :
    '<' ∉ sheet.text := by
  rw [text]
  apply Style.not_mem_intercalate (by decide)
  intro written member
  obtain ⟨rule, listed, rfl⟩ := List.mem_map.mp member
  exact free rule listed

/-- Storing a rule settles its form: hyphenating a name twice is hyphenating it once, and the rule that a
stylesheet stores holds no delimiter of markup, has no blanks around its properties and values, and is
stored in any stylesheet just as it is when its selector is given raw. -/
theorem define_settles :
    (∀ name, Style.kebabCase (Style.kebabCase name) = Style.kebabCase name) ∧
      ∀ (sheet extended : Stylesheet) (name : Text) (declarations : Declarations) (raw : Bool),
        sheet.define name declarations raw = .ok extended →
          ∃ rule, extended = sheet ++ [rule] ∧ '<' ∉ rule.selector ∧
            (∀ declaration ∈ rule.declarations, '<' ∉ declaration.1 ∧ '<' ∉ declaration.2 ∧
              Text.IsTrimmed declaration.1 ∧ Text.IsTrimmed declaration.2) ∧
            ∀ other : Stylesheet,
              other.define rule.selector rule.declarations true = .ok (other ++ [rule]) := by
  refine ⟨Style.kebabCase_idem, fun sheet extended name declarations raw accepted => ?_⟩
  obtain ⟨rule, run, rfl⟩ := exists_of_define accepted
  have stored := Style.isStored_of_ruleOf run
  refine ⟨rule, rfl, stored.selector.free '<' (by decide), fun declaration listed => ?_, fun other => ?_⟩
  · have checked := stored.declarations declaration listed
    exact ⟨checked.no_delimiter.1, checked.no_delimiter.2, checked.property_trimmed, checked.value_trimmed⟩
  · exact define_of_ok stored.ruleOf_eq

/-- The class rule of a name with blanks around it is stored once more as a raw rule. -/
theorem define_settles_class :
    let sheet := [⟨".card".toList,
      [("-webkit-box-flex".toList, "1".toList), ("--mainÄ".toList, "url(\";\")".toList)]⟩]
    define [] " card ".toList
        [("WebkitBoxFlex".toList, " 1\n".toList), (" --mainÄ".toList, "url(\";\") ".toList)] false =
      .ok sheet ∧
    ∃ rule, sheet = [] ++ [rule] ∧ define sheet rule.selector rule.declarations true = .ok (sheet ++ [rule]) := by
  intro sheet
  have accepted : define [] " card ".toList
      [("WebkitBoxFlex".toList, " 1\n".toList), (" --mainÄ".toList, "url(\";\") ".toList)] false =
      .ok sheet := by
    decide
  obtain ⟨rule, stored, _, _, again⟩ := define_settles.2 _ _ _ _ _ accepted
  exact ⟨accepted, rule, stored, again sheet⟩

end Stylesheet

end PageCompiler
