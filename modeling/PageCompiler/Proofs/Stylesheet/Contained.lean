import PageCompiler.Proofs.Stylesheet.Reading

/-!
# Accepted declarations that are contained

What the check of a rule ensures about the declarations it stores, and when this is enough for them to be
contained: the check of values follows quotes, escapes and parentheses as the reading of a stylesheet does,
so the two agree on every text in which no comment starts, no line ends but by a line feed, and no
backslash stands at the end.
-/

namespace PageCompiler

namespace Style

/-! ## What the check of a rule ensures -/

/-- What the check ensures of a stored declaration. -/
structure IsChecked (declaration : Text × Text) : Prop where
  property_ne_nil : declaration.1 ≠ []
  property_char : ∀ c ∈ declaration.1, isPropertyChar c = true
  value_head : ∃ c rest, declaration.2 = c :: rest ∧ isSpace c = false
  value_closes : closesWithin .plain 0 declaration.2 = true

/-- What the check ensures of a stored class rule. -/
structure IsClassRule (rule : Rule) : Prop where
  selector : ∃ name, rule.selector = '.' :: name ∧ isClassName name = true
  declarations : ∀ declaration ∈ rule.declarations, IsChecked declaration

theorem isSpace_eq_false {c : Char} (solid : Text.isBlank c = false) : isSpace c = false := by
  refine eq_false_of_ne_true fun space => ?_
  simp only [isSpace, isLineEnd, Bool.or_eq_true, decide_eq_true_eq] at space
  rcases space with (rfl | rfl) | (rfl | rfl) | rfl <;> cases solid

theorem IsStored.isChecked {declaration : Text × Text} (stored : IsStored declaration) :
    IsChecked declaration := by
  obtain ⟨c, rest, same⟩ := List.exists_cons_of_ne_nil stored.value_ne_nil
  have solid : Text.isBlank c = false := stored.value_trimmed.head c (by rw [same]; rfl)
  exact ⟨stored.property_ne_nil, stored.property_char, ⟨c, rest, same, isSpace_eq_false solid⟩,
    stored.value_closes⟩

theorem isClassRule_of_ruleOf {name : Text} {declarations : Declarations} {rule : Rule}
    (accepted : ruleOf name declarations false = .ok rule) : IsClassRule rule := by
  constructor
  · have selectorRun := (ruleOf_eq_ok.mp accepted).1
    rw [selectorOf, if_neg Bool.false_ne_true] at selectorRun
    split at selectorRun
    · next isClass => exact ⟨Text.trim name, (Except.ok.inj selectorRun).symm, isClass⟩
    · cases selectorRun
  · exact fun declaration member => ((isStored_of_ruleOf accepted).declarations declaration member).isChecked

/-! ## Texts that are contained -/

theorem isContained_cons {isDelimiter : Char → Bool} {position next : Position} {c : Char} {rest : Text}
    (free : (position.isOutside && isDelimiter c) = false) (step : position.next c = some next)
    (later : next.isContained isDelimiter rest = true) :
    position.isContained isDelimiter (c :: rest) = true := by
  rw [Position.isContained, free, step]
  exact later

theorem isContained_slash {isDelimiter : Char → Bool} {depth : Nat} {text : Text}
    (noStar : text.head? ≠ some '*') :
    Position.isContained isDelimiter ⟨.slash, depth⟩ text =
      Position.isContained isDelimiter ⟨.plain, depth⟩ text := by
  cases text with
  | nil => rfl
  | cons c rest =>
    have other : c ≠ '*' := fun same => noStar (congrArg some same)
    simp only [Position.isContained, Position.next, if_neg other]
    rfl

/-- The place of a stylesheet that the check of values takes for its own. -/
def ValuePlace.place : ValuePlace → Place
  | .plain => .plain
  | .escaped => .escaped
  | .quoted quote => .quoted quote
  | .quotedEscaped quote => .quotedEscaped quote

theorem ReadsAlike.tail {c : Char} {rest : Text} (alike : ReadsAlike (c :: rest)) :
    ReadsAlike rest where
  noComment found := alike.noComment (found.trans (List.suffix_cons c rest).isInfix)
  noReturn member := alike.noReturn (List.mem_cons_of_mem c member)
  noFormFeed member := alike.noFormFeed (List.mem_cons_of_mem c member)
  noEscape last := alike.noEscape (List.mem_getLast?_cons last)

theorem ReadsAlike.head?_ne {rest : Text} (alike : ReadsAlike ('/' :: rest)) :
    rest.head? ≠ some '*' := by
  intro starts
  obtain ⟨later, rfl⟩ := List.head?_eq_some_iff.mp starts
  exact alike.noComment ⟨[], later, rfl⟩

theorem ReadsAlike.ne_nil {rest : Text} (alike : ReadsAlike ('\\' :: rest)) : rest ≠ [] := by
  rintro rfl
  exact alike.noEscape rfl

theorem ReadsAlike.isLineEnd_eq_false {c : Char} {rest : Text} (alike : ReadsAlike (c :: rest))
    (noLineFeed : c ≠ '\n') : isLineEnd c = false := by
  have noReturn : c ≠ '\r' := fun same => alike.noReturn (same ▸ List.mem_cons_self)
  have noFormFeed : c ≠ '\x0c' := fun same => alike.noFormFeed (same ▸ List.mem_cons_self)
  simp [isLineEnd, noLineFeed, noReturn, noFormFeed]

/-- The check lets no delimiter pass outside of parentheses. -/
theorem depth_ne_zero_of_delimiter {depth : Nat} {c : Char} {rest : Text}
    (closes : closesWithin .plain depth (c :: rest) = true) (delimits : isRuleDelimiter c = true) :
    depth ≠ 0 := by
  rintro rfl
  simp only [isRuleDelimiter, Bool.or_eq_true, decide_eq_true_eq] at delimits
  rcases delimits with (rfl | rfl) | rfl <;> cases closes

/-- A character takes the reading of a stylesheet where it takes the check of values, but for a slash,
which may start a comment. -/
theorem exists_next_of_closesWithin {place : ValuePlace} {depth : Nat} {c : Char} {rest : Text}
    (closes : closesWithin place depth (c :: rest) = true) (alike : ReadsAlike (c :: rest))
    (noSlash : place = .plain → c ≠ '/') :
    ∃ (next : ValuePlace) (inside : Nat),
      Position.next ⟨place.place, depth⟩ c = some ⟨next.place, inside⟩ ∧
        closesWithin next inside rest = true ∧ (next = .escaped → rest ≠ []) := by
  cases place with
  | plain =>
    rw [closesWithin] at closes
    split_ifs at closes with quote escape opening closing delimiter
    · refine ⟨.quoted c, depth, ?_, closes, by simp⟩
      rcases (by simpa using quote : c = '"' ∨ c = '\'') with rfl | rfl <;> rfl
    · subst escape
      exact ⟨.escaped, depth, rfl, closes, fun _ => alike.ne_nil⟩
    · subst opening
      exact ⟨.plain, depth + 1, rfl, closes, by simp⟩
    · subst closing
      rw [Bool.and_eq_true] at closes
      exact ⟨.plain, depth - 1, rfl, closes.2, by simp⟩
    · refine ⟨.plain, depth, ?_, closes, by simp⟩
      rw [Bool.or_eq_true, decide_eq_true_eq, decide_eq_true_eq, not_or] at quote
      simp [ValuePlace.place, Position.next, Position.afterPlain, noSlash rfl, quote, escape, opening,
        closing]
  | escaped => exact ⟨.plain, depth, rfl, closes, by simp⟩
  | quoted quote =>
    rw [closesWithin] at closes
    split_ifs at closes with escape lineEnd closing
    · subst escape
      exact ⟨.quotedEscaped quote, depth, rfl, closes, by simp⟩
    · subst closing
      refine ⟨.plain, depth, ?_, closes, by simp⟩
      simp [ValuePlace.place, Position.next, Position.afterQuoted, escape,
        alike.isLineEnd_eq_false lineEnd]
    · refine ⟨.quoted quote, depth, ?_, closes, by simp⟩
      simp [ValuePlace.place, Position.next, Position.afterQuoted, escape,
        alike.isLineEnd_eq_false lineEnd, closing]
  | quotedEscaped quote =>
    have noReturn : c ≠ '\r' := fun same => alike.noReturn (same ▸ List.mem_cons_self)
    refine ⟨.quoted quote, depth, ?_, closes, by simp⟩
    simp [ValuePlace.place, Position.next, noReturn]

/-- A text that passes the check of values is contained if nothing stands in it that the check reads
otherwise than a stylesheet is read. -/
theorem isContained_of_closesWithin {isDelimiter : Char → Bool} {place : ValuePlace} {depth : Nat}
    {text : Text} (closes : closesWithin place depth text = true)
    (delimiters : ∀ c ∈ text, isDelimiter c = isRuleDelimiter c) (alike : ReadsAlike text)
    (open_escape : place = .escaped → text ≠ []) :
    Position.isContained isDelimiter ⟨place.place, depth⟩ text = true := by
  induction text generalizing place depth with
  | nil =>
    cases place with
    | plain =>
      simpa [closesWithin, Position.isContained, Position.isOutside, ValuePlace.place] using closes
    | escaped => exact absurd rfl (open_escape rfl)
    | quoted quote => cases closes
    | quotedEscaped quote => cases closes
  | cons c rest ih =>
    rw [List.forall_mem_cons] at delimiters
    have free : (Position.isOutside ⟨place.place, depth⟩ && isDelimiter c) = false := by
      cases place with
      | plain =>
        rw [delimiters.1, Bool.and_eq_false_imp]
        intro outside
        have zero : depth = 0 := by simpa [Position.isOutside, ValuePlace.place] using outside
        exact eq_false_of_ne_true fun delimits => depth_ne_zero_of_delimiter closes delimits zero
      | escaped => rfl
      | quoted quote => rfl
      | quotedEscaped quote => rfl
    by_cases slash : place = .plain ∧ c = '/'
    · obtain ⟨rfl, rfl⟩ := slash
      have later : Position.isContained isDelimiter ⟨.plain, depth⟩ rest = true :=
        @ih .plain depth closes delimiters.2 alike.tail (by simp)
      exact isContained_cons free rfl ((isContained_slash alike.head?_ne).trans later)
    · obtain ⟨next, inside, step, later, open_later⟩ :=
        exists_next_of_closesWithin closes alike fun plain same => slash ⟨plain, same⟩
      exact isContained_cons free step (ih later delimiters.2 alike.tail open_later)

theorem isContained_start {isDelimiter : Char → Bool} {text : Text}
    (closes : closesWithin .plain 0 text = true)
    (delimiters : ∀ c ∈ text, isDelimiter c = isRuleDelimiter c) (alike : ReadsAlike text) :
    Position.start.isContained isDelimiter text = true :=
  @isContained_of_closesWithin isDelimiter .plain 0 text closes delimiters alike (by simp)

/-- The characters that the check of values treats in a way of their own. -/
def valueMarks : Text :=
  ['"', '\'', '\\', '(', ')', ';', '\x7b', '\x7d']

theorem closesWithin_of_plain {text : Text} (plain : ∀ c ∈ text, c ∉ valueMarks) :
    closesWithin .plain 0 text = true := by
  induction text with
  | nil => rfl
  | cons c rest ih =>
    rw [List.forall_mem_cons] at plain
    have unmarked := plain.1
    simp only [valueMarks, List.mem_cons, List.not_mem_nil, or_false, not_or] at unmarked
    simp [closesWithin, unmarked, ih plain.2]

theorem readsAlike_of_plain {text : Text} (plain : ∀ c ∈ text, c ∉ ['/', '\\', '\r', '\x0c']) :
    ReadsAlike text where
  noComment found := plain '/' (found.subset List.mem_cons_self) (by decide)
  noReturn member := plain '\r' member (by decide)
  noFormFeed member := plain '\x0c' member (by decide)
  noEscape last := plain '\\' (List.mem_of_getLast? last) (by decide)

/-- A class selector is contained, and so is the blank after it. -/
theorem isContained_selector {name : Text} (isClass : isClassName name = true) :
    Position.start.isContained isRuleDelimiter ('.' :: name ++ [' ']) = true := by
  have plain {marks : Text} (apart : marks.all (fun c => !(isSelectorChar c || c = ' ')) = true) :
      ∀ c ∈ '.' :: name ++ [' '], c ∉ marks := by
    intro c member marked
    have char : (isSelectorChar c || c = ' ') = true := by
      rcases List.mem_append.mp member with inside | blank
      · rw [isSelectorChar_of_isClassName isClass c inside, Bool.true_or]
      · rw [List.mem_singleton.mp blank]
        rfl
    have other := List.all_eq_true.mp apart c marked
    rw [char] at other
    cases other
  exact isContained_start (closesWithin_of_plain (plain (by decide))) (fun _ _ => rfl)
    (readsAlike_of_plain (plain (by decide)))

theorem rdropWhile_selector {name : Text} (isClass : isClassName name = true) :
    ('.' :: name ++ [' ']).rdropWhile isSpace = '.' :: name := by
  rw [List.rdropWhile_concat_pos _ _ _ rfl, List.rdropWhile_eq_self_iff]
  intro nonempty space
  have char := isSelectorChar_of_isClassName isClass _ (List.getLast_mem nonempty)
  generalize List.getLast _ nonempty = c at space char
  simp only [isSpace, isLineEnd, Bool.or_eq_true, decide_eq_true_eq] at space
  rcases space with (rfl | rfl) | (rfl | rfl) | rfl <;> cases char

/-- A stored property in which no backslash, no parenthesis and no comment occurs is contained. -/
theorem isContained_property {property : Text} (checked : ∀ c ∈ property, isPropertyChar c = true)
    (noComment : ¬['/', '*'] <:+: property) (plain : ∀ c ∈ ['\\', '(', ')'], c ∉ property) :
    Position.start.isContained isPropertyDelimiter property = true := by
  have refused {c : Char} (not : isPropertyChar c = false) : c ∉ property :=
    not_mem_of_all (List.all_eq_true.mpr checked) not
  have unmarked : ∀ c ∈ property, c ∉ valueMarks := by
    intro c member marked
    simp only [valueMarks, List.mem_cons, List.not_mem_nil, or_false] at marked
    rcases marked with rfl | rfl | rfl | rfl | rfl | rfl | rfl | rfl
    · exact refused rfl member
    · exact refused rfl member
    · exact plain _ (by decide) member
    · exact plain _ (by decide) member
    · exact plain _ (by decide) member
    · exact refused rfl member
    · exact refused rfl member
    · exact refused rfl member
  have delimiters : ∀ c ∈ property, isPropertyDelimiter c = isRuleDelimiter c := by
    intro c member
    have noColon : c ≠ ':' := fun same => refused rfl (same ▸ member)
    rw [isPropertyDelimiter, decide_eq_false noColon, Bool.false_or]
  have alike : ReadsAlike property :=
    { noComment
      noReturn := refused rfl
      noFormFeed := refused rfl
      noEscape := fun last => plain '\\' (by decide) (List.mem_of_getLast? last) }
  exact isContained_start (closesWithin_of_plain unmarked) delimiters alike

end Style

end PageCompiler
