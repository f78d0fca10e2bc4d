import PageCompiler.Proofs.Stylesheet.Reading

/-!
# The grammar of values

The check of a value runs over its characters once, with a count of the open parentheses. What it accepts
is said here without a count, by a grammar: a value is a sequence of items, and a parenthesised group is an
item that holds such a sequence again. An unfinished value is read as one sequence of items for each open
parenthesis and one for the top level, each but the last closed by its parenthesis; this is what every step
of the check keeps.
-/

namespace PageCompiler.Style

/-! ## Items -/

/-- Where items stand: at the top level of a value or in a parenthesised group. -/
inductive Level where
  | top
  | group
deriving DecidableEq

/-- Whether a character is a quote, a backslash or a parenthesis, so that it is no item on its own. -/
def isItemMark (c : Char) : Bool :=
  c = '"' || c = '\'' || c = '\\' || c = '(' || c = ')'

/-- What may stand between a quote and the quote that closes it: a backslash takes the next character
along, and a line feed stands only after one. -/
inductive IsQuotedBody (quote : Char) : Text → Prop where
  | nil : IsQuotedBody quote []
  | escape (c : Char) {rest : Text} (later : IsQuotedBody quote rest) :
      IsQuotedBody quote ('\\' :: c :: rest)
  | plain {c : Char} {rest : Text} (inside : c ≠ quote ∧ c ≠ '\\' ∧ c ≠ '\n')
      (later : IsQuotedBody quote rest) : IsQuotedBody quote (c :: rest)

/-- A sequence of items: plain characters, escaped characters, quoted strings and parenthesised groups. The
delimiters of rules are plain characters in groups only, and a backslash may end the top level. -/
inductive IsItems : Level → Text → Prop where
  | nil {level : Level} : IsItems level []
  | plain {level : Level} {c : Char} {rest : Text} (unmarked : isItemMark c = false)
      (inside : level = .top → isRuleDelimiter c = false) (later : IsItems level rest) :
      IsItems level (c :: rest)
  | escape {level : Level} (c : Char) {rest : Text} (later : IsItems level rest) :
      IsItems level ('\\' :: c :: rest)
  | lastEscape : IsItems .top ['\\']
  | quoted {level : Level} {quote : Char} {body rest : Text} (opens : quote = '"' ∨ quote = '\'')
      (closed : IsQuotedBody quote body) (later : IsItems level rest) :
      IsItems level (quote :: (body ++ quote :: rest))
  | group {level : Level} {body rest : Text} (inside : IsItems .group body)
      (later : IsItems level rest) : IsItems level ('(' :: (body ++ ')' :: rest))

/-! ## Items pass the check -/

variable {depth : Nat} {c quote : Char} {body rest text : Text}

theorem closesWithin_quoted (closed : IsQuotedBody quote body) (unescaped : quote ≠ '\\')
    (sameLine : quote ≠ '\n') :
    closesWithin (.quoted quote) depth (body ++ quote :: rest) = closesWithin .plain depth rest := by
  induction closed with
  | nil => simp [closesWithin, unescaped, sameLine]
  | escape c _ ih => simpa [closesWithin] using ih
  | plain inside _ ih => simpa [closesWithin, inside] using ih

theorem closesWithin_plain (unmarked : isItemMark c = false)
    (inside : depth = 0 → isRuleDelimiter c = false) :
    closesWithin .plain depth (c :: rest) = closesWithin .plain depth rest := by
  simp only [isItemMark, Bool.or_eq_false_iff, decide_eq_false_iff_not] at unmarked
  obtain ⟨⟨⟨⟨noDouble, noSingle⟩, noEscape⟩, noOpening⟩, noClosing⟩ := unmarked
  have noDelimiter : ¬ ((c = ';' ∨ c = '\x7b' ∨ c = '\x7d') ∧ depth = 0) := by
    rintro ⟨delimiter, outside⟩
    have free := inside outside
    rcases delimiter with rfl | rfl | rfl <;> cases free
  simp [closesWithin, noDouble, noSingle, noEscape, noOpening, noClosing, or_assoc, noDelimiter]

/-- The level of a place inside so many parentheses. -/
def Level.ofDepth : Nat → Level
  | 0 => .top
  | _ + 1 => .group

theorem Level.ofDepth_eq_top_iff : Level.ofDepth depth = .top ↔ depth = 0 := by
  cases depth <;> simp [Level.ofDepth]

/-- The check passes over the items of a group, and over those of the top level to their end. -/
theorem closesWithin_items {level : Level} (items : IsItems level text)
    (stands : level = .ofDepth depth) (ends : level = .top → rest = []) :
    closesWithin .plain depth (text ++ rest) = closesWithin .plain depth rest := by
  induction items generalizing depth rest with
  | nil => rfl
  | plain unmarked inside _ ih =>
    have free : depth = 0 → isRuleDelimiter _ = false := fun outside =>
      inside (stands.trans (Level.ofDepth_eq_top_iff.mpr outside))
    exact (closesWithin_plain unmarked free).trans (ih stands ends)
  | escape c _ ih => exact ih stands ends
  | lastEscape =>
    rw [ends rfl, Level.ofDepth_eq_top_iff.mp stands.symm]
    rfl
  | @quoted level quote body later opens closed _ ih =>
    have unescaped : quote ≠ '\\' := by rcases opens with rfl | rfl <;> decide
    have sameLine : quote ≠ '\n' := by rcases opens with rfl | rfl <;> decide
    rw [List.cons_append, List.append_assoc, List.cons_append, closesWithin,
      if_pos (by simpa using opens), closesWithin_quoted closed unescaped sameLine]
    exact ih stands ends
  | @group level body later _ _ ihBody ih =>
    have opening : closesWithin .plain depth ('(' :: (body ++ ')' :: (later ++ rest))) =
        closesWithin .plain (depth + 1) (body ++ ')' :: (later ++ rest)) := rfl
    have closing : closesWithin .plain (depth + 1) (')' :: (later ++ rest)) =
        closesWithin .plain depth (later ++ rest) := by
      simp [closesWithin]
    rw [List.cons_append, List.append_assoc, List.cons_append, opening, ihBody rfl (by simp), closing]
    exact ih stands ends

/-! ## What passes the check is made of items -/

/-- What is left of a value inside so many parentheses: the items of each group up to its parenthesis, then
those of the top level. -/
def IsLayered : Nat → Text → Prop
  | 0, text => IsItems .top text
  | depth + 1, text => ∃ body rest, text = body ++ ')' :: rest ∧ IsItems .group body ∧ IsLayered depth rest

/-- What can be put before any items of a level can be put before a rest at this level. -/
theorem IsLayered.prepend (front : Text)
    (extends_items : ∀ rest, IsItems (.ofDepth depth) rest → IsItems (.ofDepth depth) (front ++ rest))
    (layered : IsLayered depth text) : IsLayered depth (front ++ text) := by
  cases depth with
  | zero => exact extends_items text layered
  | succ depth =>
    obtain ⟨body, rest, rfl, items, outer⟩ := layered
    exact ⟨front ++ body, rest, (List.append_assoc ..).symm, extends_items body items, outer⟩

/-- What is left of a value when the check stands at a place. -/
def IsLeft (depth : Nat) (text : Text) : ValuePlace → Prop
  | .plain => IsLayered depth text
  | .escaped => IsLayered depth ('\\' :: text)
  | .quoted quote =>
    ∃ body rest, text = body ++ quote :: rest ∧ IsQuotedBody quote body ∧ IsLayered depth rest
  | .quotedEscaped quote =>
    ∃ c body rest, text = c :: (body ++ quote :: rest) ∧ IsQuotedBody quote body ∧ IsLayered depth rest

theorem IsLeft.open_quote (opens : c = '"' ∨ c = '\'') (left : IsLeft depth rest (.quoted c)) :
    IsLayered depth (c :: rest) := by
  obtain ⟨body, after, rfl, closed, layered⟩ := left
  have whole : c :: (body ++ c :: after) = (c :: (body ++ [c])) ++ after := by simp
  rw [whole]
  refine layered.prepend _ fun later items => ?_
  simpa using IsItems.quoted opens closed items

theorem IsLayered.open_group (layered : IsLayered (depth + 1) rest) :
    IsLayered depth ('(' :: rest) := by
  obtain ⟨body, after, rfl, inside, outer⟩ := layered
  have whole : '(' :: (body ++ ')' :: after) = ('(' :: (body ++ [')'])) ++ after := by simp
  rw [whole]
  refine outer.prepend _ fun later items => ?_
  simpa using IsItems.group inside items

theorem IsLayered.plain (unmarked : isItemMark c = false)
    (inside : depth = 0 → isRuleDelimiter c = false) (layered : IsLayered depth rest) :
    IsLayered depth (c :: rest) :=
  layered.prepend [c] fun _ items =>
    .plain unmarked (fun top => inside (Level.ofDepth_eq_top_iff.mp top)) items

/-- A rest that the check accepts is made of items. The induction is on the rest, for all places. -/
theorem isLeft_of_closesWithin {place : ValuePlace} (closes : closesWithin place depth text = true) :
    IsLeft depth text place := by
  induction text generalizing place depth with
  | nil =>
    cases place with
    | plain =>
      obtain rfl : depth = 0 := by simpa [closesWithin] using closes
      exact IsItems.nil
    | escaped =>
      obtain rfl : depth = 0 := by simpa [closesWithin] using closes
      exact IsItems.lastEscape
    | quoted quote => cases closes
    | quotedEscaped quote => cases closes
  | cons c rest ih =>
    cases place with
    | plain =>
      rw [closesWithin] at closes
      split_ifs at closes with quote escape opening closing delimiter
      · exact (ih closes).open_quote (by simpa using quote)
      · subst escape
        exact ih closes
      · subst opening
        exact IsLayered.open_group (ih closes)
      · subst closing
        obtain ⟨open_group, closes⟩ := Bool.and_eq_true_iff.mp closes
        obtain ⟨outer, rfl⟩ := Nat.exists_eq_succ_of_ne_zero (by simpa using open_group)
        exact ⟨[], rest, rfl, .nil, ih closes⟩
      · refine IsLayered.plain ?_ ?_ (ih closes)
        · rw [Bool.or_eq_true, decide_eq_true_eq, decide_eq_true_eq, not_or] at quote
          simp [isItemMark, quote, escape, opening, closing]
        · intro outside
          simpa [isRuleDelimiter, outside, and_assoc, and_comm, and_left_comm] using delimiter
    | escaped =>
      have layered : IsLayered depth rest := ih closes
      exact layered.prepend ['\\', c] fun _ items => .escape c items
    | quoted quote =>
      rw [closesWithin] at closes
      split_ifs at closes with escape lineEnd closing
      · subst escape
        obtain ⟨d, body, after, rfl, closed, layered⟩ := ih closes
        exact ⟨'\\' :: d :: body, after, rfl, .escape d closed, layered⟩
      · subst closing
        exact ⟨[], rest, rfl, .nil, ih closes⟩
      · obtain ⟨body, after, rfl, closed, layered⟩ := ih closes
        exact ⟨c :: body, after, rfl, .plain ⟨closing, escape, lineEnd⟩ closed, layered⟩
    | quotedEscaped quote =>
      obtain ⟨body, after, rfl, closed, layered⟩ := ih closes
      exact ⟨c, body, after, rfl, closed, layered⟩

/-- The check accepts exactly the values without a delimiter of markup that are sequences of items. -/
theorem staysInsideRule_iff {value : Text} :
    staysInsideRule value = true ↔ '<' ∉ value ∧ IsItems .top value := by
  have items : closesWithin .plain 0 value = true ↔ IsItems .top value := by
    constructor
    · intro closes
      exact isLeft_of_closesWithin closes
    · intro items
      have passes : closesWithin .plain 0 (value ++ []) = closesWithin .plain 0 [] :=
        closesWithin_items items rfl fun _ => rfl
      rw [List.append_nil] at passes
      exact passes
  rw [staysInsideRule, Bool.and_eq_true, items, Bool.not_eq_true', List.contains_eq_mem,
    decide_eq_false_iff_not]

end PageCompiler.Style
