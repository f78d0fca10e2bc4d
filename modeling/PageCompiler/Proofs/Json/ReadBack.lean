import PageCompiler.Json.Printer
import PageCompiler.Proofs.Json.Numbers
import PageCompiler.Proofs.Markup.RawText

/-!
# Reading values back

A value reads back from its text, and also from its text as it stands in an element with raw text: the
shield only puts a backslash before a slash inside a string, which reads as the slash.
-/

namespace PageCompiler.Json

open Markup

/-! ## Strings -/

theorem hexValue_hexDigit {value : Nat} (digit : value < 16) : hexValue (hexDigit value) = some value := by
  have all : ∀ value : Fin 16, hexValue (hexDigit value) = some value.val := by decide
  exact all ⟨value, digit⟩

/-- Pieces are read at the start of a source: they make up a text, and what follows them is left. -/
def ReadsAs (source text rest : Text) : Prop :=
  ∃ pieces, readPieces source = some (pieces, rest) ∧ textOfPieces pieces = some text

section Pieces

variable {source text rest : Text} {c : Char}

theorem readsAs_quote (rest : Text) : ReadsAs ('"' :: rest) [] rest :=
  ⟨[], readPieces_quote rest, rfl⟩

theorem readPieces_plain (unmarked : c ≠ '"' ∧ c ≠ '\\') (visible : 0x20 ≤ c.toNat) (source : Text) :
    readPieces (c :: source) =
      (readPieces source).map fun (pieces, rest) => (.plain c :: pieces, rest) := by
  have shown : ¬ (c = '\\' || c.toNat < 0x20) = true := by
    simpa [unmarked] using visible
  rw [readPieces]
  · rw [if_neg shown]
    cases readPieces source <;> rfl
  · exact unmarked.1
  · exact fun _ _ _ _ _ same => absurd same unmarked.2
  · exact fun _ _ same => absurd same unmarked.2

theorem readPieces_letter {letter : Char} (stands : escapeLetter c = some letter) (source : Text) :
    readPieces ('\\' :: c :: source) =
      (readPieces source).map fun (pieces, rest) => (.plain letter :: pieces, rest) := by
  rw [readPieces]
  · rw [stands]
    cases readPieces source <;> rfl
  · rintro _ _ _ _ _ rfl
    cases stands

theorem ReadsAs.plain (reads : ReadsAs source text rest) (unmarked : c ≠ '"' ∧ c ≠ '\\')
    (visible : 0x20 ≤ c.toNat) : ReadsAs (c :: source) (c :: text) rest := by
  obtain ⟨pieces, read, same⟩ := reads
  refine ⟨.plain c :: pieces, ?_, by rw [textOfPieces_plain, same]; rfl⟩
  rw [readPieces_plain unmarked visible, read]
  rfl

/-- A backslash and a letter are read as what the letter stands for. -/
theorem ReadsAs.letter {letter : Char} (reads : ReadsAs source text rest)
    (stands : escapeLetter c = some letter) : ReadsAs ('\\' :: c :: source) (letter :: text) rest := by
  obtain ⟨pieces, read, same⟩ := reads
  refine ⟨.plain letter :: pieces, ?_, by rw [textOfPieces_plain, same]; rfl⟩
  rw [readPieces_letter stands, read]
  rfl

/-- A slash is read the same with a backslash before it. -/
theorem ReadsAs.slash (reads : ReadsAs ('/' :: source) text rest) :
    ReadsAs ('\\' :: '/' :: source) text rest := by
  obtain ⟨pieces, read, same⟩ := reads
  have stands : escapeLetter '/' = some '/' := rfl
  refine ⟨pieces, ?_, same⟩
  rw [readPieces_letter stands, ← readPieces_plain (by decide) (by decide), read]

theorem textOfPieces_unit {unit : Nat} (low : unit < 0xD800) (pieces : List Piece) :
    textOfPieces (.unit unit :: pieces) = (textOfPieces pieces).map (Char.ofNat unit :: ·) := by
  have apart : isLeading unit = false ∧ isTrailing unit = false := by
    simp only [isLeading, isTrailing, Bool.and_eq_false_iff, decide_eq_false_iff_not]
    omega
  cases pieces with
  | nil => simp [textOfPieces, apart]
  | cons piece pieces => cases piece <;> simp [textOfPieces, apart]

/-- A character below the space is read from its number. -/
theorem ReadsAs.unit (reads : ReadsAs source text rest) (control : c.toNat < 0x20) :
    ReadsAs ('\\' :: 'u' :: '0' :: '0' :: hexDigit (c.toNat / 16) :: hexDigit (c.toNat % 16) :: source)
      (c :: text) rest := by
  obtain ⟨pieces, read, same⟩ := reads
  have zero : hexValue '0' = some 0 := rfl
  have number : ((0 * 16 + 0) * 16 + c.toNat / 16) * 16 + c.toNat % 16 = c.toNat := by omega
  have value : hexUnit '0' '0' (hexDigit (c.toNat / 16)) (hexDigit (c.toNat % 16)) = some c.toNat := by
    rw [hexUnit, hexValue_hexDigit (by omega), hexValue_hexDigit (by omega), zero]
    exact congrArg some number
  refine ⟨.unit c.toNat :: pieces, by rw [readPieces, value, read], ?_⟩
  rw [textOfPieces_unit (by omega), same, Char.ofNat_toNat]
  rfl

/-- A character is read as it is written in a string. -/
theorem ReadsAs.escapedChar (reads : ReadsAs source text rest) :
    ReadsAs (escapedChar c ++ source) (c :: text) rest := by
  fun_cases Json.escapedChar c with
  | case8 _ _ _ _ _ _ _ control => exact reads.unit control
  | case9 quote backslash _ _ _ _ _ visible =>
    exact reads.plain ⟨quote, backslash⟩ (Nat.not_lt.mp visible)
  | _ =>
    subst_vars
    exact reads.letter rfl

end Pieces

theorem hexDigit_ne_lt {value : Nat} (digit : value < 16) : hexDigit value ≠ '<' := by
  have all : ∀ value : Fin 16, hexDigit value ≠ '<' := by decide
  exact all ⟨value, digit⟩

/-- Only a delimiter is written with a delimiter. -/
theorem no_delimiter_escapedChar {c : Char} (plain : c ≠ '<') : '<' ∉ escapedChar c := by
  fun_cases escapedChar c with
  | case8 _ _ _ _ _ _ _ control =>
    have high := (hexDigit_ne_lt (Nat.div_lt_of_lt_mul (show c.toNat < 16 * 16 by omega))).symm
    have low := (hexDigit_ne_lt (Nat.mod_lt c.toNat (by decide))).symm
    simp [high, low]
  | case9 => simpa using plain.symm
  | _ => decide

/-- The characters of a string are read through the shield of a raw text element. -/
theorem readsAs_shielded (tag text rest : Text) :
    ReadsAs (shielded tag (text.flatMap escapedChar ++ '"' :: rest)) text (shielded tag rest) := by
  induction text with
  | nil =>
    rw [List.flatMap_nil, List.nil_append, shielded_cons tag (by decide)]
    exact readsAs_quote _
  | cons c text ih =>
    rw [List.flatMap_cons, List.append_assoc]
    by_cases delimiter : c = '<'
    · subst delimiter
      have written : escapedChar '<' = ['<'] := rfl
      rw [written, List.singleton_append, shielded]
      split
      · next starts =>
        -- An end tag starts here, so a slash comes next, and the shield puts a backslash before it.
        generalize text.flatMap escapedChar ++ '"' :: rest = source at ih starts
        obtain ⟨after, rfl⟩ := exists_slash_of_startsEndTag starts
        rw [shielded_cons tag (by decide)] at ih ⊢
        exact ih.slash.plain (by decide) (by decide)
      · exact ih.plain (by decide) (by decide)
    · rw [shielded_append tag (no_delimiter_escapedChar delimiter)]
      exact ih.escapedChar

theorem readString_shielded (tag text rest : Text) :
    readString (shielded tag (text.flatMap escapedChar ++ '"' :: rest)) =
      some (some text, shielded tag rest) := by
  obtain ⟨pieces, read, same⟩ := readsAs_shielded tag text rest
  rw [readString, read, ← same]
  rfl

/-! ## Values -/

namespace Value

mutual

/-- A value that can be handed over: all numbers in it can be, and no object in it has a key twice. -/
def isProper : Value → Bool
  | .number value => value.isProper
  | .array items => areProper items
  | .object members => decide (Entries.keys members).Nodup && membersProper members
  | _ => true

/-- Whether all of several values can be handed over. -/
def areProper : List Value → Bool
  | [] => true
  | item :: rest => isProper item && areProper rest

/-- Whether the values of all members can be handed over. -/
def membersProper : List (Text × Value) → Bool
  | [] => true
  | (_, value) :: rest => isProper value && membersProper rest

end

/-- Whether a value is a number. -/
def IsNumber : Value → Prop
  | .number _ => True
  | _ => False

end Value

theorem endsNumber_cons {c : Char} (ends : c.isDigit = false ∧ c ≠ '.' ∧ c ≠ 'e' ∧ c ≠ 'E')
    (rest : Text) : EndsNumber (c :: rest) := by
  intro other same
  cases same
  exact ends

theorem endsNumber_shielded (tag : Text) {rest : Text} (ends : EndsNumber rest) :
    EndsNumber (shielded tag rest) := by
  rwa [EndsNumber, head?_shielded]

theorem endsNumber_itemsText (items : List Value) (rest : Text) :
    EndsNumber (Value.itemsText items ++ rest) := by
  cases items with
  | nil => exact endsNumber_cons (by decide) _
  | cons item items => exact endsNumber_cons (by decide) _

theorem endsNumber_membersText (members : List (Text × Value)) (rest : Text) :
    EndsNumber (Value.membersText members ++ rest) := by
  cases members with
  | nil => exact endsNumber_cons (by decide) _
  | cons member members => exact endsNumber_cons (by decide) _

theorem isSpace_of_start {c : Char} (starts : c = '-' ∨ c.isDigit = true) : isSpace c = false := by
  rw [← Bool.not_eq_true]
  intro space
  have four : c = ' ' ∨ c = '\t' ∨ c = '\n' ∨ c = '\r' := by simpa [isSpace, or_assoc] using space
  rcases four with rfl | rfl | rfl | rfl <;> exact absurd starts (by decide)

/-! ### One step of reading -/

section Steps

variable {count : Nat} {source rest : Text}

theorem afterWord_append (word rest : Text) : afterWord word (word ++ rest) = some rest := by
  rw [afterWord, if_pos (by simp), List.drop_left]

theorem readTree_null : readTree (count + 1) (['n', 'u', 'l', 'l'] ++ rest) = some (.null, rest) := by
  have start : skipSpace ('n' :: (['u', 'l', 'l'] ++ rest)) = 'n' :: (['u', 'l', 'l'] ++ rest) :=
    skipSpace_cons rfl _
  rw [List.cons_append]
  simp only [readTree, start, afterWord_append, Option.map_some]

theorem readTree_true :
    readTree (count + 1) (['t', 'r', 'u', 'e'] ++ rest) = some (.bool true, rest) := by
  have start : skipSpace ('t' :: (['r', 'u', 'e'] ++ rest)) = 't' :: (['r', 'u', 'e'] ++ rest) :=
    skipSpace_cons rfl _
  rw [List.cons_append]
  simp only [readTree, start, afterWord_append, Option.map_some]

theorem readTree_false :
    readTree (count + 1) (['f', 'a', 'l', 's', 'e'] ++ rest) = some (.bool false, rest) := by
  have start : skipSpace ('f' :: (['a', 'l', 's', 'e'] ++ rest)) =
      'f' :: (['a', 'l', 's', 'e'] ++ rest) := skipSpace_cons rfl _
  rw [List.cons_append]
  simp only [readTree, start, afterWord_append, Option.map_some]

theorem readTree_literal {literal : Literal} (read : readLiteral source = some (literal, rest)) :
    readTree (count + 1) source = some (.number literal.value?, rest) := by
  obtain ⟨c, source, rfl⟩ : ∃ c text, source = c :: text := by
    apply List.exists_cons_of_ne_nil
    rintro rfl
    cases read
  have starts := start_of_readLiteral read
  have start : skipSpace (c :: source) = c :: source := skipSpace_cons (isSpace_of_start starts) _
  simp only [readTree, start]
  split
  case h_7 => rw [read, Option.map_some]
  all_goals
    next same =>
      cases same
      exact absurd starts (by decide)

theorem readTree_string (read : readString source = some (text, rest)) :
    readTree (count + 1) ('"' :: source) = some (.string text, rest) := by
  have start : skipSpace ('"' :: source) = '"' :: source := skipSpace_cons rfl _
  simp only [readTree, start, read, Option.map_some]

theorem readTree_items {items : List Tree} (noSpace : skipSpace source = source)
    (filled : source.head? ≠ some ']') (read : readItems count source = some (items, rest)) :
    readTree (count + 1) ('[' :: source) = some (.array items, rest) := by
  have start : skipSpace ('[' :: source) = '[' :: source := skipSpace_cons rfl _
  simp only [readTree, start, noSpace]
  split
  · exact absurd rfl filled
  · rw [read, Option.map_some]

theorem readTree_members {members : List (Option Text × Tree)}
    (read : readMembers count ('"' :: source) = some (members, rest)) :
    readTree (count + 1) ('\x7b' :: '"' :: source) = some (.object members, rest) := by
  have start : skipSpace ('\x7b' :: '"' :: source) = '\x7b' :: '"' :: source := skipSpace_cons rfl _
  have inside : skipSpace ('"' :: source) = '"' :: source := skipSpace_cons rfl _
  simp only [readTree, start, inside]
  exact congrArg (Option.map _) read

theorem readItems_cons {item : Tree} {items : List Tree} (next : Text)
    (readItem : readTree count source = some (item, ',' :: next))
    (read : readItems count next = some (items, rest)) :
    readItems (count + 1) source = some (item :: items, rest) := by
  have start : skipSpace (',' :: next) = ',' :: next := skipSpace_cons rfl _
  simp only [readItems, readItem, Option.bind_eq_bind, Option.bind_some, start, read, Option.map_some]

theorem readItems_last {item : Tree} (read : readTree count source = some (item, ']' :: rest)) :
    readItems (count + 1) source = some ([item], rest) := by
  have start : skipSpace (']' :: rest) = ']' :: rest := skipSpace_cons rfl _
  simp only [readItems, read, Option.bind_eq_bind, Option.bind_some, start]

section Member

variable {key : Option Text} {value : Tree} {middle : Text}
  (readKey : readString source = some (key, ':' :: middle))

include readKey

theorem readMembers_cons {members : List (Option Text × Tree)} (next : Text)
    (readValue : readTree count middle = some (value, ',' :: next))
    (read : readMembers count next = some (members, rest)) :
    readMembers (count + 1) ('"' :: source) = some ((key, value) :: members, rest) := by
  have start : skipSpace ('"' :: source) = '"' :: source := skipSpace_cons rfl _
  have colon : skipSpace (':' :: middle) = ':' :: middle := skipSpace_cons rfl _
  have comma : skipSpace (',' :: next) = ',' :: next := skipSpace_cons rfl _
  simp only [readMembers, start, readKey, colon, readValue, comma, read, Option.bind_eq_bind,
    Option.bind_some, Option.map_some]

theorem readMembers_last (read : readTree count middle = some (value, '\x7d' :: rest)) :
    readMembers (count + 1) ('"' :: source) = some ([(key, value)], rest) := by
  have start : skipSpace ('"' :: source) = '"' :: source := skipSpace_cons rfl _
  have colon : skipSpace (':' :: middle) = ':' :: middle := skipSpace_cons rfl _
  have brace : skipSpace ('\x7d' :: rest) = '\x7d' :: rest := skipSpace_cons rfl _
  simp only [readMembers, start, readKey, colon, read, brace, Option.bind_eq_bind, Option.bind_some]

end Member

end Steps

/-! ### Whole values -/

theorem shielded_stringText (tag text rest : Text) :
    shielded tag (stringText text ++ rest) =
      '"' :: shielded tag (text.flatMap escapedChar ++ '"' :: rest) := by
  rw [stringText, List.append_assoc, List.append_assoc, List.singleton_append,
    shielded_cons tag (by decide), List.singleton_append]

theorem no_delimiter_numberText (number : Number) : '<' ∉ number.text := by
  intro member
  have shown := Number.isTextChar_of_mem_text number '<' member
  exact absurd shown (by decide)

/-- No value starts with a space or with the end of an array. -/
theorem exists_start_text {value : Value} (proper : value.isProper = true) :
    ∃ c text, value.text = c :: text ∧ isSpace c = false ∧ c ≠ ']' := by
  cases value with
  | null => exact ⟨_, _, rfl, by decide, by decide⟩
  | bool value => cases value <;> exact ⟨_, _, rfl, by decide, by decide⟩
  | string text => exact ⟨_, _, rfl, by decide, by decide⟩
  | array items => cases items <;> exact ⟨_, _, rfl, by decide, by decide⟩
  | object members => cases members <;> exact ⟨_, _, rfl, by decide, by decide⟩
  | number value =>
    rw [Value.isProper] at proper
    obtain ⟨literal, read, _⟩ := Number.exists_readLiteral (Number.readsBack_of_isProper proper)
    rw [Value.text]
    cases shape : value.text with
    | nil =>
      rw [shape] at read
      cases read
    | cons c text =>
      rw [shape] at read
      have starts := start_of_readLiteral read
      refine ⟨c, text, rfl, isSpace_of_start starts, ?_⟩
      rintro rfl
      exact absurd starts (by decide)

/-- What stands in front of items after the opening bracket is neither a space nor the closing one. -/
theorem skipSpace_shielded_text (tag : Text) {value : Value} (proper : value.isProper = true)
    (rest : Text) :
    skipSpace (shielded tag (value.text ++ rest)) = shielded tag (value.text ++ rest) ∧
      (shielded tag (value.text ++ rest)).head? ≠ some ']' := by
  obtain ⟨c, text, same, visible, inside⟩ := exists_start_text proper
  have head : (shielded tag (value.text ++ rest)).head? = some c := by
    rw [head?_shielded, same]
    rfl
  obtain ⟨after, shape⟩ := List.head?_eq_some_iff.mp head
  rw [shape]
  exact ⟨skipSpace_cons visible after, by simpa using inside⟩

mutual

/-- A value is read through the shield of a raw text element, in front of any text. -/
theorem readTree_text (tag : Text) : (value : Value) → value.isProper = true → {count : Nat} →
    value.text.length < count → (rest : Text) → (value.IsNumber → EndsNumber rest) →
    readTree count (shielded tag (value.text ++ rest)) = some (Tree.ofValue value, shielded tag rest)
  | .null, _, count + 1, _, rest, _ => by
    rw [Value.text, shielded_append tag (by decide)]
    exact readTree_null
  | .bool true, _, count + 1, _, rest, _ => by
    rw [Value.text, shielded_append tag (by decide)]
    exact readTree_true
  | .bool false, _, count + 1, _, rest, _ => by
    rw [Value.text, shielded_append tag (by decide)]
    exact readTree_false
  | .number value, proper, count + 1, _, rest, ends => by
    rw [Value.isProper] at proper
    obtain ⟨literal, read, same⟩ := Number.exists_readLiteral (Number.readsBack_of_isProper proper)
    have whole := readLiteral_append (endsNumber_shielded tag (ends trivial)) read
    rw [Value.text, shielded_append tag (no_delimiter_numberText value), readTree_literal whole, same]
    rfl
  | .string text, _, count + 1, _, rest, _ => by
    rw [Value.text, shielded_stringText, readTree_string (readString_shielded tag text rest)]
    rfl
  | .array [], _, count + 1, _, rest, _ => by
    rw [Value.text, shielded_append tag (by decide)]
    exact readTree_noItems
  | .array (first :: items), proper, count + 1, enough, rest, _ => by
    rw [Value.isProper] at proper
    have read := readItems_text tag (first :: items) proper rfl (Nat.lt_of_succ_lt_succ enough) rest
    rw [Value.areProper, Bool.and_eq_true] at proper
    rw [List.append_assoc] at read
    obtain ⟨noSpace, filled⟩ := skipSpace_shielded_text tag proper.1 (Value.itemsText items ++ rest)
    rw [Value.text, List.cons_append, List.append_assoc, shielded_cons tag (by decide),
      readTree_items noSpace filled read]
    rfl
  | .object [], _, count + 1, _, rest, _ => by
    rw [Value.text, shielded_append tag (by decide)]
    exact readTree_noMembers
  | .object ((key, value) :: members), proper, count + 1, enough, rest, _ => by
    rw [Value.isProper, Bool.and_eq_true] at proper
    have read := readMembers_text tag ((key, value) :: members) proper.2 rfl
      (Nat.lt_of_succ_lt_succ enough) rest
    rw [List.append_assoc, shielded_stringText] at read
    rw [Value.text, List.cons_append, List.append_assoc, shielded_cons tag (by decide),
      shielded_stringText, readTree_members read]
    rfl

/-- Items are read up to their bracket. -/
theorem readItems_text (tag : Text) : (items : List Value) → Value.areProper items = true →
    {source : Text} → Value.itemsText items = ',' :: source → {count : Nat} → source.length < count →
    (rest : Text) →
    readItems count (shielded tag (source ++ rest)) = some (Tree.ofItems items, shielded tag rest)
  | [], _, _, same, _, _, _ => by
    cases same
  | [item], proper, source, same, count + 1, enough, rest => by
    obtain rfl := (List.cons.inj same).2
    rw [Value.areProper, Bool.and_eq_true] at proper
    rw [List.length_append] at enough
    have read := readTree_text tag item proper.1 (Nat.lt_of_add_lt_add_right enough)
      (Value.itemsText [] ++ rest) fun _ => endsNumber_itemsText [] rest
    rw [List.append_assoc]
    exact readItems_last read
  | item :: second :: items, proper, source, same, count + 1, enough, rest => by
    obtain rfl := (List.cons.inj same).2
    rw [Value.areProper, Bool.and_eq_true] at proper
    obtain ⟨source, opens⟩ : ∃ source, Value.itemsText (second :: items) = ',' :: source := ⟨_, rfl⟩
    rw [opens, List.length_append, List.length_cons] at enough
    have read := readTree_text tag item proper.1 (show item.text.length < count by omega)
      (Value.itemsText (second :: items) ++ rest) fun _ => endsNumber_itemsText _ rest
    rw [opens, List.cons_append, shielded_cons tag (by decide)] at read
    rw [opens, List.append_assoc, List.cons_append]
    exact readItems_cons _ read
      (readItems_text tag (second :: items) proper.2 opens (show source.length < count by omega) rest)

/-- Members are read up to their brace. -/
theorem readMembers_text (tag : Text) : (members : List (Text × Value)) →
    Value.membersProper members = true → {source : Text} →
    Value.membersText members = ',' :: source → {count : Nat} → source.length < count →
    (rest : Text) →
    readMembers count (shielded tag (source ++ rest)) =
      some (Tree.ofMembers members, shielded tag rest)
  | [], _, _, same, _, _, _ => by
    cases same
  | [(key, value)], proper, source, same, count + 1, enough, rest => by
    obtain rfl := (List.cons.inj same).2
    rw [Value.membersProper, Bool.and_eq_true] at proper
    rw [List.length_append, List.length_cons, List.length_append] at enough
    have read := readTree_text tag value proper.1 (show value.text.length < count by omega)
      (Value.membersText [] ++ rest) fun _ => endsNumber_membersText [] rest
    rw [List.append_assoc, shielded_stringText, List.cons_append, List.append_assoc]
    exact readMembers_last (readString_shielded tag key _) read
  | (key, value) :: second :: members, proper, source, same, count + 1, enough, rest => by
    obtain rfl := (List.cons.inj same).2
    rw [Value.membersProper, Bool.and_eq_true] at proper
    obtain ⟨source, opens⟩ : ∃ source, Value.membersText (second :: members) = ',' :: source := ⟨_, rfl⟩
    rw [opens, List.length_append, List.length_cons, List.length_append, List.length_cons] at enough
    have read := readTree_text tag value proper.1 (show value.text.length < count by omega)
      (Value.membersText (second :: members) ++ rest) fun _ => endsNumber_membersText _ rest
    rw [opens, List.cons_append, shielded_cons tag (by decide)] at read
    rw [opens, List.append_assoc, shielded_stringText, List.cons_append, List.append_assoc,
      List.cons_append]
    exact readMembers_cons (readString_shielded tag key _) _ read
      (readMembers_text tag (second :: members) proper.2 opens (show source.length < count by omega) rest)

end

/-! ## Values of trees -/

mutual

/-- The value of the tree that a value is read from is the value itself. -/
theorem value?_ofValue : (value : Value) → value.isProper = true → {depth : Nat} →
    value.text.length ≤ depth → (Tree.ofValue value).value? depth = some value
  | .null, _, _, _ => rfl
  | .bool _, _, _, _ => rfl
  | .number _, _, _, _ => rfl
  | .string _, _, _, _ => rfl
  | .array [], _, depth + 1, _ => rfl
  | .array (first :: items), proper, depth + 1, enough => by
    rw [Value.isProper] at proper
    rw [Tree.ofValue, Tree.value?, if_neg (Nat.succ_ne_zero depth), Nat.add_sub_cancel,
      values?_ofItems (first :: items) proper enough]
    rfl
  | .object [], _, depth + 1, _ => rfl
  | .object (member :: members), proper, depth + 1, enough => by
    rw [Value.isProper, Bool.and_eq_true, decide_eq_true_iff] at proper
    rw [Tree.ofValue, Tree.value?, if_neg (Nat.succ_ne_zero depth), Nat.add_sub_cancel,
      memberValues?_ofMembers (member :: members) proper.2 enough, Option.map_some,
      Entries.ofPairs_of_nodup proper.1]

theorem values?_ofItems : (items : List Value) → Value.areProper items = true → {depth : Nat} →
    (Value.itemsText items).length ≤ depth + 1 → Tree.values? depth (Tree.ofItems items) = some items
  | [], _, _, _ => rfl
  | item :: items, proper, depth, enough => by
    rw [Value.areProper, Bool.and_eq_true] at proper
    rw [Value.itemsText, List.length_cons, List.length_append] at enough
    rw [Tree.ofItems, Tree.values?, value?_ofValue item proper.1 (by omega),
      values?_ofItems items proper.2 (by omega)]
    rfl

theorem memberValues?_ofMembers : (members : List (Text × Value)) →
    Value.membersProper members = true → {depth : Nat} →
    (Value.membersText members).length ≤ depth + 1 →
    Tree.memberValues? depth (Tree.ofMembers members) = some members
  | [], _, _, _ => rfl
  | (key, value) :: members, proper, depth, enough => by
    rw [Value.membersProper, Bool.and_eq_true] at proper
    rw [Value.membersText, List.length_cons, List.length_append, List.length_cons,
      List.length_append] at enough
    rw [Tree.ofMembers, Tree.memberValues?, value?_ofValue value proper.1 (by omega),
      memberValues?_ofMembers members proper.2 (by omega)]
    rfl

end

/-- Reads one value at the start of a text, however deep it nests, and gives what follows it. -/
def Value.readFirst (text : Text) : Option (Value × Text) := do
  let (tree, rest) ← Tree.readFirst text
  let value ← tree.value? text.length
  some (value, rest)

/-- A value reads back from its text, in front of any text and through the shield of a raw text element. -/
theorem Value.readFirst_shielded (tag : Text) {value : Value} (proper : value.isProper = true)
    {rest : Text} (ends : value.IsNumber → EndsNumber rest) :
    Value.readFirst (shielded tag (value.text ++ rest)) = some (value, shielded tag rest) := by
  have long : value.text.length ≤ (shielded tag (value.text ++ rest)).length :=
    Nat.le_trans (by rw [List.length_append]; exact Nat.le_add_right _ _)
      (length_le_length_shielded tag _)
  rw [Value.readFirst, Tree.readFirst, readTree_text tag value proper (by omega) rest ends]
  show (do
    let value ← (Tree.ofValue value).value? (shielded tag (value.text ++ rest)).length
    some (value, shielded tag rest)) = _
  rw [value?_ofValue value proper long]
  rfl

end PageCompiler.Json
