import Mathlib
import PageCompiler.Text.Blank

/-!
# Trimmed texts, pieces and words

Trimming takes blank characters off both ends of a text until neither end is blank. A text is cut at the
first mark that no piece before it holds, so pieces that are joined by a mark none of them holds are found
again.
-/

namespace PageCompiler.Text

variable {text before after gap piece word : Text} {isBreak : Char → Bool} {mark c : Char}

/-! ## Letters -/

theorem lowered_idem (text : Text) : lowered (lowered text) = lowered text := by
  simp only [lowered, List.map_map]
  apply List.map_congr_left
  intro c _
  exact Char.toLower_toLower_eq_toLower c

/-- A text is in small letters when none of its characters is an ASCII capital. -/
theorem lowered_eq_self_iff : lowered text = text ↔ ∀ c ∈ text, c.isUpper = false := by
  have each : lowered text = text ↔ ∀ c ∈ text, c.toLower = c := by
    conv_lhs => rw [lowered, ← List.map_id text, List.map_map, List.map_inj_left]
    rfl
  rw [each]
  refine forall₂_congr fun c _ => ⟨fun small => ?_, fun plain => ?_⟩
  · rw [← small]
    exact Char.isUpper_toLower_eq_false c
  · exact Char.toLower_eq_of_not_isUpper (by simp [plain])

/-! ## Trimming -/

/-- Neither end of the text is blank. -/
structure IsTrimmed (text : Text) : Prop where
  head : ∀ c, text.head? = some c → isBlank c = false
  last : ∀ c, text.getLast? = some c → isBlank c = false

theorem isTrimmed_of_solid (solid : ∀ c ∈ text, isBlank c = false) : IsTrimmed text where
  head c found := solid c (List.mem_of_head? found)
  last c found := solid c (List.mem_of_getLast? found)

theorem isTrimmed_trim (text : Text) : IsTrimmed (trim text) where
  head c found := by
    have front : trim text <+: trimStart text := List.rdropWhile_prefix _ _
    have solid := List.head?_dropWhile_not isBlank text
    obtain ⟨rest, same⟩ := List.head?_eq_some_iff.mp found
    obtain ⟨tail, whole⟩ := front
    rw [trimStart, same] at whole
    rw [← whole] at solid
    exact solid
  last c found := by
    have filled : trim text ≠ [] := by
      intro nothing
      rw [nothing] at found
      cases found
    rw [List.getLast?_eq_getLast_of_ne_nil filled, Option.some.injEq] at found
    rw [← found]
    exact eq_false_of_ne_true (List.rdropWhile_last_not isBlank (trimStart text) filled)

theorem trim_of_isTrimmed (trimmed : IsTrimmed text) : trim text = text := by
  have start : trimStart text = text := by
    cases text with
    | nil => rfl
    | cons c rest => exact List.dropWhile_cons_of_neg (by simp [trimmed.head c rfl])
  rw [trim, start]
  apply List.rdropWhile_eq_self_iff.mpr
  intro filled
  rw [trimmed.last _ (List.getLast?_eq_getLast_of_ne_nil filled)]
  exact Bool.false_ne_true

theorem dropWhile_blank_append (blank : ∀ c ∈ before, isBlank c = true) :
    (before ++ text).dropWhile isBlank = text.dropWhile isBlank :=
  List.dropWhile_append_of_pos blank

theorem trim_blank_append (blank : ∀ c ∈ before, isBlank c = true) :
    trim (before ++ text) = trim text := by
  rw [trim, trimStart, dropWhile_blank_append blank, trim, trimStart]

theorem trimEnd_append_blank (blank : ∀ c ∈ after, isBlank c = true) :
    trimEnd (text ++ after) = trimEnd text := by
  rw [trimEnd, List.reverse_append, dropWhile_blank_append (by simpa using blank), trimEnd]

theorem trim_append_blank (blank : ∀ c ∈ after, isBlank c = true) :
    trim (text ++ after) = trim text := by
  rw [trim, trimStart, List.dropWhile_append]
  split
  · rename_i allBlank
    have none_left : text.dropWhile isBlank = [] := by simpa using allBlank
    rw [List.dropWhile_eq_nil_iff.mpr blank, trim, trimStart, none_left]
  · rw [trimEnd_append_blank blank, trim, trimStart]

/-- A text is its trimmed form between two blank texts. -/
theorem exists_trim (text : Text) :
    ∃ before after, text = before ++ (trim text ++ after) ∧
      (∀ c ∈ before, isBlank c = true) ∧ ∀ c ∈ after, isBlank c = true := by
  refine ⟨text.takeWhile isBlank, ((trimStart text).reverse.takeWhile isBlank).reverse, ?_, ?_, ?_⟩
  · rw [trim, trimEnd, ← List.reverse_append, List.takeWhile_append_dropWhile, List.reverse_reverse,
      trimStart, List.takeWhile_append_dropWhile]
  · intro c member
    exact List.mem_takeWhile_imp member
  · intro c member
    exact List.mem_takeWhile_imp (List.mem_reverse.mp member)

theorem mem_of_mem_trim (member : c ∈ trim text) : c ∈ text := by
  obtain ⟨before, after, whole, _, _⟩ := exists_trim text
  rw [whole]
  exact List.mem_append_right _ (List.mem_append_left _ member)

/-- Trimming takes away no character that is not blank. -/
theorem countP_trim (text : Text) :
    (trim text).countP (fun c => !isBlank c) = text.countP fun c => !isBlank c := by
  obtain ⟨before, after, whole, blankBefore, blankAfter⟩ := exists_trim text
  have noneBefore : before.countP (fun c => !isBlank c) = 0 := by
    simpa [List.countP_eq_zero] using blankBefore
  have noneAfter : after.countP (fun c => !isBlank c) = 0 := by
    simpa [List.countP_eq_zero] using blankAfter
  conv_rhs => rw [whole]
  rw [List.countP_append, List.countP_append, noneBefore, noneAfter, Nat.zero_add, Nat.add_zero]

/-! ## Pieces -/

theorem segments_of_unbroken (whole : ∀ c ∈ text, isBreak c = false) :
    segments isBreak text = [text] := by
  induction text with
  | nil => rfl
  | cons c rest ih =>
    rw [List.forall_mem_cons] at whole
    rw [segments, whole.1, if_neg Bool.false_ne_true, ih whole.2]

theorem segments_append (whole : ∀ c ∈ text, isBreak c = false) (breaks : isBreak mark = true)
    (rest : Text) :
    segments isBreak (text ++ mark :: rest) = text :: segments isBreak rest := by
  induction text with
  | nil => rw [List.nil_append, segments, if_pos breaks]
  | cons c text ih =>
    rw [List.forall_mem_cons] at whole
    rw [List.cons_append, segments, whole.1, if_neg Bool.false_ne_true, ih whole.2]

/-- The pieces on both sides of a mark. -/
theorem segments_append_break (breaks : isBreak mark = true) (text rest : Text) :
    segments isBreak (text ++ mark :: rest) = segments isBreak text ++ segments isBreak rest := by
  induction text with
  | nil => exact if_pos breaks
  | cons c text ih =>
    rw [List.cons_append, segments, ih, segments]
    split
    · rw [List.cons_append]
    · cases split : segments isBreak text with
      | nil => exact absurd split (segments_ne_nil isBreak text)
      | cons first others => rfl

/-- Texts that hold no mark are the pieces of the text that joins them with marks, and what stands after a
mark goes with the next piece. -/
theorem segments_intercalate (breaks : isBreak mark = true) (between : ∀ c ∈ gap, isBreak c = false)
    {first : Text} {rest : List Text} (whole : ∀ text ∈ first :: rest, ∀ c ∈ text, isBreak c = false) :
    segments isBreak (List.intercalate (mark :: gap) (first :: rest)) =
      first :: rest.map (gap ++ ·) := by
  induction rest generalizing first with
  | nil =>
    rw [List.forall_mem_singleton] at whole
    rw [List.intercalate_singleton, segments_of_unbroken whole]
    rfl
  | cons second others ih =>
    rw [List.forall_mem_cons, List.forall_mem_cons] at whole
    obtain ⟨firstWhole, secondWhole, othersWhole⟩ := whole
    -- The gap goes over to the second text: the induction hypothesis is for one text less.
    have joined : ∀ c ∈ gap ++ second, isBreak c = false :=
      List.forall_mem_append.mpr ⟨between, secondWhole⟩
    have later := ih (List.forall_mem_cons.mpr ⟨joined, othersWhole⟩)
    have moved : gap ++ List.intercalate (mark :: gap) (second :: others) =
        List.intercalate (mark :: gap) ((gap ++ second) :: others) := by
      cases others <;> simp [List.intercalate_cons_cons]
    rw [List.intercalate_cons_cons, List.append_assoc, List.cons_append, segments_append firstWhole breaks,
      moved, later]
    rfl

theorem unbroken_of_mem_segments (member : piece ∈ segments isBreak text) :
    ∀ c ∈ piece, isBreak c = false := by
  induction text generalizing piece with
  | nil =>
    rw [segments, List.mem_singleton] at member
    rw [member]
    simp
  | cons first rest ih =>
    rw [segments] at member
    split at member
    · rcases List.mem_cons.mp member with rfl | later
      · simp
      · exact ih later
    · next plain =>
      rw [Bool.not_eq_true] at plain
      split at member
      · rw [List.mem_singleton] at member
        rw [member]
        simpa using plain
      · next head others split =>
        rw [split] at ih
        rcases List.mem_cons.mp member with rfl | later
        · intro c inside
          rcases List.mem_cons.mp inside with rfl | deeper
          · exact plain
          · exact ih (by simp) c deeper
        · exact ih (by simp [later])

theorem word_of_mem_words (member : word ∈ words text) :
    word ≠ [] ∧ ∀ c ∈ word, isBlank c = false := by
  rw [words, List.mem_filter] at member
  obtain ⟨piece, filled⟩ := member
  refine ⟨?_, unbroken_of_mem_segments piece⟩
  rintro rfl
  cases filled

/-! ## Cuts -/

theorem cutAt_append (apart : mark ∉ before) (after : Text) :
    cutAt mark (before ++ mark :: after) = some (before, after) := by
  induction before with
  | nil => exact if_pos rfl
  | cons c before ih =>
    rw [List.mem_cons, not_or] at apart
    rw [List.cons_append, cutAt, if_neg (Ne.symm apart.1), ih apart.2]
    rfl

theorem eq_of_cutAt (found : cutAt mark text = some (before, after)) :
    text = before ++ mark :: after := by
  induction text generalizing before with
  | nil => cases found
  | cons c rest ih =>
    rw [cutAt] at found
    split at found
    · next here =>
      cases found
      rw [here]
      rfl
    · obtain ⟨⟨later, last⟩, cut, same⟩ := Option.map_eq_some_iff.mp found
      cases same
      rw [ih cut]
      rfl

theorem cutBeforeLast_append {part : Text} (found : cutBeforeLast part text = some (before, after))
    (front : Text) : cutBeforeLast part (front ++ text) = some (front ++ before, after) := by
  induction front with
  | nil => exact found
  | cons c front ih => rw [List.cons_append, cutBeforeLast, ih, List.cons_append]

/-! ## Occurrences -/

/-- No part of the text but the whole of it stands both at its start and at its end. -/
def Unbordered (text : Text) : Prop :=
  ∀ border, border <+: text → border <:+ text → border = [] ∨ border = text

/-- Two occurrences of an unbordered text do not overlap. -/
theorem Unbordered.apart {part rest : Text} (unbordered : part.Unbordered)
    (same : part ++ after = gap ++ (part ++ rest)) : gap = [] ∨ part <+: gap := by
  rcases List.append_eq_append_iff.mp same with ⟨more, longer, _⟩ | ⟨border, whole, later⟩
  · exact Or.inr ⟨more, longer.symm⟩
  · have ends : border <:+ part := ⟨gap, whole.symm⟩
    have starts : border <+: part :=
      List.prefix_of_prefix_length_le ⟨after, later.symm⟩ (List.prefix_append part rest) ends.length_le
    rcases unbordered border starts ends with rfl | rfl
    · rw [List.append_nil] at whole
      exact Or.inr (whole ▸ List.prefix_rfl)
    · exact Or.inl (List.append_left_eq_self.mp whole.symm)

/-- An unbordered text between two texts that do not hold it occurs there once. -/
theorem Unbordered.once {part start rest : Text} (unbordered : part.Unbordered)
    (startFree : ¬ part <:+: start) (restFree : ¬ part <:+: rest)
    (same : start ++ (part ++ rest) = before ++ (part ++ after)) : before = start := by
  rcases List.append_eq_append_iff.mp same with ⟨gap, longer, later⟩ | ⟨gap, longer, later⟩
  · rcases unbordered.apart later with rfl | ⟨more, rfl⟩
    · rw [longer, List.append_nil]
    · rw [List.append_assoc, List.append_cancel_left_eq] at later
      exact absurd ⟨more, after, by rw [List.append_assoc, later]⟩ restFree
  · rcases unbordered.apart later with rfl | front
    · rw [longer, List.append_nil]
    · refine absurd (front.isInfix.trans ?_) startFree
      rw [longer]
      exact (List.suffix_append before gap).isInfix

end PageCompiler.Text
