import PageCompiler.Proofs.Markup.RawText

/-!
# Shielding by byte offsets

Raw text can be shielded in one pass over its bytes. The start of the end tag is looked for in a copy of the
text in small letters, and what is written is cut out of the text itself at the offsets that were found in
the copy. All these offsets are between characters, since a letter has as many bytes in either case, and the
pass writes the shielded text: the text with a backslash in every start of the end tag and nothing else.
-/

namespace PageCompiler

namespace Text

variable {text before after part : Text} {offset : Nat}

/-- The parts of a text before and after a number of bytes, unless these end within a character or there are
too few. -/
def cutAtByte? : Nat → Text → Option (Text × Text)
  | 0, text => some ([], text)
  | _ + 1, [] => none
  | offset + 1, c :: rest =>
    if c.utf8Size ≤ offset + 1 then
      (cutAtByte? (offset + 1 - c.utf8Size) rest).map fun (before, after) => (c :: before, after)
    else none

/-- What follows a number of bytes. -/
def fromByte? (offset : Nat) (text : Text) : Option Text :=
  (cutAtByte? offset text).map Prod.snd

/-- The part of a text from one byte offset to another, which must both be between characters. -/
def slice? (start stop : Nat) (text : Text) : Option Text :=
  if start ≤ stop then
    (fromByte? start text).bind fun rest => (cutAtByte? (stop - start) rest).map Prod.fst
  else none

/-- The number of bytes before the first occurrence of a part. -/
def findByte? (part : Text) : Text → Option Nat
  | [] => if part.isEmpty then some 0 else none
  | c :: rest =>
    if part.isPrefixOf (c :: rest) then some 0 else (findByte? part rest).map (c.utf8Size + ·)

/-- The number of bytes from an offset to the next occurrence of a part, if there is one. -/
def findFromByte? (part : Text) (offset : Nat) (text : Text) : Option (Option Nat) :=
  (fromByte? offset text).map (findByte? part)

@[simp] theorem utf8Size_nil : utf8Size [] = 0 := rfl

@[simp] theorem utf8Size_cons (c : Char) (rest : Text) : utf8Size (c :: rest) = c.utf8Size + utf8Size rest := by
  have later (size : Nat) (rest : Text) :
      rest.foldl (fun size c => size + c.utf8Size) size = size + utf8Size rest := by
    induction rest generalizing size with
    | nil => rfl
    | cons c rest ih => rw [utf8Size, List.foldl_cons, List.foldl_cons, ih, ih (0 + _)]; omega
  rw [utf8Size, List.foldl_cons, later, Nat.zero_add]

@[simp] theorem utf8Size_append (before after : Text) :
    utf8Size (before ++ after) = utf8Size before + utf8Size after := by
  induction before with
  | nil => simp
  | cons c before ih => simp [ih, Nat.add_assoc]

theorem utf8Size_of_isAlpha {c : Char} (letter : c.isAlpha = true) : c.utf8Size = 1 := by
  simp only [Char.isAlpha, Char.isUpper, Char.isLower, Bool.or_eq_true, Bool.and_eq_true,
    decide_eq_true_eq] at letter
  have bound : c.val ≤ 'z'.val := by
    rcases letter with capital | small
    · exact UInt32.le_trans capital.2 (by decide)
    · exact small.2
  exact if_pos (UInt32.le_trans bound (by decide))

theorem utf8Size_toLower (c : Char) : c.toLower.utf8Size = c.utf8Size := by
  by_cases letter : c.isAlpha = true
  · rw [utf8Size_of_isAlpha letter, utf8Size_of_isAlpha (by rw [Char.isAlpha_toLower_eq_isAlpha, letter])]
  · rw [Char.toLower_eq_of_not_isUpper]
    intro upper
    exact letter (by rw [Char.isAlpha, upper, Bool.true_or])

/-- A text has as many bytes in small letters as it has itself. -/
@[simp] theorem utf8Size_lowered (text : Text) : utf8Size (lowered text) = utf8Size text := by
  induction text with
  | nil => rfl
  | cons c rest ih =>
    rw [lowered] at ih
    simp [lowered, ih, utf8Size_toLower]

/-- A text can be cut between any two of its parts. -/
theorem cutAtByte?_append (before after : Text) :
    cutAtByte? (utf8Size before) (before ++ after) = some (before, after) := by
  induction before with
  | nil => simp [cutAtByte?]
  | cons c before ih =>
    obtain ⟨rest, size⟩ : ∃ rest, c.utf8Size + utf8Size before = rest + 1 :=
      Nat.exists_eq_add_one.mpr (Nat.add_pos_left c.utf8Size_pos _)
    have left : rest + 1 - c.utf8Size = utf8Size before := by omega
    rw [utf8Size_cons, size, List.cons_append, cutAtByte?, if_pos (by omega), left, ih]
    rfl

theorem fromByte?_append (before after : Text) :
    fromByte? (utf8Size before) (before ++ after) = some after := by
  rw [fromByte?, cutAtByte?_append]
  rfl

theorem slice?_append (before middle after : Text) :
    slice? (utf8Size before) (utf8Size before + utf8Size middle) (before ++ (middle ++ after)) =
      some middle := by
  rw [slice?, if_pos (Nat.le_add_right _ _), fromByte?_append, Option.bind_some, Nat.add_sub_cancel_left,
    cutAtByte?_append]
  rfl

theorem utf8Size_of_cutAtByte? (cut : cutAtByte? offset text = some (before, after)) :
    offset + utf8Size after = utf8Size text := by
  fun_induction cutAtByte? offset text generalizing before with
  | case1 text =>
    cases cut
    exact Nat.zero_add _
  | case2 => cases cut
  | case3 offset c rest fits ih =>
    obtain ⟨⟨first, last⟩, later, same⟩ := Option.map_eq_some_iff.mp cut
    cases same
    have size := ih later
    rw [utf8Size_cons]
    omega
  | case4 => cases cut

theorem le_utf8Size_of_findByte? (found : findByte? part text = some offset) :
    offset + utf8Size part ≤ utf8Size text := by
  fun_induction findByte? part text generalizing offset with
  | case1 empty =>
    cases found
    simp_all
  | case2 => cases found
  | case3 c rest starts =>
    cases found
    obtain ⟨more, same⟩ := List.isPrefixOf_iff_prefix.mp starts
    rw [← same, utf8Size_append]
    omega
  | case4 c rest _ ih =>
    obtain ⟨later, foundLater, same⟩ := Option.map_eq_some_iff.mp found
    have size := ih foundLater
    rw [utf8Size_cons]
    omega

theorem le_utf8Size_of_findFromByte? {gap : Nat} (found : findFromByte? part offset text = some (some gap)) :
    offset + gap + utf8Size part ≤ utf8Size text := by
  obtain ⟨after, reached, inside⟩ := Option.map_eq_some_iff.mp found
  obtain ⟨⟨before, after⟩, cut, rfl⟩ := Option.map_eq_some_iff.mp reached
  have whole := utf8Size_of_cutAtByte? cut
  have within := le_utf8Size_of_findByte? inside
  dsimp only at within
  omega

theorem findFromByte?_append (part before after : Text) :
    findFromByte? part (utf8Size before) (before ++ after) = some (findByte? part after) := by
  rw [findFromByte?, fromByte?_append, Option.map_some]

end Text

namespace Markup

open Text

variable {tag text : Text} {place : Nat}

theorem utf8Size_endTagStart (tag : Text) : utf8Size (endTagStart tag) = 2 + utf8Size tag := by
  rw [endTagStart, utf8Size_cons, utf8Size_cons, ← Nat.add_assoc]
  rfl

/-- Shields a text from a byte offset on, given its copy in small letters. There is no result if something
is to be cut out at an offset that is not between two characters. -/
def shieldedFrom? (tag text small : Text) (cursor : Nat) : Option Text :=
  match _found : findFromByte? (endTagStart tag) cursor small with
  | none => none
  | some none => fromByte? cursor text
  | some (some gap) =>
    let start := cursor + gap
    let stop := start + utf8Size (endTagStart tag)
    (slice? cursor start text).bind fun before =>
      (slice? (start + 2) stop text).bind fun letters =>
        (shieldedFrom? tag text small stop).map fun after => before ++ "<\\/".toList ++ letters ++ after
termination_by utf8Size small - cursor
decreasing_by
  have inside := le_utf8Size_of_findFromByte? _found
  rw [utf8Size_endTagStart] at inside ⊢
  omega

/-- Shields a text by byte offsets. -/
def shieldedByOffsets? (tag text : Text) : Option Text :=
  shieldedFrom? tag text (lowered text) 0

theorem shieldedFrom?_of_none {small : Text} {cursor : Nat}
    (free : findFromByte? (endTagStart tag) cursor small = some none) :
    shieldedFrom? tag text small cursor = fromByte? cursor text := by
  rw [shieldedFrom?]
  split <;> simp_all

theorem shieldedFrom?_of_some {small : Text} {cursor gap : Nat}
    (found : findFromByte? (endTagStart tag) cursor small = some (some gap)) :
    shieldedFrom? tag text small cursor =
      (slice? cursor (cursor + gap) text).bind fun before =>
        (slice? (cursor + gap + 2) (cursor + gap + (2 + utf8Size tag)) text).bind fun letters =>
          (shieldedFrom? tag text small (cursor + gap + (2 + utf8Size tag))).map fun after =>
            before ++ "<\\/".toList ++ letters ++ after := by
  rw [shieldedFrom?]
  split <;> simp_all [utf8Size_endTagStart]

/-! ## End tags in a text -/

/-- Whether an end tag starts at a place of a text, in any letter case. -/
def EndTagAt (tag text : Text) (place : Nat) : Prop :=
  ∃ letters after : Text, text.drop place = '<' :: '/' :: (letters ++ after) ∧ lowered letters = tag

theorem startsEndTag_iff_exists :
    startsEndTag tag text = true ↔
      ∃ letters after : Text, text = '<' :: '/' :: (letters ++ after) ∧ lowered letters = tag := by
  constructor
  · intro starts
    cases text with
    | nil => cases starts
    | cons c rest =>
      obtain rfl := eq_lt_of_startsEndTag starts
      obtain ⟨rest, rfl⟩ := exists_slash_of_startsEndTag starts
      rw [startsEndTag_iff, lowered, endTagStart] at starts
      simp only [List.map_cons, List.cons_prefix_cons] at starts
      obtain ⟨letters, ⟨after, rfl⟩, spelled⟩ := lowered_prefix_iff.mp starts.2.2
      exact ⟨letters, after, rfl, spelled⟩
  · rintro ⟨letters, after, rfl, rfl⟩
    rw [startsEndTag_iff, lowered_prefix_iff]
    exact ⟨'<' :: '/' :: letters, ⟨after, rfl⟩, rfl⟩

theorem endTagAt_iff : EndTagAt tag text place ↔ startsEndTag tag (text.drop place) = true :=
  startsEndTag_iff_exists.symm

instance : Decidable (EndTagAt tag text place) :=
  decidable_of_iff _ endTagAt_iff.symm

theorem holdsEndTag_iff_exists : holdsEndTag tag text = true ↔ ∃ place, EndTagAt tag text place := by
  induction text with
  | nil => simp [holdsEndTag, EndTagAt, occursIn, lowered, endTagStart]
  | cons c rest ih =>
    rw [holdsEndTag_cons, ih]
    constructor
    · rintro (here | ⟨place, later⟩)
      · exact ⟨0, endTagAt_iff.mpr here⟩
      · exact ⟨place + 1, later⟩
    · rintro ⟨place, found⟩
      cases place with
      | zero => exact Or.inl (endTagAt_iff.mp found)
      | succ place => exact Or.inr ⟨place, found⟩

/-- Every start of an end tag gets a backslash between its first two characters, and nothing else changes. -/
theorem shielded_eq_flatMap (tag before text : Text) :
    shielded tag text = (text.zipIdx before.length).flatMap fun (c, place) =>
      if EndTagAt tag (before ++ text) place then [c, '\\'] else [c] := by
  induction text generalizing before with
  | nil => rfl
  | cons c rest ih =>
    have here : EndTagAt tag (before ++ c :: rest) before.length ↔ startsEndTag tag (c :: rest) = true := by
      rw [endTagAt_iff, List.drop_left]
    have later := ih (before ++ [c])
    rw [List.length_append, List.append_assoc] at later
    rw [shielded, List.zipIdx_cons, List.flatMap_cons, later]
    by_cases starts : startsEndTag tag (c :: rest) = true <;> simp [here, starts]

/-! ## The pass -/

/-- The search in small letters stops where an end tag starts. -/
theorem findByte?_lowered_cons (tag : Text) (c : Char) (rest : Text) :
    findByte? (endTagStart tag) (lowered (c :: rest)) =
      if startsEndTag tag (c :: rest) = true then some 0
      else (findByte? (endTagStart tag) (lowered rest)).map (c.utf8Size + ·) := by
  rw [lowered, List.map_cons, findByte?, utf8Size_toLower]
  apply if_congr _ rfl rfl
  rw [List.isPrefixOf_iff_prefix, startsEndTag_iff]
  rfl

/-- Where the search in small letters finds an end tag, it is the first one in the text. -/
theorem exists_of_findByte?_endTagStart (plain : '<' ∉ tag) {gap : Nat}
    (found : findByte? (endTagStart tag) (lowered text) = some gap) :
    ∃ before letters after : Text, text = before ++ ('<' :: '/' :: letters ++ after) ∧
      gap = utf8Size before ∧ lowered letters = tag ∧
      shielded tag text = before ++ "<\\/".toList ++ letters ++ shielded tag after := by
  induction text generalizing gap with
  | nil => cases found
  | cons c rest ih =>
    rw [findByte?_lowered_cons] at found
    by_cases starts : startsEndTag tag (c :: rest) = true
    · obtain ⟨letters, after, same, spelled⟩ := startsEndTag_iff_exists.mp starts
      rw [if_pos starts] at found
      cases found
      cases same
      have free : '<' ∉ '/' :: letters := by
        rw [← spelled, mem_lowered_lt_iff] at plain
        simp [plain]
      refine ⟨[], letters, after, rfl, rfl, spelled, ?_⟩
      rw [shielded, if_pos starts, ← List.cons_append, shielded_append tag free]
      rfl
    · rw [if_neg starts] at found
      obtain ⟨gap, foundLater, rfl⟩ := Option.map_eq_some_iff.mp found
      obtain ⟨before, letters, after, rfl, rfl, spelled, written⟩ := ih foundLater
      refine ⟨c :: before, letters, after, rfl, (utf8Size_cons c before).symm, spelled, ?_⟩
      rw [shielded, if_neg starts, written]
      rfl

/-- Where it finds none, the text needs no shield. -/
theorem shielded_of_findByte?_eq_none (free : findByte? (endTagStart tag) (lowered text) = none) :
    shielded tag text = text := by
  induction text with
  | nil => rfl
  | cons c rest ih =>
    rw [findByte?_lowered_cons] at free
    by_cases starts : startsEndTag tag (c :: rest) = true
    · rw [if_pos starts] at free
      cases free
    · rw [if_neg starts] at free
      rw [shielded, if_neg starts, ih (Option.map_eq_none_iff.mp free)]

/-- From any character on, the pass by byte offsets finds all its offsets between characters and writes the
rest of the text shielded. -/
theorem shieldedFrom?_append (plain : '<' ∉ tag) (done rest : Text) :
    shieldedFrom? tag (done ++ rest) (lowered (done ++ rest)) (utf8Size done) = some (shielded tag rest) := by
  have search : findFromByte? (endTagStart tag) (utf8Size done) (lowered (done ++ rest)) =
      some (findByte? (endTagStart tag) (lowered rest)) := by
    rw [lowered_append, ← utf8Size_lowered done, findFromByte?_append]
  cases found : findByte? (endTagStart tag) (lowered rest) with
  | none =>
    rw [found] at search
    rw [shieldedFrom?_of_none search, fromByte?_append, shielded_of_findByte?_eq_none found]
  | some gap =>
    obtain ⟨before, letters, after, same, rfl, spelled, written⟩ := exists_of_findByte?_endTagStart plain found
    rw [found] at search
    have front : slice? (utf8Size done) (utf8Size done + utf8Size before) (done ++ rest) = some before := by
      rw [same, slice?_append]
    have size : utf8Size tag = utf8Size letters := by rw [← spelled, utf8Size_lowered]
    have marked : utf8Size (done ++ (before ++ "</".toList)) = utf8Size done + utf8Size before + 2 := by
      rw [utf8Size_append, utf8Size_append, ← Nat.add_assoc]
      rfl
    have cut : slice? (utf8Size done + utf8Size before + 2)
        (utf8Size done + utf8Size before + (2 + utf8Size tag)) (done ++ rest) = some letters := by
      have whole : done ++ rest = (done ++ (before ++ "</".toList)) ++ (letters ++ after) := by
        simp [same]
      rw [whole, ← marked, size, ← Nat.add_assoc, ← marked, slice?_append]
    have whole : done ++ (before ++ ('<' :: '/' :: letters)) ++ after = done ++ rest := by
      simp [same]
    have next : utf8Size (done ++ (before ++ ('<' :: '/' :: letters))) =
        utf8Size done + utf8Size before + (2 + utf8Size tag) := by
      rw [← spelled, utf8Size_append, utf8Size_append, ← endTagStart, utf8Size_endTagStart, utf8Size_lowered,
        ← Nat.add_assoc]
    have later := shieldedFrom?_append plain (done ++ (before ++ ('<' :: '/' :: letters))) after
    rw [whole, next] at later
    rw [shieldedFrom?_of_some search, front, Option.bind_some, cut, Option.bind_some, later, Option.map_some,
      written]
termination_by rest.length
decreasing_by
  rw [same]
  simp
  omega

/-- The pass by byte offsets shields a script or style text: all that it cuts out is cut out between characters,
and what it writes is the text with a backslash put between `<` and `/` of every start of an end tag, in any
letter case. So no end tag starts in what is written, and a text in which none starts stays as it is. -/
theorem shielded_breaks_end_tags (raw : isRawTextElement tag = true) (text : Text) :
    shieldedByOffsets? tag text = some (shielded tag text) ∧
      (∀ place, ¬EndTagAt tag (shielded tag text) place) ∧
      ((∀ place, ¬EndTagAt tag text place) → shielded tag text = text) ∧
      shielded tag text = text.zipIdx.flatMap fun (c, place) =>
        if EndTagAt tag text place then [c, '\\'] else [c] := by
  have plain : '<' ∉ tag := no_delimiter_of_isRawTextElement raw
  have inserted := shielded_eq_flatMap tag [] text
  refine ⟨shieldedFrom?_append plain [] text, ?_, ?_, inserted⟩
  · intro place found
    have holds := holdsEndTag_iff_exists.mpr ⟨place, found⟩
    rw [holdsEndTag_shielded plain] at holds
    cases holds
  · intro free
    simp only [inserted, List.nil_append, free, if_false]
    rw [← List.map_eq_flatMap]
    exact List.zipIdx_map_fst 0 text

/-- A text with characters of several bytes and two end tags of scripts, one of them cut short by another. -/
theorem shielded_breaks_end_tags_accented :
    isRawTextElement "script".toList = true ∧
      shieldedByOffsets? "script".toList "é</scr</ScRiPt>é</SCRIPT".toList =
        some "é</scr<\\/ScRiPt>é<\\/SCRIPT".toList := by
  have script : isRawTextElement "script".toList = true := rfl
  exact ⟨script, (shielded_breaks_end_tags script "é</scr</ScRiPt>é</SCRIPT".toList).1⟩

end Markup

end PageCompiler
