import PageCompiler.Proofs.Markup.Reachable
import PageCompiler.Proofs.Markup.Trees

/-!
# Raw text

Raw text is kept from closing its own element one text at a time. That is enough for the content of
one text. Over several texts it fails exactly when an end tag begins at the end of one of them and
goes on in those after it.
-/

namespace PageCompiler.Markup

/-- Whether an end tag starts somewhere in a text, in any letter case. -/
def holdsEndTag (tag text : Text) : Bool :=
  Text.occursIn (endTagStart tag) (Text.lowered text)

/-- Whether an end tag begins at the end of a text and goes on in what follows it. -/
def SpillsEndTag (tag text after : Text) : Prop :=
  ∃ start rest : Text, start ≠ [] ∧ rest ≠ [] ∧ Text.lowered (start ++ rest) = endTagStart tag ∧
    start <:+ text ∧ rest <+: after

/-- Whether an end tag begins at the end of one text and goes on in those after it. -/
def SplitsEndTag (tag : Text) (texts : List Text) : Prop :=
  ∃ (before : List Text) (text : Text) (after : List Text),
    texts = before ++ text :: after ∧ SpillsEndTag tag text after.flatten

theorem prefix_append_iff {α : Type} {part first second : List α} :
    part <+: first ++ second ↔
      part <+: first ∨ ∃ rest, rest ≠ [] ∧ part = first ++ rest ∧ rest <+: second := by
  constructor
  · intro whole
    rcases Nat.le_total part.length first.length with short | long
    · left
      exact List.prefix_of_prefix_length_le whole (List.prefix_append first second) short
    · obtain ⟨rest, rfl⟩ :=
        List.prefix_of_prefix_length_le (List.prefix_append first second) whole long
      rw [List.prefix_append_right_inj] at whole
      by_cases nothing : rest = []
      · left
        rw [nothing, List.append_nil]
      · exact Or.inr ⟨rest, nothing, rfl, whole⟩
  · rintro (inside | ⟨rest, _, rfl, inside⟩)
    · exact inside.trans (List.prefix_append first second)
    · rwa [List.prefix_append_right_inj]

theorem lowered_append (first second : Text) :
    Text.lowered (first ++ second) = Text.lowered first ++ Text.lowered second :=
  List.map_append

theorem startsEndTag_iff {tag text : Text} :
    startsEndTag tag text = true ↔ endTagStart tag <+: Text.lowered text := by
  rw [startsEndTag, decide_eq_true_iff, List.prefix_iff_eq_take, Text.lowered, Text.lowered,
    List.map_take, eq_comm]

theorem holdsEndTag_cons {tag : Text} (c : Char) (text : Text) :
    holdsEndTag tag (c :: text) = true ↔
      startsEndTag tag (c :: text) = true ∨ holdsEndTag tag text = true := by
  rw [startsEndTag_iff]
  simp [holdsEndTag, Text.lowered, Text.occursIn]

/-- Only letters have another letter case. -/
theorem toLower_eq_iff {c mark : Char} (other : mark.isAlpha = false) : c.toLower = mark ↔ c = mark := by
  rw [Char.isAlpha, Bool.or_eq_false_iff] at other
  constructor
  · intro same
    by_cases upper : c.isUpper = true
    · have letter : c.toLower.isLower = true := by
        rw [Char.isLower_toLower_eq_isAlpha, Char.isAlpha, upper]
        rfl
      rw [same, other.2] at letter
      cases letter
    · rwa [Char.toLower_eq_of_not_isUpper upper] at same
  · rintro rfl
    exact Char.toLower_eq_of_not_isUpper (by simp [other.1])

theorem toLower_eq_lt_iff {c : Char} : c.toLower = '<' ↔ c = '<' :=
  toLower_eq_iff rfl

theorem mem_lowered_lt_iff {text : Text} : '<' ∈ Text.lowered text ↔ '<' ∈ text := by
  simp only [Text.lowered, List.mem_map, toLower_eq_lt_iff, exists_eq_right]

theorem eq_lt_of_startsEndTag {tag : Text} {c : Char} {text : Text}
    (starts : startsEndTag tag (c :: text) = true) : c = '<' := by
  rw [startsEndTag_iff, endTagStart, Text.lowered, List.map_cons, List.cons_prefix_cons] at starts
  exact toLower_eq_lt_iff.mp starts.1.symm

theorem exists_slash_of_startsEndTag {tag : Text} {c : Char} {text : Text}
    (starts : startsEndTag tag (c :: text) = true) : ∃ after, text = '/' :: after := by
  rw [startsEndTag_iff, endTagStart, Text.lowered, List.map_cons, List.cons_prefix_cons] at starts
  cases text with
  | nil => simp at starts
  | cons second after =>
    rw [List.map_cons, List.cons_prefix_cons] at starts
    exact ⟨after, by rw [(toLower_eq_iff rfl).mp starts.2.1.symm]⟩

/-- What holds no delimiter needs no shield. -/
theorem shielded_append (tag : Text) {first : Text} (plain : '<' ∉ first) (rest : Text) :
    shielded tag (first ++ rest) = first ++ shielded tag rest := by
  induction first with
  | nil => rfl
  | cons c first ih =>
    rw [List.mem_cons, not_or] at plain
    have unmarked : ¬ startsEndTag tag (c :: (first ++ rest)) = true := fun starts =>
      plain.1 (eq_lt_of_startsEndTag starts).symm
    rw [List.cons_append, shielded, if_neg unmarked, ih plain.2, List.cons_append]

theorem shielded_of_plain (tag : Text) {text : Text} (plain : '<' ∉ text) :
    shielded tag text = text := by
  have alone := shielded_append tag plain []
  rwa [List.append_nil, shielded, List.append_nil] at alone

theorem shielded_cons (tag : Text) {c : Char} (plain : '<' ≠ c) (rest : Text) :
    shielded tag (c :: rest) = c :: shielded tag rest := by
  have single : '<' ∉ [c] := by simpa using plain
  exact shielded_append tag single rest

theorem head?_shielded (tag text : Text) : (shielded tag text).head? = text.head? := by
  cases text with
  | nil => rfl
  | cons c text =>
    rw [shielded]
    split <;> rfl

theorem length_le_length_shielded (tag text : Text) : text.length ≤ (shielded tag text).length := by
  induction text with
  | nil => exact Nat.le_refl _
  | cons c text ih =>
    rw [shielded]
    split <;> simp only [List.length_cons] <;> omega

/-- What holds no delimiter is found in a shielded text exactly where it stands in the text. -/
theorem prefix_shielded_iff (tag : Text) {part : Text} (plain : '<' ∉ part) (text after : Text) :
    part <+: shielded tag text ++ after ↔ part <+: text ++ after := by
  induction text generalizing part with
  | nil => rfl
  | cons c text ih =>
    cases part with
    | nil => simp
    | cons first part =>
      rw [List.mem_cons, not_or] at plain
      by_cases tagged : startsEndTag tag (c :: text) = true
      · rw [shielded, if_pos tagged, eq_lt_of_startsEndTag tagged]
        simp only [List.cons_append, List.cons_prefix_cons]
        exact ⟨fun both => absurd both.1.symm plain.1, fun both => absurd both.1.symm plain.1⟩
      · rw [shielded, if_neg tagged]
        simp only [List.cons_append, List.cons_prefix_cons]
        exact and_congr_right fun _ => ih plain.2

/-- The same for several texts, each shielded on its own. -/
theorem prefix_shieldedAll_iff (tag : Text) {part : Text} (plain : '<' ∉ part) (texts : List Text) :
    part <+: texts.flatMap (shielded tag) ↔ part <+: texts.flatten := by
  induction texts generalizing part with
  | nil => rfl
  | cons text texts ih =>
    rw [List.flatMap_cons, prefix_shielded_iff tag plain, List.flatten_cons, prefix_append_iff,
      prefix_append_iff]
    apply or_congr_right
    apply exists_congr
    intro rest
    apply and_congr_right
    intro _
    apply and_congr_right
    rintro rfl
    exact ih fun member => plain (List.mem_append_right _ member)

theorem lowered_prefix_iff {part text : Text} :
    part <+: Text.lowered text ↔ ∃ found : Text, found <+: text ∧ Text.lowered found = part := by
  rw [Text.lowered, List.prefix_map_iff]
  apply exists_congr
  intro found
  rw [eq_comm (a := part)]
  rfl

/-- And the same in any letter case. -/
theorem prefix_lowered_shielded_iff (tag : Text) {part : Text} (plain : '<' ∉ part)
    (text after : Text) :
    part <+: Text.lowered (shielded tag text ++ after) ↔ part <+: Text.lowered (text ++ after) := by
  rw [lowered_prefix_iff, lowered_prefix_iff]
  apply exists_congr
  intro found
  apply and_congr_left
  rintro rfl
  exact prefix_shielded_iff tag (fun member => plain (mem_lowered_lt_iff.mpr member)) text after

/-- An end tag that spills out of a text begins at its first character or spills out of the rest. -/
theorem spillsEndTag_cons {tag : Text} (c : Char) (text after : Text) :
    SpillsEndTag tag (c :: text) after ↔
      (∃ rest : Text, rest ≠ [] ∧ Text.lowered (c :: text ++ rest) = endTagStart tag ∧
        rest <+: after) ∨ SpillsEndTag tag text after := by
  constructor
  · rintro ⟨start, rest, some, filled, whole, suffix, inside⟩
    rcases List.suffix_cons_iff.mp suffix with rfl | shorter
    · exact Or.inl ⟨rest, filled, whole, inside⟩
    · exact Or.inr ⟨start, rest, some, filled, whole, shorter, inside⟩
  · rintro (⟨rest, filled, whole, inside⟩ | ⟨start, rest, some, filled, whole, suffix, inside⟩)
    · exact ⟨c :: text, rest, List.cons_ne_nil _ _, filled, whole, List.suffix_refl _, inside⟩
    · exact ⟨start, rest, some, filled, whole, List.suffix_cons_iff.mpr (Or.inr suffix), inside⟩

/-- An end tag that starts at the start of a text and not within it ends in what follows. -/
theorem startsEndTag_before_shielded_iff {tag : Text} (plain : '<' ∉ tag) {c : Char} {text : Text}
    (unfinished : ¬ startsEndTag tag (c :: text) = true) (after : Text) :
    startsEndTag tag (c :: (shielded tag text ++ after)) = true ↔
      ∃ rest : Text, rest ≠ [] ∧ Text.lowered (c :: text ++ rest) = endTagStart tag ∧
        rest <+: after := by
  have same : startsEndTag tag (c :: (shielded tag text ++ after)) = true ↔
      endTagStart tag <+: Text.lowered (c :: text) ++ Text.lowered after := by
    rw [startsEndTag_iff, ← lowered_append, endTagStart]
    simp only [Text.lowered, List.cons_append, List.map_cons, List.cons_prefix_cons]
    apply and_congr_right
    intro _
    apply prefix_lowered_shielded_iff
    rw [List.mem_cons, not_or]
    exact ⟨by decide, plain⟩
  rw [startsEndTag_iff] at unfinished
  rw [same, prefix_append_iff, or_iff_right unfinished]
  constructor
  · rintro ⟨rest, filled, whole, inside⟩
    obtain ⟨part, found, rfl⟩ := lowered_prefix_iff.mp inside
    refine ⟨part, ?_, ?_, found⟩
    · rintro rfl
      exact filled rfl
    · rw [lowered_append, whole]
  · rintro ⟨rest, filled, whole, inside⟩
    refine ⟨Text.lowered rest, ?_, ?_, inside.map _⟩
    · simpa [Text.lowered] using filled
    · rw [← whole, lowered_append]

/-- Where an end tag can start in a text that is shielded and followed by another one: it spills out
of the text, or stands after it. -/
theorem holdsEndTag_shielded_append {tag : Text} (plain : '<' ∉ tag) (text after : Text) :
    holdsEndTag tag (shielded tag text ++ after) = true ↔
      SpillsEndTag tag text after ∨ holdsEndTag tag after = true := by
  induction text with
  | nil =>
    have nothing : ¬ SpillsEndTag tag [] after := by
      rintro ⟨start, rest, some, _, _, suffix, _⟩
      exact some (List.suffix_nil.mp suffix)
    rw [or_iff_right nothing]
    rfl
  | cons c text ih =>
    rw [spillsEndTag_cons]
    by_cases tagged : startsEndTag tag (c :: text) = true
    · have notHere : ¬ startsEndTag tag (c :: '\\' :: (shielded tag text ++ after)) = true := by
        rw [startsEndTag_iff, endTagStart]
        simp only [Text.lowered, List.map_cons, List.cons_prefix_cons]
        rintro ⟨_, slash, _⟩
        exact absurd slash (by decide)
      have notNext : ¬ startsEndTag tag ('\\' :: (shielded tag text ++ after)) = true := by
        intro starts
        exact absurd (eq_lt_of_startsEndTag starts) (by decide)
      -- The text holds the whole start of the end tag, which leaves nothing to spill.
      have nothing : ¬ ∃ rest : Text, rest ≠ [] ∧
          Text.lowered (c :: text ++ rest) = endTagStart tag ∧ rest <+: after := by
        rintro ⟨rest, filled, whole, _⟩
        rw [startsEndTag_iff, ← whole, lowered_append] at tagged
        have short := tagged.length_le
        have some : 0 < rest.length := List.length_pos_iff.mpr filled
        simp only [Text.lowered, List.length_append, List.length_map] at short
        omega
      rw [shielded, if_pos tagged, List.cons_append, List.cons_append, holdsEndTag_cons,
        holdsEndTag_cons, ih, or_iff_right notHere, or_iff_right notNext, or_iff_right nothing]
    · rw [shielded, if_neg tagged, List.cons_append, holdsEndTag_cons, ih, ← or_assoc,
        startsEndTag_before_shielded_iff plain tagged]

/-- No end tag can start in a text that is shielded. -/
theorem holdsEndTag_shielded {tag : Text} (plain : '<' ∉ tag) (text : Text) :
    holdsEndTag tag (shielded tag text) = false := by
  have alone := holdsEndTag_shielded_append plain text []
  rw [List.append_nil] at alone
  rw [Bool.eq_false_iff]
  intro holds
  rcases alone.mp holds with ⟨start, rest, _, filled, _, _, inside⟩ | holds
  · exact filled (List.prefix_nil.mp inside)
  · cases holds

/-- What spills over into shielded texts spills over into the texts themselves. -/
theorem spillsEndTag_shieldedAll_iff {tag : Text} (plain : '<' ∉ tag) (text : Text)
    (texts : List Text) :
    SpillsEndTag tag text (texts.flatMap (shielded tag)) ↔
      SpillsEndTag tag text texts.flatten := by
  apply exists_congr
  intro start
  apply exists_congr
  intro rest
  apply and_congr_right
  intro some
  apply and_congr_right
  intro _
  apply and_congr_right
  intro whole
  apply and_congr_right
  intro _
  -- The start of an end tag has its only delimiter at its first character.
  apply prefix_shieldedAll_iff
  intro member
  obtain ⟨first, start, rfl⟩ := List.exists_cons_of_ne_nil some
  rw [lowered_append, endTagStart, Text.lowered, List.map_cons, List.cons_append,
    List.cons.injEq] at whole
  have inside : '<' ∈ '/' :: tag := by
    rw [← whole.2]
    exact List.mem_append_right _ (mem_lowered_lt_iff.mpr member)
  rw [List.mem_cons] at inside
  exact plain (inside.resolve_left (by decide))

theorem splitsEndTag_cons {tag : Text} (text : Text) (texts : List Text) :
    SplitsEndTag tag (text :: texts) ↔
      SpillsEndTag tag text texts.flatten ∨ SplitsEndTag tag texts := by
  constructor
  · rintro ⟨before, middle, after, split, spills⟩
    cases before with
    | nil =>
      cases split
      exact Or.inl spills
    | cons first before =>
      cases split
      exact Or.inr ⟨before, middle, after, rfl, spills⟩
  · rintro (spills | ⟨before, middle, after, rfl, spills⟩)
    · exact ⟨[], text, texts, rfl, spills⟩
    · exact ⟨text :: before, middle, after, rfl, spills⟩

/-- Texts that are shielded one by one hold an end tag together exactly when one is split between
them. -/
theorem holdsEndTag_shieldedAll_iff {tag : Text} (plain : '<' ∉ tag) (texts : List Text) :
    holdsEndTag tag (texts.flatMap (shielded tag)) = true ↔ SplitsEndTag tag texts := by
  induction texts with
  | nil =>
    constructor
    · intro found
      cases found
    · rintro ⟨before, text, after, split, _⟩
      cases before <;> cases split
  | cons text texts ih =>
    rw [List.flatMap_cons, holdsEndTag_shielded_append plain, splitsEndTag_cons, ih,
      spillsEndTag_shieldedAll_iff plain]

/-! ## Elements with raw text -/

theorem no_delimiter_of_isRawTextElement {tag : Text} (raw : isRawTextElement tag = true) :
    '<' ∉ tag := by
  rw [isRawTextElement, List.contains_iff_mem, rawTextElements, List.map_cons, List.map_cons,
    List.map_nil, List.mem_cons, List.mem_singleton] at raw
  rcases raw with rfl | rfl <;> decide

theorem isVoidElement_of_isRawTextElement {tag : Text} (raw : isRawTextElement tag = true) :
    isVoidElement tag = false := by
  rw [isRawTextElement, List.contains_iff_mem, rawTextElements, List.map_cons, List.map_cons,
    List.map_nil, List.mem_cons, List.mem_singleton] at raw
  rcases raw with rfl | rfl <;> decide

theorem markupAll_texts {tag : Text} (raw : isRawTextElement tag = true) (texts : List Text) :
    Tree.markupAll tag (texts.map Tree.text) = texts.flatMap (shielded tag) := by
  induction texts with
  | nil => rfl
  | cons text texts ih =>
    rw [List.map_cons, Tree.markupAll, ih, Tree.markupIn, Tree.contentText]
    simp only [raw, if_true]
    rfl

namespace Document

variable {document : Document}

/-- The content of a text. -/
def content? (document : Document) (id : NodeId) : Option Text :=
  match document.kind? id with
  | some (.text content) => some content
  | _ => none

/-- The contents of the texts among the children of a node, in order. -/
def childTexts (document : Document) (id : NodeId) : List Text :=
  (document.children id).filterMap document.content?

theorem trees_of_texts {ids : List NodeId} (texts : ∀ id ∈ ids, document.isText id = true) :
    document.trees ids = (ids.filterMap document.content?).map Tree.text := by
  induction ids with
  | nil => rfl
  | cons id ids ih =>
    obtain ⟨content, kind⟩ := isText_iff_kind?.mp (texts id (by simp))
    have found : document.content? id = some content := by
      rw [content?, kind]
    rw [trees, List.filterMap_cons_some (tree?_text kind), List.filterMap_cons_some found,
      List.map_cons, ← ih fun other member => texts other (by simp [member]), trees]

/-- The written content of a live script or style element, whose children are all texts, holds the
start of its end tag exactly when that is split between two or more of the children. -/
theorem Reachable.holdsEndTag_content_iff (reachable : document.Reachable) {id : NodeId}
    {data : ElementData} (found : document.element? id = some data)
    (raw : isRawTextElement data.tag = true)
    (texts : ∀ child ∈ document.children id, document.isText child = true) :
    ∃ content : Text,
      document.markup id = Tree.startTag data ++ content ++ Tree.endTag data.tag ∧
        (holdsEndTag data.tag content = true ↔ SplitsEndTag data.tag (document.childTexts id)) := by
  refine ⟨(document.childTexts id).flatMap (shielded data.tag), ?_, ?_⟩
  · rw [markup_of_tree? (reachable.sound.forest.tree?_element found),
      Tree.markup_element (isVoidElement_of_isRawTextElement raw), trees_of_texts texts,
      markupAll_texts raw, childTexts]
  · exact holdsEndTag_shieldedAll_iff (no_delimiter_of_isRawTextElement raw) _

/-- A script whose end tag is split between two texts. -/
def splitScript : Document :=
  [Mutation.createElement "script".toList, .createText ['<'], .createText "/script>".toList,
    .appendChild 0 1, .appendChild 0 2].foldl (fun document mutation => mutation.apply document) {}

theorem splitScript_reachable : splitScript.Reachable :=
  Reachable.empty.run _

theorem holdsEndTag_content_iff_splitScript :
    splitScript.Reachable ∧ splitScript.element? 0 = some { tag := "script".toList } ∧
      isRawTextElement "script".toList = true ∧
      (∀ child ∈ splitScript.children 0, splitScript.isText child = true) ∧
      ∃ content : Text,
        splitScript.markup 0 =
          Tree.startTag { tag := "script".toList } ++ content ++ Tree.endTag "script".toList ∧
        (holdsEndTag "script".toList content = true ↔
          SplitsEndTag "script".toList (splitScript.childTexts 0)) :=
  ⟨splitScript_reachable, by decide, by decide, by decide,
    splitScript_reachable.holdsEndTag_content_iff
      (show splitScript.element? 0 = some { tag := "script".toList } by decide) (by decide)
      (by decide)⟩

/-- Text by text is not enough: a reachable script can close itself early. -/
theorem content_can_hold_endTag :
    ¬ ∀ (document : Document) (id : NodeId) (data : ElementData), document.Reachable →
      document.element? id = some data → isRawTextElement data.tag = true →
      (∀ child ∈ document.children id, document.isText child = true) →
      ∀ content : Text,
        document.markup id = Tree.startTag data ++ content ++ Tree.endTag data.tag →
        holdsEndTag data.tag content = false := by
  intro claim
  have safe := claim splitScript 0 { tag := "script".toList } splitScript_reachable (by decide)
    (by decide) (by decide) "</script>".toList (by decide)
  revert safe
  decide

end Document

end PageCompiler.Markup
