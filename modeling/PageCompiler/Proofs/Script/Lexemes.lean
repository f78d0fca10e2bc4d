import Mathlib.Data.List.Chain
import PageCompiler.Proofs.Script.Settled

/-!
# Lexemes

A script without its gaps is a sequence of lexemes: literals, words and signs. The pass over the gaps takes
a gap away where it takes the characters around it for parts of different lexemes. Whether they are depends
on the lexeme before the gap alone, and the reading of a script keeps of it what it needs to know: what
could still go on. The pass knows this from the last character, except after a regular expression without
flags, where letters become its flags once the blanks before them are gone.
-/

namespace PageCompiler.Script

/-- The kinds of lexemes. A comment sign is a sign like others. -/
inductive LexemeKind where
  | quoted
  | regex
  | word
  | sign
deriving DecidableEq

/-- A lexeme with the gap before it. -/
structure Lexeme where
  gap : Gap
  kind : LexemeKind
  text : Text
deriving DecidableEq

namespace Lexeme

/-- A lexeme without the gap before it. -/
def token (lexeme : Lexeme) : LexemeKind × Text :=
  (lexeme.kind, lexeme.text)

/-- Whether a lexeme is a regular expression without flags. -/
def isBareRegex (lexeme : Lexeme) : Bool :=
  lexeme.kind = .regex && lexeme.text.getLast? = some '/'

/-- Whether a lexeme starts with a letter after blanks without a line end, and the one before it is a regular
expression without flags. -/
def fuses (before after : Lexeme) : Bool :=
  before.isBareRegex && after.gap = .space && after.text.head?.any Char.isAlpha

end Lexeme

/-- What of a lexeme can go on after a character: a literal, a regular expression that is closed but for
flags, its flags, a word, a sign that may be doubled, or nothing. -/
inductive Reading where
  | done
  | literal (inside : Literal)
  | closed
  | flags
  | word
  | sign (c : Char)
deriving DecidableEq

namespace Reading

/-- The literal that the reading is inside of. -/
def literal? : Reading → Option Literal
  | .literal inside => some inside
  | _ => none

/-- The kind of a lexeme that starts with a reading. -/
def kind : Reading → LexemeKind
  | .literal (.quoted _ _) => .quoted
  | .literal (.regex _ _) | .closed | .flags => .regex
  | .word => .word
  | .done | .sign _ => .sign

/-- Whether a character that is not blank goes on with a lexeme. Plus and minus are doubled, and a slash goes
on with the signs of comments. -/
def goesOn : Reading → Char → Bool
  | .done, _ => false
  | .literal _, _ => true
  | .closed, c => c.isAlpha
  | .flags, c => c.isAlpha
  | .word, c => isWordChar c
  | .sign before, c =>
    ((before = '+' || before = '-') && before = c) || (before = '/' && (c = '/' || c = '*'))

/-- The reading after a character that goes on with a lexeme, outside of literals. -/
def continued : Reading → Reading
  | .closed => .flags
  | .sign _ => .done
  | reading => reading

/-- The reading after a character of a literal. -/
def afterLiteral (inside : Literal) : Option Literal → Reading
  | some inside => .literal inside
  | none =>
    match inside with
    | .quoted _ _ => .done
    | .regex _ _ => .closed

/-- The reading after the first character of a lexeme, given the character before it that is not blank and
the one after it. -/
def opening (last : Option Char) (c : Char) (next : Option Char) : Reading :=
  if isQuote c then .literal (.quoted c false)
  else if c = '/' && regexCanStart last && !startsComment next.toList then .literal (.regex false false)
  else if isWordChar c then .word
  else if ['+', '-', '/'].contains c then .sign c
  else .done

end Reading

/-- Reads a text after a gap: the rest of the lexeme that is read, and the lexemes after it. -/
def readOn (reading : Reading) (gap : Gap) (last : Option Char) :
    Text → Except ScanError (Text × List Lexeme)
  | [] =>
    match reading.literal? with
    | some inside => .error inside.unterminated
    | none => .ok ([], [])
  | c :: rest =>
    match reading.literal? with
    | some inside => do
      let next ← inside.step c
      let (more, later) ← readOn (.afterLiteral inside next) .none (lastVisible last c) rest
      return (c :: more, later)
    | none =>
      if Text.isBlank c then
        readOn reading (gap.grow c) last rest
      else if gap = .none && reading.goesOn c then do
        let (more, later) ← readOn reading.continued .none (some c) rest
        return (c :: more, later)
      else do
        let opening := Reading.opening last c rest.head?
        let (more, later) ← readOn opening .none (some c) rest
        return ([], ⟨gap, opening.kind, c :: more⟩ :: later)

/-- The lexemes of a script. -/
def lexemes (script : Text) : Except ScanError (List Lexeme) :=
  (readOn .done .none none script).map Prod.snd

variable {reading : Reading} {gap : Gap} {last : Option Char} {c : Char} {rest text written : Text}

/-! ## Steps of the reading -/

theorem readOn_literal {inside : Literal} {next : Option Literal} (stands : reading.literal? = some inside)
    (step : inside.step c = .ok next) :
    readOn reading gap last (c :: rest) = do
      let (more, later) ← readOn (.afterLiteral inside next) .none (lastVisible last c) rest
      return (c :: more, later) := by
  rw [readOn, stands]
  simp only [step, Steps.ok_bind]

theorem readOn_blank (outside : reading.literal? = none) (blank : Text.isBlank c = true) :
    readOn reading gap last (c :: rest) = readOn reading (gap.grow c) last rest := by
  rw [readOn, outside]
  exact if_pos blank

theorem readOn_goesOn (outside : reading.literal? = none) (solid : Text.isBlank c = false)
    (goesOn : reading.goesOn c = true) :
    readOn reading .none last (c :: rest) = do
      let (more, later) ← readOn reading.continued .none (some c) rest
      return (c :: more, later) := by
  rw [readOn, outside]
  simp only [solid, goesOn, Bool.false_eq_true, if_false, decide_true, Bool.and_true, if_true]

theorem readOn_opening (outside : reading.literal? = none) (solid : Text.isBlank c = false)
    (apart : gap = .none → reading.goesOn c = false) :
    readOn reading gap last (c :: rest) = do
      let opening := Reading.opening last c rest.head?
      let (more, later) ← readOn opening .none (some c) rest
      return ([], ⟨gap, opening.kind, c :: more⟩ :: later) := by
  have new : (gap = .none && reading.goesOn c) = false := by
    by_cases none : gap = .none
    · simp [apart none]
    · simp [none]
  rw [readOn, outside]
  simp only [solid, new, Bool.false_eq_true, if_false]

/-! ## Gaps that may go -/

/-- What the last character tells of a lexeme that is read so far. -/
def Reading.Follows (last : Option Char) (lexeme : Lexeme) : Reading → Prop
  | .done => lexeme.isBareRegex = false
  | .literal inside => lexeme.kind = (Reading.literal inside).kind
  | .closed => last = some '/' ∧ lexeme.isBareRegex = true
  | .flags => ∃ c, last = some c ∧ c.isAlpha = true ∧ lexeme.text.getLast? = some c
  | .word => (∃ c, last = some c ∧ isWordChar c = true) ∧ lexeme.kind = .word
  | .sign c => last = some c ∧ lexeme.kind = .sign

/-- A regular expression without flags is one that is closed. -/
theorem Reading.Follows.isBareRegex_iff {lexeme : Lexeme} (follows : reading.Follows last lexeme)
    (outside : reading.literal? = none) : lexeme.isBareRegex = true ↔ reading = .closed := by
  cases reading with
  | literal inside => cases outside
  | done => simp [show lexeme.isBareRegex = false from follows]
  | closed => simp [follows.2]
  | flags =>
    obtain ⟨c, _, letter, ends⟩ := follows
    have noSlash : c ≠ '/' := by
      rintro rfl
      cases letter
    simp [Lexeme.isBareRegex, ends, noSlash]
  | word => simp [Lexeme.isBareRegex, follows.2]
  | sign d => simp [Lexeme.isBareRegex, follows.2]

theorem isWordChar_of_isAlpha (letter : c.isAlpha = true) : isWordChar c = true := by
  simp [isWordChar, Char.isAlphanum, letter]

theorem gapText_ne_nil {before : Char} (some_gap : gap ≠ .none)
    (spaced : needsSpace before c = true) : gapText gap (some before) c ≠ [] := by
  have space : gapText .space (some before) c = [' '] := if_pos spaced
  have newline : gapText .newline (some before) c =
      if !tightAfter.contains before && !tightBefore.contains c then ['\n']
      else gapText .space (some before) c := rfl
  cases gap with
  | none => exact absurd rfl some_gap
  | space => simp [space]
  | newline =>
    rw [newline, space]
    split <;> simp

/-- A gap before a character that would go on with the lexeme before it stays, but for blanks between a
regular expression without flags and a letter. -/
theorem gapText_eq_nil_iff {lexeme : Lexeme} (follows : reading.Follows last lexeme)
    (outside : reading.literal? = none) (some_gap : gap ≠ .none) (goesOn : reading.goesOn c = true) :
    gapText gap last c = [] ↔ reading = .closed ∧ gap = .space := by
  cases reading with
  | literal inside => cases outside
  | done => cases goesOn
  | closed =>
    have letter : c.isAlpha = true := goesOn
    rw [follows.1]
    have unspaced : needsSpace '/' c = false := by
      have noSign : c ≠ '/' ∧ c ≠ '*' := by
        constructor <;> rintro rfl <;> cases letter
      simp [needsSpace, noSign, isWordChar]
    have loose : tightBefore.contains c = false := by
      rw [Bool.eq_false_iff]
      intro tight
      have all : tightBefore.all (fun d => !d.isAlpha) = true := by decide
      have other := List.all_eq_true.mp all c (List.contains_iff_mem.mp tight)
      rw [letter] at other
      cases other
    cases gap with
    | none => exact absurd rfl some_gap
    | space => simp [gapText, unspaced]
    | newline =>
      have stays : gapText .newline (some '/') c = ['\n'] :=
        if_pos (by rw [loose]; decide)
      simp [stays]
  | flags =>
    obtain ⟨d, rfl, letter, _⟩ := follows
    have spaced : needsSpace d c = true := by
      simp [needsSpace, isWordChar_of_isAlpha letter, isWordChar_of_isAlpha (show c.isAlpha = true from goesOn)]
    simp [gapText_ne_nil some_gap spaced]
  | word =>
    obtain ⟨⟨d, rfl, word⟩, _⟩ := follows
    have spaced : needsSpace d c = true := by
      simp [needsSpace, word, show isWordChar c = true from goesOn]
    simp [gapText_ne_nil some_gap spaced]
  | sign d =>
    obtain ⟨rfl, _⟩ := follows
    have spaced : needsSpace d c = true := by
      rw [needsSpace, show ((d = '+' || d = '-') && d = c || d = '/' && (c = '/' || c = '*')) = true from goesOn]
      rfl
    simp [gapText_ne_nil some_gap spaced]

/-- A lexeme fuses with the one before it exactly where the gap between them goes and its first character
would go on with the other. -/
theorem Reading.Follows.fuses_iff {lexeme : Lexeme} (follows : reading.Follows last lexeme)
    (outside : reading.literal? = none) (apart : gap = .none → reading.goesOn c = false)
    (kind : LexemeKind) (more : Text) :
    lexeme.fuses ⟨gap, kind, c :: more⟩ = true ↔ gapText gap last c = [] ∧ reading.goesOn c = true := by
  constructor
  · intro fused
    simp only [Lexeme.fuses, Bool.and_eq_true, decide_eq_true_eq, List.head?_cons, Option.any_some] at fused
    obtain ⟨⟨bare, rfl⟩, letter⟩ := fused
    obtain rfl := (follows.isBareRegex_iff outside).mp bare
    have goesOn : Reading.closed.goesOn c = true := letter
    exact ⟨(gapText_eq_nil_iff follows outside (by simp) goesOn).mpr ⟨rfl, rfl⟩, goesOn⟩
  · rintro ⟨gone, goesOn⟩
    have some_gap : gap ≠ .none := by
      intro none
      rw [apart none] at goesOn
      cases goesOn
    obtain ⟨rfl, rfl⟩ := (gapText_eq_nil_iff follows outside some_gap goesOn).mp gone
    have letter : c.isAlpha = true := goesOn
    simp [Lexeme.fuses, follows.2, letter]

theorem literal?_afterLiteral (inside : Literal) (next : Option Literal) :
    (Reading.afterLiteral inside next).literal? = next := by
  cases next with
  | some inside => rfl
  | none => cases inside <;> rfl

theorem literal?_opening (last : Option Char) (c : Char) (next : Option Char) :
    (Reading.opening last c next).literal? =
      if isQuote c then some (.quoted c false)
      else if c = '/' && regexCanStart last && !startsComment next.toList then some (.regex false false)
      else none := by
  unfold Reading.opening
  split
  · rfl
  · split
    · rfl
    · split
      · rfl
      · split <;> rfl

theorem literal?_continued (outside : reading.literal? = none) : reading.continued.literal? = none := by
  cases reading <;> first | rfl | cases outside

theorem kind_of_step {inside next : Literal} (step : inside.step c = .ok (some next)) :
    (Reading.literal next).kind = (Reading.literal inside).kind := by
  cases inside with
  | quoted quote escaped =>
    cases escaped with
    | true =>
      cases step
      rfl
    | false =>
      rw [Literal.step] at step
      split_ifs at step <;> cases step <;> rfl
  | regex inClass escaped =>
    cases escaped with
    | true =>
      cases step
      rfl
    | false =>
      rw [Literal.step] at step
      split_ifs at step <;> cases step <;> rfl

theorem slash_of_step {inClass escaped : Bool} (step : (Literal.regex inClass escaped).step c = .ok none) :
    c = '/' := by
  cases escaped with
  | true => cases step
  | false =>
    by_contra other
    rw [Literal.step, decide_eq_false other, Bool.false_and, if_neg Bool.false_ne_true] at step
    split_ifs at step <;> cases step

namespace Reading.Follows

variable {lexeme : Lexeme}

theorem literal {inside : Literal} {next : Option Literal}
    (follows : (Reading.literal inside).Follows last lexeme) (step : inside.step c = .ok next) :
    (Reading.afterLiteral inside next).Follows (lastVisible last c)
      { lexeme with text := lexeme.text ++ [c] } := by
  have sameKind : lexeme.kind = (Reading.literal inside).kind := follows
  cases next with
  | some next => exact sameKind.trans (kind_of_step step).symm
  | none =>
    cases inside with
    | quoted quote escaped =>
      simp [Reading.afterLiteral, Reading.Follows, Lexeme.isBareRegex, sameKind, Reading.kind]
    | regex inClass escaped =>
      obtain rfl := slash_of_step step
      exact ⟨lastVisible_of_solid isBlank_slash, by simp [Lexeme.isBareRegex, sameKind, Reading.kind]⟩

theorem continued (follows : reading.Follows last lexeme) (outside : reading.literal? = none)
    (goesOn : reading.goesOn c = true) :
    reading.continued.Follows (some c) { lexeme with text := lexeme.text ++ [c] } := by
  cases reading with
  | literal inside => cases outside
  | done => cases goesOn
  | closed => exact ⟨c, rfl, goesOn, by simp⟩
  | flags => exact ⟨c, rfl, goesOn, by simp⟩
  | word => exact ⟨⟨c, rfl, goesOn⟩, follows.2⟩
  | sign d => simp [Reading.continued, Reading.Follows, Lexeme.isBareRegex, follows.2]

/-- A character that goes on with a lexeme opens no literal. -/
theorem literal?_opening (follows : reading.Follows last lexeme) (outside : reading.literal? = none)
    (goesOn : reading.goesOn c = true) (next : Option Char) :
    (Reading.opening last c next).literal? = none := by
  have noLiteral : isQuote c = false ∧ (c = '/' → regexCanStart last = false) := by
    have ofWord (word : isWordChar c = true) : isQuote c = false ∧ (c = '/' → regexCanStart last = false) := by
      constructor
      · rw [Bool.eq_false_iff]
        intro opens
        have quotes : (c = '"' ∨ c = '\'') ∨ c = '\x60' := by simpa [isQuote] using opens
        rcases quotes with (rfl | rfl) | rfl <;> cases word
      · rintro rfl
        cases word
    cases reading with
    | literal inside => cases outside
    | done => cases goesOn
    | closed => exact ofWord (isWordChar_of_isAlpha goesOn)
    | flags => exact ofWord (isWordChar_of_isAlpha goesOn)
    | word => exact ofWord goesOn
    | sign d =>
      obtain ⟨rfl, _⟩ := follows
      have signs : ((d = '+' ∨ d = '-') ∧ d = c) ∨ (d = '/' ∧ (c = '/' ∨ c = '*')) := by
        simpa [Reading.goesOn] using goesOn
      rcases signs with ⟨rfl | rfl, rfl⟩ | ⟨rfl, rfl | rfl⟩ <;> decide
  rw [Script.literal?_opening, noLiteral.1]
  by_cases slash : c = '/'
  · simp [noLiteral.2 slash]
  · simp [slash]

end Reading.Follows

theorem follows_opening (gap : Gap) (last : Option Char) (c : Char) (next : Option Char) :
    (Reading.opening last c next).Follows (some c) ⟨gap, (Reading.opening last c next).kind, [c]⟩ := by
  unfold Reading.opening
  split
  · rfl
  · split
    · rfl
    · split
      · next word => exact ⟨⟨c, rfl, word⟩, rfl⟩
      · split
        · exact ⟨rfl, rfl⟩
        · rfl

/-! ## The reading of a collapsed script -/

/-- Without a gap, the first character of a text is the first that is written for it. -/
theorem head?_of_collapseFrom {inside : Option Literal}
    (run : collapseFrom inside .none last text = .ok written)
    (solid : inside = none → text.head?.all fun c => !Text.isBlank c) : written.head? = text.head? := by
  cases text with
  | nil =>
    cases inside <;> cases run
    rfl
  | cons c rest =>
    rw [collapseFrom_cons] at run
    obtain ⟨⟨first, after⟩, step, run⟩ := Steps.bind_eq_ok.mp run
    obtain ⟨more, _, same⟩ := Steps.bind_eq_ok.mp run
    cases same
    cases inside with
    | some literal =>
      obtain ⟨following, _, same⟩ := Steps.bind_eq_ok.mp step
      cases same
      rfl
    | none =>
      have visible : Text.isBlank c = false := by simpa using solid rfl
      simp only [collapseStep, visible, Bool.false_eq_true, if_false, Token.gapText_none] at step
      cases step
      rfl

/-- A lexeme starts in the same way in what is written. -/
theorem opening_of_collapseFrom
    (run : collapseFrom (Reading.opening last c rest.head?).literal? .none (some c) rest = .ok written) :
    Reading.opening last c written.head? = Reading.opening last c rest.head? := by
  by_cases regex : (c = '/' && regexCanStart last) = true
  · rw [head?_of_collapseFrom run]
    intro outside
    have unquoted : isQuote c = false := by
      obtain ⟨slash, _⟩ := Bool.and_eq_true_iff.mp regex
      rw [of_decide_eq_true slash]
      rfl
    have comment : startsComment rest.head?.toList = true := by
      rw [literal?_opening, unquoted, regex] at outside
      simpa using outside
    cases rest with
    | nil => rfl
    | cons d rest =>
      have sign : d = '/' ∨ d = '*' := by simpa [startsComment] using comment
      rcases sign with rfl | rfl <;> rfl
  · rw [Bool.not_eq_true] at regex
    simp only [Reading.opening, regex, Bool.false_and]

/-- What is written for a gap and the character that starts the next lexeme is read as its start, unless the
gap is gone and the character goes on with the lexeme before. -/
theorem exists_readOn_opening (outside : reading.literal? = none) (solid : Text.isBlank c = false)
    (apart : gapText gap last c = [] → reading.goesOn c = false) (rest : Text) :
    ∃ left, readOn reading .none last (gapText gap last c ++ c :: rest) = do
      let opening := Reading.opening last c rest.head?
      let (more, later) ← readOn opening .none (some c) rest
      return ([], ⟨left, opening.kind, c :: more⟩ :: later) := by
  cases shown : gapText gap last c with
  | nil => exact ⟨.none, readOn_opening outside solid fun _ => apart shown⟩
  | cons b others =>
    have single : others = [] ∧ Text.isBlank b = true := by
      have blank := isBlank_of_mem_gapText (shown ▸ List.mem_cons_self)
      refine ⟨?_, blank⟩
      unfold gapText at shown
      repeat' split at shown
      all_goals cases shown; try rfl
    rw [single.1, List.singleton_append, readOn_blank outside single.2]
    exact ⟨_, readOn_opening outside solid fun same => absurd same (Token.grow_ne_none _ _)⟩

/-- Whether two texts are read as the same lexemes if and only if in the first none fuses with the one before
it. The lexeme that is read comes first. -/
def KeepLexemes (lexeme : Lexeme) (first second : Except ScanError (Text × List Lexeme)) : Prop :=
  ∃ more later, first = .ok (more, later) ∧
    ((∃ others, second = .ok (more, others) ∧ others.map Lexeme.token = later.map Lexeme.token) ↔
      ({ lexeme with text := lexeme.text ++ more } :: later).IsChain
        fun before after => before.fuses after = false)

/-- A character that goes on is in front of the rest of its lexeme in both texts. -/
theorem KeepLexemes.cons {lexeme : Lexeme} {first second : Except ScanError (Text × List Lexeme)}
    (keep : KeepLexemes { lexeme with text := lexeme.text ++ [c] } first second) :
    KeepLexemes lexeme (do let (more, later) ← first; return (c :: more, later))
      (do let (more, later) ← second; return (c :: more, later)) := by
  obtain ⟨more, later, rfl, same⟩ := keep
  refine ⟨c :: more, later, rfl, ?_⟩
  rw [List.append_assoc, List.singleton_append] at same
  rw [← same]
  constructor
  · rintro ⟨others, run, tokens⟩
    obtain ⟨⟨rest, found⟩, read, shape⟩ := Steps.bind_eq_ok.mp run
    cases shape
    exact ⟨others, read, tokens⟩
  · rintro ⟨others, read, tokens⟩
    exact ⟨others, by rw [read]; rfl, tokens⟩

/-- A character that starts a lexeme is in front of the rest of it, whatever gap is before it. -/
theorem exists_readOn_opened {first second : Except ScanError (Text × List Lexeme)} {more : Text}
    {left : Gap} {kind : LexemeKind} {later : List Lexeme}
    (step : first = do let (more, later) ← second; return ([], ⟨left, kind, c :: more⟩ :: later)) :
    (∃ others, first = .ok ([], others) ∧
        others.map Lexeme.token = (⟨gap, kind, c :: more⟩ :: later).map Lexeme.token) ↔
      ∃ others, second = .ok (more, others) ∧ others.map Lexeme.token = later.map Lexeme.token := by
  rw [step]
  constructor
  · rintro ⟨_, run, tokens⟩
    obtain ⟨⟨other, others⟩, read, same⟩ := Steps.bind_eq_ok.mp run
    cases same
    simp only [List.map_cons, Lexeme.token, List.cons.injEq, Prod.mk.injEq, true_and] at tokens
    obtain ⟨rfl, tokens⟩ := tokens
    exact ⟨others, read, tokens⟩
  · rintro ⟨others, read, tokens⟩
    exact ⟨⟨left, kind, c :: more⟩ :: others, by rw [read]; rfl, by simp [Lexeme.token, tokens]⟩

/-- A lexeme that starts after a gap starts in what is written too, unless it fuses with the one before
it. -/
theorem KeepLexemes.opened {lexeme : Lexeme} {others : Text}
    (keep : KeepLexemes ⟨gap, (Reading.opening last c rest.head?).kind, [c]⟩
      (readOn (.opening last c rest.head?) .none (some c) rest)
      (readOn (.opening last c rest.head?) .none (some c) others))
    (follows : reading.Follows last lexeme) (outside : reading.literal? = none)
    (solid : Text.isBlank c = false) (apart : gap = .none → reading.goesOn c = false)
    (opens : Reading.opening last c others.head? = Reading.opening last c rest.head?) :
    KeepLexemes lexeme (readOn reading gap last (c :: rest))
      (readOn reading .none last (gapText gap last c ++ c :: others)) := by
  obtain ⟨more, later, read, same⟩ := keep
  let start : Lexeme := ⟨gap, (Reading.opening last c rest.head?).kind, c :: more⟩
  have chain : (∃ found, readOn (.opening last c rest.head?) .none (some c) others = .ok (more, found) ∧
        found.map Lexeme.token = later.map Lexeme.token) ↔
      (start :: later).IsChain fun before after => before.fuses after = false := same
  refine ⟨[], start :: later, ?_, ?_⟩
  · rw [readOn_opening outside solid apart]
    simp only [read]
    rfl
  rw [List.append_nil, List.isChain_cons_cons, ← chain]
  have fuses := follows.fuses_iff outside apart (Reading.opening last c rest.head?).kind more
  cases fused : lexeme.fuses start with
  | true =>
    -- The character goes on with the lexeme before it in what is written.
    obtain ⟨gone, goesOn⟩ := fuses.mp fused
    rw [gone, List.nil_append, readOn_goesOn outside solid goesOn]
    refine iff_of_false ?_ fun separate => Bool.noConfusion separate.1
    rintro ⟨_, run, _⟩
    obtain ⟨_, _, shape⟩ := Steps.bind_eq_ok.mp run
    cases shape
  | false =>
    have separate : gapText gap last c = [] → reading.goesOn c = false := fun gone =>
      Bool.eq_false_iff.mpr fun goesOn => Bool.eq_false_iff.mp fused (fuses.mpr ⟨gone, goesOn⟩)
    obtain ⟨left, written⟩ := exists_readOn_opening outside solid separate others
    rw [opens] at written
    rw [exists_readOn_opened written, and_iff_right rfl]

/-- The lexemes of a text and of what is written for it are the same if and only if none fuses with the one
before it. -/
theorem readOn_collapseFrom {lexeme : Lexeme}
    (run : collapseFrom reading.literal? gap last text = .ok written)
    (follows : reading.Follows last lexeme) (between : gap ≠ .none → reading.literal? = none) :
    KeepLexemes lexeme (readOn reading gap last text) (readOn reading .none last written) := by
  induction text generalizing reading gap last written lexeme with
  | nil =>
    cases outside : reading.literal? with
    | some inside =>
      rw [outside] at run
      cases run
    | none =>
      rw [outside] at run
      cases run
      have read {gap : Gap} : readOn reading gap last [] = .ok ([], []) := by rw [readOn, outside]
      exact ⟨[], [], read, iff_of_true ⟨[], read, rfl⟩ (.singleton _)⟩
  | cons c rest ih =>
    rw [collapseFrom_cons] at run
    obtain ⟨⟨first, after⟩, step, ran⟩ := Steps.bind_eq_ok.mp run
    obtain ⟨others, tail, same⟩ := Steps.bind_eq_ok.mp ran
    cases same
    clear run ran
    cases outside : reading.literal? with
    | some inside =>
      obtain rfl : reading = .literal inside := by
        cases reading <;> cases outside
        rfl
      obtain ⟨next, stepped, same⟩ := Steps.bind_eq_ok.mp step
      cases same
      rw [← literal?_afterLiteral inside next] at tail
      rw [List.singleton_append, readOn_literal rfl stepped, readOn_literal rfl stepped]
      exact (ih tail (follows.literal stepped) (absurd rfl)).cons
    | none =>
      rw [outside] at step
      by_cases blank : Text.isBlank c = true
      · rw [collapseStep_blank blank] at step
        cases step
        rw [← outside] at tail
        rw [readOn_blank outside blank, List.nil_append]
        exact ih tail follows fun _ => outside
      · rw [Bool.not_eq_true] at blank
        simp only [collapseStep, blank, Bool.false_eq_true, if_false, ← literal?_opening] at step
        cases step
        by_cases goesOn : gap = .none ∧ reading.goesOn c = true
        · obtain ⟨rfl, goesOn⟩ := goesOn
          have noLiteral := (follows.literal?_opening outside goesOn rest.head?).trans
            (literal?_continued outside).symm
          dsimp only at tail
          rw [noLiteral] at tail
          rw [Token.gapText_none, List.nil_append, List.singleton_append,
            readOn_goesOn outside blank goesOn, readOn_goesOn outside blank goesOn]
          exact (ih tail (follows.continued outside goesOn) (absurd rfl)).cons
        · have apart : gap = .none → reading.goesOn c = false := fun none =>
            Bool.eq_false_iff.mpr fun goes => goesOn ⟨none, goes⟩
          rw [List.append_assoc, List.singleton_append]
          exact (ih tail (follows_opening gap last c rest.head?) (absurd rfl)).opened follows outside blank
            apart (opening_of_collapseFrom tail)

/-- Nothing goes on with a lexeme that is done. -/
theorem readOn_done {more : Text} {later : List Lexeme} (read : readOn .done gap last text = .ok (more, later)) :
    more = [] := by
  induction text generalizing gap with
  | nil =>
    cases read
    rfl
  | cons c rest ih =>
    by_cases blank : Text.isBlank c = true
    · rw [readOn_blank rfl blank] at read
      exact ih read
    · rw [Bool.not_eq_true] at blank
      rw [readOn_opening rfl blank fun _ => rfl] at read
      obtain ⟨_, _, same⟩ := Steps.bind_eq_ok.mp read
      cases same
      rfl

theorem lexemes_eq_ok_iff {script : Text} {found : List Lexeme} :
    lexemes script = .ok found ↔ readOn .done .none none script = .ok ([], found) := by
  rw [lexemes]
  constructor
  · intro run
    cases read : readOn .done .none none script with
    | error => rw [read] at run; cases run
    | ok parts =>
      obtain ⟨more, later⟩ := parts
      obtain rfl := readOn_done read
      rw [read] at run
      cases run
      rfl
  · intro read
    rw [read]
    rfl

/-- The scanner reads the lexemes of every script whose gaps it collapses. What it writes has the same lexemes
in the same order if and only if no letter follows a regular expression without flags after blanks without
a line end. -/
theorem lexemes_collapseWhitespace_iff {script written : Text}
    (run : collapseWhitespace script = .ok written) :
    ∃ found, lexemes script = .ok found ∧
      ((∃ kept, lexemes written = .ok kept ∧ kept.map Lexeme.token = found.map Lexeme.token) ↔
        found.IsChain fun before after => before.fuses after = false) := by
  -- Before the script there is no lexeme: any that is done and does not fuse stands for it.
  let start : Lexeme := ⟨.none, .sign, []⟩
  have follows : Reading.done.Follows none start := rfl
  have run : collapseFrom Reading.done.literal? .none none script = .ok written := run
  obtain ⟨more, found, read, same⟩ := readOn_collapseFrom run follows fun _ => rfl
  obtain rfl := readOn_done read
  refine ⟨found, lexemes_eq_ok_iff.mpr read, ?_⟩
  have apart : ∀ after : Lexeme, start.fuses after = false := fun _ => rfl
  simpa [lexemes_eq_ok_iff, List.isChain_cons, apart] using same

/-- Blanks inside of literals stay, those after the flags of a regular expression and between equal signs
become one space, and the others go. -/
theorem lexemes_collapseWhitespace_iff_signs :
    collapseWhitespace "a = b + +c ; /d  e/g in '  '".toList = .ok "a=b+ +c;/d  e/g in'  '".toList ∧
      ∃ found, lexemes "a = b + +c ; /d  e/g in '  '".toList = .ok found ∧
        ((∃ kept, lexemes "a=b+ +c;/d  e/g in'  '".toList = .ok kept ∧
            kept.map Lexeme.token = found.map Lexeme.token) ↔
          found.IsChain fun before after => before.fuses after = false) :=
  ⟨by decide, lexemes_collapseWhitespace_iff (by decide)⟩

/-- The blanks between a regular expression without flags and a word go, and the word is read as its
flags. -/
theorem word_can_become_flags :
    collapseWhitespace "x = /a/ in y".toList = .ok "x=/a/in y".toList ∧
      (lexemes "x = /a/ in y".toList).map (List.map Lexeme.token) =
        .ok [(.word, ['x']), (.sign, ['=']), (.regex, "/a/".toList), (.word, "in".toList), (.word, ['y'])] ∧
      (lexemes "x=/a/in y".toList).map (List.map Lexeme.token) =
        .ok [(.word, ['x']), (.sign, ['=']), (.regex, "/a/in".toList), (.word, ['y'])] := by
  decide

end PageCompiler.Script
