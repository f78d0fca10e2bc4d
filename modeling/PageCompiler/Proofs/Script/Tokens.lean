import Mathlib.Data.List.Basic
import PageCompiler.Proofs.Script.Copying

/-!
# Tokens of scripts

A script is a sequence of tokens: literals, comments, blanks, and the characters of the code between them.
Which slash divides and which opens a regular expression is decided by the grammar of the language, which
a scanner without a grammar can only guess from the character before the slash. What is said here of
tokens takes them as the grammar gives them; whether a scanner reads them as they are meant is a condition
of its own.
-/

namespace PageCompiler.Script

/-- A token of a script. Code is taken character by character; a slash in it divides. A template is all
that stands between its first and its last backtick, its substitutions and the literals in them
included. -/
inductive Token where
  | code (c : Char)
  | blank (c : Char)
  | lineComment (body : Text)
  | blockComment (body : Text)
  | string (quote : Char) (body : Text)
  | template (body : Text)
  | regex (body flags : Text)
deriving DecidableEq

/-- Whether the inside of a string ends at its quote and not before. A backslash takes the next character
along, and a whole line end. -/
def isStringBody (quote : Char) : Text → Bool
  | [] => true
  | '\\' :: '\r' :: '\n' :: rest => isStringBody quote rest
  | '\\' :: _ :: rest => isStringBody quote rest
  | c :: rest => c != quote && c != '\\' && c != '\n' && c != '\r' && isStringBody quote rest

/-- Whether the inside of a template has no backtick that could be taken for its end: none but after a
backslash. So it holds no other template. -/
def isFlatTemplate : Text → Bool
  | [] => true
  | '\\' :: _ :: rest => isFlatTemplate rest
  | c :: rest => c != '\x60' && c != '\\' && isFlatTemplate rest

/-- Whether the inside of a regular expression ends at a slash outside of a class, from inside or outside
of a class. -/
def isRegexBody (inClass : Bool) : Text → Bool
  | [] => !inClass
  | '\\' :: c :: rest => !isLineEnd c && isRegexBody inClass rest
  | c :: rest =>
    !isLineEnd c && c != '\\' && (c != '/' || inClass) &&
      isRegexBody (if c = '[' then true else if c = ']' then false else inClass) rest

namespace Token

/-- The text of a token. -/
def text : Token → Text
  | .code c => [c]
  | .blank c => [c]
  | .lineComment body => '/' :: '/' :: body
  | .blockComment body => '/' :: '*' :: (body ++ ['*', '/'])
  | .string quote body => quote :: (body ++ [quote])
  | .template body => '\x60' :: (body ++ ['\x60'])
  | .regex body flags => '/' :: (body ++ '/' :: flags)

/-- Whether a token is a literal. -/
def isLiteral : Token → Bool
  | .string _ _ | .template _ | .regex _ _ => true
  | _ => false

/-- Whether a token is more than a gap: code or a literal. -/
def isVisible : Token → Bool
  | .blank _ | .lineComment _ | .blockComment _ => false
  | _ => true

/-- Whether a token has the form that the grammar gives it, when the given character follows. Two slashes
are no division, nothing but the end of its line ends a line comment, and the flags of a regular expression
are characters of a word. -/
def isFormed (next : Option Char) : Token → Bool
  | .code c => !Text.isBlank c && !isQuote c && (c != '/' || !startsComment next.toList)
  | .blank c => Text.isBlank c
  | .lineComment body => body.all (fun c => !isLineEnd c) && next.all isLineEnd
  | .blockComment body => !Text.occursIn ['*', '/'] body
  | .string quote body => (quote = '"' || quote = '\'') && isStringBody quote body
  | .template _ => true
  | .regex body flags =>
    !startsComment (body ++ ['/']) && isRegexBody false body &&
      flags.all fun c => isWordChar c && !Text.isBlank c

/-- Whether a token is read as it is meant, after the given character that is not blank and before the given
character. A slash divides where no regular expression could start. A regular expression stands where one
can start, or holds nothing that would not be copied as code. A template holds no other template. A line
comment ends at a line feed or a carriage return. -/
def isReadAsMeant (last next : Option Char) : Token → Bool
  | .code c => c != '/' || !regexCanStart last
  | .template body => isFlatTemplate body
  | .regex body flags =>
    regexCanStart last ||
      (readsAsCode last next (regex body flags).text &&
        (regex body flags).text.all fun c => !Text.isBlank c)
  | .lineComment _ => next.all fun c => c = '\n' || c = '\r'
  | _ => true

/-- The last character that is not blank and belongs to no comment, after a token. -/
def lastAfter (last : Option Char) (token : Token) : Option Char :=
  if token.isVisible then lastVisibleOf last token.text else last

/-- The text of a sequence of tokens. -/
def join (tokens : List Token) : Text :=
  tokens.flatMap text

/-- Whether a condition on tokens, with the characters before and after them, holds along a sequence. -/
def along (holds : Option Char → Option Char → Token → Bool) (last : Option Char) :
    List Token → Bool
  | [] => true
  | token :: rest =>
    holds last (join rest).head? token && along holds (token.lastAfter last) rest

/-- A sequence of tokens as the grammar gives them. -/
def Formed (tokens : List Token) : Prop :=
  along (fun _ => isFormed) none tokens = true

/-- A sequence of tokens in which the scanner takes no slash and no backtick for another. -/
def ReadAsMeant (tokens : List Token) : Prop :=
  along isReadAsMeant none tokens = true

end Token

/-! ## Literals that are read to their end -/

theorem closes_of_isFlatTemplate {body : Text} (flat : isFlatTemplate body = true) :
    (Literal.quoted '\x60' false).closes (body ++ ['\x60']) = true := by
  fun_induction isFlatTemplate body with
  | case1 => rfl
  | case2 c rest ih => exact ih flat
  | case3 c rest _ ih =>
    simp only [Bool.and_eq_true, bne_iff_ne] at flat
    obtain ⟨⟨other, plain⟩, flat⟩ := flat
    simpa [Literal.closes, Literal.step, other, plain] using ih flat

theorem closes_of_isRegexBody {inClass : Bool} {body : Text} (formed : isRegexBody inClass body = true) :
    (Literal.regex inClass false).closes (body ++ ['/']) = true := by
  fun_induction isRegexBody inClass body with
  | case1 inClass =>
    obtain rfl : inClass = false := by simpa using formed
    rfl
  | case2 inClass c rest ih =>
    simp only [Bool.and_eq_true] at formed
    exact ih formed.2
  | case3 inClass c rest _ ih =>
    simp only [Bool.and_eq_true, bne_iff_ne, Bool.or_eq_true, Bool.not_eq_true'] at formed
    obtain ⟨⟨⟨sameLine, plain⟩, goesOn⟩, formed⟩ := formed
    have noBreak : c ≠ '\n' := by
      rintro rfl
      cases sameLine
    have noEnd : ¬ (c = '/' ∧ inClass = false) := by
      rintro ⟨rfl, outside⟩
      simp [outside] at goesOn
    have closes := ih formed
    rw [List.cons_append, Literal.closes]
    by_cases opens : c = '['
    · simpa [Literal.step, opens] using closes
    · by_cases shuts : c = ']'
      · simpa [Literal.step, shuts] using closes
      · simpa [Literal.step, plain, opens, shuts, noEnd, noBreak] using closes

/-- A string that a pass reads to its end is closed there. -/
theorem closes_of_run {quote : Char} {body written : Text} {next last : Option Char}
    {after : Place × Option Char} (plain : quote = '"' ∨ quote = '\'')
    (formed : isStringBody quote body = true)
    (run : stripStep.run next (.literal (.quoted quote false), last) (body ++ [quote]) =
      .ok (written, after)) :
    (Literal.quoted quote false).closes (body ++ [quote]) = true := by
  fun_induction isStringBody quote body generalizing last written with
  | case1 => rcases plain with rfl | rfl <;> rfl
  | case2 rest ih =>
    -- The line feed of a line end breaks the string, as the backslash took the carriage return along.
    rcases plain with rfl | rfl <;> cases run
  | case3 c rest _ ih =>
    obtain ⟨_, _, _, step, run, -⟩ := Pass.run_cons_eq_ok.mp run
    cases step
    obtain ⟨_, _, _, step, run, -⟩ := Pass.run_cons_eq_ok.mp run
    cases step
    exact ih formed run
  | case4 c rest _ _ ih =>
    simp only [Bool.and_eq_true, bne_iff_ne] at formed
    obtain ⟨⟨⟨⟨other, noEscape⟩, noFeed⟩, -⟩, formed⟩ := formed
    obtain ⟨_, _, _, step, run, -⟩ := Pass.run_cons_eq_ok.mp run
    have goesOn : (Literal.quoted quote false).step c = .ok (some (.quoted quote false)) := by
      simp [Literal.step, noEscape, noFeed, other]
    obtain ⟨following, found, same⟩ := Steps.bind_eq_ok.mp step
    rw [goesOn] at found
    cases found
    cases same
    rw [List.cons_append, Literal.closes, goesOn]
    exact ih formed run

/-! ## Tokens that are read as such -/

namespace Token

variable {last next other : Option Char} {token : Token}

/-- What the passes need to know of a token in its place to read it as such. -/
def isRead (last next : Option Char) : Token → Bool
  | .code c => !Text.isBlank c && readsAsCode last next [c]
  | .blank c => Text.isBlank c
  | .lineComment body =>
    body.all (fun c => c != '\n' && c != '\r') && next.all fun c => c = '\n' || c = '\r'
  | .blockComment body => !Text.occursIn ['*', '/'] body
  | .string quote body => isQuote quote && (Literal.quoted quote false).closes (body ++ [quote])
  | .template body => (Literal.quoted '\x60' false).closes (body ++ ['\x60'])
  | .regex body flags =>
    (regexCanStart last && !startsComment (body ++ ['/']) &&
        (Literal.regex false false).closes (body ++ ['/']) && flags.all isPlain) ||
      (readsAsCode last next (regex body flags).text &&
        (regex body flags).text.all fun c => !Text.isBlank c)

theorem isPlain_of_isWordChar {c : Char} (word : isWordChar c = true)
    (solid : Text.isBlank c = false) : isPlain c = true := by
  have unquoted : isQuote c = false := by
    rw [Bool.eq_false_iff]
    intro opens
    have quotes : (c = '"' ∨ c = '\'') ∨ c = '\x60' := by simpa [isQuote] using opens
    rcases quotes with (rfl | rfl) | rfl <;> cases word
  have noSlash : c ≠ '/' := by
    rintro rfl
    cases word
  simp [isPlain, unquoted, noSlash, solid]

/-- A token that has its form and is read as meant is read as such by a pass that gets past it. -/
theorem isRead_of_run {written : Text} {after : Place × Option Char}
    (formed : token.isFormed next = true) (meant : token.isReadAsMeant last next = true)
    (run : stripStep.run next (.code, last) token.text = .ok (written, after)) :
    token.isRead last next = true := by
  cases token with
  | code c =>
    simp only [isFormed, isReadAsMeant, Bool.and_eq_true, Bool.or_eq_true, Bool.not_eq_true',
      bne_iff_ne] at formed meant
    obtain ⟨⟨solid, unquoted⟩, alone⟩ := formed
    have reads : readsAsCode last next [c] = true := by
      refine readsAsCode_cons.mpr ⟨unquoted, ?_, rfl⟩
      rintro rfl
      exact ⟨meant.resolve_left (absurd rfl), alone.resolve_left (absurd rfl)⟩
    simp [isRead, solid, reads]
  | blank c => exact formed
  | lineComment body =>
    simp only [isFormed, Bool.and_eq_true, List.all_eq_true, Bool.not_eq_true'] at formed
    have sameLine : ∀ c ∈ body, c ≠ '\n' ∧ c ≠ '\r' := by
      intro c member
      have noEnd := formed.1 c member
      constructor <;> rintro rfl <;> cases noEnd
    have ends : next.all (fun c => c = '\n' || c = '\r') = true := meant
    simpa [isRead, ends] using sameLine
  | blockComment body => exact formed
  | string quote body =>
    simp only [isFormed, Bool.and_eq_true, Bool.or_eq_true, decide_eq_true_eq] at formed
    obtain ⟨plain, formed⟩ := formed
    have opens : isQuote quote = true := by rcases plain with rfl | rfl <;> rfl
    obtain ⟨_, _, _, step, run, -⟩ := Pass.run_cons_eq_ok.mp run
    rw [stripStep, if_pos opens] at step
    cases step
    simpa [isRead, opens] using closes_of_run plain formed run
  | template body => exact closes_of_isFlatTemplate meant
  | regex body flags =>
    simp only [isFormed, Bool.and_eq_true, Bool.not_eq_true', List.all_eq_true] at formed
    obtain ⟨⟨notComment, formed⟩, word⟩ := formed
    have plain : flags.all isPlain = true := by
      rw [List.all_eq_true]
      intro c member
      exact isPlain_of_isWordChar (word c member).1 (word c member).2
    simp only [isReadAsMeant, Bool.or_eq_true] at meant
    simp only [isRead, Bool.or_eq_true]
    refine meant.imp (fun starts => ?_) id
    simp [starts, notComment, closes_of_isRegexBody formed, plain]

/-- A visible token that is read as such is copied. -/
theorem copied_of_isRead (visible : token.isVisible = true) (read : token.isRead last next = true) :
    Copied last next token.text := by
  cases token with
  | code c =>
    simp only [isRead, Bool.and_eq_true, Bool.not_eq_true'] at read
    exact .code read.2 (by simpa [text] using read.1)
  | blank c => cases visible
  | lineComment body => cases visible
  | blockComment body => cases visible
  | string quote body =>
    simp only [isRead, Bool.and_eq_true] at read
    exact .quoted read.1 read.2
  | template body => exact .quoted rfl read
  | regex body flags =>
    simp only [isRead, Bool.or_eq_true, Bool.and_eq_true, Bool.not_eq_true'] at read
    rcases read with ⟨⟨⟨starts, notComment⟩, closes⟩, plain⟩ | ⟨reads, solid⟩
    · have cut : (regex body flags).text = ('/' :: (body ++ ['/'])) ++ flags := by simp [text]
      rw [cut]
      exact (Copied.regex starts notComment closes).append (.plain plain)
    · exact .code reads (by simpa using solid)

/-- What follows code matters only when it would make a comment of a slash at its end. -/
theorem readsAsCode_next {text : Text}
    (kept : text.getLast? = some '/' → startsComment other.toList = true →
      startsComment next.toList = true)
    (reads : readsAsCode last next text = true) : readsAsCode last other text = true := by
  induction text generalizing last with
  | nil => rfl
  | cons c rest ih =>
    obtain ⟨unquoted, divides, reads⟩ := readsAsCode_cons.mp reads
    cases rest with
    | nil =>
      refine readsAsCode_cons.mpr ⟨unquoted, ?_, rfl⟩
      rintro rfl
      obtain ⟨divides, alone⟩ := divides rfl
      refine ⟨divides, ?_⟩
      rw [Bool.eq_false_iff]
      intro comment
      have := kept rfl comment
      simp_all
    | cons d rest =>
      exact readsAsCode_cons.mpr ⟨unquoted, divides, ih (by simpa using kept) reads⟩

/-- A token that is no comment. -/
def IsBare (token : Token) : Prop :=
  token.isVisible = true ∨ ∃ c, token = .blank c

/-- Whether a condition on tokens depends on what follows only where it could make a comment of a slash. -/
def IgnoresNext (holds : Option Char → Option Char → Token → Bool) : Prop :=
  ∀ last next other token, token.IsBare →
    (token.text.getLast? = some '/' → startsComment other.toList = true →
      startsComment next.toList = true) →
    holds last next token = true → holds last other token = true

theorem ignoresNext_isRead : IgnoresNext isRead := by
  rintro last next other token bare kept read
  cases token with
  | code c =>
    simp only [isRead, Bool.and_eq_true] at read ⊢
    exact ⟨read.1, readsAsCode_next kept read.2⟩
  | blank c => exact read
  | lineComment body => simp [IsBare, isVisible] at bare
  | blockComment body => simp [IsBare, isVisible] at bare
  | string quote body => exact read
  | template body => exact read
  | regex body flags =>
    simp only [isRead, Bool.or_eq_true, Bool.and_eq_true] at read ⊢
    exact read.imp id fun reads => ⟨readsAsCode_next kept reads.1, reads.2⟩

theorem ignoresNext_isFormed : IgnoresNext fun _ => isFormed := by
  rintro last next other token bare kept formed
  cases token with
  | code c =>
    by_cases slash : c = '/'
    · subst slash
      cases comment : startsComment other.toList with
      | false => simp_all [isFormed]
      | true =>
        have := kept rfl comment
        simp_all [isFormed]
    · simp_all [isFormed]
  | lineComment body => simp [IsBare, isVisible] at bare
  | blockComment body => simp [IsBare, isVisible] at bare
  | _ => exact formed

end Token

end PageCompiler.Script
