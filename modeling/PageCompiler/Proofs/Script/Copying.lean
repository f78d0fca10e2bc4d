import Mathlib.Data.List.Basic
import PageCompiler.Json.Printer
import PageCompiler.Proofs.Script.Scanning

/-!
# Texts that are copied

Both passes copy a literal to its closing character, and code as far as it holds no blank, no quote and no
slash that could be taken for more than a sign of division. A string that is written as JSON is such a
literal.
-/

namespace PageCompiler.Script

/-- The last character that is not blank after a whole text is written. -/
def lastVisibleOf (last : Option Char) (text : Text) : Option Char :=
  text.foldl lastVisible last

/-- Whether a literal is closed by the last character of a text and not before. -/
def Literal.closes : Literal → Text → Bool
  | _, [] => false
  | inside, c :: rest =>
    match inside.step c with
    | .ok none => rest.isEmpty
    | .ok (some inside) => inside.closes rest
    | .error _ => false

/-- Whether a text in code opens no literal and no comment, given the last character before it that is
not blank and the character after it. -/
def readsAsCode (last next : Option Char) : Text → Bool
  | [] => true
  | c :: rest =>
    !isQuote c &&
      (c != '/' || (!regexCanStart last && !startsComment (rest.head?.or next).toList)) &&
      readsAsCode (lastVisible last c) next rest

/-- Whether a character is neither blank nor the start of a literal or a comment. -/
def isPlain (c : Char) : Bool :=
  !isQuote c && c != '/' && !Text.isBlank c

variable {next last : Option Char} {text : Text}

@[simp]
theorem lastVisibleOf_nil : lastVisibleOf last [] = last := rfl

@[simp]
theorem lastVisibleOf_cons {c : Char} :
    lastVisibleOf last (c :: text) = lastVisibleOf (lastVisible last c) text := rfl

@[simp]
theorem lastVisibleOf_append {first second : Text} :
    lastVisibleOf last (first ++ second) = lastVisibleOf (lastVisibleOf last first) second :=
  List.foldl_append

theorem isBlank_of_isQuote {c : Char} (opens : isQuote c = true) : Text.isBlank c = false := by
  have quotes : (c = '"' ∨ c = '\'') ∨ c = '\x60' := by simpa [isQuote] using opens
  rcases quotes with (rfl | rfl) | rfl <;> rfl

/-! ## Literals -/

theorem run_stripStep_of_closes {inside : Literal} (closes : inside.closes text = true) :
    stripStep.run next (.literal inside, last) text = .ok (text, .code, lastVisibleOf last text) := by
  induction text generalizing inside last with
  | nil => cases closes
  | cons c rest ih =>
    rw [Literal.closes] at closes
    cases step : inside.step c with
    | error cause => simp [step] at closes
    | ok following =>
      have written : stripStep (.literal inside, last) c (rest.head?.or next) =
          .ok ([c], .ofLiteral following, lastVisible last c) := by
        simp [stripStep, step, pure, Except.pure]
      cases following with
      | none =>
        obtain rfl : rest = [] := by simpa [step] using closes
        exact Pass.run_cons [c] written Pass.run_nil
      | some inside =>
        exact Pass.run_cons [c] written (ih (by simpa [step] using closes))

theorem run_collapseStep_of_closes {inside : Literal} (gap : Gap)
    (closes : inside.closes text = true) :
    collapseStep.run next ⟨some inside, gap, last⟩ text =
      .ok (text, ⟨none, .none, lastVisibleOf last text⟩) := by
  induction text generalizing inside gap last with
  | nil => cases closes
  | cons c rest ih =>
    rw [Literal.closes] at closes
    cases step : inside.step c with
    | error cause => simp [step] at closes
    | ok following =>
      have written : collapseStep ⟨some inside, gap, last⟩ c (rest.head?.or next) =
          .ok ([c], ⟨following, .none, lastVisible last c⟩) := by
        simp [collapseStep, step, pure, Except.pure]
      cases following with
      | none =>
        obtain rfl : rest = [] := by simpa [step] using closes
        exact Pass.run_cons [c] written Pass.run_nil
      | some inside =>
        exact Pass.run_cons [c] written (ih .none (by simpa [step] using closes))

/-! ## Code -/

/-- A slash that stands for code is followed by no comment in either pass. -/
theorem readsAsCode_cons {c : Char} :
    readsAsCode last next (c :: text) = true ↔
      isQuote c = false ∧
        (c = '/' → regexCanStart last = false ∧ startsComment (text.head?.or next).toList = false) ∧
        readsAsCode (lastVisible last c) next text = true := by
  simp only [readsAsCode, Bool.and_eq_true, Bool.not_eq_true', Bool.or_eq_true, bne_iff_ne, ne_eq,
    and_assoc, ← imp_iff_not_or]

theorem readsAsCode_of_plain (plain : ∀ c ∈ text, isQuote c = false ∧ c ≠ '/') :
    readsAsCode last next text = true := by
  induction text generalizing last with
  | nil => rfl
  | cons c rest ih =>
    obtain ⟨unquoted, noSlash⟩ := plain c (by simp)
    exact readsAsCode_cons.mpr ⟨unquoted, fun same => absurd same noSlash,
      ih fun c member => plain c (by simp [member])⟩

theorem run_stripStep_of_readsAsCode (reads : readsAsCode last next text = true) :
    stripStep.run next (.code, last) text = .ok (text, .code, lastVisibleOf last text) := by
  induction text generalizing last with
  | nil => rfl
  | cons c rest ih =>
    obtain ⟨unquoted, divides, reads⟩ := readsAsCode_cons.mp reads
    refine Pass.run_cons [c] ?_ (ih reads)
    by_cases slash : c = '/'
    · obtain ⟨divides, alone⟩ := divides slash
      subst slash
      generalize rest.head?.or next = following at alone ⊢
      have noComment : following ≠ some '/' ∧ following ≠ some '*' := by
        constructor <;> rintro rfl <;> simp [startsComment] at alone
      simp [stripStep, unquoted, divides, noComment, lastVisible, Text.isBlank]
    · simp [stripStep, unquoted, slash]

theorem run_collapseStep_of_readsAsCode (reads : readsAsCode last next text = true)
    (solid : ∀ c ∈ text, Text.isBlank c = false) :
    collapseStep.run next ⟨none, .none, last⟩ text =
      .ok (text, ⟨none, .none, lastVisibleOf last text⟩) := by
  induction text generalizing last with
  | nil => rfl
  | cons c rest ih =>
    obtain ⟨unquoted, divides, reads⟩ := readsAsCode_cons.mp reads
    have visible : Text.isBlank c = false := solid c (by simp)
    refine Pass.run_cons [c] ?_ (ih reads fun c member => solid c (by simp [member]))
    have noRegex : (c = '/' && regexCanStart last) = false := by
      by_cases slash : c = '/'
      · simp [divides slash]
      · simp [slash]
    simp [collapseStep, unquoted, visible, noRegex, gapText, lastVisible]

/-! ## Blanks and line comments -/

/-- Blank characters are neither quotes nor slashes. -/
theorem plain_of_isBlank {c : Char} (blank : Text.isBlank c = true) : isQuote c = false ∧ c ≠ '/' := by
  constructor
  · rw [Bool.eq_false_iff]
    intro opens
    rw [isBlank_of_isQuote opens] at blank
    cases blank
  · rintro rfl
    cases blank

theorem readsAsCode_of_blank (blank : ∀ c ∈ text, Text.isBlank c = true) :
    readsAsCode last next text = true :=
  readsAsCode_of_plain fun c member => plain_of_isBlank (blank c member)

theorem lastVisibleOf_of_blank (blank : ∀ c ∈ text, Text.isBlank c = true) :
    lastVisibleOf last text = last := by
  induction text with
  | nil => rfl
  | cons c rest ih =>
    rw [lastVisibleOf_cons, lastVisible, if_pos (blank c (by simp)),
      ih fun d member => blank d (by simp [member])]

theorem startsComment_of_isBlank {c : Char} {rest : Text} (blank : Text.isBlank c = true) :
    startsComment (c :: rest) = false := by
  have different : c ≠ '/' ∧ c ≠ '*' := by
    constructor <;> rintro rfl <;> cases blank
  simp [startsComment, different]

theorem run_stripStep_lineComment (sameLine : ∀ c ∈ text, c ≠ '\n' ∧ c ≠ '\r') :
    stripStep.run next (.lineComment, last) text = .ok ([], .lineComment, last) := by
  induction text with
  | nil => rfl
  | cons c rest ih =>
    have noBreak : c ≠ '\n' ∧ c ≠ '\r' := sameLine c (by simp)
    exact Pass.run_cons [] (by simp [stripStep, noBreak])
      (ih fun d member => sameLine d (by simp [member]))

theorem run_stripStep_lineBreak (reads : readsAsCode last next text = true) :
    stripStep.run next (.lineComment, last) ('\n' :: text) =
      .ok ('\n' :: text, .code, lastVisibleOf last text) :=
  Pass.run_cons ['\n'] rfl (run_stripStep_of_readsAsCode reads)

/-! ## Copied texts -/

/-- A text that both passes copy from code to code, when it follows a character without a gap. -/
structure Copied (last next : Option Char) (text : Text) : Prop where
  stripped : stripStep.run next (.code, last) text = .ok (text, .code, lastVisibleOf last text)
  collapsed : collapseStep.run next ⟨none, .none, last⟩ text =
    .ok (text, ⟨none, .none, lastVisibleOf last text⟩)

namespace Copied

theorem nil : Copied last next [] := ⟨rfl, rfl⟩

theorem append {first second : Text} (copied : Copied last (second.head?.or next) first)
    (rest : Copied (lastVisibleOf last first) next second) : Copied last next (first ++ second) where
  stripped := by
    rw [lastVisibleOf_append]
    exact Pass.run_append copied.stripped rest.stripped
  collapsed := by
    rw [lastVisibleOf_append]
    exact Pass.run_append copied.collapsed rest.collapsed

theorem code (reads : readsAsCode last next text = true)
    (solid : ∀ c ∈ text, Text.isBlank c = false) : Copied last next text :=
  ⟨run_stripStep_of_readsAsCode reads, run_collapseStep_of_readsAsCode reads solid⟩

theorem plain (plain : text.all isPlain = true) : Copied last next text := by
  have each : ∀ c ∈ text, isQuote c = false ∧ c ≠ '/' ∧ Text.isBlank c = false := by
    simpa [isPlain, and_assoc] using plain
  exact code (readsAsCode_of_plain fun c member => ⟨(each c member).1, (each c member).2.1⟩)
    fun c member => (each c member).2.2

theorem cons {c : Char} (plain : isPlain c = true) (rest : Copied (lastVisible last c) next text) :
    Copied last next (c :: text) := by
  have single : Copied last (text.head?.or next) [c] := .plain (by simpa using plain)
  exact single.append rest

/-- A string or a template is copied wherever it stands in code. -/
theorem quoted {quote : Char} (opens : isQuote quote = true)
    (closes : (Literal.quoted quote false).closes text = true) : Copied last next (quote :: text) := by
  have visible : Text.isBlank quote = false := isBlank_of_isQuote opens
  have shown : lastVisible last quote = some quote := by simp [lastVisible, visible]
  constructor
  · rw [lastVisibleOf_cons, shown]
    exact Pass.run_cons [quote] (by simp [stripStep, opens]) (run_stripStep_of_closes closes)
  · rw [lastVisibleOf_cons, shown]
    exact Pass.run_cons [quote] (by simp [collapseStep, visible, opens, gapText])
      (run_collapseStep_of_closes .none closes)

/-- A regular expression is copied where one can start. -/
theorem regex (starts : regexCanStart last = true) (notComment : startsComment text = false)
    (closes : (Literal.regex false false).closes text = true) : Copied last next ('/' :: text) := by
  have shown : lastVisible last '/' = some '/' := rfl
  have unquoted : isQuote '/' = false := rfl
  have visible : Text.isBlank '/' = false := rfl
  cases text with
  | nil => cases closes
  | cons c rest =>
    have noComment : c ≠ '/' ∧ c ≠ '*' := by simpa [startsComment] using notComment
    constructor
    · rw [lastVisibleOf_cons, shown]
      refine Pass.run_cons ['/'] ?_ (run_stripStep_of_closes closes)
      simp [stripStep, unquoted, noComment, starts]
    · rw [lastVisibleOf_cons, shown]
      refine Pass.run_cons ['/'] ?_ (run_collapseStep_of_closes .none closes)
      simp [collapseStep, visible, unquoted, gapText, starts, startsComment, noComment]

end Copied

/-! ## Strings written as JSON -/

/-- A string goes on after a character that neither ends it nor escapes the next one. -/
theorem closes_quoted_cons {c : Char} (plain : c ≠ '"' ∧ c ≠ '\\' ∧ c ≠ '\n') (rest : Text) :
    (Literal.quoted '"' false).closes (c :: rest) = (Literal.quoted '"' false).closes rest := by
  simp [Literal.closes, Literal.step, plain]

theorem hexDigit_plain (value : Nat) (digit : value < 16) :
    Json.hexDigit value ≠ '"' ∧ Json.hexDigit value ≠ '\\' ∧ Json.hexDigit value ≠ '\n' := by
  have all : ∀ value : Fin 16, Json.hexDigit value ≠ '"' ∧ Json.hexDigit value ≠ '\\' ∧
      Json.hexDigit value ≠ '\n' := by decide
  exact all ⟨value, digit⟩

theorem closes_escapedChar (c : Char) (rest : Text) :
    (Literal.quoted '"' false).closes (Json.escapedChar c ++ rest) =
      (Literal.quoted '"' false).closes rest := by
  fun_cases Json.escapedChar c with
  | case8 =>
    have escape : (Literal.quoted '"' false).closes ('\\' :: 'u' :: '0' :: '0' ::
        Json.hexDigit (c.toNat / 16) :: Json.hexDigit (c.toNat % 16) :: rest) =
      (Literal.quoted '"' false).closes
        (Json.hexDigit (c.toNat / 16) :: Json.hexDigit (c.toNat % 16) :: rest) := rfl
    exact escape.trans ((closes_quoted_cons (hexDigit_plain _ (by omega)) _).trans
      (closes_quoted_cons (hexDigit_plain _ (by omega)) rest))
  | case9 quote backslash newline =>
    exact closes_quoted_cons ⟨quote, backslash, newline⟩ rest
  | _ => rfl

theorem closes_escapedChars (text : Text) :
    (Literal.quoted '"' false).closes (text.flatMap Json.escapedChar ++ ['"']) = true := by
  induction text with
  | nil => rfl
  | cons c rest ih => rw [List.flatMap_cons, List.append_assoc, closes_escapedChar, ih]

/-- A string written as JSON is copied wherever it stands in code. -/
theorem Copied.stringText (text : Text) : Copied last next (Json.stringText text) :=
  Copied.quoted rfl (closes_escapedChars text)

end PageCompiler.Script
