import PageCompiler.Behavior
import PageCompiler.Proofs.Script.Copying
import PageCompiler.Proofs.Text

/-!
# Handlers inside their statements

A statement of the client script is its handler's source between an opening and a closing text. When the
comments are stripped, a source that is complete on its own leaves both as they are, with one exception: a
whole function expression whose source ends in a line comment takes the closing text into the comment. A
body is closed on a line of its own and never does.
-/

namespace PageCompiler

namespace Script

variable {next last other : Option Char} {place : Place} {text written : Text}
  {after : Place × Option Char}

/-! ## Runs over a part of a statement -/

/-- What follows a text matters only when a comment could start there. -/
theorem run_stripStep_next (noComment : startsComment next.toList = false)
    (state : Place × Option Char) (text : Text) :
    stripStep.run next state text = stripStep.run none state text := by
  have unseen : ∀ state c, stripStep state c next = stripStep state c none := by
    rintro ⟨place, last⟩ c
    have absent : next ≠ some '/' ∧ next ≠ some '*' := by
      constructor <;> rintro rfl <;> simp [startsComment] at noComment
    cases place <;> simp [stripStep, absent]
  induction text generalizing state with
  | nil => rfl
  | cons c rest ih =>
    cases rest with
    | nil => simp only [Pass.run, List.head?_nil, Option.none_or, unseen]
    | cons d rest =>
      rw [Pass.run, Pass.run]
      simp only [List.head?_cons, Option.some_or, ih]

theorem stripStep_last {c : Char} {seen : Option Char} {middle : Place}
    (alike : regexCanStart last = regexCanStart other)
    (step : stripStep (place, last) c next = .ok (written, middle, seen)) :
    ∃ visible, stripStep (place, other) c next = .ok (written, middle, visible) ∧
      regexCanStart seen = regexCanStart visible := by
  have visibleAlike : regexCanStart (lastVisible last c) = regexCanStart (lastVisible other c) := by
    unfold lastVisible
    split
    · exact alike
    · rfl
  cases place with
  | literal inside =>
    obtain ⟨following, found, same⟩ := Steps.bind_eq_ok.mp step
    cases same
    exact ⟨lastVisible other c, Steps.bind_eq_ok.mpr ⟨following, found, rfl⟩, visibleAlike⟩
  | lineComment =>
    by_cases ended : (c = '\n' || c = '\r') = true
    · rw [stripStep, if_pos ended] at step ⊢
      cases step
      exact ⟨other, rfl, alike⟩
    · rw [stripStep, if_neg ended] at step ⊢
      cases step
      exact ⟨other, rfl, alike⟩
  | blockStart =>
    cases step
    exact ⟨other, rfl, alike⟩
  | blockComment afterStar spansLines =>
    by_cases ended : (afterStar && c = '/') = true
    · rw [stripStep, if_pos ended] at step ⊢
      cases step
      exact ⟨other, rfl, alike⟩
    · rw [stripStep, if_neg ended] at step ⊢
      cases step
      exact ⟨other, rfl, alike⟩
  | code =>
    simp only [stripStep, ← alike] at step ⊢
    repeat' split at step
    all_goals cases step; simp_all

/-- What was written before a text matters only for whether a regular expression can start there. -/
theorem run_stripStep_last (alike : regexCanStart last = regexCanStart other)
    (run : stripStep.run next (place, last) text = .ok (written, after)) :
    ∃ visible, stripStep.run next (place, other) text = .ok (written, after.1, visible) := by
  induction text generalizing place last other written with
  | nil =>
    cases run
    exact ⟨other, rfl⟩
  | cons c rest ih =>
    obtain ⟨first, ⟨middle, seen⟩, more, step, ran, rfl⟩ := Pass.run_cons_eq_ok.mp run
    obtain ⟨visible, step, alike⟩ := stripStep_last alike step
    obtain ⟨visible, ran⟩ := ih alike ran
    exact ⟨visible, Pass.run_cons _ step ran⟩

/-! ## Blank text at the end -/

/-- A literal that a scanner reaches: in quotes there are strings and templates. -/
def Literal.Proper : Literal → Prop
  | .quoted quote _ => isQuote quote = true
  | .regex _ _ => True

/-- A place that a scanner reaches. -/
def Place.Proper : Place → Prop
  | .literal inside => inside.Proper
  | _ => True

theorem Literal.step_proper {inside : Literal} {c : Char} {following : Option Literal}
    (proper : inside.Proper) (step : inside.step c = .ok following) :
    (Place.ofLiteral following).Proper := by
  fun_cases Literal.step inside c <;> simp_all only [Literal.step] <;> cases step <;>
    first | exact proper | trivial

/-- A blank character closes no literal. -/
theorem Literal.step_blank {inside : Literal} {c : Char} (proper : inside.Proper)
    (blank : Text.isBlank c = true) : inside.step c ≠ .ok none := by
  intro step
  cases inside with
  | quoted quote escaped =>
    have solid : Text.isBlank quote = false := isBlank_of_isQuote proper
    have different : c ≠ quote := by
      rintro rfl
      simp [blank] at solid
    cases escaped <;> simp only [Literal.step, different, if_false] at step
    · repeat' split at step
      all_goals cases step
    · cases step
  | regex inClass escaped =>
    have different : c ≠ '/' := by
      rintro rfl
      cases blank
    cases escaped <;> simp only [Literal.step, different, decide_false, Bool.false_and,
      Bool.false_eq_true, if_false] at step
    · repeat' split at step
      all_goals cases step
    · cases step

theorem stripStep_proper {c : Char} {middle : Place} {seen : Option Char} (proper : place.Proper)
    (step : stripStep (place, last) c next = .ok (written, middle, seen)) : middle.Proper := by
  cases place with
  | literal inside =>
    obtain ⟨following, found, same⟩ := Steps.bind_eq_ok.mp step
    cases same
    exact Literal.step_proper proper found
  | lineComment =>
    simp only [stripStep] at step
    split at step <;> cases step <;> trivial
  | blockStart =>
    cases step
    trivial
  | blockComment afterStar spansLines =>
    simp only [stripStep] at step
    split at step <;> cases step <;> trivial
  | code =>
    by_cases opens : isQuote c = true
    · rw [stripStep, if_pos opens] at step
      cases step
      exact opens
    · rw [stripStep, if_neg opens] at step
      repeat' split at step
      all_goals cases step; try trivial

theorem run_stripStep_proper (proper : place.Proper)
    (run : stripStep.run next (place, last) text = .ok (written, after)) : after.1.Proper := by
  induction text generalizing place last written with
  | nil =>
    cases run
    exact proper
  | cons c rest ih =>
    obtain ⟨first, ⟨middle, seen⟩, more, step, ran, rfl⟩ := Pass.run_cons_eq_ok.mp run
    exact ih (stripStep_proper proper step) ran

/-- Blank text closes neither a literal nor a block comment, and what is written for it is blank. -/
theorem run_stripStep_blank (proper : place.Proper) (blank : ∀ c ∈ text, Text.isBlank c = true)
    (run : stripStep.run next (place, last) text = .ok (written, after)) (ends : after.1.MayEnd) :
    place.MayEnd ∧ ∀ c ∈ written, Text.isBlank c = true := by
  induction text generalizing place last written with
  | nil =>
    cases run
    exact ⟨ends, by simp⟩
  | cons c rest ih =>
    obtain ⟨first, ⟨middle, seen⟩, more, step, ran, rfl⟩ := Pass.run_cons_eq_ok.mp run
    obtain ⟨middleEnds, moreBlank⟩ :=
      ih (stripStep_proper proper step) (fun d member => blank d (by simp [member])) ran
    have isBlank : Text.isBlank c = true := blank c (by simp)
    obtain ⟨unquoted, noSlash⟩ := plain_of_isBlank isBlank
    have kept : place.MayEnd ∧ ∀ d ∈ first, d = c := by
      cases place with
      | literal inside =>
        obtain ⟨following, found, same⟩ := Steps.bind_eq_ok.mp step
        cases same
        cases following with
        | none => exact absurd found (Literal.step_blank proper isBlank)
        | some inside => rcases middleEnds with same | same <;> cases same
      | lineComment =>
        refine ⟨.inr rfl, ?_⟩
        simp only [stripStep] at step
        split at step <;> cases step <;> simp
      | blockStart =>
        cases step
        rcases middleEnds with same | same <;> cases same
      | blockComment afterStar spansLines =>
        simp only [stripStep, noSlash, decide_false, Bool.and_false, Bool.false_eq_true, if_false] at step
        cases step
        rcases middleEnds with same | same <;> cases same
      | code =>
        refine ⟨.inl rfl, ?_⟩
        simp only [stripStep, unquoted, Bool.false_eq_true, if_false, noSlash] at step
        cases step
        simp
    refine ⟨kept.1, ?_⟩
    intro d member
    rcases List.mem_append.mp member with inFirst | inMore
    · rw [kept.2 d inFirst]
      exact isBlank
    · exact moreBlank d inMore

/-! ## Line comments at the end -/

/-- Whether a text that is read from code on ends inside a line comment. -/
def endsInLineComment (text : Text) : Bool :=
  match stripStep.run none (.code, none) text with
  | .ok (_, .lineComment, _) => true
  | _ => false

theorem endsInLineComment_eq (run : stripStep.run none (.code, none) text = .ok (written, after)) :
    endsInLineComment text = decide (after.1 = .lineComment) := by
  obtain ⟨place, last⟩ := after
  rw [endsInLineComment, run]
  cases place <;> rfl

/-- A line comment goes on, or starts with two slashes in code. -/
theorem stripStep_lineComment {c : Char} {seen : Option Char}
    (step : stripStep (place, last) c next = .ok (written, .lineComment, seen)) :
    (place = .lineComment ∧ c ≠ '\n' ∧ c ≠ '\r') ∨ (place = .code ∧ c = '/' ∧ next = some '/') := by
  cases place with
  | literal inside =>
    obtain ⟨following, found, same⟩ := Steps.bind_eq_ok.mp step
    cases following <;> cases same
  | lineComment =>
    simp only [stripStep] at step
    split at step
    · cases step
    · next noBreak => exact .inl ⟨rfl, by simpa using noBreak⟩
  | blockStart => cases step
  | blockComment afterStar spansLines =>
    simp only [stripStep] at step
    split at step <;> cases step
  | code =>
    refine .inr ⟨rfl, ?_⟩
    simp only [stripStep] at step
    split at step
    · cases step
    · split at step
      · next slash =>
        split at step
        · next comment => exact ⟨slash, comment⟩
        · split at step
          · cases step
          · split at step <;> cases step
      · cases step

theorem split_of_run_lineComment {seen : Option Char}
    (run : stripStep.run none (place, last) text = .ok (written, .lineComment, seen)) :
    (place = .lineComment ∧ ∀ c ∈ text, c ≠ '\n' ∧ c ≠ '\r') ∨
      ∃ code comment kept visible, text = code ++ '/' :: '/' :: comment ∧
        stripStep.run (some '/') (place, last) code = .ok (kept, .code, visible) ∧
        ∀ c ∈ comment, c ≠ '\n' ∧ c ≠ '\r' := by
  induction text generalizing place last written with
  | nil =>
    cases run
    exact .inl ⟨rfl, by simp⟩
  | cons c rest ih =>
    obtain ⟨first, ⟨middle, visible⟩, more, step, ran, rfl⟩ := Pass.run_cons_eq_ok.mp run
    rcases ih ran with ⟨rfl, sameLine⟩ | ⟨code, comment, kept, after, rfl, before, sameLine⟩
    · rcases stripStep_lineComment step with ⟨rfl, noBreak⟩ | ⟨rfl, rfl, slash⟩
      · exact .inl ⟨rfl, by simpa [noBreak] using sameLine⟩
      · obtain ⟨comment, rfl⟩ : ∃ comment, rest = '/' :: comment := by
          cases rest with
          | nil => cases slash
          | cons d comment =>
            cases slash
            exact ⟨comment, rfl⟩
        exact .inr ⟨[], comment, [], last, rfl, rfl, fun d member => sameLine d (by simp [member])⟩
    · have looked : (code ++ '/' :: '/' :: comment).head?.or none = code.head?.or (some '/') := by
        cases code <;> rfl
      rw [looked] at step
      exact .inr ⟨c :: code, comment, first ++ kept, after, rfl, Pass.run_cons _ step before, sameLine⟩

/-- A text ends in a line comment exactly when two slashes that are met in code are followed by no line
break. -/
theorem endsInLineComment_iff :
    endsInLineComment text = true ↔
      ∃ code comment kept visible, text = code ++ '/' :: '/' :: comment ∧
        stripStep.run (some '/') (.code, none) code = .ok (kept, .code, visible) ∧
        ∀ c ∈ comment, c ≠ '\n' ∧ c ≠ '\r' := by
  constructor
  · intro ends
    unfold endsInLineComment at ends
    split at ends
    · next written seen run =>
      rcases split_of_run_lineComment run with ⟨same, _⟩ | split
      · cases same
      · exact split
    · cases ends
  · rintro ⟨code, comment, kept, visible, rfl, run, sameLine⟩
    have ran : stripStep.run none (.code, visible) ('/' :: '/' :: comment) =
        .ok ([], .lineComment, visible) :=
      Pass.run_cons [] rfl (run_stripStep_lineComment (by simpa using sameLine))
    have whole : stripStep.run none (.code, none) (code ++ '/' :: '/' :: comment) =
        .ok (kept ++ [], .lineComment, visible) := Pass.run_append run ran
    rw [endsInLineComment_eq whole]
    rfl

/-- A text that is complete on its own stays complete when the blanks around it go. -/
theorem exists_run_trim (complete : stripComments text = .ok written) :
    ∃ kept after, stripStep.run none (.code, none) (Text.trim text) = .ok (kept, after) ∧
      after.1.MayEnd ∧ Text.trim kept = Text.trim written := by
  obtain ⟨final, run, ends⟩ := stripComments_eq_ok.mp complete
  obtain ⟨before, after, whole, blankBefore, blankAfter⟩ := Text.exists_trim text
  rw [whole] at run
  have runBefore : ∀ next, stripStep.run next (.code, none) before = .ok (before, .code, none) := by
    intro next
    rw [run_stripStep_of_readsAsCode (readsAsCode_of_blank blankBefore),
      lastVisibleOf_of_blank blankBefore]
  obtain ⟨start, opened, rest, ranBefore, runRest, rfl⟩ := Pass.run_append_eq_ok.mp run
  rw [runBefore] at ranBefore
  cases ranBefore
  obtain ⟨kept, middle, more, runTrimmed, runAfter, rfl⟩ := Pass.run_append_eq_ok.mp runRest
  have start : Place.code.Proper := trivial
  have proper : middle.1.Proper := run_stripStep_proper start runTrimmed
  obtain ⟨middleEnds, blankMore⟩ := run_stripStep_blank proper blankAfter runAfter ends
  refine ⟨kept, middle, ?_, middleEnds, ?_⟩
  · rw [← runTrimmed]
    cases after with
    | nil => rfl
    | cons c rest =>
      have noComment : startsComment (some c).toList = false :=
        startsComment_of_isBlank (blankAfter c (by simp))
      exact (run_stripStep_next noComment _ _).symm
  · rw [Text.trim_blank_append blankBefore, Text.trim_append_blank blankMore]

end Script

namespace Handler

/-- What stands before the source of a handler in its function. -/
def opening (parameter : Text) : Handler → Text
  | .body _ => "function(".toList ++ parameter ++ [')', '\x7b']
  | .callable _ => ['(']

/-- The source of a handler as it stands in its function. -/
def embedded : Handler → Text
  | .body source => source
  | .callable source => Text.trim source

/-- What stands after the source of a handler in its function. -/
def closing : Handler → Text
  | .body _ => ['\n', '\x7d']
  | .callable _ => [')']

/-- Whether the source of a handler ends in a line comment that the rest of its line would belong to. -/
def endsInComment : Handler → Bool
  | .body _ => false
  | .callable source => Script.endsInLineComment (Text.trim source)

theorem function_eq (handler : Handler) (parameter : Text) :
    handler.function parameter = handler.opening parameter ++ (handler.embedded ++ handler.closing) := by
  cases handler with
  | body source => exact List.append_assoc _ source _
  | callable source => rfl

/-- With copied text before it, the text before a source is copied, and a regular expression can start
after it. -/
theorem copied_opening (before parameter : Text) (handler : Handler)
    (copied : ∀ next, Script.Copied none next before) (plain : parameter.all Script.isPlain = true)
    (next : Option Char) :
    Script.Copied none next (before ++ handler.opening parameter) ∧
      Script.regexCanStart (Script.lastVisibleOf none (before ++ handler.opening parameter)) = true := by
  rw [Script.lastVisibleOf_append]
  cases handler with
  | body source =>
    have word : ∀ last next, Script.Copied last next "function(".toList := fun _ _ => .plain (by decide)
    refine ⟨(copied _).append (((word _ _).append (.plain plain)).append (.plain (by decide))), ?_⟩
    exact congrArg Script.regexCanStart Script.lastVisibleOf_append
  | callable source => exact ⟨(copied _).append (.plain rfl), rfl⟩

/-- Whether a handler is a whole function expression. -/
def isCallable : Handler → Bool
  | .body _ => false
  | .callable _ => true

/-- A source that is complete on its own is complete as it is embedded. -/
theorem exists_run_embedded {stripped : Text} (handler : Handler)
    (complete : Script.stripComments handler.source = .ok stripped) :
    ∃ kept after, Script.stripStep.run none (.code, none) handler.embedded = .ok (kept, after) ∧
      after.1.MayEnd ∧ Text.trim kept = Text.trim stripped ∧
      (handler.endsInComment = true ↔ after.1 = .lineComment ∧ handler.isCallable) := by
  cases handler with
  | body source =>
    obtain ⟨after, run, ends⟩ := Script.stripComments_eq_ok.mp complete
    exact ⟨stripped, after, run, ends, rfl, by simp [endsInComment, isCallable]⟩
  | callable source =>
    obtain ⟨kept, after, run, ends, same⟩ := Script.exists_run_trim complete
    have comment : (callable source).endsInComment = decide (after.1 = .lineComment) :=
      Script.endsInLineComment_eq run
    exact ⟨kept, after, run, ends, same, by simp [comment, isCallable]⟩

end Handler

namespace Behavior.Entry

/-- The handler of an entry. -/
def handler? : Entry → Option Handler
  | .event _ _ handler => some handler
  | .stateWatch _ _ transform => transform
  | .lifecycle handler => some handler

/-- What stands before the source of the handler in the statement of an entry. -/
def opening : Entry → Text
  | .event element name handler =>
    "$on(".toList ++ Json.stringText element ++ [','] ++ Json.stringText name ++ [','] ++
      handler.opening "event".toList
  | .stateWatch key element (some transform) =>
    "$text(".toList ++ Json.stringText key ++ [','] ++ Json.stringText element ++ [','] ++
      transform.opening "value".toList
  | .stateWatch key element none =>
    "$text(".toList ++ Json.stringText key ++ [','] ++ Json.stringText element
  | .lifecycle (.body source) => '(' :: (Handler.body source).opening []
  | .lifecycle (.callable source) => (Handler.callable source).opening []

/-- What stands after the source of the handler in the statement of an entry. -/
def closing : Entry → Text
  | .event _ _ handler => handler.closing ++ [')', ';']
  | .stateWatch _ _ (some transform) => transform.closing ++ [')', ';']
  | .stateWatch _ _ none => [')', ';']
  | .lifecycle (.body source) => (Handler.body source).closing ++ [')', '(', ')', ';']
  | .lifecycle (.callable source) => (Handler.callable source).closing ++ ['(', ')', ';']

variable {entry : Entry} {handler : Handler}

/-- A function with what stands before and after it, as an opening text, a source and a closing text. -/
theorem around_function (before after parameter : Text) (handler : Handler) :
    before ++ handler.function parameter ++ after =
      before ++ handler.opening parameter ++ (handler.embedded ++ (handler.closing ++ after)) := by
  rw [Handler.function_eq]
  simp only [List.append_assoc]

theorem statement_eq (found : entry.handler? = some handler) :
    entry.statement = entry.opening ++ (handler.embedded ++ entry.closing) := by
  cases entry with
  | event element name own =>
    cases found
    exact around_function _ _ _ handler
  | stateWatch key element transform =>
    cases found
    exact around_function _ _ _ handler
  | lifecycle own =>
    cases found
    cases handler with
    | body source => exact around_function ['('] _ [] (.body source)
    | callable source => exact around_function [] _ [] (.callable source)

/-- An opening text is copied, and a regular expression can start after it. -/
theorem copied_opening (found : entry.handler? = some handler) (next : Option Char) :
    Script.Copied none next entry.opening ∧
      Script.regexCanStart (Script.lastVisibleOf none entry.opening) = true := by
  have comma : ∀ last next, Script.Copied last next [','] := fun _ _ => .plain (by decide)
  cases entry with
  | event element name own =>
    cases found
    have start : ∀ last next, Script.Copied last next "$on(".toList := fun _ _ => .plain (by decide)
    exact handler.copied_opening _ _ (fun next => ((((start _ _).append (.stringText element)).append
      (comma _ _)).append (.stringText name)).append (comma _ _)) (by decide) next
  | stateWatch key element transform =>
    cases found
    have start : ∀ last next, Script.Copied last next "$text(".toList := fun _ _ => .plain (by decide)
    exact handler.copied_opening _ _ (fun next => ((((start _ _).append (.stringText key)).append
      (comma _ _)).append (.stringText element)).append (comma _ _)) (by decide) next
  | lifecycle own =>
    cases found
    cases handler with
    | body source =>
      exact (Handler.body source).copied_opening ['('] []
        (fun next => .plain (by decide)) rfl next
    | callable source =>
      exact (Handler.callable source).copied_opening [] []
        (fun next => .nil) rfl next

theorem readsAsCode_closing (found : entry.handler? = some handler) (last : Option Char) :
    Script.readsAsCode last none entry.closing = true := by
  cases entry with
  | event element name own => cases own <;> rfl
  | stateWatch key element transform =>
    cases found
    cases handler <;> rfl
  | lifecycle own => cases own <;> rfl

theorem startsComment_closing (entry : Entry) : Script.startsComment entry.closing = false := by
  cases entry with
  | event element name own => cases own <;> rfl
  | stateWatch key element transform =>
    cases transform with
    | none => rfl
    | some own => cases own <;> rfl
  | lifecycle own => cases own <;> rfl

/-- The closing text of a body starts on a line of its own. -/
theorem closing_body {source : Text} (found : entry.handler? = some (.body source)) :
    ∃ rest, entry.closing = '\n' :: rest ∧
      ∀ last, Script.readsAsCode last none rest = true := by
  cases entry with
  | event element name own =>
    cases found
    exact ⟨_, rfl, fun _ => rfl⟩
  | stateWatch key element transform =>
    cases found
    exact ⟨_, rfl, fun _ => rfl⟩
  | lifecycle own =>
    cases found
    exact ⟨_, rfl, fun _ => rfl⟩

/-- The closing text of a whole expression stays on the line of its source. -/
theorem closing_callable {source : Text} (found : entry.handler? = some (.callable source)) :
    ∀ c ∈ entry.closing, c ≠ '\n' ∧ c ≠ '\r' := by
  have onOneLine : ∀ c ∈ [')', ')', ';'] ++ [')', '(', ')', ';'], c ≠ '\n' ∧ c ≠ '\r' := by
    simp
  cases entry with
  | event element name own =>
    cases found
    exact fun c member => onOneLine c (List.mem_append_left _ member)
  | stateWatch key element transform =>
    cases found
    exact fun c member => onOneLine c (List.mem_append_left _ member)
  | lifecycle own =>
    cases found
    exact fun c member => onOneLine c (List.mem_append_right _ member)

/-- After a source that may end where it does, the closing text is copied, except after a line comment
that no line break ends. -/
theorem run_closing {place : Script.Place} (last : Option Char) (ends : place.MayEnd)
    (found : entry.handler? = some handler) :
    ∃ after, after.1.MayEnd ∧ Script.stripStep.run none (place, last) entry.closing =
      .ok (if place = .lineComment ∧ handler.isCallable then [] else entry.closing, after) := by
  rcases ends with rfl | rfl
  · exact ⟨_, .inl rfl, Script.run_stripStep_of_readsAsCode (readsAsCode_closing found last)⟩
  · cases handler with
    | body source =>
      obtain ⟨rest, opens, reads⟩ := closing_body found
      rw [opens]
      exact ⟨_, .inl rfl, Script.run_stripStep_lineBreak (reads last)⟩
    | callable source =>
      exact ⟨_, .inr rfl, Script.run_stripStep_lineComment (closing_callable found)⟩

/-- The statement of an entry without its comments, when the source of its handler is complete. -/
theorem exists_stripComments_statement {stripped : Text} (found : entry.handler? = some handler)
    (complete : Script.stripComments handler.source = .ok stripped) :
    ∃ kept, Text.trim kept = Text.trim stripped ∧
      Script.stripComments entry.statement =
        .ok (entry.opening ++ (kept ++ if handler.endsInComment then [] else entry.closing)) := by
  obtain ⟨kept, ⟨place, last⟩, run, ends, same, comment⟩ := handler.exists_run_embedded complete
  obtain ⟨opened, starts⟩ :=
    copied_opening found ((handler.embedded ++ entry.closing).head?.or none)
  have alike : Script.regexCanStart none =
      Script.regexCanStart (Script.lastVisibleOf none entry.opening) := starts.symm
  obtain ⟨visible, ran⟩ := Script.run_stripStep_last alike run
  obtain ⟨after, closes, closed⟩ := run_closing visible ends found
  have noComment : Script.startsComment (entry.closing.head?.or none).toList = false := by
    rw [Option.or_none, Script.startsComment_head, startsComment_closing]
  rw [← Script.run_stripStep_next noComment] at ran
  refine ⟨kept, same, Script.stripComments_eq_ok.mpr ⟨after, ?_, closes⟩⟩
  rw [statement_eq found, if_congr comment rfl rfl]
  exact Script.Pass.run_append opened.stripped (Script.Pass.run_append ran closed)

theorem visible_closing (entry : Entry) :
    0 < entry.closing.countP fun c => !Text.isBlank c := by
  cases entry with
  | event element name own => cases own <;> exact Nat.succ_pos _
  | stateWatch key element transform =>
    cases transform with
    | none => exact Nat.succ_pos _
    | some own => cases own <;> exact Nat.succ_pos _
  | lifecycle own => cases own <;> exact Nat.succ_pos _

/-- A statement without comments is its opening text, the source without comments and its closing text,
unless the handler is a whole expression that ends in a line comment. -/
theorem stripComments_statement_iff {stripped : Text} (found : entry.handler? = some handler)
    (complete : Script.stripComments handler.source = .ok stripped) :
    (∃ kept, Script.stripComments entry.statement = .ok (entry.opening ++ (kept ++ entry.closing)) ∧
      Text.trim kept = Text.trim stripped) ↔ handler.endsInComment = false := by
  obtain ⟨kept, same, run⟩ := exists_stripComments_statement found complete
  rw [run]
  cases comment : handler.endsInComment with
  | false => exact ⟨fun _ => rfl, fun _ => ⟨kept, rfl, same⟩⟩
  | true =>
    simp only [if_true, Bool.true_eq_false, iff_false]
    rintro ⟨other, equal, alike⟩
    have whole : kept = other ++ entry.closing := by simpa using equal
    have counts := congrArg (List.countP fun c => !Text.isBlank c) (same.trans alike.symm)
    rw [Text.countP_trim, Text.countP_trim, whole, List.countP_append] at counts
    have visible := visible_closing entry
    omega

/-- A comment at the end of a body leaves the statement of a listener whole. -/
theorem stripComments_statement_iff_commentedBody :
    let handler := Handler.body "go() // now".toList
    let entry := Entry.event "a".toList "click".toList handler
    (entry.handler? = some handler ∧ Script.stripComments handler.source = .ok "go() ".toList) ∧
      ∃ kept, Script.stripComments entry.statement = .ok (entry.opening ++ (kept ++ entry.closing)) ∧
        Text.trim kept = Text.trim "go() ".toList := by
  have complete : Script.stripComments "go() // now".toList = .ok "go() ".toList := by decide +kernel
  have found : (Entry.event "a".toList "click".toList (.body "go() // now".toList)).handler? =
      some (.body "go() // now".toList) := rfl
  exact ⟨⟨rfl, complete⟩, (stripComments_statement_iff found complete).mpr rfl⟩

/-- A valid function expression that is complete on its own and ends in a line comment takes the end of
its statement into the comment. -/
theorem callable_comment_can_swallow_closing :
    let handler := Handler.callable "() => go() // now".toList
    let entry := Entry.lifecycle handler
    handler.validate = .ok () ∧ Script.stripComments handler.source = .ok "() => go() ".toList ∧
      Script.stripComments entry.statement = .ok "(() => go() ".toList ∧
      ¬ ∃ kept, Script.stripComments entry.statement =
          .ok (entry.opening ++ (kept ++ entry.closing)) ∧
        Text.trim kept = Text.trim "() => go() ".toList := by
  have run : Script.stripComments (lifecycle (.callable "() => go() // now".toList)).statement =
      .ok "(() => go() ".toList := by decide +kernel
  refine ⟨by decide +kernel, by decide +kernel, run, ?_⟩
  rintro ⟨kept, kept_run, -⟩
  rw [run, ← List.append_assoc] at kept_run
  have cut : ")();".toList <:+ "(() => go() ".toList :=
    ⟨_, (Except.ok.inj kept_run).symm⟩
  exact absurd cut (by decide)

end Behavior.Entry

end PageCompiler
