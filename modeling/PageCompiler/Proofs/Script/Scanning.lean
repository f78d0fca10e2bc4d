import Mathlib.Data.List.Basic
import PageCompiler.Proofs.Steps
import PageCompiler.Script.Whitespace

/-!
# Passes over a script

Both passes over a script read it character by character, each with a look at the character after it. What
a pass writes for a text and where it stands afterwards depends on the text, on where it stood before
and on the first character of what follows, so that a run over a whole script can be cut between any two
characters. Texts that a pass copies from code to code are the parts that whole scripts are put together
from.
-/

namespace PageCompiler.Script

/-- One step of a pass: what is written for a character and where the pass stands after it. The step sees the
character that follows. -/
abbrev Pass (State : Type) :=
  State → Char → Option Char → Except ScanError (Text × State)

namespace Pass

variable {State : Type}

/-- A run over a text with the given character after it. -/
def run (pass : Pass State) (next : Option Char) (state : State) :
    Text → Except ScanError (Text × State)
  | [] => .ok ([], state)
  | c :: rest => do
    let (written, state) ← pass state c (rest.head?.or next)
    let (more, state) ← run pass next state rest
    return (written ++ more, state)

variable {pass : Pass State} {next : Option Char} {state middle after : State}

@[simp]
theorem run_nil : pass.run next state [] = .ok ([], state) := rfl

theorem run_cons_eq_ok {c : Char} {rest written : Text} :
    pass.run next state (c :: rest) = .ok (written, after) ↔
      ∃ first middle more, pass state c (rest.head?.or next) = .ok (first, middle) ∧
        pass.run next middle rest = .ok (more, after) ∧ written = first ++ more := by
  rw [run, Steps.bind_eq_ok]
  constructor
  · rintro ⟨⟨first, middle⟩, step, found⟩
    obtain ⟨⟨more, last⟩, ran, same⟩ := Steps.bind_eq_ok.mp found
    cases same
    exact ⟨first, middle, more, step, ran, rfl⟩
  · rintro ⟨first, middle, more, step, ran, rfl⟩
    exact ⟨(first, middle), step, Steps.bind_eq_ok.mpr ⟨(more, after), ran, rfl⟩⟩

theorem run_cons (first : Text) {c : Char} {rest more : Text}
    (step : pass state c (rest.head?.or next) = .ok (first, middle))
    (ran : pass.run next middle rest = .ok (more, after)) :
    pass.run next state (c :: rest) = .ok (first ++ more, after) :=
  run_cons_eq_ok.mpr ⟨first, middle, more, step, ran, rfl⟩

/-- A run can be cut at any place: the first part sees the first character of the second. -/
theorem run_append_eq_ok {first second written : Text} :
    pass.run next state (first ++ second) = .ok (written, after) ↔
      ∃ before middle more, pass.run (second.head?.or next) state first = .ok (before, middle) ∧
        pass.run next middle second = .ok (more, after) ∧ written = before ++ more := by
  induction first generalizing state written with
  | nil =>
    constructor
    · intro ran
      exact ⟨[], state, written, rfl, ran, rfl⟩
    · rintro ⟨before, middle, more, ran, rest, rfl⟩
      cases ran
      exact rest
  | cons c first ih =>
    have looked : (first ++ second).head?.or next = first.head?.or (second.head?.or next) := by
      cases first <;> rfl
    rw [List.cons_append, run_cons_eq_ok, looked]
    constructor
    · rintro ⟨start, middle, more, step, ran, rfl⟩
      obtain ⟨before, last, rest, ranFirst, ranSecond, rfl⟩ := ih.mp ran
      exact ⟨start ++ before, last, rest, run_cons start step ranFirst, ranSecond, by simp⟩
    · rintro ⟨before, last, rest, ran, ranSecond, rfl⟩
      obtain ⟨start, middle, more, step, ranFirst, rfl⟩ := run_cons_eq_ok.mp ran
      exact ⟨start, middle, more ++ rest, step, ih.mpr ⟨more, last, rest, ranFirst, ranSecond, rfl⟩,
        by simp⟩

theorem run_append {first second before more : Text}
    (ran : pass.run (second.head?.or next) state first = .ok (before, middle))
    (rest : pass.run next middle second = .ok (more, after)) :
    pass.run next state (first ++ second) = .ok (before ++ more, after) :=
  run_append_eq_ok.mpr ⟨before, middle, more, ran, rest, rfl⟩

/-- When the run over the first part is known, the rest of a run is one over the second. -/
theorem exists_run_rest {first second before written : Text}
    (ran : pass.run (second.head?.or next) state first = .ok (before, middle))
    (whole : pass.run next state (first ++ second) = .ok (written, after)) :
    ∃ more, pass.run next middle second = .ok (more, after) ∧ written = before ++ more := by
  obtain ⟨other, last, more, ranFirst, rest, rfl⟩ := run_append_eq_ok.mp whole
  rw [ran] at ranFirst
  cases ranFirst
  exact ⟨more, rest, rfl⟩

end Pass

/-! ## The pass over the comments -/

/-- The place after one more character of a literal. -/
def Place.ofLiteral : Option Literal → Place
  | some inside => .literal inside
  | none => .code

/-- A step of the pass over the comments, which keeps the last character that is not blank that it
wrote. -/
def stripStep : Pass (Place × Option Char)
  | (.literal inside, last), c, _ => do
    let next ← inside.step c
    return ([c], .ofLiteral next, lastVisible last c)
  | (.lineComment, last), c, _ =>
    if c = '\n' || c = '\r' then .ok ([c], .code, last) else .ok ([], .lineComment, last)
  | (.blockStart, last), _, _ => .ok ([], .blockComment false false, last)
  | (.blockComment afterStar spansLines, last), c, _ =>
    if afterStar && c = '/' then .ok ([if spansLines then '\n' else ' '], .code, last)
    else .ok ([], .blockComment (c = '*') (spansLines || c = '\n'), last)
  | (.code, last), c, next =>
    if isQuote c then .ok ([c], .literal (.quoted c false), some c)
    else if c = '/' then
      if next = some '/' then .ok ([], .lineComment, last)
      else if next = some '*' then .ok ([], .blockStart, last)
      else .ok (['/'], if regexCanStart last then .literal (.regex false false) else .code, some '/')
    else .ok ([c], .code, lastVisible last c)

/-- A script may end in code and in a line comment. -/
def Place.MayEnd (place : Place) : Prop :=
  place = .code ∨ place = .lineComment

theorem stripFrom_cons (place : Place) (last : Option Char) (c : Char) (rest : Text) :
    stripFrom place last (c :: rest) = do
      let (written, place, last) ← stripStep (place, last) c rest.head?
      return written ++ (← stripFrom place last rest) := by
  cases place with
  | literal inside =>
    simp only [stripFrom, stripStep, bind_assoc, pure_bind, List.singleton_append]
    congr
  | lineComment =>
    simp only [stripFrom, stripStep]
    split <;> simp
  | blockStart => simp [stripFrom, stripStep]
  | blockComment afterStar spansLines =>
    simp only [stripFrom, stripStep]
    split <;> simp
  | code =>
    simp only [stripFrom, stripStep]
    split
    · simp
    · split
      · split
        · simp
        · split <;> simp
      · simp

theorem stripFrom_eq_ok {place : Place} {last : Option Char} {text written : Text} :
    stripFrom place last text = .ok written ↔
      ∃ after, stripStep.run none (place, last) text = .ok (written, after) ∧ after.1.MayEnd := by
  induction text generalizing place last written with
  | nil =>
    cases place <;> simp [stripFrom, Place.MayEnd, eq_comm]
  | cons c rest ih =>
    simp only [stripFrom_cons, Steps.bind_eq_ok, Pass.run_cons_eq_ok, Option.or_none]
    constructor
    · rintro ⟨⟨first, place, last⟩, step, more, ran, same⟩
      cases same
      obtain ⟨after, ran, ends⟩ := ih.mp ran
      exact ⟨after, ⟨first, _, more, step, ran, rfl⟩, ends⟩
    · rintro ⟨after, ⟨first, ⟨place, last⟩, more, step, ran, rfl⟩, ends⟩
      exact ⟨(first, place, last), step, more, ih.mpr ⟨after, ran, ends⟩, rfl⟩

theorem stripComments_eq_ok {script written : Text} :
    stripComments script = .ok written ↔
      ∃ after, stripStep.run none (.code, none) script = .ok (written, after) ∧ after.1.MayEnd :=
  stripFrom_eq_ok

/-! ## The pass over the gaps -/

/-- Where the pass over the gaps stands: in a literal or in code, after a gap, and after the last character
that is not blank that it wrote. -/
structure Collapsing where
  inside : Option Literal
  gap : Gap
  last : Option Char

/-- A step of the pass over the gaps. -/
def collapseStep : Pass Collapsing
  | ⟨some literal, _, last⟩, c, _ => do
    let next ← literal.step c
    return ([c], ⟨next, .none, lastVisible last c⟩)
  | ⟨none, gap, last⟩, c, next =>
    if Text.isBlank c then .ok ([], ⟨none, gap.grow c, last⟩)
    else
      let opened :=
        if isQuote c then some (.quoted c false)
        else if c = '/' && regexCanStart last && !startsComment next.toList then
          some (.regex false false)
        else none
      .ok (gapText gap last c ++ [c], ⟨opened, .none, some c⟩)

theorem startsComment_head (text : Text) : startsComment text.head?.toList = startsComment text := by
  cases text <;> rfl

theorem collapseFrom_cons (inside : Option Literal) (gap : Gap) (last : Option Char) (c : Char)
    (rest : Text) :
    collapseFrom inside gap last (c :: rest) = do
      let (written, after) ← collapseStep ⟨inside, gap, last⟩ c rest.head?
      return written ++ (← collapseFrom after.inside after.gap after.last rest) := by
  cases inside with
  | some literal =>
    simp only [collapseFrom, collapseStep, bind_assoc, pure_bind, List.singleton_append]
  | none =>
    simp only [collapseFrom, collapseStep, startsComment_head]
    split
    · simp
    · simp only [Steps.ok_bind, List.append_assoc, List.singleton_append]

theorem collapseFrom_eq_ok {inside : Option Literal} {gap : Gap} {last : Option Char}
    {text written : Text} :
    collapseFrom inside gap last text = .ok written ↔
      ∃ after, collapseStep.run none ⟨inside, gap, last⟩ text = .ok (written, after) ∧
        after.inside = none := by
  induction text generalizing inside gap last written with
  | nil => cases inside <;> simp [collapseFrom, eq_comm]
  | cons c rest ih =>
    simp only [collapseFrom_cons, Steps.bind_eq_ok, Pass.run_cons_eq_ok, Option.or_none]
    constructor
    · rintro ⟨⟨first, middle⟩, step, more, ran, same⟩
      cases same
      obtain ⟨after, ran, ends⟩ := ih.mp ran
      exact ⟨after, ⟨first, middle, more, step, ran, rfl⟩, ends⟩
    · rintro ⟨after, ⟨first, middle, more, step, ran, rfl⟩, ends⟩
      exact ⟨(first, middle), step, more, ih.mpr ⟨after, ran, ends⟩, rfl⟩

theorem collapseWhitespace_eq_ok {script written : Text} :
    collapseWhitespace script = .ok written ↔
      ∃ after, collapseStep.run none ⟨none, .none, none⟩ script = .ok (written, after) ∧
        after.inside = none :=
  collapseFrom_eq_ok

end PageCompiler.Script
