import Mathlib.Data.List.Basic
import PageCompiler.Proofs.Script.Literals

/-!
# Settled scripts

In a script without comments both passes read literals from the same character to the same character. The
pass over the comments gives such a script, the pass over the gaps keeps it one: where it takes a gap away
after a slash, no comment can start there. What a pass has written it therefore writes again, and so does
the other one.
-/

namespace PageCompiler.Script

variable {inside : Option Literal} {last next : Option Char} {gap : Gap} {c : Char} {text rest : Text}

/-- The literal that a character of code opens where no comment starts. -/
def opened (last : Option Char) (c : Char) : Option Literal :=
  if isQuote c then some (.quoted c false)
  else if c = '/' && regexCanStart last then some (.regex false false)
  else none

/-- A text without comments that ends in code, read on from a literal or from code, given the last
character before it that is not blank. -/
inductive Uncommented : Option Literal → Option Char → Text → Prop where
  | nil {last : Option Char} : Uncommented none last []
  | literal {inside : Literal} {next : Option Literal} {last : Option Char} {c : Char} {rest : Text}
      (step : inside.step c = .ok next) (later : Uncommented next (lastVisible last c) rest) :
      Uncommented (some inside) last (c :: rest)
  | code {last : Option Char} {c : Char} {rest : Text} (alone : c = '/' → startsComment rest = false)
      (later : Uncommented (opened last c) (lastVisible last c) rest) :
      Uncommented none last (c :: rest)

/-! ## Steps without comments -/

theorem startsComment_eq_false_iff :
    startsComment next.toList = false ↔ next ≠ some '/' ∧ next ≠ some '*' := by
  cases next <;> simp [startsComment]

theorem isBlank_slash : Text.isBlank '/' = false := rfl

theorem opened_of_isBlank (blank : Text.isBlank c = true) : opened last c = none := by
  obtain ⟨unquoted, noSlash⟩ := plain_of_isBlank blank
  simp [opened, unquoted, noSlash]

theorem lastVisible_of_isBlank (blank : Text.isBlank c = true) : lastVisible last c = last :=
  if_pos blank

theorem lastVisible_of_solid (solid : Text.isBlank c = false) : lastVisible last c = some c := by
  rw [lastVisible, solid, if_neg Bool.false_ne_true]

theorem stripStep_literal {literal : Literal} {following : Option Literal}
    (step : literal.step c = .ok following) :
    stripStep (.literal literal, last) c next =
      .ok ([c], .ofLiteral following, lastVisible last c) := by
  rw [stripStep, step]
  rfl

theorem stripStep_code (alone : c = '/' → startsComment next.toList = false) :
    stripStep (.code, last) c next = .ok ([c], .ofLiteral (opened last c), lastVisible last c) := by
  by_cases quote : isQuote c = true
  · simp [stripStep, opened, quote, lastVisible_of_solid (isBlank_of_isQuote quote), Place.ofLiteral]
  · by_cases slash : c = '/'
    · obtain ⟨notLine, notBlock⟩ := startsComment_eq_false_iff.mp (alone slash)
      subst slash
      rw [lastVisible_of_solid isBlank_slash]
      by_cases starts : regexCanStart last = true <;>
        simp [stripStep, opened, quote, notLine, notBlock, starts, Place.ofLiteral]
    · simp [stripStep, opened, quote, slash, Place.ofLiteral]

theorem collapseStep_literal {literal : Literal} {following : Option Literal}
    (step : literal.step c = .ok following) :
    collapseStep ⟨some literal, gap, last⟩ c next =
      .ok ([c], ⟨following, .none, lastVisible last c⟩) := by
  rw [collapseStep, step]
  rfl

theorem collapseStep_blank (blank : Text.isBlank c = true) :
    collapseStep ⟨none, gap, last⟩ c next = .ok ([], ⟨none, gap.grow c, last⟩) := by
  rw [collapseStep, if_pos blank]

theorem collapseStep_code (solid : Text.isBlank c = false)
    (alone : c = '/' → startsComment next.toList = false) :
    collapseStep ⟨none, gap, last⟩ c next =
      .ok (gapText gap last c ++ [c], ⟨opened last c, .none, lastVisible last c⟩) := by
  have same : (c = '/' && regexCanStart last && !startsComment next.toList) =
      (c = '/' && regexCanStart last) := by
    by_cases slash : c = '/'
    · simp [alone slash]
    · simp [slash]
  rw [collapseStep, solid, if_neg Bool.false_ne_true, lastVisible_of_solid solid, opened, same]

/-! ## The pass over the comments -/

/-- The literal that a place is inside of. -/
def Place.literal? : Place → Option Literal
  | .literal inside => some inside
  | _ => none

theorem literal?_ofLiteral (inside : Option Literal) : (Place.ofLiteral inside).literal? = inside := by
  cases inside <;> rfl

/-- No comment starts with the first character of what is written for a text that starts none. -/
theorem startsComment_of_run {inside : Option Literal} {written : Text} {after : Place × Option Char}
    (run : stripStep.run none (.ofLiteral inside, last) text = .ok (written, after))
    (alone : startsComment text = false) : startsComment written = false := by
  cases text with
  | nil =>
    cases run
    rfl
  | cons c rest =>
    obtain ⟨first, middle, more, step, _, rfl⟩ := Pass.run_cons_eq_ok.mp run
    have noSlash : c = '/' → startsComment (rest.head?.or none).toList = false := by
      rintro rfl
      cases alone
    cases inside with
    | none =>
      rw [Place.ofLiteral, stripStep_code noSlash] at step
      cases step
      exact alone
    | some literal =>
      rw [Place.ofLiteral, stripStep] at step
      obtain ⟨following, _, same⟩ := Steps.bind_eq_ok.mp step
      cases same
      exact alone

/-- What is written by the pass over the comments has none, whatever place it is read on from. -/
theorem uncommented_of_run {place : Place} {written : Text} {after : Place × Option Char}
    (run : stripStep.run none (place, last) text = .ok (written, after)) (ends : after.1.MayEnd) :
    Uncommented place.literal? last written := by
  induction text generalizing place last written with
  | nil =>
    cases run
    rcases ends with rfl | rfl <;> exact .nil
  | cons c rest ih =>
    obtain ⟨first, ⟨middle, lastMiddle⟩, more, step, ran, rfl⟩ := Pass.run_cons_eq_ok.mp run
    have later := ih ran
    have blankCode {b : Char} (blank : Text.isBlank b = true)
        (later : Uncommented none last more) : Uncommented none last (b :: more) := by
      refine .code (fun slash => ?_) ?_
      · exact absurd slash (plain_of_isBlank blank).2
      · rwa [opened_of_isBlank blank, lastVisible_of_isBlank blank]
    cases place with
    | literal literal =>
      obtain ⟨following, stepped, same⟩ := Steps.bind_eq_ok.mp step
      cases same
      rw [literal?_ofLiteral] at later
      exact .literal stepped later
    | lineComment =>
      rw [stripStep] at step
      split at step
      · next lineEnd =>
        cases step
        have ended : c = '\n' ∨ c = '\r' := by simpa using lineEnd
        exact blankCode (by rcases ended with rfl | rfl <;> rfl) later
      · cases step
        exact later
    | blockStart =>
      cases step
      exact later
    | blockComment afterStar spansLines =>
      rw [stripStep] at step
      split at step
      · cases step
        exact blankCode (by cases spansLines <;> rfl) later
      · cases step
        exact later
    | code =>
      -- A slash before another one, or before a star, opens a comment and is not written.
      by_cases comment : c = '/' ∧ startsComment (rest.head?.or none).toList = true
      · obtain ⟨rfl, starts⟩ := comment
        have opens : rest.head?.or none = some '/' ∨ rest.head?.or none = some '*' := by
          by_contra neither
          rw [startsComment_eq_false_iff.mpr (not_or.mp neither)] at starts
          cases starts
        rcases opens with line | block
        · rw [line] at step
          cases step
          exact later
        · rw [block] at step
          cases step
          exact later
      · have alone : c = '/' → startsComment (rest.head?.or none).toList = false := by
          intro slash
          simpa [slash] using comment
        rw [stripStep_code alone] at step
        cases step
        rw [literal?_ofLiteral] at later
        refine .code (fun slash => ?_) later
        refine startsComment_of_run ran ?_
        rw [← startsComment_head, ← Option.or_none (o := rest.head?)]
        exact alone slash

namespace Uncommented

theorem run_stripStep (uncommented : Uncommented inside last text) :
    stripStep.run none (.ofLiteral inside, last) text =
      .ok (text, .code, lastVisibleOf last text) := by
  induction uncommented with
  | nil => rfl
  | @literal literal following last c rest step _ ih =>
    exact Pass.run_cons [c] (stripStep_literal step) ih
  | @code last c rest alone _ ih =>
    refine Pass.run_cons [c] (stripStep_code fun slash => ?_) ih
    rw [Option.or_none, startsComment_head]
    exact alone slash

theorem stripComments (uncommented : Uncommented none none text) :
    stripComments text = .ok text :=
  stripComments_eq_ok.mpr ⟨_, uncommented.run_stripStep, Or.inl rfl⟩

/-! ## The pass over the gaps -/

/-- Between any two characters of a script without comments, both passes are in the same literal. -/
theorem exists_runs {before after : Text} (gap : Gap)
    (uncommented : Uncommented inside last (before ++ after)) :
    ∃ literal gapAfter written,
      stripStep.run after.head? (.ofLiteral inside, last) before =
        .ok (before, .ofLiteral literal, lastVisibleOf last before) ∧
      collapseStep.run after.head? ⟨inside, gap, last⟩ before =
        .ok (written, ⟨literal, gapAfter, lastVisibleOf last before⟩) := by
  induction before generalizing inside last gap with
  | nil => exact ⟨inside, gap, [], rfl, rfl⟩
  | cons c before ih =>
    have looked : (before ++ after).head? = before.head?.or after.head? := List.head?_append
    cases uncommented with
    | literal step later =>
      obtain ⟨literal, gapAfter, written, strips, collapses⟩ := ih .none later
      exact ⟨literal, gapAfter, [c] ++ written, Pass.run_cons [c] (stripStep_literal step) strips,
        Pass.run_cons [c] (collapseStep_literal step) collapses⟩
    | code alone later =>
      have noComment : c = '/' → startsComment (before.head?.or after.head?).toList = false := by
        intro slash
        rw [← looked, startsComment_head]
        exact alone slash
      by_cases blank : Text.isBlank c = true
      · have unopened : opened last c = none := opened_of_isBlank blank
        rw [opened_of_isBlank blank] at later
        obtain ⟨literal, gapAfter, written, strips, collapses⟩ := ih (gap.grow c) later
        rw [← unopened] at strips
        rw [lastVisible_of_isBlank blank] at collapses
        refine ⟨literal, gapAfter, written, Pass.run_cons [c] (stripStep_code noComment) strips, ?_⟩
        rw [lastVisibleOf_cons, lastVisible_of_isBlank blank]
        exact Pass.run_cons [] (collapseStep_blank blank) collapses
      · obtain ⟨literal, gapAfter, written, strips, collapses⟩ := ih .none later
        exact ⟨literal, gapAfter, _, Pass.run_cons [c] (stripStep_code noComment) strips,
          Pass.run_cons _ (collapseStep_code (Bool.eq_false_iff.mpr blank) noComment) collapses⟩

/-! ## Gaps that stay -/

end Uncommented

theorem isBlank_of_mem_gapText {before : Option Char} {after b : Char}
    (member : b ∈ gapText gap before after) : Text.isBlank b = true := by
  rcases Token.mem_gapText member with rfl | rfl <;> rfl

/-- What is written for a gap is written for it again. -/
theorem gapText_again (gap : Gap) (before : Option Char) (after : Char) :
    gapText ((gapText gap before after).foldl Gap.grow .none) before after =
      gapText gap before after := by
  cases before with
  | none => cases gap <;> rfl
  | some before =>
    have space : gapText .space (some before) after =
        if needsSpace before after then [' '] else [] := rfl
    have newline : gapText .newline (some before) after =
        if !tightAfter.contains before && !tightBefore.contains after then ['\n']
        else gapText .space (some before) after := rfl
    have spaceAgain : gapText ((gapText .space (some before) after).foldl Gap.grow .none)
        (some before) after = gapText .space (some before) after := by
      rw [space]
      split
      · next spaced => exact space.trans (if_pos spaced)
      · rfl
    cases gap with
    | none => rfl
    | space => exact spaceAgain
    | newline =>
      rw [newline]
      split
      · next breaks => exact newline.trans (if_pos breaks)
      · exact spaceAgain

theorem run_collapseStep_blanks {blanks rest written : Text} {after : Collapsing}
    (blank : ∀ b ∈ blanks, Text.isBlank b = true)
    (run : collapseStep.run none ⟨none, blanks.foldl Gap.grow gap, last⟩ rest = .ok (written, after)) :
    collapseStep.run none ⟨none, gap, last⟩ (blanks ++ rest) = .ok (written, after) := by
  induction blanks generalizing gap with
  | nil => exact run
  | cons b blanks ih =>
    exact Pass.run_cons [] (collapseStep_blank (blank b List.mem_cons_self))
      (ih (fun other member => blank other (List.mem_cons_of_mem b member)) run)

namespace Uncommented

theorem blanks {blanks : Text} (blank : ∀ b ∈ blanks, Text.isBlank b = true)
    (uncommented : Uncommented none last text) : Uncommented none last (blanks ++ text) := by
  induction blanks with
  | nil => exact uncommented
  | cons b blanks ih =>
    have isBlank := blank b List.mem_cons_self
    refine .code (fun slash => absurd slash (plain_of_isBlank isBlank).2) ?_
    rw [opened_of_isBlank isBlank, lastVisible_of_isBlank isBlank]
    exact ih fun other member => blank other (List.mem_cons_of_mem b member)

/-- After a slash in code, what is left of a gap still keeps a comment from starting. -/
theorem startsComment_of_gap {written : Text} {after : Collapsing}
    (uncommented : Uncommented none (some '/') text)
    (apart : gap ≠ .none ∨ startsComment text = false)
    (run : collapseStep.run none ⟨none, gap, some '/'⟩ text = .ok (written, after)) :
    startsComment written = false := by
  induction text generalizing gap with
  | nil =>
    cases run
    rfl
  | cons c rest ih =>
    obtain ⟨first, middle, more, step, ran, rfl⟩ := Pass.run_cons_eq_ok.mp run
    cases uncommented with
    | code alone later =>
      by_cases blank : Text.isBlank c = true
      · rw [collapseStep_blank blank] at step
        cases step
        rw [opened_of_isBlank blank, lastVisible_of_isBlank blank] at later
        exact ih later (Or.inl (Token.grow_ne_none gap c)) ran
      · rw [collapseStep_code (Bool.eq_false_iff.mpr blank) fun slash => by
          rw [Option.or_none, startsComment_head]
          exact alone slash] at step
        cases step
        cases shown : gapText gap (some '/') c with
        | cons b others =>
          have isBlank := isBlank_of_mem_gapText (shown ▸ List.mem_cons_self)
          exact startsComment_of_isBlank isBlank
        | nil =>
          have harmless : ¬ (c = '/' ∨ c = '*') := by
            intro comment
            rcases apart with someGap | none
            · exact Token.gapText_slash someGap comment shown
            · rcases comment with rfl | rfl <;> cases none
          simpa [startsComment] using harmless

/-- The pass over the gaps keeps a script free of comments, and writes what it has written again. -/
theorem settles {written : Text} {after : Collapsing} (uncommented : Uncommented inside last text)
    (run : collapseStep.run none ⟨inside, gap, last⟩ text = .ok (written, after)) :
    Uncommented inside last written ∧ ∃ final, final.inside = none ∧
      collapseStep.run none ⟨inside, .none, last⟩ written = .ok (written, final) := by
  induction uncommented generalizing gap written with
  | nil =>
    cases run
    exact ⟨.nil, _, rfl, rfl⟩
  | @literal literal following last c rest step later ih =>
    obtain ⟨first, middle, more, stepped, ran, rfl⟩ := Pass.run_cons_eq_ok.mp run
    rw [collapseStep_literal step] at stepped
    cases stepped
    obtain ⟨free, final, ends, again⟩ := ih ran
    exact ⟨.literal step free, final, ends, Pass.run_cons [c] (collapseStep_literal step) again⟩
  | @code last c rest alone later ih =>
    obtain ⟨first, middle, more, stepped, ran, rfl⟩ := Pass.run_cons_eq_ok.mp run
    by_cases blank : Text.isBlank c = true
    · rw [collapseStep_blank blank] at stepped
      cases stepped
      rw [opened_of_isBlank blank, lastVisible_of_isBlank blank] at ih
      exact ih ran
    · have solid := Bool.eq_false_iff.mpr blank
      rw [collapseStep_code solid fun slash => by
        rw [Option.or_none, startsComment_head]
        exact alone slash] at stepped
      cases stepped
      obtain ⟨free, final, ends, again⟩ := ih ran
      have aloneAgain : c = '/' → startsComment more = false := by
        rintro rfl
        rw [lastVisible_of_solid isBlank_slash] at later ran
        cases literal : opened last '/' with
        | none =>
          rw [literal] at later ran
          exact later.startsComment_of_gap (Or.inr (alone rfl)) ran
        | some inside =>
          rw [literal] at ran
          cases rest with
          | nil =>
            cases ran
            rfl
          | cons d rest =>
            obtain ⟨first, middle, others, step, _, rfl⟩ := Pass.run_cons_eq_ok.mp ran
            obtain ⟨following, _, same⟩ := Steps.bind_eq_ok.mp step
            cases same
            exact alone rfl
      have gapBlank : ∀ b ∈ gapText gap last c, Text.isBlank b = true :=
        fun b => isBlank_of_mem_gapText
      rw [List.append_assoc, List.singleton_append]
      refine ⟨(Uncommented.code aloneAgain free).blanks gapBlank, final, ends, ?_⟩
      refine run_collapseStep_blanks gapBlank ?_
      have stillAlone : c = '/' → startsComment (more.head?.or none).toList = false := by
        intro slash
        rw [Option.or_none, startsComment_head]
        exact aloneAgain slash
      have step : collapseStep ⟨none, (gapText gap last c).foldl Gap.grow .none, last⟩ c
          (more.head?.or none) =
            .ok (gapText gap last c ++ [c], ⟨opened last c, .none, lastVisible last c⟩) := by
        rw [collapseStep_code solid stillAlone, gapText_again]
      rw [← List.singleton_append, ← List.append_assoc]
      exact Pass.run_cons _ step again

theorem collapseWhitespace {written : Text} (uncommented : Uncommented none none text)
    (run : collapseWhitespace text = .ok written) :
    Uncommented none none written ∧ Script.collapseWhitespace written = .ok written := by
  obtain ⟨after, ran, _⟩ := collapseWhitespace_eq_ok.mp run
  obtain ⟨free, final, ends, again⟩ := uncommented.settles ran
  exact ⟨free, collapseWhitespace_eq_ok.mpr ⟨final, again, ends⟩⟩

end Uncommented

/-! ## Minified scripts -/

/-- Both passes over a script are in the same literal between any two of its characters. -/
def PassesAgree (script : Text) : Prop :=
  ∀ before after, script = before ++ after → ∃ literal gap last written,
    stripStep.run after.head? (.code, none) before = .ok (before, .ofLiteral literal, last) ∧
    collapseStep.run after.head? ⟨none, .none, none⟩ before = .ok (written, ⟨literal, gap, last⟩)

theorem Uncommented.passesAgree {script : Text} (uncommented : Uncommented none none script) :
    PassesAgree script := by
  rintro before after rfl
  obtain ⟨literal, gap, written, strips, collapses⟩ := uncommented.exists_runs .none
  exact ⟨literal, gap, _, written, strips, collapses⟩

theorem uncommented_of_stripComments {script written : Text}
    (run : stripComments script = .ok written) : Uncommented none none written := by
  obtain ⟨after, ran, ends⟩ := stripComments_eq_ok.mp run
  exact uncommented_of_run ran ends

/-- Stripping comments leaves none and makes none, and a minified script is left as it is by both passes.
On what they have written, both passes agree where each literal begins and ends. -/
theorem minify_idempotent {script : Text} :
    (∀ written, stripComments script = .ok written →
      stripComments written = .ok written ∧ PassesAgree written) ∧
    ∀ written, minify script = .ok written →
      stripComments written = .ok written ∧ collapseWhitespace written = .ok written ∧
        minify written = .ok written ∧ PassesAgree written := by
  constructor
  · intro written run
    have uncommented := uncommented_of_stripComments run
    exact ⟨uncommented.stripComments, uncommented.passesAgree⟩
  · intro written run
    obtain ⟨bare, stripped, collapsed⟩ := Steps.bind_eq_ok.mp run
    obtain ⟨free, collapsedAgain⟩ := (uncommented_of_stripComments stripped).collapseWhitespace collapsed
    have strippedAgain := free.stripComments
    exact ⟨strippedAgain, collapsedAgain,
      Steps.bind_eq_ok.mpr ⟨written, strippedAgain, collapsedAgain⟩, free.passesAgree⟩

/-- Around a comment that is taken out stand a division and a regular expression. -/
theorem minify_idempotent_division :
    let script := "x = /[/]/ / /* c */ /y/ .z // w\n+ +1".toList
    let written := "x=/[/]/ / /y/.z\n+ +1".toList
    minify script = .ok written ∧ stripComments written = .ok written ∧
      collapseWhitespace written = .ok written ∧ minify written = .ok written := by
  intro script written
  have run : minify script = .ok written := by decide
  obtain ⟨stripped, collapsed, minified, _⟩ := (@minify_idempotent script).2 written run
  exact ⟨run, stripped, collapsed, minified⟩

end PageCompiler.Script
