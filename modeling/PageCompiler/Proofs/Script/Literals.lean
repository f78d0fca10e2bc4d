import Mathlib.Data.List.Basic
import PageCompiler.Proofs.Script.Tokens

/-!
# Literals of a minified script

The pass over the comments takes each comment token out or puts a blank in its place, the pass over the
gaps changes blanks only. When all tokens are read as they are meant, a minified script therefore has the
code and the literals of the script, in their order. The scanner can lose track of a script in which they
are not: where a regular expression stands after a word, it takes the expression for code.
-/

namespace PageCompiler.Script

namespace Token

variable {last : Option Char} {tokens rest : List Token}
  {holds : Option Char → Option Char → Token → Bool}

@[simp]
theorem join_nil : join [] = [] := rfl

@[simp]
theorem join_cons {token : Token} : join (token :: rest) = token.text ++ join rest := rfl

theorem text_ne_nil (token : Token) : token.text ≠ [] := by
  cases token <;> simp [text]

theorem along_cons {token : Token} :
    along holds last (token :: rest) = true ↔
      holds last (join rest).head? token = true ∧ along holds (token.lastAfter last) rest = true := by
  simp [along]

/-! ## Comments -/

/-- What is left of a token without comments. -/
def stripped : Token → List Token
  | .lineComment _ => []
  | .blockComment body => [.blank (if body.contains '\n' then '\n' else ' ')]
  | token => [token]

/-- A sequence of tokens without its comments. -/
def strip (tokens : List Token) : List Token :=
  tokens.flatMap stripped

/-- A block comment is read to its end from any place inside it where the rest cannot end it early. -/
theorem run_blockComment {next : Option Char} {body : Text} {afterStar spansLines : Bool}
    (inside : Text.occursIn ['*', '/'] body = false)
    (goesOn : afterStar = true → body.head? ≠ some '/') :
    stripStep.run next (.blockComment afterStar spansLines, last) (body ++ ['*', '/']) =
      .ok ([if spansLines || body.contains '\n' then '\n' else ' '], .code, last) := by
  induction body generalizing afterStar spansLines with
  | nil => cases afterStar <;> cases spansLines <;> rfl
  | cons c rest ih =>
    simp only [Text.occursIn, Bool.or_eq_false_iff] at inside
    have noEnd : (afterStar && c = '/') = false := by
      rw [Bool.and_eq_false_iff, or_iff_not_imp_left, Bool.not_eq_false]
      intro star
      simpa using goesOn star
    have noStart : decide (c = '*') = true → rest.head? ≠ some '/' := by
      intro star slash
      cases rest with
      | nil => cases slash
      | cons d rest =>
        cases slash
        simp [List.isPrefixOf, of_decide_eq_true star] at inside
    have step : stripStep (.blockComment afterStar spansLines, last) c
        ((rest ++ ['*', '/']).head?.or next) =
          .ok ([], .blockComment (c = '*') (spansLines || c = '\n'), last) := by
      simp [stripStep, noEnd]
    have lines : (spansLines || decide (c = '\n') || rest.contains '\n') =
        (spansLines || (c :: rest).contains '\n') := by
      simp [Bool.or_assoc, eq_comm]
    rw [← lines]
    exact Pass.run_cons _ step (ih inside.2 noStart)

/-- A line comment that ends with its line, or with the script, leaves the scanner in code. -/
theorem exists_run_code {text written : Text} {after : Place × Option Char}
    (ends : text.head?.all (fun c => c = '\n' || c = '\r') = true)
    (run : stripStep.run none (.lineComment, last) text = .ok (written, after)) :
    ∃ final, stripStep.run none (.code, last) text = .ok (written, final) := by
  cases text with
  | nil =>
    cases run
    exact ⟨_, rfl⟩
  | cons c rest =>
    have broken : c = '\n' ∨ c = '\r' := by simpa using ends
    refine ⟨after, ?_⟩
    rcases broken with rfl | rfl <;> exact run

/-- Whether a token is a line comment. -/
def isLineComment : Token → Bool
  | .lineComment _ => true
  | _ => false

theorem stripped_of_isVisible {token : Token} (visible : token.isVisible = true) :
    token.stripped = [token] ∧ token.isLineComment = false := by
  cases token with
  | blank c => cases visible
  | lineComment body => cases visible
  | blockComment body => cases visible
  | _ => exact ⟨rfl, rfl⟩

/-- What the pass over the comments writes for a token that it reads as such. -/
theorem run_stripStep_token {next : Option Char} {token : Token}
    (read : token.isRead last next = true) :
    stripStep.run next (.code, last) token.text =
      .ok (join token.stripped,
        if token.isLineComment then .lineComment else .code, token.lastAfter last) := by
  by_cases visible : token.isVisible = true
  · have copied := (copied_of_isRead visible read).stripped
    obtain ⟨same, code⟩ := stripped_of_isVisible visible
    rw [lastAfter, if_pos visible, same, code, join_cons, join_nil, List.append_nil]
    exact copied
  · cases token with
    | blank c =>
      have blank : ∀ d ∈ [c], Text.isBlank d = true := by simpa [isRead] using read
      have code : readsAsCode last next [c] = true := readsAsCode_of_blank blank
      have copied := run_stripStep_of_readsAsCode code
      rw [lastVisibleOf_of_blank blank] at copied
      exact copied
    | lineComment body =>
      simp only [isRead, Bool.and_eq_true, List.all_eq_true, bne_iff_ne] at read
      exact Pass.run_cons [] rfl (Pass.run_cons [] rfl
        (run_stripStep_lineComment read.1))
    | blockComment body =>
      have inside : Text.occursIn ['*', '/'] body = false := by simpa [isRead] using read
      exact Pass.run_cons [] rfl (Pass.run_cons [] rfl
        (run_blockComment inside fun star => absurd star Bool.false_ne_true))
    | _ => exact absurd rfl visible

/-- Tokens that are formed and read as they are meant are read as such by a pass that gets past them, and
lose their comments. -/
theorem isRead_of_run_join {written : Text} {after : Place × Option Char}
    (formed : along (fun _ => isFormed) last tokens = true)
    (meant : along isReadAsMeant last tokens = true)
    (run : stripStep.run none (.code, last) (join tokens) = .ok (written, after)) :
    along isRead last tokens = true ∧ written = join (strip tokens) := by
  induction tokens generalizing last written after with
  | nil =>
    cases run
    exact ⟨rfl, rfl⟩
  | cons token rest ih =>
    rw [along_cons] at formed meant
    rw [join_cons] at run
    obtain ⟨first, middle, more, ranToken, ranRest, rfl⟩ := Pass.run_append_eq_ok.mp run
    rw [Option.or_none] at ranToken
    have read := isRead_of_run formed.1 meant.1 ranToken
    rw [run_stripStep_token read] at ranToken
    cases ranToken
    have ran : ∃ final, stripStep.run none (.code, token.lastAfter last) (join rest) = .ok (more, final) := by
      cases token with
      | lineComment body =>
        simp only [isRead, Bool.and_eq_true] at read
        exact exists_run_code read.2 ranRest
      | _ => exact ⟨after, ranRest⟩
    obtain ⟨final, ran⟩ := ran
    obtain ⟨reads, rfl⟩ := ih formed.2 meant.2 ran
    exact ⟨along_cons.mpr ⟨read, reads⟩, by simp [strip, join, List.flatMap_append]⟩

theorem bare_strip : ∀ token ∈ strip tokens, token.IsBare := by
  intro token member
  obtain ⟨origin, -, inside⟩ := List.mem_flatMap.mp member
  cases origin with
  | lineComment body => cases inside
  | blockComment body =>
    obtain rfl := List.mem_singleton.mp inside
    exact .inr ⟨_, rfl⟩
  | blank c =>
    obtain rfl := List.mem_singleton.mp inside
    exact .inr ⟨c, rfl⟩
  | _ =>
    obtain rfl := List.mem_singleton.mp inside
    exact .inl rfl

theorem filter_strip : (strip tokens).filter isVisible = tokens.filter isVisible := by
  induction tokens with
  | nil => rfl
  | cons token rest ih =>
    rw [strip, List.flatMap_cons, List.filter_append, ← strip, ih]
    cases token <;> simp [stripped, isVisible, List.filter_cons]

/-- A slash that starts no comment before the comments are taken out starts none afterwards. -/
theorem startsComment_strip (comment : startsComment (join (strip tokens)) = true) :
    startsComment (join tokens) = true := by
  cases tokens with
  | nil => exact comment
  | cons token rest =>
    cases token <;> first | rfl | exact comment

/-- A condition along a sequence holds along the sequence without its comments. -/
theorem along_strip (ignores : IgnoresNext holds)
    (blank : ∀ last next c, c = ' ' ∨ c = '\n' → holds last next (.blank c) = true)
    (all : along holds last tokens = true) : along holds last (strip tokens) = true := by
  induction tokens generalizing last with
  | nil => rfl
  | cons token rest ih =>
    obtain ⟨first, all⟩ := along_cons.mp all
    have stripped_all := ih all
    have kept : token.IsBare → holds last (join (strip rest)).head? token = true := by
      intro bare
      refine ignores last _ _ token bare (fun _ comment => ?_) first
      rw [startsComment_head] at comment ⊢
      exact startsComment_strip comment
    cases token with
    | lineComment body => exact stripped_all
    | blockComment body =>
      refine along_cons.mpr ⟨blank _ _ _ ?_, stripped_all⟩
      split <;> simp
    | blank c => exact along_cons.mpr ⟨kept (.inr ⟨c, rfl⟩), stripped_all⟩
    | _ => exact along_cons.mpr ⟨kept (.inl rfl), stripped_all⟩

/-! ## Gaps -/

/-- A sequence of tokens without comments, with its gaps collapsed. -/
def collapse (gap : Gap) (last : Option Char) : List Token → List Token
  | [] => []
  | .blank c :: rest => collapse (gap.grow c) last rest
  | token :: rest =>
    (token.text.head?.elim [] (gapText gap last)).map blank ++
      token :: collapse .none (token.lastAfter last) rest

theorem grow_ne_none (gap : Gap) (c : Char) : gap.grow c ≠ .none := by
  unfold Gap.grow
  split <;> simp

theorem mem_gapText {gap : Gap} {before : Option Char} {after c : Char}
    (member : c ∈ gapText gap before after) : c = ' ' ∨ c = '\n' := by
  unfold gapText at member
  repeat' split at member
  all_goals simp_all

theorem gapText_none {before : Option Char} {after : Char} : gapText .none before after = [] := by
  cases before <;> rfl

/-- Between a slash and a character that would make a comment of it, a gap stays. -/
theorem gapText_slash {gap : Gap} {after : Char} (some_gap : gap ≠ .none)
    (comment : after = '/' ∨ after = '*') : gapText gap (some '/') after ≠ [] := by
  cases gap with
  | none => exact absurd rfl some_gap
  | space => rcases comment with rfl | rfl <;> decide
  | newline => rcases comment with rfl | rfl <;> decide

theorem collapse_cons {gap : Gap} {token : Token} (visible : token.isVisible = true) :
    collapse gap last (token :: rest) =
      (token.text.head?.elim [] (gapText gap last)).map blank ++
        token :: collapse .none (lastVisibleOf last token.text) rest := by
  have after : token.lastAfter last = lastVisibleOf last token.text := if_pos visible
  rw [← after]
  cases token <;> first | rfl | cases visible

theorem join_append {first second : List Token} : join (first ++ second) = join first ++ join second :=
  List.flatMap_append

theorem join_map_blank (text : Text) : join (text.map blank) = text := by
  induction text with
  | nil => rfl
  | cons c rest ih => rw [List.map_cons, join_cons, ih]; rfl

theorem exists_head {next : Option Char} {token : Token} (visible : token.isVisible = true)
    (read : token.isRead last next = true) :
    ∃ c rest, token.text = c :: rest ∧ Text.isBlank c = false := by
  cases token with
  | code c =>
    simp only [isRead, Bool.and_eq_true, Bool.not_eq_true'] at read
    exact ⟨c, [], rfl, read.1⟩
  | string quote body =>
    simp only [isRead, Bool.and_eq_true] at read
    exact ⟨quote, body ++ [quote], rfl, isBlank_of_isQuote read.1⟩
  | template body => exact ⟨_, _, rfl, rfl⟩
  | regex body flags => exact ⟨_, _, rfl, rfl⟩
  | _ => cases visible

/-- A gap before a character that is not blank is written before it, and then what is written without
one. -/
theorem run_collapseStep_gap {next : Option Char} {gap : Gap} {c : Char} {text written : Text}
    {after : Collapsing} (solid : Text.isBlank c = false)
    (run : collapseStep.run next ⟨none, .none, last⟩ (c :: text) = .ok (written, after)) :
    collapseStep.run next ⟨none, gap, last⟩ (c :: text) = .ok (gapText gap last c ++ written, after) := by
  obtain ⟨first, middle, more, step, ran, rfl⟩ := Pass.run_cons_eq_ok.mp run
  rw [← List.append_assoc]
  refine Pass.run_cons _ ?_ ran
  simp only [collapseStep, solid, Bool.false_eq_true, if_false, gapText_none] at step ⊢
  cases step
  simp

/-- The pass over the gaps collapses the gaps of a sequence of tokens and copies the others. -/
theorem exists_run_collapseStep (gap : Gap) (bare : ∀ token ∈ tokens, token.IsBare)
    (read : along isRead last tokens = true) :
    ∃ after, after.inside = none ∧ collapseStep.run none ⟨none, gap, last⟩ (join tokens) =
      .ok (join (collapse gap last tokens), after) := by
  induction tokens generalizing gap last with
  | nil => exact ⟨_, rfl, rfl⟩
  | cons token rest ih =>
    obtain ⟨readToken, readRest⟩ := along_cons.mp read
    have bareRest : ∀ token ∈ rest, token.IsBare := fun other member => bare other (by simp [member])
    rcases bare token (by simp) with visible | ⟨c, rfl⟩
    · obtain ⟨after, ends, run⟩ := ih .none bareRest readRest
      obtain ⟨c, text, shape, solid⟩ := exists_head visible readToken
      have copied := (copied_of_isRead visible readToken).collapsed
      rw [shape] at copied
      refine ⟨after, ends, ?_⟩
      rw [collapse_cons visible, join_append, join_map_blank, join_cons, join_cons, shape,
        ← List.append_assoc]
      rw [lastAfter, if_pos visible, shape] at run
      refine Pass.run_append ?_ run
      rw [Option.or_none]
      exact run_collapseStep_gap solid copied
    · obtain ⟨after, ends, run⟩ := ih (gap.grow c) bareRest readRest
      refine ⟨after, ends, Pass.run_cons [] ?_ run⟩
      have blank : Text.isBlank c = true := readToken
      simp [collapseStep, blank, lastAfter, isVisible]

/-- After a slash, collapsed gaps put no character next that would make a comment of it. -/
theorem startsComment_collapse {gap : Gap} (bare : ∀ token ∈ tokens, token.IsBare)
    (comment : startsComment (join (collapse gap (some '/') tokens)) = true) :
    gap = .none ∧ startsComment (join tokens) = true := by
  induction tokens generalizing gap with
  | nil => cases comment
  | cons token rest ih =>
    have bareRest : ∀ token ∈ rest, token.IsBare := fun other member => bare other (by simp [member])
    rcases bare token (by simp) with visible | ⟨c, rfl⟩
    · obtain ⟨c, text, shape⟩ := List.exists_cons_of_ne_nil (text_ne_nil token)
      rw [collapse_cons visible, join_append, join_map_blank, join_cons, shape, List.head?_cons,
        Option.elim_some] at comment
      cases written : gapText gap (some '/') c with
      | nil =>
        rw [written] at comment
        have opens : c = '/' ∨ c = '*' := by simpa [startsComment] using comment
        refine ⟨by_contra fun some_gap => gapText_slash some_gap opens written, ?_⟩
        simpa [shape, startsComment] using opens
      | cons d more =>
        have inGap : d ∈ gapText gap (some '/') c := by simp [written]
        rw [written] at comment
        rcases mem_gapText inGap with rfl | rfl <;> cases comment
    · exact absurd (ih bareRest comment).1 (grow_ne_none gap c)

theorem lastAfter_of_getLast? {token : Token} (visible : token.isVisible = true)
    (slash : token.text.getLast? = some '/') : token.lastAfter last = some '/' := by
  obtain ⟨before, shape⟩ := List.getLast?_eq_some_iff.mp slash
  rw [lastAfter, if_pos visible, shape, lastVisibleOf_append]
  rfl

theorem along_map_blank {text : Text} (blanks : ∀ c ∈ text, c = ' ' ∨ c = '\n')
    (blank : ∀ last next c, c = ' ' ∨ c = '\n' → holds last next (.blank c) = true)
    (all : along holds last tokens = true) :
    along holds last (text.map Token.blank ++ tokens) = true := by
  induction text with
  | nil => exact all
  | cons c rest ih =>
    exact along_cons.mpr ⟨blank _ _ c (blanks c (by simp)),
      ih fun d member => blanks d (by simp [member])⟩

/-- A condition along a sequence holds along the sequence with its gaps collapsed. -/
theorem along_collapse {gap : Gap} (ignores : IgnoresNext holds)
    (blank : ∀ last next c, c = ' ' ∨ c = '\n' → holds last next (.blank c) = true)
    (bare : ∀ token ∈ tokens, token.IsBare) (all : along holds last tokens = true) :
    along holds last (collapse gap last tokens) = true := by
  induction tokens generalizing gap last with
  | nil => rfl
  | cons token rest ih =>
    obtain ⟨first, all⟩ := along_cons.mp all
    have bareRest : ∀ token ∈ rest, token.IsBare := fun other member => bare other (by simp [member])
    rcases bare token (by simp) with visible | ⟨c, rfl⟩
    · have after : token.lastAfter last = lastVisibleOf last token.text := if_pos visible
      have kept : along holds last
          (token :: collapse .none (lastVisibleOf last token.text) rest) = true := by
        rw [← after]
        refine along_cons.mpr ⟨?_, ih bareRest all⟩
        refine ignores last _ _ token (.inl visible) (fun slash comment => ?_) first
        rw [startsComment_head] at comment ⊢
        rw [lastAfter_of_getLast? visible slash] at comment
        exact (startsComment_collapse bareRest comment).2
      rw [collapse_cons visible]
      refine along_map_blank (fun c member => ?_) blank kept
      obtain ⟨d, text, shape⟩ := List.exists_cons_of_ne_nil (text_ne_nil token)
      rw [shape] at member
      exact mem_gapText member
    · exact ih bareRest all

theorem filter_collapse {gap : Gap} (bare : ∀ token ∈ tokens, token.IsBare) :
    (collapse gap last tokens).filter isVisible = tokens.filter isVisible := by
  induction tokens generalizing gap last with
  | nil => rfl
  | cons token rest ih =>
    have bareRest : ∀ token ∈ rest, token.IsBare := fun other member => bare other (by simp [member])
    rcases bare token (by simp) with visible | ⟨c, rfl⟩
    · have blanks : ∀ text : Text, (text.map Token.blank).filter isVisible = [] := by
        intro text
        induction text with
        | nil => rfl
        | cons c rest ih => exact ih
      rw [collapse_cons visible, List.filter_append, blanks, List.nil_append,
        List.filter_cons_of_pos visible, List.filter_cons_of_pos visible, ih bareRest]
    · exact ih bareRest

end Token

open Token

/-! ## Literals -/

theorem filter_isLiteral (tokens : List Token) :
    (tokens.filter isVisible).filter isLiteral = tokens.filter isLiteral := by
  rw [List.filter_filter]
  refine List.filter_congr fun token _ => ?_
  cases token <;> rfl

/-- When the scanner takes no slash and no backtick of a script for another, the minified script is a
sequence of tokens too, with the same code and the same literals in the same order. -/
theorem minify_keeps_literals {tokens : List Token} {written : Text} (formed : Formed tokens)
    (meant : ReadAsMeant tokens) (run : minify (join tokens) = .ok written) :
    ∃ kept, join kept = written ∧ Formed kept ∧
      kept.filter isVisible = tokens.filter isVisible ∧
      kept.filter isLiteral = tokens.filter isLiteral := by
  obtain ⟨bareText, stripRun, collapseRun⟩ := Steps.bind_eq_ok.mp run
  obtain ⟨_, stripRun, -⟩ := stripComments_eq_ok.mp stripRun
  obtain ⟨reads, rfl⟩ := isRead_of_run_join formed meant stripRun
  have readsStripped := along_strip ignoresNext_isRead (by rintro _ _ _ (rfl | rfl) <;> rfl) reads
  obtain ⟨after, ends, ran⟩ := exists_run_collapseStep .none bare_strip readsStripped
  have collapsed := collapseWhitespace_eq_ok.mpr ⟨after, ran, ends⟩
  rw [collapseRun] at collapsed
  cases collapsed
  have visible : (collapse .none none (strip tokens)).filter isVisible = tokens.filter isVisible := by
    rw [filter_collapse bare_strip, filter_strip]
  refine ⟨collapse .none none (strip tokens), rfl, ?_, visible, ?_⟩
  · have formedStripped :=
      along_strip ignoresNext_isFormed (by rintro _ _ _ (rfl | rfl) <;> rfl) formed
    exact along_collapse ignoresNext_isFormed (by rintro _ _ _ (rfl | rfl) <;> rfl) bare_strip
      formedStripped
  · rw [← filter_isLiteral, visible, filter_isLiteral]

/-- Comment signs in a string, a template and a regular expression are kept, the comments are not. -/
theorem minify_keeps_literals_commentSigns :
    let tokens := [.code 'a', .blank ' ', .code '=', .blank ' ', .string '"' "// b".toList, .code '+',
      .template "/*$\x7bc\x7d*/".toList, .blockComment " d ".toList, .code ';', .blank '\n',
      .regex "[/*]  e".toList ['g'], .lineComment " f".toList]
    let written := "a=\"// b\"+\x60/*$\x7bc\x7d*/\x60;/[/*]  e/g".toList
    (Formed tokens ∧ ReadAsMeant tokens ∧ minify (join tokens) = .ok written) ∧
      ∃ kept, join kept = written ∧ Formed kept ∧ kept.filter isVisible = tokens.filter isVisible ∧
        kept.filter isLiteral = tokens.filter isLiteral := by
  intro tokens written
  have formed : Formed tokens := by unfold Formed; decide +kernel
  have meant : ReadAsMeant tokens := by unfold ReadAsMeant; decide +kernel
  have run : minify (join tokens) = .ok written := by decide +kernel
  exact ⟨⟨formed, meant, run⟩, minify_keeps_literals formed meant run⟩

/-- After a word, a regular expression with a run of blanks is taken for code and loses one of them. -/
theorem minify_can_change_literal :
    let tokens := "function".toList.map .code ++ [.blank ' '] ++
      "f()\x7breturn".toList.map .code ++ [.blank ' ', .regex "a  b".toList [], .code ';', .code '\x7d']
    let written := "function f()\x7breturn/a b/;\x7d".toList
    Formed tokens ∧ minify (join tokens) = .ok written ∧
      ¬ ∃ kept, join kept = written ∧ kept.filter isLiteral = tokens.filter isLiteral := by
  intro tokens written
  refine ⟨by unfold Formed; decide +kernel, by decide +kernel, ?_⟩
  rintro ⟨kept, whole, same⟩
  have literal : Token.regex "a  b".toList [] ∈ kept.filter isLiteral := by
    rw [same]
    decide +kernel
  have part : (Token.regex "a  b".toList []).text <:+: written := by
    rw [← whole]
    exact List.infix_of_mem_flatten (List.mem_map_of_mem (List.mem_of_mem_filter literal))
  exact absurd (Text.occursIn_iff.mpr part) (by decide +kernel)

end PageCompiler.Script
