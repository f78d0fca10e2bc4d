import PageCompiler.Proofs.Script.Settled

/-!
# Line ends and comments

What is left of a script without its comments depends on which characters end a line: the first one ends a
line comment and stays, and one in a block comment makes a line break of it. The pass over the gaps knows
four line ends. The pass over the comments knows two of them after a line comment and only one in a block
comment, so that it may delete code after a comment or join two lines. Otherwise it keeps code and line
breaks.
-/

namespace PageCompiler.Script

/-- The characters that are taken for the end of a line comment, and those that are taken for a line break
in a block comment. -/
structure LineEnds where
  afterLine : Char → Bool
  inBlock : Char → Bool

/-- The four line ends of scripts, which the pass over the gaps knows. -/
def LineEnds.all : LineEnds :=
  ⟨isLineEnd, isLineEnd⟩

/-- The line ends that the pass over the comments knows. -/
def LineEnds.known : LineEnds :=
  ⟨fun c => c = '\n' || c = '\r', fun c => c = '\n'⟩

/-- A comment without its delimiters. -/
inductive Comment where
  | line (body : Text)
  | block (body : Text)
deriving DecidableEq

/-- Whether a comment is read the same with four line ends: none of them stands in a line comment, and a
block comment that has one has a line feed. -/
def Comment.readsAlike : Comment → Bool
  | .line body => body.all fun c => !isLineEnd c
  | .block body => !body.any isLineEnd || body.contains '\n'

/-- What is left of a text without its comments, read on from a literal or from code, given the last
character before it that is not blank. All characters outside of comments stay, in their order. A line
comment ends before the first line end. A block comment ends with the first of its closing signs, and a line
end stands for it exactly when it holds one, otherwise a space. -/
inductive Stripped (ends : LineEnds) :
    Option Literal → Option Char → Text → List Comment → Text → Prop where
  | nil {last : Option Char} : Stripped ends none last [] [] []
  | literal {inside : Literal} {next : Option Literal} {last : Option Char} {c : Char}
      {rest written : Text} {comments : List Comment} (step : inside.step c = .ok next)
      (later : Stripped ends next (lastVisible last c) rest comments written) :
      Stripped ends (some inside) last (c :: rest) comments (c :: written)
  | code {last : Option Char} {c : Char} {rest written : Text} {comments : List Comment}
      (alone : c = '/' → startsComment rest = false)
      (later : Stripped ends (opened last c) (lastVisible last c) rest comments written) :
      Stripped ends none last (c :: rest) comments (c :: written)
  | line {last : Option Char} {body rest written : Text} {comments : List Comment}
      (sameLine : ∀ c ∈ body, ends.afterLine c = false) (ended : rest.head?.all ends.afterLine = true)
      (later : Stripped ends none last rest comments written) :
      Stripped ends none last ('/' :: '/' :: (body ++ rest)) (.line body :: comments) written
  | block {last : Option Char} {body rest written : Text} {comments : List Comment} {mark : Char}
      (open_body : ¬ ['*', '/'] <:+: body)
      (stands : if body.any ends.inBlock then ends.inBlock mark = true else mark = ' ')
      (later : Stripped ends none last rest comments written) :
      Stripped ends none last ('/' :: '*' :: (body ++ '*' :: '/' :: rest)) (.block body :: comments)
        (mark :: written)

variable {ends : LineEnds} {inside : Option Literal} {last : Option Char} {text written : Text}
  {comments : List Comment} {after : Place × Option Char}

/-! ## What the pass over the comments leaves -/

theorem any_inBlock_known (body : Text) : body.any LineEnds.known.inBlock = body.contains '\n' := by
  rw [List.contains_eq_any_beq]
  refine List.any_congr rfl fun c => ?_
  rw [LineEnds.known, Bool.beq_eq_decide_eq, decide_eq_decide, eq_comm]

/-- A line comment that is read to the end of the script or of its line. -/
theorem exists_lineComment (run : stripStep.run none (.lineComment, last) text = .ok (written, after))
    (ended : after.1.MayEnd) :
    ∃ body rest final, text = body ++ rest ∧ (∀ c ∈ body, LineEnds.known.afterLine c = false) ∧
      rest.head?.all LineEnds.known.afterLine = true ∧
      stripStep.run none (.code, last) rest = .ok (written, final) ∧ final.1.MayEnd := by
  induction text generalizing written with
  | nil =>
    cases run
    exact ⟨[], [], (.code, last), rfl, by simp, rfl, rfl, .inl rfl⟩
  | cons c rest ih =>
    by_cases lineEnd : LineEnds.known.afterLine c = true
    · have broken : c = '\n' ∨ c = '\r' := by simpa [LineEnds.known] using lineEnd
      refine ⟨[], c :: rest, after, rfl, by simp, lineEnd, ?_, ended⟩
      rcases broken with rfl | rfl <;> exact run
    · obtain ⟨first, middle, more, step, ran, rfl⟩ := Pass.run_cons_eq_ok.mp run
      have goesOn : ¬ (c = '\n' || c = '\r') = true := lineEnd
      rw [stripStep, if_neg goesOn] at step
      cases step
      obtain ⟨body, after, final, rfl, sameLine, ends, code, mayEnd⟩ := ih ran
      exact ⟨c :: body, after, final, rfl,
        List.forall_mem_cons.mpr ⟨Bool.eq_false_iff.mpr lineEnd, sameLine⟩, ends, code, mayEnd⟩

theorem not_infix_cons {c : Char} {body : Text} (open_body : ¬ ['*', '/'] <:+: body)
    (noEnd : c = '*' → body.head? ≠ some '/') : ¬ ['*', '/'] <:+: c :: body := by
  rw [List.infix_cons_iff, not_or]
  refine ⟨fun starts => ?_, open_body⟩
  obtain ⟨star, slash⟩ := List.cons_prefix_cons.mp starts
  obtain ⟨rest, rfl⟩ := slash
  exact noEnd star.symm rfl

/-- A body with the character before it. A star was already counted as the start of what was read, any other
character comes in front of it. -/
theorem exists_longerBody {c : Char} {rest body after : Text}
    (whole : (if decide (c = '*') then '*' :: rest else rest) = body ++ '*' :: '/' :: after)
    (open_body : ¬ ['*', '/'] <:+: body) :
    ∃ longer, c :: rest = longer ++ '*' :: '/' :: after ∧ ¬ ['*', '/'] <:+: longer ∧
      (∀ d, longer.head? = some d → d = c) ∧
      longer.contains '\n' = (decide (c = '\n') || body.contains '\n') := by
  by_cases star : c = '*'
  · subst star
    refine ⟨body, whole, open_body, fun d head => ?_, by simp⟩
    obtain ⟨later, rfl⟩ := List.head?_eq_some_iff.mp head
    exact (List.cons.inj whole).1.symm
  · rw [decide_eq_false star] at whole
    refine ⟨c :: body, congrArg (c :: ·) whole, not_infix_cons open_body fun same => absurd same star,
      fun d head => (Option.some.inj head).symm, ?_⟩
    simp [eq_comm]

/-- A block comment that is read to its end. After a star the star still counts for the closing signs. -/
theorem exists_blockComment {afterStar spansLines : Bool}
    (run : stripStep.run none (.blockComment afterStar spansLines, last) text = .ok (written, after))
    (ended : after.1.MayEnd) :
    ∃ body rest more, (if afterStar then '*' :: text else text) = body ++ '*' :: '/' :: rest ∧
      ¬ ['*', '/'] <:+: body ∧
      written = (if spansLines || body.contains '\n' then '\n' else ' ') :: more ∧
      stripStep.run none (.code, last) rest = .ok (more, after) := by
  induction text generalizing afterStar spansLines written with
  | nil =>
    cases run
    rcases ended with same | same <;> cases same
  | cons c rest ih =>
    obtain ⟨first, middle, more, step, ran, rfl⟩ := Pass.run_cons_eq_ok.mp run
    rw [stripStep] at step
    split at step
    · next closes =>
      cases step
      obtain ⟨rfl, rfl⟩ : afterStar = true ∧ c = '/' := by simpa using closes
      exact ⟨[], rest, more, rfl, by simp, by simp, ran⟩
    · next goesOn =>
      cases step
      obtain ⟨body, after, later, whole, open_body, rfl, code⟩ := ih ran
      have noEnd : afterStar = true → c ≠ '/' := by simpa using goesOn
      obtain ⟨longer, shape, open_longer, starts, feeds⟩ := exists_longerBody whole open_body
      have lines : (spansLines || decide (c = '\n') || body.contains '\n') =
          (spansLines || longer.contains '\n') := by
        rw [feeds, Bool.or_assoc]
      cases afterStar with
      | false => exact ⟨longer, after, later, shape, open_longer, by rw [← lines]; rfl, code⟩
      | true =>
        refine ⟨'*' :: longer, after, later, congrArg ('*' :: ·) shape,
          not_infix_cons open_longer fun _ slash => noEnd rfl (starts _ slash).symm, ?_, code⟩
        rw [lines]
        simp

/-- A comment is read to its end, and what is left after it is left after a script that starts with it. -/
theorem exists_comment (starts : startsComment text = true)
    (run : stripStep.run none (.code, last) ('/' :: text) = .ok (written, after)) (ended : after.1.MayEnd) :
    ∃ comment rest more final, rest.length < text.length ∧
      stripStep.run none (.code, last) rest = .ok (more, final) ∧ final.1.MayEnd ∧
      ∀ comments, Stripped .known none last rest comments more →
        Stripped .known none last ('/' :: text) (comment :: comments) written := by
  obtain ⟨d, text, rfl⟩ : ∃ d others, text = d :: others :=
    List.exists_cons_of_ne_nil (by rintro rfl; cases starts)
  obtain ⟨first, middle, others, step, ran, rfl⟩ := Pass.run_cons_eq_ok.mp run
  obtain ⟨second, between, written, stepSecond, ran, rfl⟩ := Pass.run_cons_eq_ok.mp ran
  rcases (by simpa [startsComment] using starts : d = '/' ∨ d = '*') with rfl | rfl
  · cases step
    cases stepSecond
    obtain ⟨body, rest, final, rfl, sameLine, lineEnd, code, mayEnd⟩ := exists_lineComment ran ended
    have shorter : rest.length < ('/' :: (body ++ rest)).length := by
      rw [List.length_cons, List.length_append]
      omega
    exact ⟨.line body, rest, written, final, shorter, code, mayEnd, fun _ => .line sameLine lineEnd⟩
  · cases step
    cases stepSecond
    obtain ⟨body, rest, more, rfl, open_body, rfl, code⟩ := exists_blockComment ran ended
    have shorter : rest.length < ('*' :: (body ++ '*' :: '/' :: rest)).length := by
      simp only [List.length_cons, List.length_append]
      omega
    refine ⟨.block body, rest, more, after, shorter, code, ended, fun _ => .block open_body ?_⟩
    rw [any_inBlock_known, Bool.false_or]
    split <;> rfl

/-- The pass over the comments leaves what is left with the line ends that it knows. -/
theorem exists_stripped (run : stripStep.run none (.ofLiteral inside, last) text = .ok (written, after))
    (ended : after.1.MayEnd) : ∃ comments, Stripped .known inside last text comments written := by
  induction size : text.length using Nat.strongRecOn generalizing inside last text written after with
  | ind size ih =>
    subst size
    cases text with
    | nil =>
      cases run
      cases inside with
      | none => exact ⟨[], .nil⟩
      | some literal => rcases ended with same | same <;> cases same
    | cons c rest =>
      cases inside with
      | some literal =>
        obtain ⟨first, middle, more, step, ran, rfl⟩ := Pass.run_cons_eq_ok.mp run
        obtain ⟨following, stepped, same⟩ := Steps.bind_eq_ok.mp step
        cases same
        obtain ⟨comments, later⟩ := ih _ (Nat.lt_succ_self _) ran ended rfl
        exact ⟨comments, .literal stepped later⟩
      | none =>
        by_cases comment : c = '/' ∧ startsComment rest = true
        · obtain ⟨rfl, starts⟩ := comment
          obtain ⟨comment, rest, more, final, shorter, code, mayEnd, extend⟩ := exists_comment starts run ended
          rw [← Place.ofLiteral] at code
          obtain ⟨comments, later⟩ := ih rest.length (Nat.lt_succ_of_lt shorter) code mayEnd rfl
          exact ⟨comment :: comments, extend comments later⟩
        · have alone : c = '/' → startsComment rest = false := fun slash =>
            Bool.eq_false_iff.mpr fun starts => comment ⟨slash, starts⟩
          have stepCode : stripStep (.code, last) c (rest.head?.or none) =
              .ok ([c], .ofLiteral (opened last c), lastVisible last c) :=
            stripStep_code (by
              rw [Option.or_none, startsComment_head]
              exact alone)
          obtain ⟨first, middle, more, step, ran, rfl⟩ := Pass.run_cons_eq_ok.mp run
          rw [Place.ofLiteral, stepCode] at step
          cases step
          obtain ⟨comments, later⟩ := ih _ (Nat.lt_succ_self _) ran ended rfl
          exact ⟨comments, .code alone later⟩

/-! ## Four line ends -/

theorem isLineEnd_of_known {c : Char} (known : LineEnds.known.afterLine c = true) : isLineEnd c = true := by
  rcases (by simpa [LineEnds.known] using known : c = '\n' ∨ c = '\r') with rfl | rfl <;> rfl

/-- When all comments are read the same, so is the script. -/
theorem Stripped.all_of_readsAlike (stripped : Stripped .known inside last text comments written)
    (alike : ∀ comment ∈ comments, comment.readsAlike = true) :
    Stripped .all inside last text comments written := by
  induction stripped with
  | nil => exact .nil
  | literal step _ ih => exact .literal step (ih alike)
  | code alone _ ih => exact .code alone (ih alike)
  | @line _ body rest _ _ _ ended _ ih =>
    obtain ⟨lineAlike, alike⟩ := List.forall_mem_cons.mp alike
    have sameLine : ∀ c ∈ body, isLineEnd c = false := by
      simpa [Comment.readsAlike] using lineAlike
    refine .line sameLine ?_ (ih alike)
    cases rest with
    | nil => rfl
    | cons c rest => exact isLineEnd_of_known ended
  | @block _ body _ _ _ mark open_body stands _ ih =>
    obtain ⟨blockAlike, alike⟩ := List.forall_mem_cons.mp alike
    refine .block open_body ?_ (ih alike)
    rw [any_inBlock_known] at stands
    by_cases feeds : body.contains '\n' = true
    · have broken : body.any LineEnds.all.inBlock = true :=
        List.any_eq_true.mpr ⟨'\n', List.contains_iff_mem.mp feeds, rfl⟩
      rw [if_pos feeds] at stands
      rw [if_pos broken, of_decide_eq_true stands]
      rfl
    · have unbroken : body.any LineEnds.all.inBlock = false := by
        rw [Comment.readsAlike, Bool.eq_false_iff.mpr feeds, Bool.or_false, Bool.not_eq_true'] at blockAlike
        exact blockAlike
      rw [if_neg feeds] at stands
      rw [unbroken]
      exact stands

/-- What comes before the first character of a kind is cut off in one way. -/
theorem cut_unique {isEnd : Char → Bool} {body rest other others : Text}
    (same : body ++ rest = other ++ others) (free : ∀ c ∈ body, isEnd c = false)
    (ended : rest.head?.all isEnd = true) (freeOther : ∀ c ∈ other, isEnd c = false)
    (endedOther : others.head?.all isEnd = true) : body = other ∧ rest = others := by
  have cut {body rest : Text} (free : ∀ c ∈ body, isEnd c = false) (ended : rest.head?.all isEnd = true) :
      (body ++ rest).takeWhile (fun c => !isEnd c) = body := by
    rw [List.takeWhile_append_of_pos (by simpa using free)]
    cases rest with
    | nil => simp
    | cons c rest =>
      have stops : isEnd c = true := ended
      simp [stops]
  have bodies : body = other := by
    rw [← cut free ended, same, cut freeOther endedOther]
  subst bodies
  exact ⟨rfl, List.append_cancel_left same⟩

/-- The first closing signs end a block comment. -/
theorem blockBody_unique {body rest other others : Text}
    (same : body ++ '*' :: '/' :: rest = other ++ '*' :: '/' :: others)
    (open_body : ¬ ['*', '/'] <:+: body) (open_other : ¬ ['*', '/'] <:+: other) :
    body = other ∧ rest = others := by
  have shorter {body rest other others : Text}
      (same : body ++ '*' :: '/' :: rest = other ++ '*' :: '/' :: others)
      (open_other : ¬ ['*', '/'] <:+: other) : other.length ≤ body.length := by
    by_contra longer
    have front : body ++ ['*'] <+: other := by
      have whole : body ++ ['*'] <+: other ++ '*' :: '/' :: others := ⟨'/' :: rest, by simp [← same]⟩
      exact List.prefix_of_prefix_length_le whole (List.prefix_append ..) (by simp; omega)
    obtain ⟨more, rfl⟩ := front
    have left : '/' :: rest = more ++ '*' :: '/' :: others := by simpa using same
    cases more with
    | nil => cases left
    | cons c more =>
      obtain rfl := (List.cons.inj left).1
      exact open_other ⟨body, more, by simp⟩
  have lengths : body.length = other.length :=
    Nat.le_antisymm (shorter same.symm open_body) (shorter same open_other)
  obtain ⟨bodies, rests⟩ := List.append_inj same lengths
  cases rests
  exact ⟨bodies, rfl⟩

/-- A line end in code is written as it is. -/
theorem Stripped.head?_of_lineEnd {c : Char} (stripped : Stripped ends none last (c :: text) comments written)
    (lineEnd : isLineEnd c = true) : written.head? = some c := by
  cases stripped with
  | code => rfl
  | line => cases lineEnd
  | block => cases lineEnd

/-- A line comment holds none of the four line ends if the same is left after it with four of them: the first
one in it would stay, and so does the known one that ends it otherwise. -/
theorem Stripped.sameLine {body rest other restAll : Text} {others : List Comment}
    (later : Stripped .known none last rest comments written)
    (laterAll : Stripped .all none last restAll others written) (whole : body ++ rest = other ++ restAll)
    (sameLine : ∀ c ∈ body, LineEnds.known.afterLine c = false)
    (ended : rest.head?.all LineEnds.known.afterLine = true)
    (sameLineAll : ∀ c ∈ other, isLineEnd c = false) (endedAll : restAll.head?.all isLineEnd = true) :
    ∀ c ∈ body, isLineEnd c = false := by
  rcases List.append_eq_append_iff.mp whole with ⟨more, rfl, _⟩ | ⟨deleted, rfl, rfl⟩
  · exact fun c member => sameLineAll c (List.mem_append_left more member)
  · cases deleted with
    | nil => exact fun c member => sameLineAll c (by simpa using member)
    | cons d deleted =>
      have kept : written.head? = some d := laterAll.head?_of_lineEnd endedAll
      cases rest with
      | nil =>
        cases later
        cases kept
      | cons e rest =>
        rw [later.head?_of_lineEnd (isLineEnd_of_known ended)] at kept
        cases kept
        have known : LineEnds.known.afterLine d = true := ended
        rw [sameLine d (by simp)] at known
        cases known

/-- A script that is left the same with four line ends has only comments that are read the same. -/
theorem Stripped.readsAlike (stripped : Stripped .known inside last text comments written)
    {others : List Comment} (all : Stripped .all inside last text others written) :
    ∀ comment ∈ comments, comment.readsAlike = true := by
  induction stripped generalizing others with
  | nil => simp
  | literal step _ ih =>
    cases all with
    | literal stepAll later =>
      rw [step] at stepAll
      cases stepAll
      exact ih later
  | code alone _ ih =>
    cases all with
    | code _ later => exact ih later
    | line => cases alone rfl
    | block => cases alone rfl
  | @line last body rest written comments sameLine ended later ih =>
    generalize whole : body ++ rest = after at all
    cases all with
    | code alone => cases alone rfl
    | @line _ other restAll _ others sameLineAll endedAll laterAll =>
      have plain := later.sameLine laterAll whole sameLine ended sameLineAll endedAll
      have endedToo : rest.head?.all isLineEnd = true := by
        cases rest with
        | nil => rfl
        | cons c rest => exact isLineEnd_of_known ended
      obtain ⟨rfl, rfl⟩ := cut_unique whole plain endedToo sameLineAll endedAll
      exact List.forall_mem_cons.mpr ⟨by simpa [Comment.readsAlike] using plain, ih laterAll⟩
  | @block last body rest written comments mark open_body stands later ih =>
    generalize whole : body ++ '*' :: '/' :: rest = after at all
    cases all with
    | code alone => cases alone rfl
    | @block _ other restAll _ others _ open_other standsAll laterAll =>
      obtain ⟨rfl, rfl⟩ := blockBody_unique whole open_body open_other
      refine List.forall_mem_cons.mpr ⟨?_, ih laterAll⟩
      rw [any_inBlock_known] at stands
      by_contra differs
      rw [Comment.readsAlike, Bool.or_eq_true, not_or, Bool.not_eq_true', Bool.not_eq_false] at differs
      rw [if_neg differs.2] at stands
      have broken : body.any LineEnds.all.inBlock = true := differs.1
      rw [if_pos broken, stands] at standsAll
      cases standsAll

/-- Of every script that the pass over the comments gets through, all characters outside of comments stay in
their order, each line comment ends before a line feed or a carriage return, and a line feed stands for a
block comment with a line feed, a space for any other. With the four line ends of scripts the same is left
if and only if no line comment holds one of them and every block comment that holds one has a line feed. -/
theorem stripComments_keeps_lines_iff {script written : Text}
    (run : stripComments script = .ok written) :
    ∃ comments, Stripped .known none none script comments written ∧
      ((∃ others, Stripped .all none none script others written) ↔
        ∀ comment ∈ comments, comment.readsAlike = true) := by
  obtain ⟨after, ran, ended⟩ := stripComments_eq_ok.mp run
  rw [← Place.ofLiteral] at ran
  obtain ⟨comments, stripped⟩ := exists_stripped ran ended
  refine ⟨comments, stripped, ?_, ?_⟩
  · rintro ⟨others, all⟩
    exact stripped.readsAlike all
  · intro alike
    exact ⟨comments, stripped.all_of_readsAlike alike⟩

/-- A block comment that spans lines, a line comment with the sign of another one in it, and their signs in a
string and in a regular expression. -/
theorem stripComments_keeps_lines_iff_signs :
    stripComments "a/* b\r\n */c // \"d /* e\n\"//\"=/[/*]/".toList =
        .ok "a\nc \n\"//\"=/[/*]/".toList ∧
      ∃ comments, Stripped .known none none "a/* b\r\n */c // \"d /* e\n\"//\"=/[/*]/".toList comments
          "a\nc \n\"//\"=/[/*]/".toList ∧
        ((∃ others, Stripped .all none none "a/* b\r\n */c // \"d /* e\n\"//\"=/[/*]/".toList others
            "a\nc \n\"//\"=/[/*]/".toList) ↔
          ∀ comment ∈ comments, comment.readsAlike = true) :=
  ⟨by decide, stripComments_keeps_lines_iff (by decide)⟩

/-- After a line separator, code on the next line is deleted with the comment before it. -/
theorem comment_can_swallow_line :
    stripComments "a() // b\u2028c()".toList = .ok "a() ".toList ∧
      ¬ ∃ comments, Stripped .all none none "a() // b\u2028c()".toList comments "a() ".toList := by
  refine ⟨by decide, ?_⟩
  rintro ⟨others, all⟩
  have sameLine : (" b\u2028c()".toList.all fun c => !LineEnds.known.afterLine c) = true := by decide
  have comment : Stripped .known none (some ')') ('/' :: '/' :: (" b\u2028c()".toList ++ []))
      [.line " b\u2028c()".toList] [] :=
    .line (fun c member => by simpa using List.all_eq_true.mp sameLine c member) rfl .nil
  have known : Stripped .known none none "a() // b\u2028c()".toList [.line " b\u2028c()".toList] "a() ".toList :=
    .code (by decide) (.code (by decide) (.code (by decide) (.code (by decide) comment)))
  exact absurd (known.readsAlike all _ List.mem_cons_self) (by decide)

end PageCompiler.Script
