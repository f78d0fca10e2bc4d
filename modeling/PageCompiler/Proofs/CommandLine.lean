import Mathlib
import PageCompiler.CommandLine

/-!
# Command lines as groups

The arguments of a command are read from left to right, a group at a time: an option alone, an option with
whatever argument follows it, or a page. A command line is accepted exactly if it is made of groups that
its command knows, with the one page that the command needs. All that counts then is the page, the last
value, and the last option or that an option is there. So groups can be put in another order as long as
groups of one kind follow each other as before.
-/

namespace PageCompiler.CommandLine

/-- Arguments that are read together. -/
inductive Group where
  | switch (flag : Text)
  | setting (flag value : Text)
  | page (path : Path)
deriving DecidableEq

namespace Group

/-- The arguments of a group. -/
@[simp] def arguments : Group → List Text
  | switch flag => [flag]
  | setting flag value => [flag, value]
  | page path => [path]

@[simp] def switch? : Group → Option Text
  | switch flag => some flag
  | _ => none

@[simp] def value? : Group → Option Text
  | setting _ value => some value
  | _ => none

@[simp] def page? : Group → Option Path
  | page path => some path
  | _ => none

end Group

/-- The options without a value, in their order. -/
def switches (groups : List Group) : List Text :=
  groups.filterMap Group.switch?

/-- The values of options, in their order. -/
def values (groups : List Group) : List Text :=
  groups.filterMap Group.value?

def pages (groups : List Group) : List Path :=
  groups.filterMap Group.page?

/-- The arguments of groups that follow each other. -/
def line (groups : List Group) : List Text :=
  groups.flatMap Group.arguments

/-- The options of a command: those that stand alone, and the one that has a value. -/
structure Grammar where
  switches : List Text
  setting : Text
  IsValue : Text → Prop

/-- Whether a command knows a group. Any argument can be a page that does not look like an option. -/
def Grammar.Admits (grammar : Grammar) : Group → Prop
  | .switch flag => flag ∈ grammar.switches
  | .setting flag value => flag = grammar.setting ∧ grammar.IsValue value
  | .page path => ¬['-', '-'] <+: path

/-- Arguments that are groups that a command knows. -/
def Grammar.IsLine (grammar : Grammar) (arguments : List Text) : Prop :=
  ∃ groups, (∀ group ∈ groups, grammar.Admits group) ∧ arguments = line groups

/-- A port is a number of 16 bits in decimal digits, which a plus sign may precede. -/
def IsPort (value : Text) (port : UInt16) : Prop :=
  ∃ digits : Text, (value = digits ∨ value = '+' :: digits) ∧ digits ≠ [] ∧ (∀ c ∈ digits, c.isDigit = true) ∧
    Nat.ofDigitChars 10 digits 0 = port.toNat

def buildGrammar : Grammar where
  switches := [minifyFlag]
  setting := outFlag
  IsValue _ := True

def serveGrammar : Grammar where
  switches := [watchFlag, noWatchFlag]
  setting := portFlag
  IsValue value := ∃ port, IsPort value port

def runtimeGrammar : Grammar where
  switches := []
  setting := outFlag
  IsValue _ := True

/-- The port that the last value stands for, or a given one without a value. -/
def IsLastPort (values : List Text) (given port : UInt16) : Prop :=
  match values.getLast? with
  | none => port = given
  | some value => IsPort value port

/-- Whether the last option watches, or a given choice without an option. -/
def lastWatch (switches : List Text) (given : Bool) : Bool :=
  (switches.getLast?.map fun flag => decide (flag = watchFlag)).getD given

/-- What groups ask `build` for. -/
def Builds (groups : List Group) (command : Command) : Prop :=
  ∃ page, pages groups = [page] ∧
    command = .build page ((values groups).getLast?.getD (defaultOut page))
      (decide (minifyFlag ∈ switches groups))

/-- What groups ask `serve` for. -/
def Serves (groups : List Group) (command : Command) : Prop :=
  ∃ page port, pages groups = [page] ∧ IsLastPort (values groups) 3000 port ∧
    command = .serve page port (lastWatch (switches groups) true)

/-- What groups ask `init-runtime` for. -/
def Initializes (groups : List Group) (command : Command) : Prop :=
  pages groups = [] ∧ command = .initRuntime ((values groups).getLast?.getD defaultRuntime)

variable {groups others : List Group} {group : Group} {flag value argument : Text} {path : Path}
  {rest arguments : List Text} {command : Command} {port : UInt16}

@[simp] theorem switches_cons (group : Group) (groups : List Group) :
    switches (group :: groups) = group.switch?.toList ++ switches groups := by
  cases group <;> rfl

@[simp] theorem values_cons (group : Group) (groups : List Group) :
    values (group :: groups) = group.value?.toList ++ values groups := by
  cases group <;> rfl

@[simp] theorem pages_cons (group : Group) (groups : List Group) :
    pages (group :: groups) = group.page?.toList ++ pages groups := by
  cases group <;> rfl

@[simp] theorem line_cons (group : Group) (groups : List Group) :
    line (group :: groups) = group.arguments ++ line groups := rfl

theorem isFlag_iff : isFlag argument = true ↔ ['-', '-'] <+: argument :=
  List.isPrefixOf_iff_prefix

theorem ne_of_isFlag (plain : ¬['-', '-'] <+: path) (looks : isFlag flag = true) : path ≠ flag := by
  rintro rfl
  exact plain (isFlag_iff.mp looks)

namespace Grammar.IsLine

variable {grammar : Grammar}

theorem nil (grammar : Grammar) : grammar.IsLine [] :=
  ⟨[], by simp, rfl⟩

theorem cons (knows : grammar.Admits group) (more : grammar.IsLine rest) :
    grammar.IsLine (group.arguments ++ rest) := by
  obtain ⟨groups, admitted, rfl⟩ := more
  exact ⟨group :: groups, List.forall_mem_cons.mpr ⟨knows, admitted⟩, rfl⟩

theorem switch (knows : flag ∈ grammar.switches) (more : grammar.IsLine rest) :
    grammar.IsLine (flag :: rest) :=
  cons (show grammar.Admits (.switch flag) from knows) more

theorem setting (valid : grammar.IsValue value) (more : grammar.IsLine rest) :
    grammar.IsLine (grammar.setting :: value :: rest) :=
  cons (show grammar.Admits (.setting grammar.setting value) from ⟨rfl, valid⟩) more

theorem page (plain : ¬isFlag argument = true) (more : grammar.IsLine rest) :
    grammar.IsLine (argument :: rest) :=
  cons (show grammar.Admits (.page argument) from mt isFlag_iff.mpr plain) more

end Grammar.IsLine

/-! ## Ports -/

/-- A text without the plus sign that it begins with. -/
def unsigned : Text → Text
  | '+' :: rest => rest
  | text => text

theorem unsigned_of_digit {c : Char} (digit : c.isDigit = true) (rest : Text) :
    unsigned (c :: rest) = c :: rest := by
  unfold unsigned
  split
  · next same =>
    cases same
    cases digit
  · rfl

/-- Digits are what is left of a text without its sign if they are the text, after a sign or not. -/
theorem unsigned_eq_iff {digits : Text} (filled : digits ≠ []) (decimal : ∀ c ∈ digits, c.isDigit = true) :
    unsigned value = digits ↔ value = digits ∨ value = '+' :: digits := by
  constructor
  · intro same
    unfold unsigned at same
    split at same
    · exact Or.inr (by rw [same])
    · exact Or.inl same
  · rintro (rfl | rfl)
    · obtain ⟨c, rest, rfl⟩ := List.exists_cons_of_ne_nil filled
      exact unsigned_of_digit (decimal c (by simp)) rest
    · rfl

theorem readPort_eq (value : Text) :
    readPort value =
      if (unsigned value).isEmpty || !(unsigned value).all Char.isDigit then none
      else if Nat.ofDigitChars 10 (unsigned value) 0 < UInt16.size then
        some (UInt16.ofNat (Nat.ofDigitChars 10 (unsigned value) 0))
      else none := by
  have number : (unsigned value).foldl (fun port c => port * 10 + (c.toNat - '0'.toNat)) 0 =
      Nat.ofDigitChars 10 (unsigned value) 0 := by
    simp [Nat.ofDigitChars, Nat.mul_comm]
  rw [← number]
  rfl

theorem readPort_eq_some_iff : readPort value = some port ↔ IsPort value port := by
  rw [readPort_eq]
  constructor
  · intro found
    split at found
    · cases found
    · next decimal =>
      split at found
      · next small =>
        cases found
        simp only [Bool.or_eq_true, Bool.not_eq_true', not_or, List.isEmpty_iff, Bool.not_eq_false,
          List.all_eq_true] at decimal
        refine ⟨unsigned value, (unsigned_eq_iff decimal.1 decimal.2).mp rfl, decimal.1, decimal.2, ?_⟩
        exact (UInt16.toNat_ofNat_of_lt' small).symm
      · cases found
  · rintro ⟨digits, written, filled, decimal, number⟩
    have same : unsigned value = digits := (unsigned_eq_iff filled decimal).mpr written
    have small : port.toNat < UInt16.size := port.toNat_lt
    rw [same, number, if_neg (by simpa [filled] using decimal), if_pos small, UInt16.ofNat_toNat]

/-- After another value, the port is read from where it was read before. -/
theorem isLastPort_cons {first given last : UInt16} (found : IsPort value first) (values : List Text) :
    IsLastPort (value :: values) given last ↔ IsLastPort values first last := by
  unfold IsLastPort
  rw [List.getLast?_cons]
  cases values.getLast? with
  | none =>
    rw [Option.getD_none]
    dsimp only
    rw [← readPort_eq_some_iff] at found ⊢
    rw [found, Option.some.injEq, eq_comm]
  | some later => rfl

/-! ## Groups of `build` -/

namespace BuildArguments

variable {start final : BuildArguments}

theorem read_out (start : BuildArguments) (value : Text) (rest : List Text) :
    read start (outFlag :: value :: rest) = read { start with out := some value } rest := by
  rw [read.eq_def]
  exact if_pos rfl

theorem read_minify (start : BuildArguments) (rest : List Text) :
    read start (minifyFlag :: rest) = read { start with minify := true } rest := by
  rw [read.eq_def]
  exact (if_neg (by decide)).trans (if_pos rfl)

theorem read_page (plain : ¬['-', '-'] <+: path) (start : BuildArguments) (rest : List Text) :
    read start (path :: rest) =
      if start.page.isSome then .error .severalPages else read { start with page := some path } rest := by
  have notOut : path ≠ outFlag := ne_of_isFlag plain rfl
  have notMinify : path ≠ minifyFlag := ne_of_isFlag plain rfl
  rw [read.eq_def]
  exact ((if_neg notOut).trans (if_neg notMinify)).trans (if_neg (mt isFlag_iff.mp plain))

/-- Groups are read one after another. The last value counts, and there may be one page at most. -/
theorem read_line (admitted : ∀ group ∈ groups, buildGrammar.Admits group) (start : BuildArguments) :
    read start (line groups) = .ok final ↔
      start.page.toList ++ pages groups = final.page.toList ∧
        (values groups).getLast?.or start.out = final.out ∧
        (start.minify || decide (minifyFlag ∈ switches groups)) = final.minify := by
  induction groups generalizing start with
  | nil =>
    obtain ⟨page, out, minify⟩ := start
    obtain ⟨finalPage, finalOut, finalMinify⟩ := final
    cases page <;> cases finalPage <;> simp [line, read, pages, values, switches]
  | cons group groups ih =>
    obtain ⟨knows, others⟩ := List.forall_mem_cons.mp admitted
    cases group with
    | switch flag =>
      obtain rfl : flag = minifyFlag := by simpa [Grammar.Admits, buildGrammar] using knows
      simp [read_minify, ih others]
    | setting flag value =>
      obtain ⟨rfl, -⟩ := knows
      simp [buildGrammar, read_out, ih others, List.getLast?_cons]
    | page path =>
      cases known : start.page with
      | none => simp [read_page knows, ih others, known]
      | some earlier =>
        cases final.page <;> simp [read_page knows, known]

/-- What is read is made of groups that `build` knows. -/
theorem isLine_of_read (reads : read start arguments = .ok final) : buildGrammar.IsLine arguments := by
  fun_induction read start arguments with
  | case1 => exact .nil _
  | case2 => cases reads
  | case3 start value rest ih => exact .setting trivial (ih reads)
  | case4 start rest _ ih => exact .switch (by simp [buildGrammar]) (ih reads)
  | case5 => cases reads
  | case6 => cases reads
  | case7 start page rest _ _ plain _ ih => exact .page plain (ih reads)

end BuildArguments

theorem readBuild_line (admitted : ∀ group ∈ groups, buildGrammar.Admits group) :
    readBuild (line groups) = .ok command ↔ Builds groups command := by
  constructor
  · intro reads
    unfold readBuild at reads
    cases known : BuildArguments.read {} (line groups) with
    | error cause =>
      rw [known] at reads
      cases reads
    | ok final =>
      obtain ⟨page, out, minify⟩ := final
      obtain ⟨onePage, lastOut, minified⟩ := (BuildArguments.read_line admitted {}).mp known
      rw [known] at reads
      cases page with
      | none => cases reads
      | some page =>
        cases reads
        refine ⟨page, by simpa using onePage, ?_⟩
        rw [← lastOut, ← minified]
        simp
  · rintro ⟨page, onePage, rfl⟩
    have known : BuildArguments.read {} (line groups) =
        .ok ⟨some page, (values groups).getLast?, decide (minifyFlag ∈ switches groups)⟩ :=
      (BuildArguments.read_line admitted {}).mpr ⟨by simp [onePage], by simp, by simp⟩
    rw [readBuild, known]
    rfl

theorem isLine_of_readBuild (reads : readBuild arguments = .ok command) : buildGrammar.IsLine arguments := by
  unfold readBuild at reads
  cases known : BuildArguments.read {} arguments with
  | error cause =>
    rw [known] at reads
    cases reads
  | ok final => exact BuildArguments.isLine_of_read known

/-! ## Groups of `serve` -/

theorem lastWatch_cons (flag : Text) (switches : List Text) (given : Bool) :
    lastWatch (flag :: switches) given = lastWatch switches (decide (flag = watchFlag)) := by
  rw [lastWatch, lastWatch, List.getLast?_cons]
  cases switches.getLast? <;> rfl

theorem noWatchFlag_ne : noWatchFlag ≠ watchFlag := by
  decide

namespace ServeArguments

variable {start final : ServeArguments}

theorem read_port (found : IsPort value port) (start : ServeArguments) (rest : List Text) :
    read start (portFlag :: value :: rest) = read { start with port } rest := by
  rw [read.eq_def]
  simp [readPort_eq_some_iff.mpr found]

theorem read_watch (start : ServeArguments) (rest : List Text) :
    read start (watchFlag :: rest) = read { start with watch := true } rest := by
  rw [read.eq_def]
  exact (if_neg (by decide)).trans (if_pos rfl)

theorem read_noWatch (start : ServeArguments) (rest : List Text) :
    read start (noWatchFlag :: rest) = read { start with watch := false } rest := by
  rw [read.eq_def]
  exact ((if_neg (by decide)).trans (if_neg (by decide))).trans (if_pos rfl)

theorem read_page (plain : ¬['-', '-'] <+: path) (start : ServeArguments) (rest : List Text) :
    read start (path :: rest) =
      if start.page.isSome then .error .severalPages else read { start with page := some path } rest := by
  have notPort : path ≠ portFlag := ne_of_isFlag plain rfl
  have notWatch : path ≠ watchFlag := ne_of_isFlag plain rfl
  have notNoWatch : path ≠ noWatchFlag := ne_of_isFlag plain rfl
  rw [read.eq_def]
  simp [notPort, notWatch, notNoWatch, mt isFlag_iff.mp plain]

/-- Groups are read one after another. The last port counts and the last of the options that watch or do
not, and there may be one page at most. -/
theorem read_line (admitted : ∀ group ∈ groups, serveGrammar.Admits group) (start : ServeArguments) :
    read start (line groups) = .ok final ↔
      start.page.toList ++ pages groups = final.page.toList ∧
        IsLastPort (values groups) start.port final.port ∧
        lastWatch (switches groups) start.watch = final.watch := by
  induction groups generalizing start with
  | nil =>
    obtain ⟨page, port, watch⟩ := start
    obtain ⟨finalPage, finalPort, finalWatch⟩ := final
    cases page <;> cases finalPage <;>
      simp [line, read, pages, values, switches, IsLastPort, lastWatch, eq_comm]
  | cons group groups ih =>
    obtain ⟨knows, others⟩ := List.forall_mem_cons.mp admitted
    cases group with
    | switch flag =>
      have either : flag = watchFlag ∨ flag = noWatchFlag := by simpa [Grammar.Admits, serveGrammar] using knows
      rcases either with rfl | rfl
      · simp [read_watch, ih others, lastWatch_cons]
      · simp [read_noWatch, ih others, lastWatch_cons, noWatchFlag_ne]
    | setting flag value =>
      obtain ⟨rfl, port, found⟩ := knows
      simp [serveGrammar, read_port found, ih others, isLastPort_cons found]
    | page path =>
      cases known : start.page with
      | none => simp [read_page knows, ih others, known]
      | some earlier =>
        cases final.page <;> simp [read_page knows, known]

/-- What is read is made of groups that `serve` knows. -/
theorem isLine_of_read (reads : read start arguments = .ok final) : serveGrammar.IsLine arguments := by
  fun_induction read start arguments with
  | case1 => exact .nil _
  | case2 => cases reads
  | case3 start value rest port found ih => exact .setting ⟨port, readPort_eq_some_iff.mp found⟩ (ih reads)
  | case4 => cases reads
  | case5 start rest _ ih => exact .switch (by simp [serveGrammar]) (ih reads)
  | case6 start rest _ _ ih => exact .switch (by simp [serveGrammar]) (ih reads)
  | case7 => cases reads
  | case8 => cases reads
  | case9 start page rest _ _ _ plain _ ih => exact .page plain (ih reads)

end ServeArguments

theorem readServe_line (admitted : ∀ group ∈ groups, serveGrammar.Admits group) :
    readServe (line groups) = .ok command ↔ Serves groups command := by
  constructor
  · intro reads
    unfold readServe at reads
    cases known : ServeArguments.read {} (line groups) with
    | error cause =>
      rw [known] at reads
      cases reads
    | ok final =>
      obtain ⟨page, port, watch⟩ := final
      obtain ⟨onePage, lastPort, watched⟩ := (ServeArguments.read_line admitted {}).mp known
      rw [known] at reads
      cases page with
      | none => cases reads
      | some page =>
        cases reads
        exact ⟨page, port, by simpa using onePage, lastPort, by rw [← watched]⟩
  · rintro ⟨page, port, onePage, lastPort, rfl⟩
    have known : ServeArguments.read {} (line groups) =
        .ok ⟨some page, port, lastWatch (switches groups) true⟩ :=
      (ServeArguments.read_line admitted {}).mpr ⟨by simp [onePage], lastPort, rfl⟩
    rw [readServe, known]
    rfl

theorem isLine_of_readServe (reads : readServe arguments = .ok command) : serveGrammar.IsLine arguments := by
  unfold readServe at reads
  cases known : ServeArguments.read {} arguments with
  | error cause =>
    rw [known] at reads
    cases reads
  | ok final => exact ServeArguments.isLine_of_read known

/-! ## Groups of `init-runtime` -/

theorem readInitRuntime_out (out value : Path) (rest : List Text) :
    readInitRuntime out (outFlag :: value :: rest) = readInitRuntime value rest := by
  rw [readInitRuntime.eq_def]
  exact if_pos rfl

theorem readInitRuntime_page (plain : ¬['-', '-'] <+: path) (out : Path) (rest : List Text) :
    readInitRuntime out (path :: rest) = .error .positional := by
  have notOut : path ≠ outFlag := ne_of_isFlag plain rfl
  rw [readInitRuntime.eq_def]
  simp [notOut, mt isFlag_iff.mp plain]

/-- Groups are read one after another. The last value counts, and there may be no page. -/
theorem readInitRuntime_line (admitted : ∀ group ∈ groups, runtimeGrammar.Admits group) (out : Path) :
    readInitRuntime out (line groups) = .ok command ↔
      pages groups = [] ∧ command = .initRuntime ((values groups).getLast?.getD out) := by
  induction groups generalizing out with
  | nil => simp [line, readInitRuntime, pages, values, eq_comm]
  | cons group groups ih =>
    obtain ⟨knows, others⟩ := List.forall_mem_cons.mp admitted
    cases group with
    | switch flag => cases knows
    | setting flag value =>
      obtain ⟨rfl, -⟩ := knows
      simp [runtimeGrammar, readInitRuntime_out, ih others, List.getLast?_cons]
    | page path => simp [readInitRuntime_page knows]

/-- What is read is made of groups that `init-runtime` knows. -/
theorem isLine_of_readInitRuntime {out : Path} (reads : readInitRuntime out arguments = .ok command) :
    runtimeGrammar.IsLine arguments := by
  fun_induction readInitRuntime out arguments with
  | case1 => exact .nil _
  | case2 => cases reads
  | case3 out value rest ih => exact .setting trivial (ih reads)
  | case4 => cases reads
  | case5 => cases reads

/-! ## Command lines -/

theorem read_build (arguments : List Text) : read ("build".toList :: arguments) = readBuild arguments := by
  rw [read, if_pos rfl]

theorem read_serve (arguments : List Text) : read ("serve".toList :: arguments) = readServe arguments := by
  rw [read, if_neg (by decide), if_pos rfl]

theorem read_initRuntime (arguments : List Text) :
    read ("init-runtime".toList :: arguments) = readInitRuntime defaultRuntime arguments := by
  rw [read, if_neg (by decide), if_neg (by decide), if_pos rfl]

theorem pages_eq_singleton_of_perm (same : others.Perm groups) (page : Path) :
    pages others = [page] ↔ pages groups = [page] := by
  have samePages : (pages others).Perm (pages groups) := same.filterMap _
  constructor
  · intro onePage
    rw [onePage] at samePages
    exact List.singleton_perm.mp samePages |>.symm
  · intro onePage
    rw [onePage] at samePages
    exact List.perm_singleton.mp samePages

/-- In another order, groups ask `build` for the same as long as their values keep their order. -/
theorem builds_perm (same : others.Perm groups) (sameValues : values others = values groups) :
    Builds others command ↔ Builds groups command := by
  have sameSwitches : (switches others).Perm (switches groups) := same.filterMap _
  simp only [Builds, pages_eq_singleton_of_perm same, sameValues, sameSwitches.mem_iff]

/-- In another order, groups ask `serve` for the same as long as their values and their options keep their
orders. -/
theorem serves_perm (same : others.Perm groups) (sameValues : values others = values groups)
    (sameSwitches : switches others = switches groups) : Serves others command ↔ Serves groups command := by
  simp only [Serves, pages_eq_singleton_of_perm same, sameValues, sameSwitches]

theorem admitted_perm {grammar : Grammar} (same : others.Perm groups)
    (admitted : ∀ group ∈ groups, grammar.Admits group) : ∀ group ∈ others, grammar.Admits group :=
  fun group member => admitted group (same.subset member)

/-- Where groups are read as what they ask for and all that is read is groups, arguments are accepted exactly
if they are groups that ask for a command. -/
theorem ok_iff_of_line {grammar : Grammar} {read : List Text → Except ArgumentError Command}
    {Asks : List Group → Command → Prop}
    (ofLine : ∀ {groups command}, (∀ group ∈ groups, grammar.Admits group) →
      (read (line groups) = .ok command ↔ Asks groups command))
    (isLine : ∀ {arguments command}, read arguments = .ok command → grammar.IsLine arguments)
    (arguments : List Text) (command : Command) :
    read arguments = .ok command ↔
      ∃ groups, (∀ group ∈ groups, grammar.Admits group) ∧ arguments = line groups ∧ Asks groups command := by
  constructor
  · intro reads
    obtain ⟨groups, admitted, rfl⟩ := isLine reads
    exact ⟨groups, admitted, rfl, (ofLine admitted).mp reads⟩
  · rintro ⟨groups, admitted, rfl, asks⟩
    exact (ofLine admitted).mpr asks

/-- A command line is accepted exactly if it is made of groups that its command knows and these ask the
command for something: `build` and `serve` for one page, with the last value and the options, and
`init-runtime` for the last value alone. What groups ask for does not depend on their order, as long as the
values keep their order, and for `serve` the options theirs. -/
theorem read_eq_ok_iff_groups :
    (∀ arguments command, read ("build".toList :: arguments) = .ok command ↔
      ∃ groups, (∀ group ∈ groups, buildGrammar.Admits group) ∧ arguments = line groups ∧
        Builds groups command) ∧
    (∀ arguments command, read ("serve".toList :: arguments) = .ok command ↔
      ∃ groups, (∀ group ∈ groups, serveGrammar.Admits group) ∧ arguments = line groups ∧
        Serves groups command) ∧
    (∀ arguments command, read ("init-runtime".toList :: arguments) = .ok command ↔
      ∃ groups, (∀ group ∈ groups, runtimeGrammar.Admits group) ∧ arguments = line groups ∧
        Initializes groups command) ∧
    (∀ groups others command, (∀ group ∈ groups, buildGrammar.Admits group) → others.Perm groups →
      values others = values groups →
      (read ("build".toList :: line others) = .ok command ↔
        read ("build".toList :: line groups) = .ok command)) ∧
    ∀ groups others command, (∀ group ∈ groups, serveGrammar.Admits group) → others.Perm groups →
      values others = values groups → switches others = switches groups →
      (read ("serve".toList :: line others) = .ok command ↔
        read ("serve".toList :: line groups) = .ok command) := by
  simp only [read_build, read_serve, read_initRuntime]
  refine ⟨ok_iff_of_line readBuild_line isLine_of_readBuild, ok_iff_of_line readServe_line isLine_of_readServe,
    ok_iff_of_line (readInitRuntime_line · defaultRuntime) isLine_of_readInitRuntime, ?_, ?_⟩
  · intro groups others command admitted same sameValues
    rw [readBuild_line (admitted_perm same admitted), readBuild_line admitted]
    exact builds_perm same sameValues
  · intro groups others command admitted same sameValues sameSwitches
    rw [readServe_line (admitted_perm same admitted), readServe_line admitted]
    exact serves_perm same sameValues sameSwitches

/-- An option that follows `--out` is its value, a port may have a sign and zeros before it, and pages may
stand anywhere. -/
theorem read_eq_ok_iff_groups_takenOption :
    let page : Group := .page "a.json".toList
    let groups := [.setting outFlag minifyFlag, page, .switch minifyFlag, .setting outFlag "b.html".toList]
    let others := [.switch minifyFlag, .setting outFlag minifyFlag, .setting outFlag "b.html".toList, page]
    let served := [page, .switch noWatchFlag, .setting portFlag "+080".toList, .switch watchFlag]
    let moved := [.setting portFlag "+080".toList, .switch noWatchFlag, page, .switch watchFlag]
    (∀ group ∈ groups, buildGrammar.Admits group) ∧ others.Perm groups ∧ values others = values groups ∧
      read ("build".toList :: line others) = .ok (.build "a.json".toList "b.html".toList true) ∧
      (∀ group ∈ served, serveGrammar.Admits group) ∧ moved.Perm served ∧ values moved = values served ∧
      switches moved = switches served ∧
      read ("serve".toList :: line moved) = .ok (.serve "a.json".toList 80 true) := by
  intro page groups others served moved
  obtain ⟨build, serve, _, buildMoved, serveMoved⟩ := read_eq_ok_iff_groups
  have port : IsPort "+080".toList 80 := ⟨"080".toList, Or.inr rfl, by decide, by simp, rfl⟩
  have buildKnows : ∀ group ∈ groups, buildGrammar.Admits group := by
    simp [groups, page, Grammar.Admits, buildGrammar]
  have serveKnows : ∀ group ∈ served, serveGrammar.Admits group := by
    simpa [served, page, Grammar.Admits, serveGrammar] using ⟨80, port⟩
  have built := (build (line groups) (.build "a.json".toList "b.html".toList true)).mpr
    ⟨groups, buildKnows, rfl, _, rfl, rfl⟩
  have shown := (serve (line served) (.serve "a.json".toList 80 true)).mpr
    ⟨served, serveKnows, rfl, "a.json".toList, 80, rfl, port, rfl⟩
  have buildSame : others.Perm groups := by decide
  have serveSame : moved.Perm served := by decide
  exact ⟨buildKnows, buildSame, rfl, (buildMoved _ _ _ buildKnows buildSame rfl).mpr built, serveKnows, serveSame,
    rfl, rfl, (serveMoved _ _ _ serveKnows serveSame rfl rfl).mpr shown⟩

end PageCompiler.CommandLine
