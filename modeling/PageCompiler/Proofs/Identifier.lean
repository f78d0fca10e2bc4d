import Mathlib
import PageCompiler.Config

/-!
# Identifiers that are issued

An allocator issues every element identifier and every class name once, whatever the random stream gives.
A sequential token ends in a fixed number of characters behind a hyphen, so that its number can be found
from its end although the stem may hold digits and hyphens too. A random token is compared with all that
were issued before, and a spare one begins in a way that no drawn one does.
-/

namespace PageCompiler.Identifier

/-! ## Draws -/

theorem length_letters (count : Nat) (stream : Random.Stream) :
    (letters count stream).1.length = count := by
  induction count generalizing stream with
  | zero => rfl
  | succ count ih =>
    rw [letters, List.length_cons, ih]

theorem mem_alphabet_of_mem_letters {count : Nat} {stream : Random.Stream} {c : Char}
    (member : c ∈ (letters count stream).1) : c ∈ alphabet := by
  induction count generalizing stream with
  | zero => cases member
  | succ count ih =>
    rw [letters] at member
    rcases List.mem_cons.mp member with rfl | later
    · rw [List.getD_eq_getElem?_getD]
      cases found : alphabet[(stream.below alphabet.length).1]? with
      | none => decide
      | some drawn => exact List.mem_of_getElem? found
    · exact ih later

/-! ## Shapes of tokens -/

theorem ofNat_injective : Function.Injective Text.ofNat := by
  have readsBack : Function.LeftInverse (fun digits => Nat.ofDigitChars 10 digits 0) Text.ofNat :=
    fun value => Nat.ofDigitChars_ten_toDigits
  exact readsBack.injective

/-- A sequential token: the stem, a number and an ending. -/
def numbered (stem : Text) (number : Nat) (ending : Text) : Text :=
  stem ++ ['-'] ++ Text.ofNat number ++ ['-'] ++ ending

/-- Tokens of one stem have one number: it stands between the stem and the ending. -/
theorem number_eq_of_numbered_eq {stem ending otherEnding : Text} {number other : Nat}
    (sameLength : ending.length = otherEnding.length)
    (same : numbered stem number ending = numbered stem other otherEnding) : number = other := by
  obtain ⟨front, _⟩ := List.append_inj' same sameLength
  have digits := List.append_cancel_left (List.append_cancel_right front)
  exact ofNat_injective digits

/-- Whether a token is a random one: drawn from the alphabet, or spare with a number within a limit. -/
def IsRandomToken (limit : Nat) (token : Text) : Prop :=
  (∃ drawn, token = '_' :: drawn ∧ ∀ c ∈ drawn, c ∈ alphabet) ∨
    ∃ number, number ≤ limit ∧ token = spareToken number

theorem IsRandomToken.mono {limit wider : Nat} {token : Text} (shaped : IsRandomToken limit token)
    (within : limit ≤ wider) : IsRandomToken wider token :=
  shaped.imp_right fun ⟨number, small, same⟩ => ⟨number, Nat.le_trans small within, same⟩

/-- A spare token with a number beyond the limit is new. -/
theorem not_isRandomToken_spareToken {limit number : Nat} (beyond : limit < number) :
    ¬ IsRandomToken limit (spareToken number) := by
  rintro (⟨drawn, same, letter⟩ | ⟨other, within, same⟩)
  · rw [spareToken, List.cons.injEq] at same
    have strange := letter '_' (same.2 ▸ List.mem_cons_self)
    revert strange
    decide
  · rw [spareToken, spareToken, List.cons.injEq, List.cons.injEq] at same
    rw [ofNat_injective same.2.2] at beyond
    exact Nat.not_lt.mpr within beyond

/-- The token that is found is one that was not issued, and of the right shape. -/
theorem freshToken_new {issued : List Text} {limit number : Nat} (beyond : limit < number)
    (shaped : ∀ token ∈ issued, IsRandomToken limit token) (attempts : Nat) (stream : Random.Stream) :
    (freshToken issued number attempts stream).1 ∉ issued ∧
      IsRandomToken number (freshToken issued number attempts stream).1 := by
  induction attempts generalizing stream with
  | zero =>
    refine ⟨fun member => not_isRandomToken_spareToken beyond (shaped _ member), Or.inr ?_⟩
    exact ⟨number, Nat.le_refl number, rfl⟩
  | succ attempts ih =>
    rw [freshToken]
    dsimp only
    split
    · exact ih _
    · next unissued =>
      refine ⟨fun member => unissued (List.contains_iff_mem.mpr member), Or.inl ?_⟩
      exact ⟨_, rfl, fun c => mem_alphabet_of_mem_letters⟩

/-! ## Series -/

namespace Series

/-- Whether the random tokens that a series has issued are shaped as they should be. -/
def Formed (series : Series) : Prop :=
  ∀ token ∈ series.issued, IsRandomToken series.count token

/-- Whether a series may have issued a token: a random one is kept, and a sequential one has one of the
numbers so far. -/
def Covers (strategy : Strategy) (series : Series) (token : Text) : Prop :=
  match strategy with
  | .sequential => ∃ number ending, number ≤ series.count ∧ ending.length = endingLength ∧
    token = numbered series.stem number ending
  | .random => token ∈ series.issued

/-- What issuing a token does to a series: the token is new, and covered from then on. -/
structure Issues (strategy : Strategy) (series : Series) (token : Text) (after : Series) : Prop where
  formed : after.Formed
  fresh : ¬ series.Covers strategy token
  covered : after.Covers strategy token
  keeps : ∀ old, series.Covers strategy old → after.Covers strategy old

theorem issues_next {series : Series} (formed : series.Formed) (strategy : Strategy)
    (stream : Random.Stream) :
    Issues strategy series (series.next strategy stream).1 (series.next strategy stream).2.1 := by
  have later := Nat.lt_succ_self series.count
  rw [next.eq_def]
  generalize redrawLimit = attempts
  cases strategy with
  | sequential =>
    have ended := length_letters endingLength stream
    constructor
    · exact fun token member => (formed token member).mono (Nat.le_of_lt later)
    · rintro ⟨number, ending, within, length, same⟩
      have sameNumber := number_eq_of_numbered_eq (ended.trans length.symm) same
      rw [← sameNumber] at within
      exact Nat.not_lt.mpr within later
    · exact ⟨_, _, Nat.le_refl _, ended, rfl⟩
    · rintro old ⟨number, ending, within, length, same⟩
      exact ⟨number, ending, Nat.le_trans within (Nat.le_of_lt later), length, same⟩
  | random =>
    obtain ⟨fresh, shaped⟩ := freshToken_new later formed attempts stream
    constructor
    · intro token member
      rcases List.mem_cons.mp member with rfl | old
      · exact shaped
      · exact (formed token old).mono (Nat.le_of_lt later)
    · exact fresh
    · exact List.mem_cons_self
    · exact fun old member => List.mem_cons_of_mem _ member

end Series

/-! ## Allocators -/

/-- What an allocator can be asked for. -/
inductive Kind where
  | element
  | className
deriving DecidableEq

namespace Allocator

/-- The series of a kind. -/
def series (allocator : Allocator) : Kind → Series
  | .element => allocator.elements
  | .className => allocator.classes

/-- Issues a token of a kind. -/
def issue (allocator : Allocator) : Kind → Text × Allocator
  | .element => allocator.element
  | .className => allocator.className

/-- The tokens that are issued one after another, each with its kind. -/
def issueAll : List Kind → Allocator → List (Kind × Text)
  | [], _ => []
  | kind :: rest, allocator => (kind, (allocator.issue kind).1) :: issueAll rest (allocator.issue kind).2

/-- The tokens of one kind among those that were issued. -/
def tokens (kind : Kind) (issued : List (Kind × Text)) : List Text :=
  (issued.filter fun pair => pair.1 = kind).map Prod.snd

/-- Whether both series of an allocator are shaped as they should be. -/
def Formed (allocator : Allocator) : Prop :=
  ∀ kind, (allocator.series kind).Formed

/-- Whether an allocator may have issued a token of a kind. -/
def Covers (allocator : Allocator) (kind : Kind) (token : Text) : Prop :=
  (allocator.series kind).Covers allocator.strategy token

theorem formed_new (strategy : Strategy) (elementStem classStem : Text) (seed : UInt64) :
    (new strategy elementStem classStem seed).Formed := by
  rintro (_ | _) token member <;> cases member

/-- What issuing a token does to an allocator: the token is new for its kind, and nothing is forgotten. -/
structure Issues (allocator : Allocator) (kind : Kind) : Prop where
  formed : (allocator.issue kind).2.Formed
  fresh : ¬ allocator.Covers kind (allocator.issue kind).1
  covered : (allocator.issue kind).2.Covers kind (allocator.issue kind).1
  keeps : ∀ other old, allocator.Covers other old → (allocator.issue kind).2.Covers other old

theorem Formed.issues {allocator : Allocator} (formed : allocator.Formed) (kind : Kind) :
    allocator.Issues kind := by
  have next := Series.issues_next (formed kind) allocator.strategy allocator.stream
  cases kind with
  | element =>
    constructor
    · rintro (_ | _)
      · exact next.formed
      · exact formed .className
    · exact next.fresh
    · exact next.covered
    · rintro (_ | _) old
      · exact next.keeps old
      · exact id
  | className =>
    constructor
    · rintro (_ | _)
      · exact formed .element
      · exact next.formed
    · exact next.fresh
    · exact next.covered
    · rintro (_ | _) old
      · exact id
      · exact next.keeps old

/-- Whether an allocator comes to another one by issuing tokens. -/
def Reaches : Allocator → Allocator → Prop :=
  Relation.ReflTransGen fun before after => ∃ kind, after = (before.issue kind).2

theorem reaches_self (allocator : Allocator) : allocator.Reaches allocator :=
  Relation.ReflTransGen.refl

theorem Reaches.issue {origin allocator : Allocator} (reaches : origin.Reaches allocator) (kind : Kind) :
    origin.Reaches (allocator.issue kind).2 :=
  reaches.tail ⟨kind, rfl⟩

/-- Whatever an allocator issues, it stays well-formed and forgets nothing. -/
theorem Formed.reaches {origin allocator : Allocator} (formed : origin.Formed)
    (reaches : origin.Reaches allocator) :
    allocator.Formed ∧ ∀ kind token, origin.Covers kind token → allocator.Covers kind token := by
  induction reaches with
  | refl => exact ⟨formed, fun _ _ => id⟩
  | tail _ step ih =>
    obtain ⟨kind, rfl⟩ := step
    have issues := ih.1.issues kind
    exact ⟨issues.formed, fun other token covered => issues.keeps other token (ih.2 other token covered)⟩

/-- What is issued from some point on was not issued before, and is issued once. -/
theorem Formed.tokens_issueAll {allocator : Allocator} (formed : allocator.Formed) (kinds : List Kind)
    (kind : Kind) : (tokens kind (issueAll kinds allocator)).Nodup ∧
      ∀ token ∈ tokens kind (issueAll kinds allocator), ¬ allocator.Covers kind token := by
  induction kinds generalizing allocator with
  | nil => exact ⟨List.nodup_nil, List.forall_mem_nil _⟩
  | cons first rest ih =>
    have issues := formed.issues first
    obtain ⟨distinct, unissued⟩ := ih issues.formed
    have later : ∀ token ∈ tokens kind (issueAll rest (allocator.issue first).2),
        ¬ allocator.Covers kind token :=
      fun token member covered => unissued token member (issues.keeps kind token covered)
    rw [issueAll, tokens, List.filter_cons]
    by_cases same : first = kind
    · subst same
      rw [if_pos (decide_eq_true rfl), List.map_cons, List.nodup_cons, List.forall_mem_cons]
      exact ⟨⟨fun member => unissued _ member issues.covered, distinct⟩, issues.fresh, later⟩
    · rw [if_neg (by simpa using same)]
      exact ⟨distinct, later⟩

theorem length_tokens_issueAll (kinds : List Kind) (allocator : Allocator) (kind : Kind) :
    (tokens kind (issueAll kinds allocator)).length = kinds.count kind := by
  induction kinds generalizing allocator with
  | nil => rfl
  | cons first rest ih =>
    rw [issueAll, tokens, List.filter_cons, List.count_cons]
    by_cases same : first = kind
    · subst same
      rw [if_pos (decide_eq_true rfl), List.map_cons, List.length_cons, beq_self_eq_true, if_pos rfl]
      exact congrArg Nat.succ (ih _)
    · rw [if_neg (by simpa using same), if_neg (by simpa using same)]
      exact ih _

/-- No identifier and no class name is issued twice, in whatever order they are asked for and whatever
words the random stream consists of: under either strategy, for all stems. Every call issues one. -/
theorem nodup_tokens (config : IdConfig) (entropy : UInt64) (stream : Random.Stream)
    (kinds : List Kind) (kind : Kind) :
    let allocator := { Allocator.new config.strategy config.elementStem config.classStem
      (config.seed.getD entropy) with stream }
    (tokens kind (issueAll kinds allocator)).length = kinds.count kind ∧
      (tokens kind (issueAll kinds allocator)).Nodup := by
  intro allocator
  have formed := formed_new config.strategy config.elementStem config.classStem
    (config.seed.getD entropy)
  have streamed : allocator.Formed := by
    rintro (_ | _)
    · exact formed .element
    · exact formed .className
  exact ⟨length_tokens_issueAll kinds allocator kind, (streamed.tokens_issueAll kinds kind).1⟩

end Allocator

end PageCompiler.Identifier
