import Mathlib
import PageCompiler.Json.Tree

/-!
# Numbers as text

A number is read as far as it goes, so that what follows has no part in it unless the number could go on
there. An integer that fits 64 bits reads back from its digits.
-/

namespace PageCompiler.Json

/-- Whether no number goes on at the start of a text. -/
def EndsNumber (rest : Text) : Prop :=
  ∀ c ∈ rest.head?, c.isDigit = false ∧ c ≠ '.' ∧ c ≠ 'e' ∧ c ≠ 'E'

section Following

variable {text rest after : Text}

theorem digitRun_append (ends : EndsNumber rest) (text : Text) :
    digitRun (text ++ rest) = ((digitRun text).1, (digitRun text).2 ++ rest) := by
  have nothing : digitRun rest = ([], rest) := by
    cases rest with
    | nil => rfl
    | cons c rest =>
      have other : c.isDigit = false := (ends c rfl).1
      simp [digitRun, other]
  induction text with
  | nil => exact nothing
  | cons c text ih =>
    rw [digitRun, Prod.mk.injEq] at ih
    cases digit : c.isDigit <;> simp [digitRun, digit, ih]

theorem readFraction_of_ne (other : text.head? ≠ some '.') : readFraction text = some (none, text) := by
  fun_cases readFraction text with
  | case1 => exact absurd rfl other
  | case2 => exact absurd rfl other
  | case3 => rfl

theorem readFraction_append (ends : EndsNumber rest) {fraction : Option Text}
    (read : readFraction text = some (fraction, after)) :
    readFraction (text ++ rest) = some (fraction, after ++ rest) := by
  cases text with
  | nil =>
    cases read
    exact readFraction_of_ne fun same => (ends '.' same).2.1 rfl
  | cons c text =>
    by_cases point : c = '.'
    · subst point
      rw [readFraction] at read
      rw [List.cons_append, readFraction, digitRun_append ends]
      cases run : digitRun text with
      | mk digits left =>
        rw [run] at read
        cases digits with
        | nil => cases read
        | cons digit digits =>
          cases read
          rfl
    · rw [readFraction_of_ne (by simpa using point)] at read
      cases read
      exact readFraction_of_ne (by simpa using point)

/-- The sign of a power of ten, and what follows it. -/
def exponentSign : Text → Bool × Text
  | '-' :: rest => (true, rest)
  | '+' :: rest => (false, rest)
  | rest => (false, rest)

/-- Reads the digits of a power of ten. -/
def readSize (negative : Bool) (text : Text) : Option (Option Int × Text) :=
  match digitRun text with
  | ([], _) => none
  | (digits, rest) => some (some (if negative then -natOfDigits digits else natOfDigits digits), rest)

theorem readExponent_cons (c : Char) (text : Text) :
    readExponent (c :: text) =
      if c = 'e' || c = 'E' then readSize (exponentSign text).1 (exponentSign text).2
      else some (none, c :: text) := by
  fun_cases exponentSign text with
  | case1 => rfl
  | case2 => rfl
  | case3 text noMinus noPlus =>
    rw [readExponent]
    · rfl
    · exact noMinus
    · exact noPlus

theorem exponentSign_append (filled : text ≠ []) (rest : Text) :
    exponentSign (text ++ rest) = ((exponentSign text).1, (exponentSign text).2 ++ rest) := by
  obtain ⟨c, text, rfl⟩ := List.exists_cons_of_ne_nil filled
  by_cases minus : c = '-'
  · subst minus
    rfl
  · by_cases plus : c = '+'
    · subst plus
      rfl
    · simp [exponentSign, minus, plus]

theorem readSize_append (ends : EndsNumber rest) {negative : Bool} {exponent : Option Int}
    (read : readSize negative text = some (exponent, after)) :
    readSize negative (text ++ rest) = some (exponent, after ++ rest) := by
  rw [readSize] at read ⊢
  rw [digitRun_append ends]
  cases run : digitRun text with
  | mk digits left =>
    rw [run] at read
    cases digits with
    | nil => cases read
    | cons digit digits =>
      cases read
      rfl

theorem readExponent_append (ends : EndsNumber rest) {exponent : Option Int}
    (read : readExponent text = some (exponent, after)) :
    readExponent (text ++ rest) = some (exponent, after ++ rest) := by
  cases text with
  | nil =>
    cases read
    cases rest with
    | nil => rfl
    | cons c rest =>
      obtain ⟨_, _, small, capital⟩ := ends c rfl
      simp [readExponent_cons, small, capital]
  | cons c text =>
    rw [List.cons_append]
    rw [readExponent_cons] at read ⊢
    split at read
    · next marked =>
      have filled : text ≠ [] := by
        rintro rfl
        cases read
      rw [if_pos marked, exponentSign_append filled]
      exact readSize_append ends read
    · next unmarked =>
      rw [if_neg unmarked]
      cases read
      rfl

/-- The sign of a number, and what follows it. -/
def numberSign : Text → Bool × Text
  | '-' :: rest => (true, rest)
  | rest => (false, rest)

/-- Reads a number after its sign. -/
def readUnsigned (negative : Bool) (text : Text) : Option (Literal × Text) := do
  let (whole, text) := digitRun text
  if whole.isEmpty || (whole.head? = some '0' && 1 < whole.length) then
    none
  else
    let (fraction, text) ← readFraction text
    let (exponent, text) ← readExponent text
    some (⟨negative, whole, fraction, exponent⟩, text)

theorem readLiteral_eq (text : Text) :
    readLiteral text = readUnsigned (numberSign text).1 (numberSign text).2 := by
  fun_cases numberSign text with
  | case1 => rfl
  | case2 text noMinus =>
    rw [readLiteral]
    · rfl
    · exact noMinus

theorem numberSign_append (filled : text ≠ []) (rest : Text) :
    numberSign (text ++ rest) = ((numberSign text).1, (numberSign text).2 ++ rest) := by
  obtain ⟨c, text, rfl⟩ := List.exists_cons_of_ne_nil filled
  by_cases minus : c = '-'
  · subst minus
    rfl
  · simp [numberSign, minus]

/-- What follows a number has no part in it unless the number goes on there. -/
theorem readLiteral_append (ends : EndsNumber rest) {literal : Literal}
    (read : readLiteral text = some (literal, after)) :
    readLiteral (text ++ rest) = some (literal, after ++ rest) := by
  have filled : text ≠ [] := by
    rintro rfl
    cases read
  rw [readLiteral_eq] at read ⊢
  rw [numberSign_append filled]
  rw [readUnsigned] at read ⊢
  rw [digitRun_append ends]
  dsimp only at read ⊢
  split at read
  · cases read
  · next whole =>
    rw [if_neg whole]
    obtain ⟨⟨fraction, afterFraction⟩, readF, read⟩ := Option.bind_eq_some_iff.mp read
    obtain ⟨⟨exponent, afterExponent⟩, readE, read⟩ := Option.bind_eq_some_iff.mp read
    cases read
    exact Option.bind_eq_some_iff.mpr ⟨_, readFraction_append ends readF,
      Option.bind_eq_some_iff.mpr ⟨_, readExponent_append ends readE, rfl⟩⟩

/-- A number starts with a sign or a digit. -/
theorem start_of_readLiteral {c : Char} {literal : Literal}
    (read : readLiteral (c :: text) = some (literal, after)) : c = '-' ∨ c.isDigit = true := by
  by_cases minus : c = '-'
  · exact Or.inl minus
  · right
    by_contra other
    have unsigned : numberSign (c :: text) = (false, c :: text) := by
      simp [numberSign, minus]
    have nothing : digitRun (c :: text) = ([], c :: text) := by
      simp [digitRun, other]
    rw [readLiteral_eq, unsigned, readUnsigned, nothing] at read
    cases read

end Following

/-! ## Numbers that read back -/

/-- Whether a number reads back from its text. -/
def Number.readsBack (number : Number) : Bool :=
  match readLiteral number.text with
  | some (literal, []) => literal.value? = some number
  | _ => false

/-- A number that can be handed over: an integer that fits 64 bits, with or without sign, or a floating
point number that reads back. -/
def Number.isProper : Number → Bool
  | .integer value => -2 ^ 63 ≤ value && value < 2 ^ 64
  | .float value => Number.readsBack (.float value)

/-! ## Integers -/

theorem isDigit_of_mem_ofNat {value : Nat} {c : Char} (member : c ∈ Text.ofNat value) :
    c.isDigit = true :=
  Nat.isDigit_of_mem_toDigits (by decide) (by decide) member

theorem ofNat_ne_nil (value : Nat) : Text.ofNat value ≠ [] :=
  Nat.toDigits_ne_nil

/-- Only zero starts with the digit zero. -/
theorem head?_ofNat {value : Nat} (positive : 0 < value) : (Text.ofNat value).head? ≠ some '0' := by
  induction value using Nat.strong_induction_on with
  | _ value ih =>
    rw [Text.ofNat]
    rcases Nat.lt_or_ge value 10 with small | large
    · rw [Nat.toDigits_of_lt_base small, List.head?_cons, ne_eq, Option.some.injEq,
        Nat.digitChar_eq_zero]
      exact Nat.ne_of_gt positive
    · have leading := ih (value / 10) (by omega) (by omega)
      obtain ⟨c, rest, same⟩ := List.exists_cons_of_ne_nil (ofNat_ne_nil (value / 10))
      rw [same] at leading
      rw [Text.ofNat] at same
      rw [Nat.toDigits_of_base_le (by decide) large, same]
      exact leading

theorem digitRun_ofNat (value : Nat) : digitRun (Text.ofNat value) = (Text.ofNat value, []) := by
  rw [digitRun, List.takeWhile_eq_self_iff.mpr fun _ => isDigit_of_mem_ofNat,
    List.dropWhile_eq_nil_iff.mpr fun _ => isDigit_of_mem_ofNat]

theorem numberSign_ofNat (value : Nat) : numberSign (Text.ofNat value) = (false, Text.ofNat value) := by
  obtain ⟨c, rest, same⟩ := List.exists_cons_of_ne_nil (ofNat_ne_nil value)
  have digit : c.isDigit = true := isDigit_of_mem_ofNat (by rw [same]; exact List.mem_cons_self)
  have noMinus : c ≠ '-' := by
    rintro rfl
    cases digit
  rw [same]
  simp [numberSign, noMinus]

theorem readUnsigned_ofNat (negative : Bool) (value : Nat) :
    readUnsigned negative (Text.ofNat value) = some (⟨negative, Text.ofNat value, none, none⟩, []) := by
  have leading : ((Text.ofNat value).isEmpty ||
      ((Text.ofNat value).head? = some '0' && 1 < (Text.ofNat value).length)) = false := by
    have filled : (Text.ofNat value).isEmpty = false := by
      simpa using ofNat_ne_nil value
    rcases Nat.eq_zero_or_pos value with rfl | positive
    · decide
    · simp [filled, head?_ofNat positive]
  rw [readUnsigned, digitRun_ofNat]
  dsimp only
  rw [leading]
  rfl

namespace Number

/-- Digits are taken in as long as the number that they make is within the limit. -/
theorem absorb_eq {significand : Nat} {digits : Text}
    (within : Nat.ofDigitChars 10 digits significand ≤ significandLimit) :
    absorb significand digits = (Nat.ofDigitChars 10 digits significand, []) := by
  induction digits generalizing significand with
  | nil => rfl
  | cons c digits ih =>
    rw [Nat.ofDigitChars_cons] at within ⊢
    have same : significand * 10 + digitValue c = 10 * significand + (c.toNat - '0'.toNat) := by
      rw [digitValue, Nat.mul_comm]
    have grows : 10 * significand + (c.toNat - '0'.toNat) ≤
        Nat.ofDigitChars 10 digits (10 * significand + (c.toNat - '0'.toNat)) := by
      rw [Nat.ofDigitChars_eq_ofDigitChars_zero]
      exact Nat.le_add_right_of_le (Nat.le_mul_of_pos_left _ (Nat.pow_pos (by decide)))
    rw [absorb, same, if_pos (Nat.le_trans grows within), ih within]

theorem absorb_ofNat {value : Nat} (within : value ≤ significandLimit) :
    absorb 0 (Text.ofNat value) = (value, []) := by
  have digits : Nat.ofDigitChars 10 (Text.ofNat value) 0 = value := Nat.ofDigitChars_ten_toDigits
  rw [absorb_eq (by rw [digits]; exact within), digits]

theorem readsBack_of_read {number : Number} {literal : Literal}
    (read : readLiteral number.text = some (literal, [])) (same : literal.value? = some number) :
    number.readsBack = true := by
  rw [readsBack, read]
  exact decide_eq_true same

/-- Digits without a point and an exponent are an integer as long as it fits. -/
theorem value?_digits {digits : Text} {magnitude : Nat} (absorbed : absorb 0 digits = (magnitude, [])) :
    Literal.value? ⟨false, digits, none, none⟩ = some (.integer magnitude) := by
  simp [Literal.value?, absorbed]

theorem value?_negative_digits {digits : Text} {magnitude : Nat}
    (absorbed : absorb 0 digits = (magnitude, [])) (positive : 0 < magnitude)
    (within : magnitude ≤ Nat.pow 2 63) :
    Literal.value? ⟨true, digits, none, none⟩ = some (.integer (-magnitude)) := by
  simp [Literal.value?, absorbed, positive, within]

/-- Integers that fit 64 bits read back. -/
theorem readsBack_integer {value : Int} (low : -2 ^ 63 ≤ value) (high : value < 2 ^ 64) :
    readsBack (.integer value) = true := by
  have limit : significandLimit = 2 ^ 64 - 1 := rfl
  have absorbed : absorb 0 (Text.ofNat value.natAbs) = (value.natAbs, []) := absorb_ofNat (by omega)
  by_cases negative : value < 0
  · have written : text (.integer value) = '-' :: Text.ofNat value.natAbs := if_pos negative
    have sign : numberSign ('-' :: Text.ofNat value.natAbs) = (true, Text.ofNat value.natAbs) := rfl
    have read : readLiteral (text (.integer value)) =
        some (⟨true, Text.ofNat value.natAbs, none, none⟩, []) := by
      rw [written, readLiteral_eq, sign, readUnsigned_ofNat]
    have within : value.natAbs ≤ Nat.pow 2 63 := by
      have power : Nat.pow 2 63 = 2 ^ 63 := rfl
      omega
    have same : -(value.natAbs : Int) = value := by omega
    apply readsBack_of_read read
    rw [value?_negative_digits absorbed (by omega) within, same]
  · have written : text (.integer value) = Text.ofNat value.natAbs := if_neg negative
    have read : readLiteral (text (.integer value)) =
        some (⟨false, Text.ofNat value.natAbs, none, none⟩, []) := by
      rw [written, readLiteral_eq, numberSign_ofNat, readUnsigned_ofNat]
    have same : (value.natAbs : Int) = value := by omega
    apply readsBack_of_read read
    rw [value?_digits absorbed, same]

theorem readsBack_of_isProper {number : Number} (proper : number.isProper = true) :
    number.readsBack = true := by
  cases number with
  | float value => exact proper
  | integer value =>
    rw [isProper, Bool.and_eq_true, decide_eq_true_iff, decide_eq_true_iff] at proper
    exact readsBack_integer proper.1 proper.2

theorem exists_readLiteral {number : Number} (reads : number.readsBack = true) :
    ∃ literal, readLiteral number.text = some (literal, []) ∧ literal.value? = some number := by
  rw [readsBack] at reads
  split at reads
  · next literal read => exact ⟨literal, read, of_decide_eq_true reads⟩
  · cases reads

/-! ## The characters of numbers -/

/-- Whether a character occurs in numbers as they are written. -/
def isTextChar (c : Char) : Bool :=
  c.isDigit || ['-', '+', '.', 'e'].contains c

theorem isTextChar_of_isDigit {c : Char} (digit : c.isDigit = true) : isTextChar c = true := by
  rw [isTextChar, digit, Bool.true_or]

theorem isTextChar_of_mem_ofNat {value : Nat} : ∀ c ∈ Text.ofNat value, isTextChar c = true :=
  fun _ member => isTextChar_of_isDigit (isDigit_of_mem_ofNat member)

section Floats

variable {digits : Text} (plain : ∀ c ∈ digits, isTextChar c = true)

include plain

theorem isTextChar_of_mem_plainText (exponent : Int) :
    ∀ c ∈ plainText digits exponent, isTextChar c = true := by
  have zeros (count : Nat) : ∀ c ∈ List.replicate count '0', isTextChar c = true := by
    intro c member
    rw [List.eq_of_mem_replicate member]
    rfl
  rw [plainText]
  split
  · simp only [List.forall_mem_append]
    exact ⟨⟨plain, zeros _⟩, List.all_eq_true.mp (by decide)⟩
  · split
    · simp only [List.forall_mem_append]
      exact ⟨⟨fun c member => plain c (List.mem_of_mem_take member), List.all_eq_true.mp (by decide)⟩,
        fun c member => plain c (List.mem_of_mem_drop member)⟩
    · simp only [List.forall_mem_append]
      exact ⟨⟨List.all_eq_true.mp (by decide), zeros _⟩, plain⟩

theorem isTextChar_of_mem_scientificText (exponent : Int) :
    ∀ c ∈ scientificText digits exponent, isTextChar c = true := by
  have fraction : ∀ c ∈ (if (digits.drop 1).isEmpty then [] else '.' :: digits.drop 1),
      isTextChar c = true := by
    split
    · exact List.forall_mem_nil _
    · exact List.forall_mem_cons.mpr ⟨rfl, fun c member => plain c (List.mem_of_mem_drop member)⟩
  have sign : ∀ c ∈ (if exponent < 0 then ['-'] else ['+']), isTextChar c = true := by
    split <;> exact List.all_eq_true.mp (by decide)
  rw [scientificText]
  simp only [List.forall_mem_append]
  exact ⟨⟨⟨⟨fun c member => plain c (List.mem_of_mem_take member), fraction⟩, List.all_eq_true.mp (by decide)⟩, sign⟩,
    isTextChar_of_mem_ofNat⟩

end Floats

/-- Numbers are written with digits, signs, points and the letter of a power of ten. -/
theorem isTextChar_of_mem_text (number : Number) : ∀ c ∈ number.text, isTextChar c = true := by
  cases number with
  | integer value =>
    rw [text, integerText]
    split
    · exact List.forall_mem_cons.mpr ⟨rfl, isTextChar_of_mem_ofNat⟩
    · exact isTextChar_of_mem_ofNat
  | float value =>
    rw [text, floatText]
    simp only [List.forall_mem_append]
    constructor
    · split <;> exact List.all_eq_true.mp (by decide)
    · split
      · exact isTextChar_of_mem_plainText isTextChar_of_mem_ofNat _
      · exact isTextChar_of_mem_scientificText isTextChar_of_mem_ofNat _

end Number

end PageCompiler.Json
