import PageCompiler.Proofs.Json.Numbers

/-!
# Literals as text

A literal reads back from its text, and the quotient that it stands for is the number of its digits times a
power of ten.
-/

namespace PageCompiler.Json

/-! ## Digits -/

theorem natOfDigits_eq (digits : Text) : natOfDigits digits = Nat.ofDigitChars 10 digits 0 := by
  simp [natOfDigits, Nat.ofDigitChars, Number.digitValue, Nat.mul_comm]

theorem natOfDigits_ofNat (value : Nat) : natOfDigits (Text.ofNat value) = value := by
  rw [natOfDigits_eq]
  exact Nat.ofDigitChars_ten_toDigits

theorem natOfDigits_append_zeros (digits : Text) (count : Nat) :
    natOfDigits (digits ++ List.replicate count '0') = natOfDigits digits * 10 ^ count := by
  rw [natOfDigits_eq, natOfDigits_eq, Nat.ofDigitChars_append, Nat.ofDigitChars_replicate_zero, Nat.mul_comm]

theorem natOfDigits_zeros_append (count : Nat) (digits : Text) :
    natOfDigits (List.replicate count '0' ++ digits) = natOfDigits digits := by
  rw [natOfDigits_eq, natOfDigits_eq, Nat.ofDigitChars_append, Nat.ofDigitChars_replicate_zero, Nat.mul_zero]

theorem digitRun_digits {digits rest : Text} (plain : ∀ c ∈ digits, c.isDigit = true)
    (ends : ∀ c ∈ rest.head?, c.isDigit = false) : digitRun (digits ++ rest) = (digits, rest) := by
  have nothing : digitRun rest = ([], rest) := by
    cases rest with
    | nil => rfl
    | cons c rest => simp [digitRun, ends c rfl]
  rw [digitRun, Prod.mk.injEq] at nothing
  rw [digitRun, List.takeWhile_append_of_pos plain, List.dropWhile_append_of_pos plain, nothing.1,
    nothing.2, List.append_nil]

namespace Literal

/-! ## Texts of literals -/

/-- The part of a text that starts with the point. -/
def fractionText : Option Text → Text
  | some fraction => '.' :: fraction
  | none => []

/-- The part of a text that starts with the letter of a power of ten. -/
def exponentText : Option Int → Text
  | some exponent => 'e' :: (if exponent < 0 then '-' else '+') :: Text.ofNat exponent.natAbs
  | none => []

/-- The text of a literal after its sign. -/
def unsignedText (literal : Literal) : Text :=
  literal.whole ++ (fractionText literal.fraction ++ exponentText literal.exponent)

/-- Whether a literal can be read: its parts are digits, a fraction that is there has some, and a whole part of
several digits does not start with zero. -/
structure IsLegible (literal : Literal) : Prop where
  whole_digits : ∀ c ∈ literal.whole, c.isDigit = true
  whole_ne_nil : literal.whole ≠ []
  no_zero : literal.whole.head? = some '0' → literal.whole.length ≤ 1
  fraction_digits : ∀ fraction ∈ literal.fraction, fraction ≠ [] ∧ ∀ c ∈ fraction, c.isDigit = true

theorem isDigit_head?_exponentText (exponent : Option Int) :
    ∀ c ∈ (exponentText exponent).head?, c.isDigit = false := by
  cases exponent with
  | none => exact fun _ member => nomatch member
  | some exponent =>
    intro c member
    cases member
    rfl

theorem readSize_ofNat (negative : Bool) (size : Nat) :
    readSize negative (Text.ofNat size) = some (some (if negative then -(size : Int) else size), []) := by
  have run := digitRun_ofNat size
  have digits := natOfDigits_ofNat size
  obtain ⟨first, others, same⟩ := List.exists_cons_of_ne_nil (ofNat_ne_nil size)
  rw [same] at run digits ⊢
  rw [readSize, run]
  simp only [digits]

theorem readExponent_exponentText (exponent : Option Int) :
    readExponent (exponentText exponent) = some (exponent, []) := by
  cases exponent with
  | none => rfl
  | some exponent =>
    rw [exponentText, readExponent_cons, if_pos (by decide)]
    by_cases negative : exponent < 0
    · rw [if_pos negative, exponentSign, readSize_ofNat, if_pos rfl,
        show -(exponent.natAbs : Int) = exponent by omega]
    · rw [if_neg negative, exponentSign, readSize_ofNat, if_neg Bool.false_ne_true,
        show (exponent.natAbs : Int) = exponent by omega]

theorem readFraction_fractionText {literal : Literal} (legible : literal.IsLegible) :
    readFraction (fractionText literal.fraction ++ exponentText literal.exponent) =
      some (literal.fraction, exponentText literal.exponent) := by
  cases present : literal.fraction with
  | none =>
    rw [fractionText, List.nil_append]
    refine readFraction_of_ne fun point => ?_
    cases shown : literal.exponent with
    | none =>
      rw [shown] at point
      cases point
    | some exponent =>
      rw [shown] at point
      cases point
  | some fraction =>
    obtain ⟨filled, digits⟩ := legible.fraction_digits fraction present
    have run := digitRun_digits digits (isDigit_head?_exponentText literal.exponent)
    rw [fractionText, List.cons_append, readFraction, run]
    cases fraction with
    | nil => exact absurd rfl filled
    | cons digit fraction => rfl

theorem readUnsigned_unsignedText {literal : Literal} (legible : literal.IsLegible) :
    readUnsigned literal.negative literal.unsignedText = some (literal, []) := by
  have ends : ∀ c ∈ (fractionText literal.fraction ++ exponentText literal.exponent).head?,
      c.isDigit = false := by
    cases literal.fraction with
    | none => exact isDigit_head?_exponentText literal.exponent
    | some fraction =>
      intro c member
      cases member
      rfl
  have leading : ¬ (literal.whole.isEmpty ||
      (literal.whole.head? = some '0' && 1 < literal.whole.length)) = true := by
    simpa [legible.whole_ne_nil] using legible.no_zero
  rw [readUnsigned, unsignedText, digitRun_digits legible.whole_digits ends]
  dsimp only
  rw [if_neg leading, readFraction_fractionText legible, Option.bind_eq_bind, Option.bind_some,
    readExponent_exponentText]
  rfl

/-- A legible literal is read from its text. -/
theorem readLiteral_text {literal : Literal} (legible : literal.IsLegible) :
    readLiteral ((if literal.negative then ['-'] else []) ++ literal.unsignedText) = some (literal, []) := by
  have read := readUnsigned_unsignedText legible
  rw [readLiteral_eq]
  cases negative : literal.negative with
  | true =>
    rw [negative] at read
    exact read
  | false =>
    rw [negative] at read
    have unsigned : numberSign literal.unsignedText = (false, literal.unsignedText) := by
      obtain ⟨digit, digits, same⟩ := List.exists_cons_of_ne_nil legible.whole_ne_nil
      have noMinus : digit ≠ '-' := by
        rintro rfl
        exact absurd (legible.whole_digits '-' (same ▸ List.mem_cons_self)) (by decide)
      rw [unsignedText, same]
      simp [numberSign, noMinus]
    simp only [Bool.false_eq_true, if_false, List.nil_append, unsigned]
    exact read

/-! ## Quotients of literals -/

/-- The quotient that a literal stands for, but for its sign. -/
def quotient (literal : Literal) : ℚ :=
  natOfDigits (literal.whole ++ literal.fraction.getD []) *
    10 ^ (literal.exponent.getD 0 - (literal.fraction.getD []).length)

end Literal

end PageCompiler.Json
