import PageCompiler.ClientStore
import PageCompiler.Proofs.Binary64
import PageCompiler.Proofs.Json.Literals

/-!
# Numbers of the client

The client writes a number as a literal that stands for its shortest decimal. Two finite numbers have one
text if and only if they are the same or both are zero, and the texts in front of two further texts show
where they end.
-/

namespace PageCompiler.ClientStore

open Json

/-! ## The literal of a number -/

/-- A fraction, unless it has no digits. -/
def someFraction (digits : Text) : Option Text :=
  if digits.isEmpty then none else some digits

/-- The literal that is written for digits with a point. -/
def literalOf (negative : Bool) (digits : Text) (point : Int) : Literal :=
  if digits.length ≤ point && point ≤ 21 then
    ⟨negative, digits ++ List.replicate (point - digits.length).toNat '0', none, none⟩
  else if 0 < point && point ≤ 21 then
    ⟨negative, digits.take point.toNat, some (digits.drop point.toNat), none⟩
  else if -6 < point && point ≤ 0 then
    ⟨negative, ['0'], some (List.replicate (-point).toNat '0' ++ digits), none⟩
  else
    ⟨negative, digits.take 1, someFraction (digits.drop 1), some (point - 1)⟩

theorem negative_literalOf (negative : Bool) (digits : Text) (point : Int) :
    (literalOf negative digits point).negative = negative := by
  unfold literalOf
  split_ifs <;> rfl

theorem getD_someFraction (digits : Text) : (someFraction digits).getD [] = digits := by
  cases digits <;> rfl

theorem scientificText_eq (digits : Text) (exponent : Int) :
    Number.scientificText digits exponent =
      digits.take 1 ++ (Literal.fractionText (someFraction (digits.drop 1)) ++
        Literal.exponentText (some exponent)) := by
  have fraction : Literal.fractionText (someFraction (digits.drop 1)) =
      if (digits.drop 1).isEmpty then [] else '.' :: digits.drop 1 := by
    rw [someFraction]
    split <;> rfl
  rw [fraction, Literal.exponentText, Number.scientificText]
  split_ifs <;> simp

theorem unsignedText_literalOf (negative : Bool) (digits : Text) (point : Int) :
    (literalOf negative digits point).unsignedText = decimalText digits point := by
  unfold literalOf decimalText
  split_ifs with full divided small
  · exact List.append_nil _
  · simp [Literal.unsignedText, Literal.fractionText, Literal.exponentText]
  · simp [Literal.unsignedText, Literal.fractionText, Literal.exponentText]
  · exact (scientificText_eq digits (point - 1)).symm

section Digits

variable {digits : Text} (plain : ∀ c ∈ digits, c.isDigit = true) (filled : digits ≠ [])
  (leading : digits.head? ≠ some '0')

include plain filled leading

theorem isLegible_literalOf (negative : Bool) (point : Int) : (literalOf negative digits point).IsLegible := by
  have zeros (count : Nat) : ∀ c ∈ List.replicate count '0', c.isDigit = true := by
    intro c member
    rw [List.eq_of_mem_replicate member]
    rfl
  have taken (count : Nat) : ∀ c ∈ digits.take count, c.isDigit = true :=
    fun c member => plain c (List.mem_of_mem_take member)
  have dropped (count : Nat) : ∀ c ∈ digits.drop count, c.isDigit = true :=
    fun c member => plain c (List.mem_of_mem_drop member)
  -- What starts with the digits does not start with zero.
  have first (whole : Text) (starts : whole.head? = digits.head?) :
      whole ≠ [] ∧ (whole.head? = some '0' → whole.length ≤ 1) := by
    refine ⟨?_, fun zero => absurd (starts ▸ zero) leading⟩
    rintro rfl
    exact filled (List.head?_eq_none_iff.mp starts.symm)
  unfold literalOf
  split_ifs with full divided small
  · obtain ⟨nonempty, noZero⟩ := first (digits ++ List.replicate (point - digits.length).toNat '0')
      (List.head?_append_of_ne_nil _ filled)
    exact ⟨List.forall_mem_append.mpr ⟨plain, zeros _⟩, nonempty, noZero, fun _ member => nomatch member⟩
  · simp only [Bool.and_eq_true, decide_eq_true_eq] at full divided
    obtain ⟨nonempty, noZero⟩ := first (digits.take point.toNat)
      (List.head?_take.trans (if_neg (by omega)))
    refine ⟨taken _, nonempty, noZero, ?_⟩
    rintro _ ⟨⟩
    exact ⟨mt List.drop_eq_nil_iff.mp (by omega), dropped _⟩
  · refine ⟨List.forall_mem_singleton.mpr rfl, List.cons_ne_nil _ _, fun _ => le_rfl, ?_⟩
    rintro _ ⟨⟩
    exact ⟨List.append_ne_nil_of_right_ne_nil _ filled, List.forall_mem_append.mpr ⟨zeros _, plain⟩⟩
  · obtain ⟨nonempty, noZero⟩ := first (digits.take 1) (List.head?_take.trans (if_neg one_ne_zero))
    refine ⟨taken _, nonempty, noZero, ?_⟩
    intro fraction present
    rw [someFraction] at present
    split at present
    · cases present
    · next other =>
      cases present
      exact ⟨by simpa using other, dropped _⟩

omit plain leading in
theorem quotient_literalOf (negative : Bool) (point : Int) :
    (literalOf negative digits point).quotient = natOfDigits digits * 10 ^ (point - digits.length) := by
  have some_digit : 0 < digits.length := List.length_pos_of_ne_nil filled
  unfold literalOf Literal.quotient
  split_ifs with full divided small
  · simp only [Bool.and_eq_true, decide_eq_true_eq] at full
    have count : point - digits.length = ((point - digits.length).toNat : Int) := by omega
    simp only [Option.getD_none, List.append_nil, natOfDigits_append_zeros, List.length_nil]
    rw [count, zpow_natCast]
    simp
  · simp only [Bool.and_eq_true, decide_eq_true_eq] at full divided
    simp only [Option.getD_some, Option.getD_none, List.take_append_drop, List.length_drop]
    congr 2
    omega
  · simp only [Bool.and_eq_true, decide_eq_true_eq] at small
    have leads : '0' :: (List.replicate (-point).toNat '0' ++ digits) =
        List.replicate ((-point).toNat + 1) '0' ++ digits := by
      rw [List.replicate_succ, List.cons_append]
    simp only [Option.getD_some, Option.getD_none, List.singleton_append, leads, natOfDigits_zeros_append,
      List.length_append, List.length_replicate]
    congr 2
    omega
  · simp only [Option.getD_some, getD_someFraction, List.take_append_drop, List.length_drop]
    congr 2
    omega

end Digits

/-! ## The text of a number -/

/-- The literal that the client writes for a number. -/
def literal (x : Binary64) : Literal :=
  if x.isZero then ⟨false, ['0'], none, none⟩
  else
    let digits := Text.ofNat x.shortest.digits
    literalOf x.isNegative digits (digits.length + x.shortest.exponent)

variable {x y : Binary64}

theorem negative_literal (x : Binary64) : (literal x).negative = (!x.isZero && x.isNegative) := by
  rw [literal]
  cases zero : x.isZero with
  | true => rfl
  | false => exact negative_literalOf _ _ _

theorem quotient_literal (x : Binary64) : (literal x).quotient = x.shortest.quotient := by
  rw [literal]
  cases zero : x.isZero with
  | true =>
    rw [Binary64.shortest, zero]
    exact (zero_mul _).trans (zero_mul _).symm
  | false =>
    simp only [Bool.false_eq_true, if_false]
    rw [quotient_literalOf (ofNat_ne_nil _), natOfDigits_ofNat, Binary64.Point.quotient, add_sub_cancel_left]

theorem isLegible_literal (x : Binary64) : (literal x).IsLegible := by
  rw [literal]
  cases zero : x.isZero with
  | true =>
    exact ⟨List.forall_mem_singleton.mpr rfl, List.cons_ne_nil _ _, fun _ => le_rfl,
      fun _ member => nomatch member⟩
  | false =>
    exact isLegible_literalOf (fun _ => isDigit_of_mem_ofNat) (ofNat_ne_nil _)
      (head?_ofNat (Binary64.rounds_shortest zero).1) _ _

theorem numberText_eq (finite : x.isFinite = true) :
    numberText x = (if (literal x).negative then ['-'] else []) ++ (literal x).unsignedText := by
  rw [negative_literal, numberText, literal, finite]
  cases zero : x.isZero with
  | true => rfl
  | false =>
    simp only [Bool.not_true, Bool.not_false, Bool.true_and, Bool.false_eq_true, if_false,
      unsignedText_literalOf]

theorem readLiteral_numberText (finite : x.isFinite = true) :
    readLiteral (numberText x) = some (literal x, []) := by
  rw [numberText_eq finite]
  exact Literal.readLiteral_text (isLegible_literal x)

/-- A literal stands for one number, but for the sign of zero. -/
theorem literal_eq_iff : literal x = literal y ↔ x.same y = true := by
  rw [Binary64.same, Bool.or_eq_true, Bool.and_eq_true, decide_eq_true_eq]
  constructor
  · intro same
    have magnitude : x.magnitude = y.magnitude := by
      refine Binary64.magnitude_eq_of_shortest ?_
      rw [← quotient_literal, ← quotient_literal, same]
    have zeros : x.isZero = y.isZero := by
      rw [Binary64.isZero, Binary64.isZero, magnitude]
    cases zero : y.isZero with
    | true => exact Or.inr ⟨zeros.trans zero, rfl⟩
    | false =>
      left
      refine Binary64.eq_of_isNegative_of_magnitude ?_ magnitude
      have negative := congrArg Literal.negative same
      rw [negative_literal, negative_literal, zeros, zero] at negative
      exact negative
  · rintro (rfl | ⟨zeroX, zeroY⟩)
    · rfl
    · rw [literal, literal, if_pos zeroX, if_pos zeroY]

/-! ## Numbers of the data format -/

/-- Whether the data format has a number: an integer that fits 64 bits, with or without sign, or a finite
floating point number. -/
def isHeld : Number → Bool
  | .integer value => -2 ^ 63 ≤ value && value < 2 ^ 64
  | .float value => value.isFinite

theorem isFinite_number {value : Number} (held : isHeld value = true) : (number value).isFinite = true := by
  cases value with
  | float value => exact held
  | integer value =>
    rw [isHeld, Bool.and_eq_true, decide_eq_true_eq, decide_eq_true_eq] at held
    have small : value.natAbs < 2 ^ 64 := by omega
    obtain ⟨size, nearest, finite⟩ := Binary64.exists_nearest small
    simp only [number, nearest, Option.getD_some]
    split
    · exact decide_eq_true ((Binary64.magnitude_negated size).symm ▸ finite)
    · exact decide_eq_true finite

/-- What is written for a number shows where it ends. -/
theorem numberText_append_inj {a b : Number} (heldA : isHeld a = true) (heldB : isHeld b = true)
    {rest others : Text} (endsA : EndsNumber rest) (endsB : EndsNumber others)
    (same : numberText (number a) ++ rest = numberText (number b) ++ others) :
    (number a).same (number b) = true ∧ rest = others := by
  have readA := readLiteral_append endsA (readLiteral_numberText (isFinite_number heldA))
  have readB := readLiteral_append endsB (readLiteral_numberText (isFinite_number heldB))
  rw [same, readB, Option.some.injEq, Prod.mk.injEq] at readA
  exact ⟨literal_eq_iff.mp readA.1.symm, readA.2.symm⟩

theorem numberText_eq_of_same {a b : Number} (heldA : isHeld a = true) (heldB : isHeld b = true)
    (same : (number a).same (number b) = true) : numberText (number a) = numberText (number b) := by
  rw [numberText_eq (isFinite_number heldA), numberText_eq (isFinite_number heldB), literal_eq_iff.mpr same]

end PageCompiler.ClientStore
