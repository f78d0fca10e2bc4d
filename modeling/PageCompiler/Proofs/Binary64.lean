import Mathlib
import PageCompiler.Binary64

/-!
# Decimals that round to a number

The decimals that round to a number lie between two bounds, and the upper bound of a number is the lower
bound of the next one. A number has its bounds to itself only if its significand is even, so that no decimal
rounds to two numbers. The decimal with the fewest digits that rounds to a number is one of them, and the
number is known from it.
-/

namespace PageCompiler.Binary64

/-! ## Bounds of rounding -/

/-- The significand that belongs to a pattern without sign. -/
def significandOf (magnitude : Nat) : Nat :=
  if magnitude / 2 ^ 52 = 0 then magnitude % 2 ^ 52 else 2 ^ 52 + magnitude % 2 ^ 52

/-- How many doublings the grid of a pattern without sign is above the finest. -/
def coarseness (magnitude : Nat) : Nat :=
  max (magnitude / 2 ^ 52) 1 - 1

/-- The lower bound of what rounds to a pattern, in quarters of the finest unit. -/
def lowerBound (magnitude : Nat) : Nat :=
  (if significandOf magnitude = 2 ^ 52 ∧ 1 < magnitude / 2 ^ 52 then 4 * significandOf magnitude - 1
    else 4 * significandOf magnitude - 2) * 2 ^ coarseness magnitude

/-- The upper bound of what rounds to a pattern, in quarters of the finest unit. -/
def upperBound (magnitude : Nat) : Nat :=
  (4 * significandOf magnitude + 2) * 2 ^ coarseness magnitude

theorem lowerBound_lt_upperBound (magnitude : Nat) : lowerBound magnitude < upperBound magnitude := by
  unfold lowerBound upperBound
  refine Nat.mul_lt_mul_of_pos_right ?_ (by positivity)
  split <;> omega

/-- Where one number ends the next one starts. -/
theorem lowerBound_succ (magnitude : Nat) : lowerBound (magnitude + 1) = upperBound magnitude := by
  unfold lowerBound upperBound
  by_cases last : magnitude % 2 ^ 52 = 2 ^ 52 - 1
  · -- The next number is the first on a grid of its own, which is coarser but for the second grid.
    have first : (magnitude + 1) % 2 ^ 52 = 0 := by omega
    have next : (magnitude + 1) / 2 ^ 52 = magnitude / 2 ^ 52 + 1 := by omega
    have one : significandOf (magnitude + 1) = 2 ^ 52 := by
      rw [significandOf, if_neg (by omega), first, Nat.add_zero]
    rw [one, next]
    rcases Nat.eq_zero_or_pos (magnitude / 2 ^ 52) with low | high
    · have own : significandOf magnitude = 2 ^ 52 - 1 := by
        rw [significandOf, if_pos low, last]
      have same : coarseness (magnitude + 1) = coarseness magnitude := by
        rw [coarseness, coarseness, next, low]
        rfl
      rw [own, same, low, if_neg (by decide)]
      rfl
    · have own : significandOf magnitude = 2 ^ 53 - 1 := by
        rw [significandOf, if_neg (by omega), last]
        rfl
      have coarser : coarseness (magnitude + 1) = coarseness magnitude + 1 := by
        rw [coarseness, coarseness, next]
        omega
      rw [own, coarser, if_pos ⟨rfl, by omega⟩, Nat.pow_succ]
      omega
  · have next : (magnitude + 1) % 2 ^ 52 = magnitude % 2 ^ 52 + 1 := by omega
    have grid : (magnitude + 1) / 2 ^ 52 = magnitude / 2 ^ 52 := by omega
    have own : significandOf (magnitude + 1) = significandOf magnitude + 1 := by
      rw [significandOf, significandOf, next, grid]
      split <;> omega
    have inside : ¬ (significandOf (magnitude + 1) = 2 ^ 52 ∧ 1 < (magnitude + 1) / 2 ^ 52) := by
      rintro ⟨least, high⟩
      rw [significandOf, if_neg (by omega), next] at least
      omega
    have same : coarseness (magnitude + 1) = coarseness magnitude := by
      rw [coarseness, coarseness, grid]
    rw [if_neg inside, own, same]
    rfl

theorem upperBound_strictMono : StrictMono upperBound := by
  refine strictMono_nat_of_lt_succ fun magnitude => ?_
  rw [← lowerBound_succ]
  exact lowerBound_lt_upperBound _

theorem significandOf_mod_two (magnitude : Nat) : significandOf magnitude % 2 = magnitude % 2 := by
  rw [significandOf]
  split <;> omega

/-- Whether a quotient, in quarters of the finest unit, rounds to a pattern without sign. -/
def Rounds (quotient : ℚ) (magnitude : Nat) : Prop :=
  (lowerBound magnitude < quotient ∨ (magnitude % 2 = 0 ∧ lowerBound magnitude = quotient)) ∧
    (quotient < upperBound magnitude ∨ (magnitude % 2 = 0 ∧ quotient = upperBound magnitude))

/-- A quotient that rounds to two patterns would be the end of one and the start of the next. -/
theorem not_rounds_of_lt {quotient : ℚ} {low high : Nat} (less : low < high)
    (rounds : Rounds quotient low) : ¬ Rounds quotient high := by
  intro other
  obtain ⟨before, rfl⟩ := Nat.exists_eq_add_one_of_ne_zero (Nat.ne_zero_of_lt less)
  have apart : upperBound low ≤ upperBound before :=
    upperBound_strictMono.monotone (Nat.le_of_lt_succ less)
  have starts : (upperBound before : ℚ) ≤ quotient := by
    rw [← lowerBound_succ]
    exact other.1.elim le_of_lt fun same => le_of_eq same.2
  have ends : quotient ≤ upperBound low := rounds.2.elim le_of_lt fun same => le_of_eq same.2
  have meet : quotient = upperBound low ∧ quotient = upperBound before := by
    have apart : (upperBound low : ℚ) ≤ upperBound before := by exact_mod_cast apart
    constructor <;> linarith
  have neighbours : low = before := by
    refine upperBound_strictMono.injective ?_
    exact_mod_cast meet.1.symm.trans meet.2
  have evenLow : low % 2 = 0 := by
    refine rounds.2.elim (fun less => absurd less ?_) And.left
    rw [meet.1]
    exact lt_irrefl _
  have evenHigh : (before + 1) % 2 = 0 := by
    refine other.1.elim (fun less => absurd less ?_) And.left
    rw [lowerBound_succ, meet.2]
    exact lt_irrefl _
  omega

theorem Rounds.unique {quotient : ℚ} {first second : Nat} (rounds : Rounds quotient first)
    (other : Rounds quotient second) : first = second := by
  rcases Nat.lt_trichotomy first second with less | same | less
  · exact absurd other (not_rounds_of_lt less rounds)
  · exact same
  · exact absurd rounds (not_rounds_of_lt less other)

/-! ## Patterns -/

variable {x y : Binary64}

/-- A number is its sign and its pattern without sign. -/
theorem eq_of_isNegative_of_magnitude (signs : x.isNegative = y.isNegative)
    (magnitudes : x.magnitude = y.magnitude) : x = y := by
  have signs : 2 ^ 63 ≤ x.bits.toNat ↔ 2 ^ 63 ≤ y.bits.toNat := by
    simpa [isNegative] using signs
  have magnitudes : x.bits.toNat % 2 ^ 63 = y.bits.toNat % 2 ^ 63 := magnitudes
  have widths : x.bits.toNat < 2 ^ 64 ∧ y.bits.toNat < 2 ^ 64 := ⟨x.bits.toNat_lt, y.bits.toNat_lt⟩
  have bits : x.bits = y.bits := UInt64.toNat_inj.mp (by omega)
  cases x
  cases y
  exact congrArg Binary64.mk bits

theorem magnitude_negated (x : Binary64) : x.negated.magnitude = x.magnitude := by
  show (x.bits ^^^ 0x8000000000000000).toNat % 2 ^ 63 = x.bits.toNat % 2 ^ 63
  rw [UInt64.toNat_xor, Nat.xor_mod_two_pow]
  exact Nat.xor_zero _

/-! ## Points of decimal grids -/

/-- How many quarters of the finest unit are one. -/
def quartersOfOne : ℚ :=
  2 ^ 1076

/-- The quotient that a point is. -/
def Point.quotient (point : Point) : ℚ :=
  point.digits * 10 ^ point.exponent

/-- A quarter of the unit of a number, as it is measured on a decimal grid. -/
def gridUnit (x : Binary64) (step : Int) : Nat :=
  (if 0 ≤ x.exponent then Nat.pow 2 x.exponent.toNat else 1) *
    (if step < 0 then Nat.pow 10 (-step).toNat else 1)

/-- The step of a decimal grid, in the same measure. -/
def gridTen (x : Binary64) (step : Int) : Nat :=
  4 * (if 0 ≤ step then Nat.pow 10 step.toNat else 1) *
    (if x.exponent < 0 then Nat.pow 2 (-x.exponent).toNat else 1)

/-- The lower bound of a number in quarters of its own unit. -/
def lowerQuarters (x : Binary64) : Nat :=
  if x.significand = Nat.pow 2 52 && 1 < x.magnitude / Nat.pow 2 52 then 4 * x.significand - 1
  else 4 * x.significand - 2

/-- Whether a point of a grid is within the bounds of a number. -/
def isWithin (x : Binary64) (step : Int) (digits : Nat) : Bool :=
  0 < digits && (lowerQuarters x * gridUnit x step < digits * gridTen x step ||
      (x.significand % 2 = 0 && lowerQuarters x * gridUnit x step = digits * gridTen x step)) &&
    (digits * gridTen x step < (4 * x.significand + 2) * gridUnit x step ||
      (x.significand % 2 = 0 && digits * gridTen x step = (4 * x.significand + 2) * gridUnit x step))

/-- The last point of a grid that is not above a number. -/
def pointBelow (x : Binary64) (step : Int) : Nat :=
  4 * x.significand * gridUnit x step / gridTen x step

variable {step : Int} {point : Point}

/-- A grid is searched at the two points around a number. -/
theorem exists_pointOnGrid_eq (x : Binary64) (step : Int) : ∃ prefers : Bool, pointOnGrid x step =
    if isWithin x step (pointBelow x step) && (prefers || !isWithin x step (pointBelow x step + 1)) then
      some ⟨pointBelow x step, step⟩
    else if isWithin x step (pointBelow x step + 1) then some ⟨pointBelow x step + 1, step⟩
    else none :=
  ⟨_, rfl⟩

theorem isWithin_of_pointOnGrid (found : pointOnGrid x step = some point) :
    point.exponent = step ∧ isWithin x step point.digits = true := by
  obtain ⟨prefers, shape⟩ := exists_pointOnGrid_eq x step
  rw [shape] at found
  split at found
  · next below =>
    cases found
    exact ⟨rfl, (Bool.and_eq_true_iff.mp below).1⟩
  · split at found
    · next above =>
      cases found
      exact ⟨rfl, above⟩
    · cases found

theorem pointOnGrid_ne_none (within : isWithin x step (pointBelow x step + 1) = true) :
    pointOnGrid x step ≠ none := by
  obtain ⟨prefers, shape⟩ := exists_pointOnGrid_eq x step
  rw [shape, if_pos within]
  split <;> exact Option.some_ne_none _

/-! ## Measures of a grid -/

theorem exponent_eq (x : Binary64) : x.exponent = (coarseness x.magnitude : Int) - 1074 := by
  show max ((x.magnitude / 2 ^ 52 : Nat) : Int) 1 - 1075 = _
  rw [coarseness]
  omega

/-- A power that is left out when its exponent is not positive. -/
theorem ite_pow_toNat {present : Prop} [Decidable present] (base : Nat) {exponent : Int}
    (absent : ¬ present → exponent ≤ 0) :
    (if present then Nat.pow base exponent.toNat else 1) = base ^ exponent.toNat := by
  split
  · rfl
  · next out =>
    rw [Int.toNat_of_nonpos (absent out)]
    rfl

theorem gridUnit_eq (x : Binary64) (step : Int) :
    gridUnit x step = 2 ^ x.exponent.toNat * 10 ^ (-step).toNat := by
  rw [gridUnit, ite_pow_toNat 2 (by omega), ite_pow_toNat 10 (by omega)]

theorem gridTen_eq (x : Binary64) (step : Int) :
    gridTen x step = 4 * 10 ^ step.toNat * 2 ^ (-x.exponent).toNat := by
  rw [gridTen, ite_pow_toNat 10 (by omega), ite_pow_toNat 2 (by omega)]

theorem gridUnit_pos (x : Binary64) (step : Int) : 0 < gridUnit x step := by
  rw [gridUnit_eq]
  positivity

theorem gridTen_pos (x : Binary64) (step : Int) : 0 < gridTen x step := by
  rw [gridTen_eq]
  positivity

/-- The measures of a grid and of the finest unit differ by one factor. -/
theorem gridTen_mul (x : Binary64) (step : Int) :
    (gridTen x step : ℚ) * 2 ^ coarseness x.magnitude =
      gridUnit x step * (10 ^ step * quartersOfOne) := by
  have tens : (10 : ℚ) ^ step.toNat = 10 ^ (-step).toNat * 10 ^ step := by
    rw [← zpow_natCast, ← zpow_natCast, ← zpow_add₀ (by norm_num)]
    congr 1
    omega
  have twos : (4 : ℚ) * 2 ^ (-x.exponent).toNat * 2 ^ coarseness x.magnitude =
      2 ^ x.exponent.toNat * quartersOfOne := by
    have sum : 2 + (-x.exponent).toNat + coarseness x.magnitude = x.exponent.toNat + 1076 := by
      have := exponent_eq x
      omega
    rw [quartersOfOne, show (4 : ℚ) = 2 ^ 2 by norm_num, ← pow_add, ← pow_add, sum, pow_add]
  rw [gridTen_eq, gridUnit_eq]
  push_cast
  calc (4 : ℚ) * 10 ^ step.toNat * 2 ^ (-x.exponent).toNat * 2 ^ coarseness x.magnitude
      = 10 ^ step.toNat * (4 * 2 ^ (-x.exponent).toNat * 2 ^ coarseness x.magnitude) := by ring
    _ = 2 ^ x.exponent.toNat * 10 ^ (-step).toNat * (10 ^ step * quartersOfOne) := by
      rw [tens, twos]
      ring

/-- What a quarter of the finest unit is in the measure of a grid. -/
def gridScale (x : Binary64) (step : Int) : ℚ :=
  gridUnit x step / 2 ^ coarseness x.magnitude

theorem gridScale_pos (x : Binary64) (step : Int) : 0 < gridScale x step :=
  div_pos (by exact_mod_cast gridUnit_pos x step) (by positivity)

theorem cast_mul_gridUnit (x : Binary64) (step : Int) (quarters : Nat) :
    ((quarters * gridUnit x step : Nat) : ℚ) =
      gridScale x step * ((quarters * 2 ^ coarseness x.magnitude : Nat) : ℚ) := by
  have unit : gridScale x step * 2 ^ coarseness x.magnitude = gridUnit x step :=
    div_mul_cancel₀ _ (by positivity)
  push_cast
  rw [← unit]
  ring

theorem cast_mul_gridTen (x : Binary64) (point : Point) :
    ((point.digits * gridTen x point.exponent : Nat) : ℚ) =
      gridScale x point.exponent * (point.quotient * quartersOfOne) := by
  have ten : (gridTen x point.exponent : ℚ) =
      gridScale x point.exponent * (10 ^ point.exponent * quartersOfOne) := by
    rw [gridScale, div_mul_eq_mul_div, ← gridTen_mul]
    exact (mul_div_cancel_right₀ _ (by positivity)).symm
  push_cast
  rw [ten, Point.quotient]
  ring

/-- Numbers are compared by what they measure. -/
theorem lt_of_measured {scale p q : ℚ} {m n : Nat} (positive : 0 < scale) (first : (m : ℚ) = scale * p)
    (second : (n : ℚ) = scale * q) (less : m < n) : p < q := by
  rw [← Nat.cast_lt (α := ℚ), first, second] at less
  exact (mul_lt_mul_iff_right₀ positive).mp less

theorem eq_of_measured {scale p q : ℚ} {m n : Nat} (positive : 0 < scale) (first : (m : ℚ) = scale * p)
    (second : (n : ℚ) = scale * q) (same : m = n) : p = q := by
  rw [← Nat.cast_inj (R := ℚ), first, second] at same
  exact mul_left_cancel₀ positive.ne' same

/-- A point within the bounds of a number rounds to it. -/
theorem rounds_of_isWithin (within : isWithin x point.exponent point.digits = true) :
    Rounds (point.quotient * quartersOfOne) x.magnitude := by
  have positive := gridScale_pos x point.exponent
  have bound := cast_mul_gridUnit x point.exponent
  have measured := cast_mul_gridTen x point
  have parity : x.significand % 2 = x.magnitude % 2 := significandOf_mod_two x.magnitude
  have lower : lowerBound x.magnitude = lowerQuarters x * 2 ^ coarseness x.magnitude := by
    rw [lowerBound, lowerQuarters]
    simp only [Bool.and_eq_true, decide_eq_true_eq]
    rfl
  simp only [isWithin, Bool.and_eq_true, Bool.or_eq_true, decide_eq_true_eq, parity] at within
  obtain ⟨⟨_, above⟩, below⟩ := within
  constructor
  · rw [lower]
    exact above.imp (lt_of_measured positive (bound _) measured)
      (And.imp_right (eq_of_measured positive (bound _) measured))
  · exact below.imp (lt_of_measured positive measured (bound _))
      (And.imp_right (eq_of_measured positive measured (bound _)))

/-! ## The shortest decimal -/

/-- On the finest grid, the first point above a number is within its bounds. -/
theorem isWithin_finest (x : Binary64) : isWithin x (-344) (pointBelow x (-344) + 1) = true := by
  have fine : gridTen x (-344) ≤ gridUnit x (-344) := by
    have few : (-x.exponent).toNat ≤ 1074 := by
      have := exponent_eq x
      omega
    rw [gridTen_eq, gridUnit_eq]
    calc 4 * 10 ^ (-344 : Int).toNat * 2 ^ (-x.exponent).toNat
        ≤ 4 * 10 ^ (-344 : Int).toNat * 2 ^ 1074 :=
          Nat.mul_le_mul_left _ (Nat.pow_le_pow_right (by decide) few)
      _ ≤ 10 ^ (- -344 : Int).toNat := by decide +kernel
      _ ≤ 2 ^ x.exponent.toNat * 10 ^ (- -344 : Int).toNat := Nat.le_mul_of_pos_left _ (by positivity)
  have ten := gridTen_pos x (-344)
  have unit := gridUnit_pos x (-344)
  have above : 4 * x.significand * gridUnit x (-344) < (pointBelow x (-344) + 1) * gridTen x (-344) := by
    rw [pointBelow, Nat.mul_comm _ (gridTen x (-344))]
    exact Nat.lt_mul_div_succ _ ten
  have below : pointBelow x (-344) * gridTen x (-344) ≤ 4 * x.significand * gridUnit x (-344) :=
    Nat.div_mul_le_self _ _
  have lower : lowerQuarters x ≤ 4 * x.significand := by
    rw [lowerQuarters]
    split <;> omega
  have first : lowerQuarters x * gridUnit x (-344) < (pointBelow x (-344) + 1) * gridTen x (-344) :=
    Nat.lt_of_le_of_lt (Nat.mul_le_mul_right _ lower) above
  have last : (pointBelow x (-344) + 1) * gridTen x (-344) < (4 * x.significand + 2) * gridUnit x (-344) := by
    rw [Nat.add_mul, Nat.add_mul]
    omega
  simp [isWithin, first, last]

/-- The search ends at a point that is within the bounds of the number. -/
theorem isWithin_coarsestPoint (x : Binary64) (count : Nat) :
    isWithin x (coarsestPoint x (count + 1)).exponent (coarsestPoint x (count + 1)).digits = true := by
  induction count with
  | zero =>
    obtain ⟨point, found⟩ := Option.ne_none_iff_exists'.mp (pointOnGrid_ne_none (isWithin_finest x))
    have here : coarsestPoint x 1 = point := by
      rw [coarsestPoint, show ((0 : Nat) : Int) - 344 = -344 from rfl, found]
      rfl
    obtain ⟨step, within⟩ := isWithin_of_pointOnGrid found
    rw [here, step]
    exact within
  | succ count ih =>
    rw [coarsestPoint]
    cases found : pointOnGrid x ((count + 1 : Nat) - 344 : Int) with
    | none => exact ih
    | some point =>
      obtain ⟨step, within⟩ := isWithin_of_pointOnGrid found
      rw [Option.getD_some, step]
      exact within

/-- The shortest decimal of a number rounds to it. -/
theorem rounds_shortest (nonzero : x.isZero = false) :
    0 < x.shortest.digits ∧ Rounds (x.shortest.quotient * quartersOfOne) x.magnitude := by
  have within : isWithin x x.shortest.exponent x.shortest.digits = true := by
    rw [shortest, nonzero]
    exact isWithin_coarsestPoint x 659
  refine ⟨?_, rounds_of_isWithin within⟩
  simp only [isWithin, Bool.and_eq_true, decide_eq_true_eq] at within
  exact within.1.1

/-- A number is known, but for its sign, from its shortest decimal. -/
theorem magnitude_eq_of_shortest (same : x.shortest.quotient = y.shortest.quotient) :
    x.magnitude = y.magnitude := by
  have positive {x : Binary64} (nonzero : x.isZero = false) : x.shortest.quotient ≠ 0 := by
    rw [Point.quotient]
    have := (rounds_shortest nonzero).1
    positivity
  have zero {x : Binary64} (zero : x.isZero = true) : x.shortest.quotient = 0 := by
    rw [shortest, zero]
    exact zero_mul _
  cases zeroX : x.isZero with
  | true =>
    cases zeroY : y.isZero with
    | true => exact (of_decide_eq_true zeroX).trans (of_decide_eq_true zeroY).symm
    | false => exact absurd (same.symm.trans (zero zeroX)) (positive zeroY)
  | false =>
    cases zeroY : y.isZero with
    | true => exact absurd (same.trans (zero zeroY)) (positive zeroX)
    | false =>
      have rounds := (rounds_shortest zeroX).2
      rw [same] at rounds
      exact rounds.unique (rounds_shortest zeroY).2

/-! ## Integers -/

theorem roundQuotient_le (numerator denominator : Nat) :
    roundQuotient numerator denominator ≤ numerator / denominator + 1 := by
  rw [roundQuotient]
  split <;> omega

/-- A quotient is rounded on a grid of at most fifty-four binary digits. -/
theorem scaled_lt {value : Nat} {exponent : Int} (fits : (value.log2 : Int) ≤ exponent + 53) :
    (scaled value 1 exponent).1 / (scaled value 1 exponent).2 < 2 ^ 54 := by
  have size : value < 2 ^ (value.log2 + 1) := Nat.lt_log2_self
  rw [scaled]
  split
  · next coarse =>
    have bound : value < 2 ^ 54 * 2 ^ exponent.toNat := by
      rw [← Nat.pow_add]
      exact Nat.lt_of_lt_of_le size (Nat.pow_le_pow_right (by decide) (by omega))
    dsimp only
    rw [Nat.one_mul]
    exact Nat.div_lt_of_lt_mul (Nat.mul_comm (2 ^ 54) _ ▸ bound)
  · next fine =>
    have bound : 2 ^ (value.log2 + 1) * 2 ^ (-exponent).toNat ≤ 2 ^ 54 := by
      rw [← Nat.pow_add]
      exact Nat.pow_le_pow_right (by decide) (by omega)
    dsimp only
    rw [Nat.div_one]
    exact Nat.lt_of_lt_of_le (Nat.mul_lt_mul_of_pos_right size (Nat.two_pow_pos _)) bound

theorem gridExponent_bounds {value : Nat} (within : value < 2 ^ 64) :
    (value.log2 : Int) ≤ gridExponent value 1 + 53 ∧ gridExponent value 1 ≤ 11 := by
  have bits : value.log2 ≤ 63 := by
    by_cases zero : value = 0
    · simp [zero]
    · exact Nat.le_of_lt_succ ((Nat.log2_lt zero).mpr within)
  have one : Nat.log2 1 = 0 := by decide
  unfold gridExponent
  rw [one]
  dsimp only
  split <;> omega

theorem magnitude_ofNat_lt {bits : Nat} (finite : bits < infinityBits) :
    (Binary64.mk (UInt64.ofNat bits)).magnitude < infinityBits := by
  refine Nat.lt_of_le_of_lt (Nat.mod_le _ _) ?_
  rw [UInt64.toNat_ofNat']
  exact Nat.lt_of_le_of_lt (Nat.mod_le _ _) finite

/-- An integer of 64 bits has a nearest number, which is finite. -/
theorem exists_nearest {value : Nat} (within : value < 2 ^ 64) :
    ∃ x, nearest value 1 = some x ∧ x.magnitude < infinityBits := by
  rw [nearest]
  split
  · exact ⟨_, rfl, by decide⟩
  · obtain ⟨fits, small⟩ := gridExponent_bounds within
    have digits := scaled_lt fits
    have rounded := roundQuotient_le (scaled value 1 (gridExponent value 1)).1
      (scaled value 1 (gridExponent value 1)).2
    have bits : (gridExponent value 1 + 1074).toNat * 2 ^ 52 +
        roundQuotient (scaled value 1 (gridExponent value 1)).1 (scaled value 1 (gridExponent value 1)).2 <
          infinityBits := by
      rw [show infinityBits = 2047 * 2 ^ 52 from rfl]
      omega
    exact ⟨_, if_pos bits, magnitude_ofNat_lt bits⟩

end PageCompiler.Binary64
