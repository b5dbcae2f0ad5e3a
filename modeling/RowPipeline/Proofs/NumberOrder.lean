import RowPipeline.Proofs.Doubles
import RowPipeline.Value.Order

/-!
Comparisons of numbers by bit patterns, and of integers with doubles part by part, come to the same as
comparing places on the extended line.
-/

namespace RowPipeline

namespace Double

variable {left right number : Double}

/-! ### Kinds of doubles -/

theorem isNaN_of_isFinite (finite : number.isFinite = true) : number.isNaN = false := by
  simp [isNaN, finite]

theorem isFinite_of_isInfinite (infinite : number.isInfinite = true) : number.isFinite = false := by
  simp only [isInfinite, Bool.and_eq_true, Bool.not_eq_true'] at infinite
  exact infinite.1

theorem isNaN_of_isInfinite (infinite : number.isInfinite = true) : number.isNaN = false := by
  simp only [isInfinite, Bool.and_eq_true, beq_iff_eq] at infinite
  simp [isNaN, infinite]

theorem isFinite_of_isZero (zero : number.isZero = true) : number.isFinite = true := by
  simp only [isZero, Bool.and_eq_true] at zero
  exact zero.1

theorem magnitude_of_isZero (zero : number.isZero = true) : number.magnitude = 0 := by
  simp only [isZero, Bool.and_eq_true, beq_iff_eq] at zero
  exact zero.2

/-! ### Bit patterns -/

/-- The bits without the sign. -/
def unsignedBits (number : Double) : Nat := number.exponentField * fractionCount + number.fraction

theorem pattern_eq (number : Double) :
    number.pattern = if number.isNegative then -1 - (number.unsignedBits : Int)
      else number.unsignedBits := by
  have bits := number.bits_eq_fields
  unfold pattern unsignedBits
  split
  next negative =>
    rw [if_pos negative] at bits
    omega
  next positive =>
    rw [if_neg positive] at bits
    omega

/-- The bits without the sign grow with the magnitude. -/
theorem unsignedBits_lt_of_magnitude_lt (less : left.magnitude < right.magnitude) :
    left.unsignedBits < right.unsignedBits := by
  have bound := left.fraction_lt
  unfold unsignedBits
  rcases Nat.lt_trichotomy left.exponentField right.exponentField with lower | same | higher
  · have := Nat.mul_le_mul_right fractionCount lower
    rw [Nat.succ_mul] at this
    omega
  · have shift : left.shift = right.shift := by rw [shift, shift, same]
    rw [magnitude, magnitude, shift, Nat.shiftLeft_eq, Nat.shiftLeft_eq,
      Nat.mul_lt_mul_right (Nat.two_pow_pos _), significand, significand, same] at less
    rw [same]
    split at less <;> omega
  · exact absurd less (Nat.lt_asymm (magnitude_lt_of_exponentField_lt higher))

private theorem unsignedBits_lt_of_isFinite (finite : number.isFinite = true) :
    number.unsignedBits < 2047 * fractionCount := by
  have bound := number.fraction_lt
  have field : number.exponentField < exponentCount := Nat.mod_lt _ (by decide)
  simp only [isFinite, bne_iff_ne] at finite
  unfold exponentCount at field
  have := Nat.mul_le_mul_right fractionCount (show number.exponentField + 1 ≤ 2047 by omega)
  unfold unsignedBits
  rw [Nat.succ_mul] at this
  omega

private theorem unsignedBits_of_isInfinite (infinite : number.isInfinite = true) :
    number.unsignedBits = 2047 * fractionCount := by
  simp only [isInfinite, isFinite, Bool.and_eq_true, Bool.not_eq_true', bne_eq_false_iff_eq,
    beq_iff_eq] at infinite
  rw [unsignedBits, infinite.1, infinite.2, Nat.add_zero]

/-! ### Normalized numbers -/

theorem normalized_of_isNaN (isNaN : number.isNaN = true) : number.normalized = nan := by
  rw [normalized, normalizedBits, if_pos isNaN]

theorem normalized_of_isZero (zero : number.isZero = true) : number.normalized = ⟨0⟩ := by
  have other := isNaN_of_isFinite (isFinite_of_isZero zero)
  rw [normalized, normalizedBits, if_neg (by rw [other]; decide), if_pos zero]

theorem normalized_of_not (other : number.isNaN = false) (nonzero : number.isZero = false) :
    number.normalized = number := by
  rw [normalized, normalizedBits, if_neg (by rw [other]; decide), if_neg (by rw [nonzero]; decide)]

private theorem normalized_cases (number : Double) :
    (number.isNaN = true ∧ number.normalized = nan) ∨
      (number.isZero = true ∧ number.normalized = ⟨0⟩) ∨ number.normalized = number := by
  cases isNaN : number.isNaN with
  | true => exact .inl ⟨rfl, normalized_of_isNaN isNaN⟩
  | false =>
    cases zero : number.isZero with
    | true => exact .inr (.inl ⟨rfl, normalized_of_isZero zero⟩)
    | false => exact .inr (.inr (normalized_of_not isNaN zero))

private theorem position_normalized (number : Double) : number.normalized.position = number.position := by
  rcases number.normalized_cases with ⟨isNaN, same⟩ | ⟨zero, same⟩ | same
  · rw [same, position_of_isNaN isNaN]
    rfl
  · rw [same, position_of_isZero zero]
    rfl
  · rw [same]

private theorem isNaN_normalized (number : Double) : number.normalized.isNaN = number.isNaN := by
  rcases number.normalized_cases with ⟨isNaN, same⟩ | ⟨zero, same⟩ | same
  · rw [same, isNaN]
    rfl
  · rw [same, isNaN_of_isFinite (isFinite_of_isZero zero)]
    rfl
  · rw [same]

private theorem unsignedBits_of_isZero (zero : number.isZero = true) : number.unsignedBits = 0 := by
  have none : number.magnitude = (⟨0⟩ : Double).magnitude := magnitude_of_isZero zero
  obtain ⟨exponent, fraction⟩ := fields_of_magnitude_eq none
  rw [unsignedBits, exponent, fraction]
  rfl

theorem pattern_normalized_of_isFinite (finite : number.isFinite = true) :
    number.normalized.pattern =
      if number.units < 0 then -1 - (number.unsignedBits : Int) else number.unsignedBits := by
  have other := isNaN_of_isFinite finite
  cases zero : number.isZero with
  | true =>
    rw [normalized_of_isZero zero, (isZero_iff finite).mp zero, unsignedBits_of_isZero zero]
    rfl
  | false =>
    have nonzero : number.magnitude ≠ 0 := by simpa [isZero, finite] using zero
    rw [normalized_of_not other zero, pattern_eq, units]
    split <;> split <;> omega

/-- Each part of the extended line has patterns of its own. -/
theorem pattern_normalized_cases (number : Double) :
    let bound : Int := 2047 * fractionCount
    (number.position = (-1, 0) ∧ number.normalized.pattern = -1 - bound) ∨
      (number.isFinite = true ∧ number.position = (0, number.units) ∧
        -1 - bound < number.normalized.pattern ∧ number.normalized.pattern < bound) ∨
      (number.position = (1, 0) ∧ number.normalized.pattern = bound) ∨
      (number.position = (2, 0) ∧ bound < number.normalized.pattern) := by
  intro bound
  rcases number.finite_or_infinite_or_nan with finite | infinite | isNaN
  · have below := unsignedBits_lt_of_isFinite finite
    refine .inr (.inl ⟨finite, position_of_isFinite finite, ?_⟩)
    rw [pattern_normalized_of_isFinite finite]
    split <;> omega
  · have bits := unsignedBits_of_isInfinite infinite
    have place := position_of_isInfinite infinite
    have nonzero : number.isZero = false := by simp [isZero, isFinite_of_isInfinite infinite]
    rw [normalized_of_not (isNaN_of_isInfinite infinite) nonzero, pattern_eq, place]
    split
    · exact .inl ⟨rfl, by omega⟩
    · exact .inr (.inr (.inl ⟨rfl, by omega⟩))
  · refine .inr (.inr (.inr ⟨position_of_isNaN isNaN, ?_⟩))
    rw [normalized_of_isNaN isNaN]
    decide

private theorem pattern_normalized_lt (finite : left.isFinite = true) (finite' : right.isFinite = true)
    (less : left.units < right.units) : left.normalized.pattern < right.normalized.pattern := by
  rw [pattern_normalized_of_isFinite finite, pattern_normalized_of_isFinite finite']
  have rising := @unsignedBits_lt_of_magnitude_lt left right
  have falling := @unsignedBits_lt_of_magnitude_lt right left
  unfold units at less ⊢
  cases sign : left.isNegative <;> cases sign' : right.isNegative <;>
    simp only [sign, sign', Bool.false_eq_true, if_true, if_false] at less ⊢
  all_goals split <;> split <;> omega

private theorem comparePositions_eq_lt {left right : Int × Int} :
    comparePositions left right = .lt ↔
      left.1 < right.1 ∨ left.1 = right.1 ∧ left.2 < right.2 := by
  rw [comparePositions, Ordering.then_eq_lt, Int.compare_eq_lt, Int.compare_eq_lt, Int.compare_eq_eq]

theorem comparePositions_eq_iff {left right : Int × Int} :
    comparePositions left right = .eq ↔ left = right := by
  rw [comparePositions, Ordering.then_eq_eq, Std.LawfulEqOrd.compare_eq_iff_eq,
    Std.LawfulEqOrd.compare_eq_iff_eq, Prod.ext_iff]

theorem comparePositions_swap (left right : Int × Int) :
    comparePositions left right = (comparePositions right left).swap := by
  simp only [comparePositions, Ordering.swap_then, ← Std.OrientedOrd.eq_swap]

private theorem pattern_lt_of_position_lt
    (less : comparePositions left.position right.position = .lt) :
    left.normalized.pattern < right.normalized.pattern := by
  rw [comparePositions_eq_lt] at less
  obtain ⟨place, bits⟩ | ⟨finite, place, bits⟩ | ⟨place, bits⟩ | ⟨place, bits⟩ :=
      pattern_normalized_cases left <;>
    obtain ⟨place', bits'⟩ | ⟨finite', place', bits'⟩ | ⟨place', bits'⟩ | ⟨place', bits'⟩ :=
      pattern_normalized_cases right
  all_goals
    simp only [place, place'] at less
    first
    | omega
    | exact pattern_normalized_lt finite finite' (by omega)

private theorem normalized_of_position_eq (same : left.position = right.position) :
    left.normalized = right.normalized := by
  rcases eq_of_position_eq same with rfl | ⟨zero, zero'⟩ | ⟨isNaN, isNaN'⟩
  · rfl
  · rw [normalized_of_isZero zero, normalized_of_isZero zero']
  · rw [normalized_of_isNaN isNaN, normalized_of_isNaN isNaN']

/-- The bits of normalized numbers are in the order of the numbers. -/
theorem comparePatterns_normalized (left right : Double) :
    left.normalized.comparePatterns right.normalized =
      comparePositions left.position right.position := by
  rw [comparePatterns]
  cases order : comparePositions left.position right.position with
  | lt => exact Int.compare_eq_lt.mpr (pattern_lt_of_position_lt order)
  | eq => rw [normalized_of_position_eq (comparePositions_eq_iff.mp order), Int.compare_eq_eq]
  | gt =>
    rw [comparePositions_swap, Ordering.swap_eq_gt] at order
    exact Int.compare_eq_gt.mpr (pattern_lt_of_position_lt order)

/-! ### Integers and doubles -/

private theorem pattern_lt_of_bits {bits : Nat} (negative : Bool) (below : bits < 2047 * fractionCount) :
    (⟨UInt64.ofNat (bits + if negative then signBit else 0)⟩ : Double).pattern < nan.pattern := by
  have top : nan.pattern = 0x7ff8000000000000 := by decide
  unfold fractionCount at below
  rw [top]
  cases negative with
  | true =>
    have word : (UInt64.ofNat (bits + signBit)).toNat = bits + signBit :=
      UInt64.toNat_ofNat_of_lt (by unfold UInt64.size signBit; omega)
    rw [if_pos rfl, pattern, isNegative, word, decide_eq_true (Nat.le_add_left _ _), if_pos rfl]
    omega
  | false =>
    have word : (UInt64.ofNat bits).toNat = bits :=
      UInt64.toNat_ofNat_of_lt (by unfold UInt64.size; omega)
    have positive : ¬ signBit ≤ bits := by
      unfold signBit
      omega
    rw [if_neg Bool.false_ne_true, Nat.add_zero, pattern, isNegative, word, decide_eq_false positive,
      if_neg Bool.false_ne_true]
    omega

/-- No quotient is rounded to NaN, whose pattern lies above all of a positive sign. -/
theorem pattern_ofRatio_lt (negative : Bool) (numerator denominator : Nat) :
    (ofRatio negative numerator denominator).pattern < nan.pattern := by
  unfold ofRatio
  dsimp only
  split
  next => cases negative <;> decide
  next below => exact pattern_lt_of_bits negative (Nat.lt_of_not_le below)

theorem one_pos : 0 < one := by
  rw [one, Nat.shiftLeft_eq, Nat.one_mul]
  exact Nat.two_pow_pos _

/-- Comparing with the whole part, and that part with the number, is comparing with the number. -/
theorem compare_whole_then (long : Int) (number : Double) :
    (compare long number.whole).then (compare (number.whole * one) number.units) =
      compare (long * one) number.units := by
  have positive : (0 : Int) < one := Int.natCast_pos.mpr one_pos
  have parts : number.whole * one + number.units.tmod one = number.units := by
    rw [whole, Int.mul_comm, Int.mul_tdiv_add_tmod]
  have low := Int.lt_tmod_of_pos number.units positive
  have high := Int.tmod_lt_of_pos number.units positive
  rcases Int.lt_trichotomy long number.whole with less | rfl | greater
  · have room := Int.mul_le_mul_of_nonneg_right (Int.add_one_le_of_lt less) (Int.le_of_lt positive)
    rw [Int.add_mul, Int.one_mul] at room
    rw [Int.compare_eq_lt.mpr less, Ordering.lt_then, Int.compare_eq_lt.mpr (by omega)]
  · rw [Int.compare_eq_eq.mpr rfl, Ordering.eq_then]
  · have room := Int.mul_le_mul_of_nonneg_right (Int.add_one_le_of_lt greater) (Int.le_of_lt positive)
    rw [Int.add_mul, Int.one_mul] at room
    rw [Int.compare_eq_gt.mpr greater, Ordering.gt_then, Int.compare_eq_gt.mpr (by omega)]

private theorem comparePositions_finite (left right : Int) :
    comparePositions (0, left) (0, right) = compare left right := rfl

private theorem isBelow_eq (other : left.isNaN = false) (other' : right.isNaN = false) :
    left.isBelow right = (comparePositions left.position right.position).isLT := by
  rw [isBelow, other, other', Bool.not_false, Bool.true_and, Bool.true_and]

private theorem position_longEnd : longEnd.position = (0, 0x8000000000000000 * (one : Int)) := by
  decide +kernel

private theorem position_negate_longEnd :
    longEnd.negate.position = (0, -0x8000000000000000 * (one : Int)) := by
  decide +kernel

end Double

namespace Value

open Double (comparePositions)

/-- The tests for a double beyond all integers, by its place. -/
theorem compareLongDouble_of_not {number : Double} (long : Int64) (other : number.isNaN = false) :
    compareLongDouble long number =
      if !(comparePositions number.position (0, 0x8000000000000000 * (Double.one : Int))).isLT then .lt
      else if (comparePositions number.position (0, -0x8000000000000000 * (Double.one : Int))).isLT then .gt
      else Ord.compare (long.toInt * Double.one) number.normalized.units := by
  have other' := number.isNaN_normalized.trans other
  rw [compareLongDouble, if_neg (by rw [other']; decide), Double.isBelow_eq other' (by decide),
    Double.isBelow_eq other' (by decide), Double.position_longEnd, Double.position_negate_longEnd,
    Double.position_normalized, Double.compare_whole_then]

/-- A number that passes for greater than all integers, or for less, is greater or less. -/
theorem compare_tested {counted units above below : Int} (high : counted < above)
    (low : below ≤ counted) :
    (if !(comparePositions (0, units) (0, above)).isLT then .lt
      else if (comparePositions (0, units) (0, below)).isLT then .gt
      else Ord.compare counted units) = comparePositions (0, counted) (0, units) := by
  change (if !(Ord.compare units above).isLT then .lt
    else if (Ord.compare units below).isLT then .gt
    else Ord.compare counted units) = Ord.compare counted units
  cases upper : Ord.compare units above with
  | lt =>
    cases lower : Ord.compare units below with
    | lt =>
      have far := Int.compare_eq_lt.mp lower
      exact (Int.compare_eq_gt.mpr (by omega)).symm
    | eq => rfl
    | gt => rfl
  | eq =>
    have far := Int.compare_eq_eq.mp upper
    exact (Int.compare_eq_lt.mpr (by omega)).symm
  | gt =>
    have far := Int.compare_eq_gt.mp upper
    exact (Int.compare_eq_lt.mpr (by omega)).symm

/-- An integer and a double compare as their places on the extended line. -/
theorem compareLongDouble_eq (long : Int64) (number : Double) :
    compareLongDouble long number = comparePositions (0, long.toInt * Double.one) number.position := by
  rcases number.finite_or_infinite_or_nan with finite | infinite | isNaN
  · have other := Double.isNaN_of_isFinite finite
    have place := Double.position_of_isFinite finite
    have units : number.normalized.units = number.units :=
      (Double.isFinite_of_position (number.position_normalized.trans place)).2
    have positive : (0 : Int) < Double.one := Int.natCast_pos.mpr Double.one_pos
    rw [compareLongDouble_of_not long other, place, units]
    exact compare_tested (Int.mul_lt_mul_of_pos_right long.toInt_lt positive)
      (Int.mul_le_mul_of_nonneg_right long.le_toInt (Int.le_of_lt positive))
  · have other := Double.isNaN_of_isInfinite infinite
    rw [compareLongDouble_of_not long other, Double.position_of_isInfinite infinite,
      Double.comparePositions_swap (0, _)]
    -- The first parts of the places decide, whichever infinity it is.
    cases number.isNegative <;> rfl
  · have below := Double.pattern_ofRatio_lt (long.toInt < 0) long.toInt.natAbs 1
    rw [compareLongDouble, Double.normalized_of_isNaN isNaN, Double.position_of_isNaN isNaN,
      if_pos (by decide)]
    exact Int.compare_eq_lt.mpr below

theorem compare_toInt (left right : Int64) :
    Ord.compare left.toInt right.toInt =
      comparePositions (0, left.toInt * Double.one) (0, right.toInt * Double.one) := by
  have positive : (0 : Int) < Double.one := Int.natCast_pos.mpr Double.one_pos
  rw [Double.comparePositions_finite]
  rcases Int.lt_trichotomy left.toInt right.toInt with less | same | greater
  · rw [Int.compare_eq_lt.mpr less,
      Int.compare_eq_lt.mpr (Int.mul_lt_mul_of_pos_right less positive)]
  · rw [same, Int.compare_eq_eq.mpr rfl, Int.compare_eq_eq.mpr rfl]
  · rw [Int.compare_eq_gt.mpr greater,
      Int.compare_eq_gt.mpr (Int.mul_lt_mul_of_pos_right greater positive)]

/-- A number of either type. -/
inductive Number where
  | long (value : Int64)
  | double (value : Double)

namespace Number

/-- The cell that holds a number. -/
def cell : Number → Value
  | long value => .long value
  | double value => .double value

/-- The place of a number on the extended line, counted in least positive doubles. -/
def position : Number → Int × Int
  | long value => (0, value.toInt * Double.one)
  | double value => value.position

/-- Numbers of either type compare as their places. -/
theorem compare_cell (left right : Number) :
    left.cell.compare right.cell = comparePositions left.position right.position := by
  cases left <;> cases right <;> rw [cell, cell, compare]
  case long.long => exact compare_toInt _ _
  case long.double => exact compareLongDouble_eq _ _
  case double.long => rw [compareLongDouble_eq, ← Double.comparePositions_swap, position, position]
  case double.double => exact Double.comparePatterns_normalized _ _

end Number

end Value

end RowPipeline
