import Mathlib.Algebra.Order.Field.Power
import Mathlib.Algebra.Order.Ring.Rat
import Mathlib.Data.Nat.Cast.Order.Field
import Mathlib.Order.Compare
import Mathlib.Order.WithBot
import Mathlib.Tactic.NormNum
import Mathlib.Tactic.Ring
import RowPipeline.Proofs.NumberOrder

/-!
Numbers of cells by their exact values. The order of cells is that of the extended rationals that the
numbers stand for, whichever types they have: no integer is rounded, both zeros are one number, and all
NaNs are one above infinity.
-/

namespace RowPipeline

/-- The rational numbers between two infinities, and above all of them a place for NaN. -/
abbrev ExtendedNumber := WithTop (WithBot (WithTop ℚ))

namespace ExtendedNumber

def ofRat (value : ℚ) : ExtendedNumber := WithTop.some (WithBot.some (WithTop.some value))

def negativeInfinity : ExtendedNumber := WithTop.some ⊥

def positiveInfinity : ExtendedNumber := WithTop.some (WithBot.some ⊤)

def notANumber : ExtendedNumber := ⊤

@[simp]
theorem ofRat_lt_ofRat {left right : ℚ} : ofRat left < ofRat right ↔ left < right := by
  simp only [ofRat, WithTop.coe_lt_coe, WithBot.coe_lt_coe]

@[simp]
theorem negativeInfinity_lt_ofRat (value : ℚ) : negativeInfinity < ofRat value :=
  WithTop.coe_lt_coe.mpr (WithBot.bot_lt_coe _)

@[simp]
theorem ofRat_lt_positiveInfinity (value : ℚ) : ofRat value < positiveInfinity :=
  WithTop.coe_lt_coe.mpr (WithBot.coe_lt_coe.mpr (WithTop.coe_lt_top _))

@[simp]
theorem positiveInfinity_lt_notANumber : positiveInfinity < notANumber := WithTop.coe_lt_top _

@[simp]
theorem negativeInfinity_lt_positiveInfinity : negativeInfinity < positiveInfinity :=
  (negativeInfinity_lt_ofRat 0).trans (ofRat_lt_positiveInfinity 0)

@[simp]
theorem negativeInfinity_lt_notANumber : negativeInfinity < notANumber :=
  negativeInfinity_lt_positiveInfinity.trans positiveInfinity_lt_notANumber

@[simp]
theorem ofRat_lt_notANumber (value : ℚ) : ofRat value < notANumber :=
  (ofRat_lt_positiveInfinity value).trans positiveInfinity_lt_notANumber

end ExtendedNumber

/-! ### Values of doubles -/

namespace Double

/-- The rational number that a finite double stands for: its sign, its fraction below the leading bit
of normal numbers, and its exponent. -/
def toRat (number : Double) : ℚ :=
  (if number.isNegative then -1 else 1) *
    if number.exponentField = 0 then number.fraction * (2 : ℚ) ^ (-1074 : ℤ)
    else (2 ^ 52 + number.fraction) * (2 : ℚ) ^ ((number.exponentField : ℤ) - 1075)

/-- The number that a double stands for, on the extended line with NaN above it. -/
def exact (number : Double) : ExtendedNumber :=
  if number.isFinite then .ofRat number.toRat
  else if number.isNaN then .notANumber
  else if number.isNegative then .negativeInfinity
  else .positiveInfinity

private theorem one_eq : (one : ℚ) = 2 ^ (1074 : ℤ) := by
  have exponent : ((places : ℕ) : ℤ) = 1074 := rfl
  rw [one, Nat.one_shiftLeft, Nat.cast_pow, Nat.cast_ofNat, ← zpow_natCast, exponent]

private theorem magnitude_div_one (number : Double) : (number.magnitude : ℚ) / one =
    if number.exponentField = 0 then number.fraction * (2 : ℚ) ^ (-1074 : ℤ)
    else (2 ^ 52 + number.fraction) * (2 : ℚ) ^ ((number.exponentField : ℤ) - 1075) := by
  have base : (2 : ℚ) ≠ 0 := by norm_num
  rw [one_eq, div_eq_mul_inv, ← zpow_neg, magnitude, significand, shift]
  split
  next subnormal => rw [subnormal, Nat.zero_sub, Nat.shiftLeft_zero]
  next normal =>
    obtain ⟨exponent, same⟩ := Nat.exists_eq_succ_of_ne_zero normal
    have split : ((exponent.succ : ℕ) : ℤ) - 1075 = exponent + -1074 := by
      push_cast
      ring
    have leading : ((fractionCount : ℕ) : ℚ) = 2 ^ 52 := by norm_num [fractionCount]
    rw [same, split, zpow_add₀ base, zpow_natCast, Nat.succ_sub_one, Nat.shiftLeft_eq,
      ← mul_assoc, Nat.cast_mul, Nat.cast_add, leading, Nat.cast_pow, Nat.cast_ofNat]

private theorem units_div_one (number : Double) : (number.units : ℚ) / one = number.toRat := by
  rw [toRat, ← magnitude_div_one, units]
  split <;> push_cast <;> ring

end Double

/-! ### Comparisons -/

namespace Value

open Double (comparePositions)
open ExtendedNumber

/-- A place on the extended line, with the number that stands there. -/
inductive Stands : Int × Int → ExtendedNumber → Prop where
  | negativeInfinity : Stands (-1, 0) negativeInfinity
  | finite (units : Int) : Stands (0, units) (ofRat (units / Double.one))
  | positiveInfinity : Stands (1, 0) positiveInfinity
  | notANumber : Stands (2, 0) notANumber

/-- Integers are in the order of the numbers that they count. -/
theorem compare_units (left right : ℤ) :
    Ord.compare left right = cmp (ofRat (left / Double.one)) (ofRat (right / Double.one)) := by
  have unit : (0 : ℚ) < Double.one := Nat.cast_pos.mpr Double.one_pos
  have rising {less more : ℤ} (before : less < more) :
      ofRat (less / Double.one) < ofRat (more / Double.one) :=
    ofRat_lt_ofRat.mpr (div_lt_div_of_pos_right (Int.cast_lt.mpr before) unit)
  rcases lt_trichotomy left right with less | rfl | greater
  · rw [Int.compare_eq_lt.mpr less, (cmp_eq_lt_iff _ _).mpr (rising less)]
  · rw [Int.compare_eq_eq.mpr rfl, cmp_self_eq_eq]
  · rw [Int.compare_eq_gt.mpr greater, (cmp_eq_gt_iff _ _).mpr (rising greater)]

/-- Places are in the order of the numbers that stand there. -/
theorem Stands.comparePositions_eq {place place' : Int × Int} {exact exact' : ExtendedNumber}
    (here : Stands place exact) (there : Stands place' exact') :
    comparePositions place place' = cmp exact exact' := by
  cases here <;> cases there
  case finite.finite units units' => exact compare_units units units'
  all_goals
    first
    | exact (cmp_self_eq_eq _).symm
    | exact ((cmp_eq_lt_iff _ _).mpr (by simp)).symm
    | exact ((cmp_eq_gt_iff _ _).mpr (by simp)).symm

namespace Number

/-- The number itself, without its type. -/
def exact : Number → ExtendedNumber
  | long value => ofRat value.toInt
  | double value => value.exact

theorem stands (number : Number) : Stands number.position number.exact := by
  cases number with
  | long value =>
    have unit : (Double.one : ℚ) ≠ 0 := Nat.cast_ne_zero.mpr Double.one_pos.ne'
    have counted := Stands.finite (value.toInt * Double.one)
    rwa [Int.cast_mul, Int.cast_natCast, mul_div_cancel_right₀ _ unit] at counted
  | double value =>
    rw [position, exact, Double.exact]
    rcases value.finite_or_infinite_or_nan with finite | infinite | isNaN
    · rw [Double.position_of_isFinite finite, if_pos finite, ← Double.units_div_one]
      exact .finite value.units
    · rw [Double.position_of_isInfinite infinite]
      rw [Double.isFinite_of_isInfinite infinite, Double.isNaN_of_isInfinite infinite]
      cases value.isNegative
      · exact .positiveInfinity
      · exact .negativeInfinity
    · rw [Double.position_of_isNaN isNaN, Double.isFinite_of_isNaN isNaN, isNaN]
      exact .notANumber

/-- Numbers of either type compare as the numbers that they stand for. -/
theorem compare_exact (left right : Number) :
    left.cell.compare right.cell = cmp left.exact right.exact := by
  rw [compare_cell]
  exact left.stands.comparePositions_eq right.stands

end Number

/-- An integer that no double holds, above the double that it would be rounded to. -/
example : (Value.long 0x20000000000001).compare (.double ⟨0x4340000000000000⟩) = .gt := by
  decide +kernel

end Value

end RowPipeline
