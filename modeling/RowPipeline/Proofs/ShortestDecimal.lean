import Mathlib.Algebra.Order.Field.Power
import Mathlib.Algebra.Order.Floor.Semiring
import Mathlib.Data.Nat.Cast.Order.Field
import Mathlib.Data.Rat.Floor
import Mathlib.Tactic.Linarith
import RowPipeline.Proofs.NearestDouble

/-!
The shortest decimal of a double lies in the interval of the double. The gap between two doubles is
wider than a step of seventeen digits, so that the search for a grid point ends with one.
-/

namespace RowPipeline

namespace Decimal

/-- The number that a decimal stands for. -/
def toRat (decimal : Decimal) : ℚ := decimal.digits * 10 ^ decimal.exponent

/-- The numbers of an interval, whose ends count quarters of the least positive double. -/
structure Interval.Holds (interval : Interval) (number : ℚ) : Prop where
  lower_le : interval.lower ≤ number * quarters
  le_upper : number * quarters ≤ interval.upper
  ends : interval.closed = false →
    number * quarters ≠ interval.lower ∧ number * quarters ≠ interval.upper

theorem quarters_pos : (0 : ℚ) < quarters := by
  have positive : 0 < quarters := by decide
  exact_mod_cast positive

variable {interval : Interval} {exponent : Int}

theorem Interval.Holds.between {least number most : ℚ} (left : interval.Holds least)
    (right : interval.Holds most) (above : least ≤ number) (below : number ≤ most) :
    interval.Holds number := by
  have low := mul_le_mul_of_nonneg_right above quarters_pos.le
  have high := mul_le_mul_of_nonneg_right below quarters_pos.le
  refine ⟨left.lower_le.trans low, high.trans right.le_upper,
    fun isOpen => ⟨fun same => ?_, fun same => ?_⟩⟩
  · exact (left.ends isOpen).1 (le_antisymm (same ▸ low) left.lower_le)
  · exact (right.ends isOpen).2 (le_antisymm right.le_upper (same ▸ high))

/-! ### Digits -/

private theorem lt_pow_length_toDigits (number : Nat) : number < 10 ^ (Nat.toDigits 10 number).length :=
  (Nat.length_toDigits_le_iff (by decide) Nat.length_toDigits_pos).mp le_rfl

theorem zpow_length_sub_one_le {number : Nat} (positive : 0 < number) :
    (10 : ℚ) ^ (((Nat.toDigits 10 number).length : Int) - 1) ≤ number := by
  obtain ⟨others, length⟩ : ∃ others, (Nat.toDigits 10 number).length = others + 1 :=
    Nat.exists_eq_succ_of_ne_zero Nat.length_toDigits_pos.ne'
  rw [length, Nat.cast_succ, add_sub_cancel_right, zpow_natCast]
  have least : 10 ^ others ≤ number := by
    rcases Nat.eq_zero_or_pos others with rfl | more
    · exact positive
    · by_contra less
      have := (Nat.length_toDigits_le_iff (by decide : 1 < 10) more).mpr (Nat.lt_of_not_le less)
      omega
  exact_mod_cast least

/-! ### Grids -/

/-- Counting in steps of a grid scales a count and the step alike. -/
theorem exists_inSteps_eq (exponent : Int) : ∃ scale : ℚ, 0 < scale ∧ ∀ count,
    ((inSteps exponent count).1 : ℚ) = count * scale ∧
      ((inSteps exponent count).2 : ℚ) = 10 ^ exponent * quarters * scale := by
  by_cases whole : 0 ≤ exponent
  · refine ⟨1, one_pos, fun count => ?_⟩
    obtain ⟨power, rfl⟩ := Int.eq_ofNat_of_zero_le whole
    simp [inSteps, mul_comm]
  · refine ⟨10 ^ (-exponent).toNat, by positivity, fun count => ?_⟩
    obtain ⟨power, rfl⟩ : ∃ power : Nat, exponent = -power := ⟨(-exponent).toNat, by omega⟩
    have cancel : (10 : ℚ) ^ (-(power : Int)) * 10 ^ power = 1 := by
      rw [zpow_neg, zpow_natCast, inv_mul_cancel₀ (by positivity)]
    rw [inSteps, if_neg whole, neg_neg, Int.toNat_natCast, mul_right_comm, cancel, one_mul]
    exact ⟨Nat.cast_mul _ _ |>.trans (congrArg _ (Nat.cast_pow _ _)), rfl⟩

theorem contains_iff {count : Nat} :
    interval.contains exponent count = true ↔ interval.Holds (count * 10 ^ exponent) := by
  obtain ⟨scale, positive, counted⟩ := exists_inSteps_eq exponent
  have place : ((count * (inSteps exponent interval.lower).2 : Nat) : ℚ) =
      count * 10 ^ exponent * quarters * scale := by
    rw [Nat.cast_mul, (counted _).2]
    ring
  have lower_le : (inSteps exponent interval.lower).1 ≤ count * (inSteps exponent interval.lower).2 ↔
      (interval.lower : ℚ) ≤ count * 10 ^ exponent * quarters := by
    rw [← Nat.cast_le (α := ℚ), place, (counted _).1, mul_le_mul_iff_of_pos_right positive]
  have le_upper : count * (inSteps exponent interval.lower).2 ≤ (inSteps exponent interval.upper).1 ↔
      count * 10 ^ exponent * quarters ≤ (interval.upper : ℚ) := by
    rw [← Nat.cast_le (α := ℚ), place, (counted _).1, mul_le_mul_iff_of_pos_right positive]
  have eq_lower : (inSteps exponent interval.lower).1 = count * (inSteps exponent interval.lower).2 ↔
      (interval.lower : ℚ) = count * 10 ^ exponent * quarters := by
    rw [← Nat.cast_inj (R := ℚ), place, (counted _).1, mul_left_inj' positive.ne']
  have eq_upper : count * (inSteps exponent interval.lower).2 = (inSteps exponent interval.upper).1 ↔
      count * 10 ^ exponent * quarters = (interval.upper : ℚ) := by
    rw [← Nat.cast_inj (R := ℚ), place, (counted _).1, mul_left_inj' positive.ne']
  unfold Interval.contains
  dsimp only
  cases closed : interval.closed
  · simp only [Bool.false_eq_true, if_false, Bool.and_eq_true, decide_eq_true_eq,
      Nat.lt_iff_le_and_ne, lower_le, le_upper, ne_eq, eq_lower, eq_upper]
    exact ⟨fun ⟨low, high⟩ => ⟨low.1, high.1, fun _ => ⟨Ne.symm low.2, high.2⟩⟩,
      fun holds =>
        ⟨⟨holds.lower_le, (holds.ends closed).1.symm⟩, holds.le_upper, (holds.ends closed).2⟩⟩
  · simp only [if_true, Bool.and_eq_true, decide_eq_true_eq, lower_le, le_upper]
    exact ⟨fun ⟨low, high⟩ => ⟨low, high, fun isOpen => by simp [closed] at isOpen⟩,
      fun holds => ⟨holds.lower_le, holds.le_upper⟩⟩

private theorem holds_of_onGrid? {tie : Tie} {count : Nat}
    (taken : onGrid? tie interval exponent = some count) : interval.Holds (count * 10 ^ exponent) := by
  rw [← contains_iff]
  unfold onGrid? at taken
  dsimp only at taken
  split at taken
  next below _ =>
    cases taken
    exact below
  next _ above =>
    cases taken
    exact above
  next => cases taken
  next below above =>
    split at taken
    · cases taken
      exact below
    split at taken
    · cases taken
      exact above
    cases tie with
    | toEven =>
      cases taken
      rcases Nat.mod_two_eq_zero_or_one
        ((inSteps exponent interval.middle).1 / (inSteps exponent interval.middle).2) with even | odd
      · rwa [even, Nat.add_zero]
      · rwa [odd]
    | away =>
      cases taken
      exact above

private theorem grid_points_around (interval : Interval) (exponent : Int) :
    let below := (inSteps exponent interval.middle).1 / (inSteps exponent interval.middle).2
    below * 10 ^ exponent ≤ (interval.middle / quarters : ℚ) ∧
      (interval.middle / quarters : ℚ) ≤ (below + 1 : Nat) * 10 ^ exponent := by
  obtain ⟨scale, positive, counted⟩ := exists_inSteps_eq exponent
  obtain ⟨numerator, denominator⟩ := counted interval.middle
  have step : (0 : ℚ) < 10 ^ exponent := zpow_pos (by norm_num) _
  have unit : 0 < (inSteps exponent interval.middle).2 := by
    rw [← Nat.cast_pos (α := ℚ), denominator]
    exact mul_pos (mul_pos step quarters_pos) positive
  have least := Nat.div_mul_le_self (inSteps exponent interval.middle).1
    (inSteps exponent interval.middle).2
  have most := (Nat.lt_mul_of_div_lt (Nat.lt_succ_self _) unit :
    (inSteps exponent interval.middle).1 < _ * (inSteps exponent interval.middle).2).le
  dsimp only
  generalize (inSteps exponent interval.middle).1 / (inSteps exponent interval.middle).2 = below at *
  rw [← Nat.cast_le (α := ℚ), Nat.cast_mul, numerator, denominator, ← mul_assoc, ← mul_assoc,
    mul_le_mul_iff_of_pos_right positive] at least most
  exact ⟨(le_div_iff₀ quarters_pos).mpr least, (div_le_iff₀ quarters_pos).mpr most⟩

/-- If any point of a grid lies in the interval, so does one of the two around the middle. -/
theorem isSome_onGrid? (tie : Tie) {point : Nat} (middle : interval.Holds (interval.middle / quarters))
    (inside : interval.Holds (point * 10 ^ exponent)) : (onGrid? tie interval exponent).isSome := by
  obtain ⟨least, most⟩ := grid_points_around interval exponent
  have step : (0 : ℚ) < 10 ^ exponent := zpow_pos (by norm_num) _
  unfold onGrid?
  dsimp only at *
  generalize (inSteps exponent interval.middle).1 / (inSteps exponent interval.middle).2 = below at *
  have either : interval.contains exponent below = true ∨
      interval.contains exponent (below + 1) = true := by
    rw [contains_iff, contains_iff]
    rcases Nat.lt_or_ge below point with more | less
    · right
      refine middle.between inside most (mul_le_mul_of_nonneg_right ?_ step.le)
      exact_mod_cast more
    · left
      refine inside.between middle (mul_le_mul_of_nonneg_right ?_ step.le) least
      exact_mod_cast less
  split
  next => rfl
  next => rfl
  next below above => simp [below, above] at either
  next => split <;> [rfl; split <;> [rfl; cases tie <;> rfl]]

/-- The search ends with a decimal in the interval if the last grid has one. -/
theorem holds_refine {tie : Tie} {point : Nat} (middle : interval.Holds (interval.middle / quarters))
    (steps : Nat) {exponent : Int} (inside : interval.Holds (point * 10 ^ (exponent - steps))) :
    interval.Holds (refine tie interval steps exponent).toRat := by
  induction steps generalizing exponent with
  | zero =>
    rw [Nat.cast_zero, sub_zero] at inside
    obtain ⟨count, taken⟩ := Option.isSome_iff_exists.mp (isSome_onGrid? tie middle inside)
    rw [refine, taken]
    exact holds_of_onGrid? taken
  | succ steps ih =>
    rw [refine]
    split
    next taken => exact holds_of_onGrid? taken
    next => exact ih (by rwa [Nat.cast_succ, add_comm, ← sub_sub] at inside)

/-! ### The interval of a double -/

private theorem holds_div_iff {numerator denominator : Nat} (positive : 0 < denominator) :
    interval.Holds (numerator / denominator) ↔
      interval.lower * denominator ≤ numerator * quarters ∧
        numerator * quarters ≤ interval.upper * denominator ∧
        (interval.closed = false → numerator * quarters ≠ interval.lower * denominator ∧
          numerator * quarters ≠ interval.upper * denominator) := by
  have denominator_pos : (0 : ℚ) < denominator := Nat.cast_pos.mpr positive
  have place : (numerator / denominator * quarters : ℚ) =
      (numerator * quarters : Nat) / denominator := by
    rw [Nat.cast_mul, div_mul_eq_mul_div]
  have low : (interval.lower : ℚ) ≤ numerator / denominator * quarters ↔
      interval.lower * denominator ≤ numerator * quarters := by
    rw [place, le_div_iff₀ denominator_pos, ← Nat.cast_mul, Nat.cast_le]
  have high : (numerator / denominator * quarters : ℚ) ≤ interval.upper ↔
      numerator * quarters ≤ interval.upper * denominator := by
    rw [place, div_le_iff₀ denominator_pos, ← Nat.cast_mul, Nat.cast_le]
  have meets (bound : Nat) : (numerator / denominator * quarters : ℚ) = bound ↔
      numerator * quarters = bound * denominator := by
    rw [place, div_eq_iff denominator_pos.ne', ← Nat.cast_mul, Nat.cast_inj]
  constructor
  · rintro ⟨lower_le, le_upper, ends⟩
    rw [ne_eq, ne_eq, meets, meets] at ends
    exact ⟨low.mp lower_le, high.mp le_upper, ends⟩
  · rintro ⟨lower_le, le_upper, ends⟩
    refine ⟨low.mpr lower_le, high.mpr le_upper, ?_⟩
    rw [ne_eq, ne_eq, meets, meets]
    exact ends

variable {number : Double}

/-- The gap above a double, in least positive doubles. -/
def gap (number : Double) : Nat := 1 <<< number.shift

theorem gap_eq (number : Double) : gap number = 2 ^ number.shift := Nat.one_shiftLeft _

theorem gap_pos (number : Double) : 0 < gap number := by
  rw [gap_eq]
  exact Nat.two_pow_pos _

theorem middle_eq (number : Double) :
    (Interval.ofDouble number).middle = 4 * (number.significand * gap number) := Nat.mul_assoc _ _ _

theorem upper_eq (number : Double) :
    (Interval.ofDouble number).upper = (Interval.ofDouble number).middle + 2 * gap number := rfl

/-- The doubles below a power of two are closer to each other than those above it. -/
def IsNarrow (number : Double) : Prop :=
  number.significand = Double.fractionCount ∧ 0 < number.shift

instance : Decidable (IsNarrow number) := inferInstanceAs (Decidable (_ ∧ _))

theorem lower_eq (nonzero : 0 < number.significand) :
    (Interval.ofDouble number).lower + (if IsNarrow number then gap number else 2 * gap number) =
      (Interval.ofDouble number).middle := by
  have room := Nat.mul_le_mul_right (gap number) nonzero
  have narrow : (number.significand == Double.fractionCount &&
      decide (1 < number.exponentField)) = true ↔ IsNarrow number := by
    rw [Bool.and_eq_true, beq_iff_eq, decide_eq_true_eq, IsNarrow, Double.shift]
    omega
  have lower : (Interval.ofDouble number).lower = (Interval.ofDouble number).middle -
      if number.significand == Double.fractionCount && decide (1 < number.exponentField) then gap number
      else 2 * gap number := rfl
  rw [lower, middle_eq]
  simp only [narrow]
  split <;> omega

/-- What lies in the interval of a double is nearest to that double. -/
theorem Interval.Holds.nearest {numerator denominator : Nat}
    (holds : (Interval.ofDouble number).Holds (numerator / denominator)) (positive : 0 < denominator)
    (nonzero : 0 < number.significand) :
    number.Nearest (denominator <<< number.shift) (numerator * Double.one) := by
  obtain ⟨low, high, ends⟩ := (holds_div_iff positive).mp holds
  have unit : gap number * denominator = denominator <<< number.shift := by
    rw [gap_eq, Nat.shiftLeft_eq, Nat.mul_comm]
  have middle : (Interval.ofDouble number).middle * denominator =
      4 * (number.significand * (denominator <<< number.shift)) := by
    rw [middle_eq, Nat.mul_assoc, Nat.mul_assoc, unit]
  have upper : (Interval.ofDouble number).upper * denominator =
      (Interval.ofDouble number).middle * denominator + 2 * (denominator <<< number.shift) := by
    rw [upper_eq, Nat.add_mul, Nat.mul_assoc 2, unit]
  have lower := congrArg (· * denominator) (lower_eq nonzero)
  have counted : numerator * quarters = 4 * (numerator * Double.one) := Nat.mul_left_comm _ _ _
  simp only [Nat.add_mul, ite_mul, Nat.mul_assoc 2, unit] at lower
  rw [counted] at low high ends
  rw [middle] at lower upper
  by_cases narrow : IsNarrow number
  · rw [if_pos narrow] at lower
    have even : number.significand % 2 = 0 := by
      rw [narrow.1]
      decide
    exact ⟨by omega, by omega, fun odd => by omega, fun _ _ => by omega⟩
  · rw [if_neg narrow] at lower
    refine ⟨by omega, by omega, fun odd => ?_, fun power shifted => absurd ⟨power, shifted⟩ narrow⟩
    have isOpen : (Interval.ofDouble number).closed = false := beq_eq_false_iff_ne.mpr (by omega)
    have := ends isOpen
    omega

theorem holds_middle (nonzero : 0 < number.significand) :
    (Interval.ofDouble number).Holds ((Interval.ofDouble number).middle / quarters) := by
  have upper := upper_eq number
  have unit := gap_pos number
  have lower : (Interval.ofDouble number).lower < (Interval.ofDouble number).middle := by
    have lower := lower_eq nonzero
    split at lower <;> omega
  rw [← Nat.cast_lt (α := ℚ)] at lower
  have above : ((Interval.ofDouble number).middle : ℚ) < (Interval.ofDouble number).upper :=
    Nat.cast_lt.mpr (by omega)
  have place := div_mul_cancel₀ ((Interval.ofDouble number).middle : ℚ) quarters_pos.ne'
  refine ⟨?_, ?_, fun _ => ⟨?_, ?_⟩⟩ <;> rw [place]
  exacts [lower.le, above.le, lower.ne', above.ne]

/-- The interval is wider than a step of seventeen digits: a double has 53 bits, and they count less
than ten to the power sixteen. -/
theorem middle_lt_width (nonzero : 0 < number.significand) :
    (Interval.ofDouble number).middle + 10 ^ 16 * (Interval.ofDouble number).lower <
      10 ^ 16 * (Interval.ofDouble number).upper := by
  have lower := lower_eq nonzero
  have upper := upper_eq number
  have middle := middle_eq number
  have unit := gap_pos number
  have bits := Nat.mul_le_mul_right (gap number) number.significand_lt.le
  rw [show 2 * Double.fractionCount = 9007199254740992 from rfl] at bits
  split at lower
  next narrow =>
    rw [narrow.1, show Double.fractionCount = 4503599627370496 from rfl] at middle
    omega
  next => omega

/-! ### The search for digits -/

private theorem one_le_pow {power : Nat} (enough : 330 ≤ power) : Double.one ≤ 10 ^ power := by
  have scale (count : Nat) : 2 ^ (49 * count) ≤ 10 ^ (15 * count) := by
    rw [Nat.pow_mul, Nat.pow_mul]
    exact Nat.pow_le_pow_left (by decide) count
  rw [Double.one, Nat.one_shiftLeft]
  calc 2 ^ Double.places
    _ ≤ 2 ^ (49 * (power / 15)) :=
      Nat.pow_le_pow_right (by decide) (by unfold Double.places; omega)
    _ ≤ 10 ^ (15 * (power / 15)) := scale _
    _ ≤ 10 ^ power := Nat.pow_le_pow_right (by decide) (Nat.mul_div_le _ _)

/-- A small number is found by the length of a multiple of it. -/
theorem zpow_scaled_length_le {middle power : Nat} {places : Int} (positive : 4 ≤ middle)
    (enough : 330 ≤ power) (same : power = places) :
    (10 : ℚ) ^ (((Nat.toDigits 10 (middle * Nat.pow 10 power / quarters)).length : Int) - places - 1) ≤
      middle / quarters := by
  have scaled : 0 < middle * Nat.pow 10 power / quarters :=
    Nat.div_pos (Nat.mul_le_mul positive (one_le_pow enough)) (Nat.cast_pos.mp quarters_pos)
  have least := (zpow_length_sub_one_le scaled).trans Nat.cast_div_le
  generalize (Nat.toDigits 10 (middle * Nat.pow 10 power / quarters)).length = length at *
  have split : (10 : ℚ) ^ ((length : Int) - 1) =
      10 ^ ((length : Int) - places - 1) * (Nat.pow 10 power : Nat) := by
    rw [Nat.pow_eq, Nat.cast_pow, ← zpow_natCast, Nat.cast_ofNat, ← zpow_add₀ (by norm_num)]
    congr 1
    omega
  rw [split, Nat.cast_mul, mul_div_right_comm] at least
  exact le_of_mul_le_mul_right least (Nat.cast_pos.mpr (Nat.pow_pos (by decide)))

/-- The coarsest grid has a step of at most ten times the middle. -/
theorem coarsest_le_middle (positive : 4 ≤ interval.middle) :
    (10 : ℚ) ^ (coarsestExponent interval - 1) ≤ interval.middle / quarters := by
  unfold coarsestExponent
  dsimp only
  split
  next whole => exact (zpow_length_sub_one_le whole).trans Nat.cast_div_le
  next =>
    generalize same : 330 = power
    exact zpow_scaled_length_le positive same.le (congrArg _ same.symm)

private theorem exists_point (positive : 4 ≤ interval.middle)
    (wide : interval.middle + 10 ^ 16 * interval.lower < 10 ^ 16 * interval.upper) :
    ∃ point : Nat, interval.Holds (point * 10 ^ (coarsestExponent interval - 17)) := by
  have step : (0 : ℚ) < 10 ^ (coarsestExponent interval - 17) * quarters :=
    mul_pos (zpow_pos (by norm_num) _) quarters_pos
  have narrow : 10 ^ (coarsestExponent interval - 17) * quarters <
      (interval.upper - interval.lower : ℚ) := by
    have coarsest := (le_div_iff₀ quarters_pos).mp (coarsest_le_middle positive)
    have split : (10 : ℚ) ^ (coarsestExponent interval - 1) =
        10 ^ 16 * 10 ^ (coarsestExponent interval - 17) := by
      rw [← zpow_natCast, ← zpow_add₀ (by norm_num)]
      congr 1
      omega
    have wide' : (interval.middle + 10 ^ 16 * interval.lower : ℚ) < 10 ^ 16 * interval.upper := by
      exact_mod_cast wide
    rw [split] at coarsest
    linarith
  generalize (10 : ℚ) ^ (coarsestExponent interval - 17) = unit at *
  have low := Nat.lt_floor_add_one ((interval.lower : ℚ) / (unit * quarters))
  have high := Nat.floor_le (div_nonneg (Nat.cast_nonneg interval.lower) step.le)
  rw [div_lt_iff₀ step] at low
  rw [le_div_iff₀ step] at high
  refine ⟨⌊(interval.lower : ℚ) / (unit * quarters)⌋₊ + 1, ?_⟩
  have place : ((⌊(interval.lower : ℚ) / (unit * quarters)⌋₊ + 1 : Nat) * unit * quarters : ℚ) =
      (⌊(interval.lower : ℚ) / (unit * quarters)⌋₊ + 1) * (unit * quarters) := by
    push_cast
    ring
  refine ⟨?_, ?_, fun _ => ⟨?_, ?_⟩⟩ <;> rw [place]
  · exact low.le
  · linarith
  · exact low.ne'
  · exact ne_of_lt (by linarith)

private theorem four_le_middle (nonzero : 0 < number.significand) :
    4 ≤ (Interval.ofDouble number).middle := by
  have positive := Nat.mul_pos nonzero (gap_pos number)
  rw [middle_eq]
  omega

theorem holds_shortest (tie : Tie) (nonzero : 0 < number.significand) :
    (Interval.ofDouble number).Holds (shortest tie number).toRat := by
  obtain ⟨point, inside⟩ := exists_point (four_le_middle nonzero) (middle_lt_width nonzero)
  exact holds_refine (holds_middle nonzero) 17 inside

/-! ### Reading a decimal -/

private theorem lower_pos (nonzero : 0 < number.significand) : 0 < (Interval.ofDouble number).lower := by
  have lower := lower_eq nonzero
  have middle := middle_eq number
  have unit := gap_pos number
  have room := Nat.mul_le_mul_right (gap number) nonzero
  split at lower <;> omega

theorem digits_pos_of_holds {digits : Nat} (nonzero : 0 < number.significand)
    (holds : (Interval.ofDouble number).Holds (digits * 10 ^ exponent)) : 0 < digits := by
  rcases Nat.eq_zero_or_pos digits with rfl | positive
  · have least := holds.lower_le
    rw [Nat.cast_zero, zero_mul, zero_mul, Nat.cast_nonpos] at least
    have := lower_pos nonzero
    omega
  · exact positive

private theorem two_pow_le_ten_pow (count : Nat) : 2 ^ (3 * count) ≤ 10 ^ count := by
  rw [Nat.pow_mul]
  exact Nat.pow_le_pow_left (by decide) count

private theorem upper_le {power : Nat} (enough : 342 ≤ power) :
    (Interval.ofDouble number).upper ≤ quarters * 10 ^ power := by
  have shift : number.shift ≤ 2046 := by
    have bound : number.exponentField < Double.exponentCount := Nat.mod_lt _ (by decide)
    unfold Double.exponentCount at bound
    unfold Double.shift
    omega
  have bits := Nat.mul_le_mul_right (gap number) number.significand_lt
  calc (Interval.ofDouble number).upper
    _ ≤ 2 ^ 55 * gap number := by
      rw [Nat.succ_mul] at bits
      rw [upper_eq, middle_eq, show 2 ^ 55 = 4 * (2 * Double.fractionCount) from rfl, Nat.mul_assoc 4]
      omega
    _ = 2 ^ (55 + number.shift) := by rw [gap_eq, Nat.pow_add]
    _ ≤ 2 ^ (2 + Double.places + 3 * power) :=
      Nat.pow_le_pow_right (by decide) (by unfold Double.places; omega)
    _ = quarters * 2 ^ (3 * power) := by
      rw [Nat.pow_add, Nat.pow_add, quarters, Double.one, Nat.one_shiftLeft]
    _ ≤ quarters * 10 ^ power := Nat.mul_le_mul_left _ (two_pow_le_ten_pow power)

private theorem quarters_le {power : Nat} (enough : 359 ≤ power) : quarters ≤ 10 ^ power := by
  calc quarters
    _ = 2 ^ (2 + Double.places) := by rw [Nat.pow_add, quarters, Double.one, Nat.one_shiftLeft]
    _ ≤ 2 ^ (3 * power) := Nat.pow_le_pow_right (by decide) (by unfold Double.places; omega)
    _ ≤ 10 ^ power := two_pow_le_ten_pow power

private theorem le_pow_of_holds {value : ℚ} {power : Nat} (holds : (Interval.ofDouble number).Holds value)
    (enough : 342 ≤ power) : value ≤ 10 ^ power := by
  have bound : ((Interval.ofDouble number).upper : ℚ) ≤ 10 ^ power * quarters := by
    rw [mul_comm]
    exact_mod_cast upper_le enough
  exact le_of_mul_le_mul_right (holds.le_upper.trans bound) quarters_pos

private theorem one_le_mul_of_holds {value : ℚ} {power : Nat} (nonzero : 0 < number.significand)
    (holds : (Interval.ofDouble number).Holds value) (enough : 359 ≤ power) :
    1 ≤ value * 10 ^ power := by
  have least : (1 : ℚ) ≤ value * quarters :=
    (Nat.one_le_cast.mpr (lower_pos nonzero)).trans holds.lower_le
  have nonneg : 0 ≤ value := le_of_lt (pos_of_mul_pos_left (one_pos.trans_le least) quarters_pos.le)
  have bound : (quarters : ℚ) ≤ 10 ^ power := by exact_mod_cast quarters_le enough
  exact least.trans (mul_le_mul_of_nonneg_left bound nonneg)

/-- The count of digits of a number in the interval is in the range of doubles. -/
theorem length_add_exponent_bounds {digits : Nat} (nonzero : 0 < number.significand)
    (positive : 0 < digits) (holds : (Interval.ofDouble number).Holds (digits * 10 ^ exponent)) :
    -400 ≤ ((Nat.toDigits 10 digits).length : Int) + exponent ∧
      ((Nat.toDigits 10 digits).length : Int) + exponent ≤ 400 := by
  have step : (0 : ℚ) < 10 ^ exponent := zpow_pos (by norm_num) _
  have ten : (1 : ℚ) < 10 := by norm_num
  have least := zpow_length_sub_one_le positive
  have most : (digits : ℚ) < 10 ^ ((Nat.toDigits 10 digits).length : Int) := by
    rw [zpow_natCast]
    exact_mod_cast lt_pow_length_toDigits digits
  generalize ((Nat.toDigits 10 digits).length : Int) = length at *
  obtain ⟨power, same⟩ : ∃ power : Nat, power = 399 := ⟨399, rfl⟩
  constructor
  · have one_le : (1 : ℚ) ≤ digits * 10 ^ exponent * 10 ^ power :=
      one_le_mul_of_holds nonzero holds (by omega)
    have above : (10 : ℚ) ^ (0 : Int) < 10 ^ (length + exponent + power) := by
      rw [zpow_zero, zpow_add₀ (by norm_num), zpow_add₀ (by norm_num), zpow_natCast]
      exact one_le.trans_lt (by gcongr)
    rw [zpow_lt_zpow_iff_right₀ ten] at above
    omega
  · have below : (10 : ℚ) ^ (length - 1 + exponent) ≤ 10 ^ (power : Int) := by
      rw [zpow_add₀ (by norm_num), zpow_natCast]
      refine le_trans ?_ (le_pow_of_holds holds (by omega))
      gcongr
    rw [zpow_le_zpow_iff_right₀ ten] at below
    omega

/-- Whatever lies in the interval of a double is read as that double. -/
theorem ofDecimal?_eq {digits : Nat} (finite : number.isFinite = true)
    (nonzero : 0 < number.significand)
    (holds : (Interval.ofDouble number).Holds (digits * 10 ^ exponent)) :
    Double.ofDecimal? number.isNegative digits exponent = some number := by
  have positive := digits_pos_of_holds nonzero holds
  obtain ⟨least, most⟩ := length_add_exponent_bounds nonzero positive holds
  unfold Double.ofDecimal?
  dsimp only
  rw [if_neg positive.ne', if_neg (by omega), if_neg (by omega)]
  have read : (if 0 ≤ exponent then
      Double.ofRatio number.isNegative (digits * Nat.pow 10 exponent.toNat) 1
      else Double.ofRatio number.isNegative digits (Nat.pow 10 (-exponent).toNat)) = number := by
    split
    next whole =>
      obtain ⟨power, rfl⟩ := Int.eq_ofNat_of_zero_le whole
      have value : ((digits * Nat.pow 10 power : Nat) / (1 : Nat) : ℚ) =
          digits * 10 ^ (power : Int) := by
        rw [Nat.cast_one, div_one, Nat.cast_mul, Nat.pow_eq, Nat.cast_pow, zpow_natCast, Nat.cast_ofNat]
      exact Double.ofRatio_eq finite (Interval.Holds.nearest (value ▸ holds) one_pos nonzero) one_pos
    next =>
      obtain ⟨power, rfl⟩ : ∃ power : Nat, exponent = -power := ⟨(-exponent).toNat, by omega⟩
      have value : (digits / (Nat.pow 10 power : Nat) : ℚ) = digits * 10 ^ (-(power : Int)) := by
        rw [Nat.pow_eq, Nat.cast_pow, zpow_neg, zpow_natCast, Nat.cast_ofNat, div_eq_mul_inv]
      have positive : 0 < Nat.pow 10 power := Nat.pow_pos (by decide)
      rw [neg_neg]
      exact Double.ofRatio_eq finite (Interval.Holds.nearest (value ▸ holds) positive nonzero) positive
  rw [read, if_pos finite]

end Decimal

end RowPipeline
