import Mathlib.Tactic.ByContra
import RowPipeline.Decimal.Shortest
import RowPipeline.Double.Rounding
import RowPipeline.Proofs.Doubles

/-!
Doubles as the nearest ones of the numbers around them. The interval of a double holds the numbers
that are nearer to it than to its neighbours; whatever it holds is read as that double.
-/

namespace RowPipeline

namespace Double

/-- A quotient within half of an integer is rounded to it; half away only if it is even. -/
theorem roundedQuotient_eq {numerator denominator : Nat} (nearest : Nat) (positive : 0 < denominator)
    (above : 2 * (nearest * denominator) ≤ 2 * numerator + denominator)
    (below : 2 * numerator ≤ 2 * (nearest * denominator) + denominator)
    (tie : nearest % 2 = 1 → 2 * (nearest * denominator) ≠ 2 * numerator + denominator ∧
      2 * numerator ≠ 2 * (nearest * denominator) + denominator) :
    roundedQuotient numerator denominator = nearest := by
  have parts : numerator / denominator * denominator + numerator % denominator = numerator :=
    Nat.div_add_mod' numerator denominator
  have small := Nat.mod_lt numerator positive
  unfold roundedQuotient
  dsimp only
  generalize numerator / denominator = quotient at *
  generalize numerator % denominator = remainder at *
  obtain rfl | rfl : nearest = quotient ∨ nearest = quotient + 1 := by
    have least : quotient < nearest + 1 := by
      by_contra less
      have := Nat.mul_le_mul_right denominator (Nat.le_of_not_lt less)
      rw [Nat.add_mul] at this
      omega
    have most : nearest < quotient + 2 := by
      by_contra more
      have := Nat.mul_le_mul_right denominator (Nat.le_of_not_lt more)
      rw [Nat.add_mul] at this
      omega
    omega
  · split
    · rfl
    split
    · omega
    · have even : nearest % 2 = 0 := by
        by_contra odd
        exact (tie (by omega)).2 (by omega)
      omega
  · rw [Nat.add_mul] at above below tie
    split
    · omega
    split
    · rfl
    · have even : (quotient + 1) % 2 = 0 := by
        by_contra odd
        exact (tie (by omega)).1 (by omega)
      omega

/-- The shift leaves a quotient of 53 bits, or is zero. -/
theorem log2_div_sub_eq {scaled denominator shift : Nat} (positive : 0 < denominator)
    (below : scaled < 2 * (fractionCount * denominator <<< shift))
    (above : 0 < shift → fractionCount * denominator <<< shift ≤ scaled) :
    Nat.log2 (scaled / denominator) - 52 = shift := by
  rw [Nat.shiftLeft_eq] at below above
  have most : scaled / denominator < 2 ^ (53 + shift) := by
    have size : 2 ^ (53 + shift) * denominator = 2 * (fractionCount * (denominator * 2 ^ shift)) := by
      rw [Nat.pow_add, show 2 ^ 53 = 2 * fractionCount from rfl]
      ac_rfl
    rwa [Nat.div_lt_iff_lt_mul positive, size]
  have least (shifted : 0 < shift) : 2 ^ (52 + shift) ≤ scaled / denominator := by
    have size : 2 ^ (52 + shift) * denominator = fractionCount * (denominator * 2 ^ shift) := by
      rw [Nat.pow_add, show 2 ^ 52 = fractionCount from rfl]
      ac_rfl
    rw [Nat.le_div_iff_mul_le positive, size]
    exact above shifted
  generalize scaled / denominator = quotient at *
  rcases Nat.eq_zero_or_pos shift with rfl | shifted
  · rcases Nat.eq_zero_or_pos quotient with rfl | nonzero
    · rfl
    · have := (Nat.log2_lt (Nat.ne_of_gt nonzero)).mpr most
      omega
  · have nonzero : quotient ≠ 0 :=
      Nat.ne_of_gt (Nat.lt_of_lt_of_le (Nat.two_pow_pos _) (least shifted))
    have := (Nat.log2_lt nonzero).mpr most
    have := (Nat.le_log2 nonzero).mpr (least shifted)
    omega

/-- The bits without the sign count the doubles below. -/
theorem exponentField_mul_add_fraction (number : Double) :
    number.exponentField * fractionCount + number.fraction =
      number.shift * fractionCount + number.significand := by
  unfold shift significand
  split
  next subnormal => rw [subnormal]
  next normal =>
    obtain ⟨exponent, same⟩ := Nat.exists_eq_succ_of_ne_zero normal
    rw [same, Nat.succ_eq_add_one, Nat.add_sub_cancel, Nat.succ_mul]
    omega

private theorem fractionCount_le (number : Double) (shifted : 0 < number.shift) :
    fractionCount ≤ number.significand := by
  unfold shift at shifted
  rw [significand, if_neg (by omega)]
  exact Nat.le_add_right _ _

theorem isZero_eq (number : Double) (finite : number.isFinite = true) :
    number.isZero = (number.significand == 0) := by
  have unit := Nat.two_pow_pos number.shift
  rw [isZero, finite, Bool.true_and, magnitude, Nat.shiftLeft_eq, Bool.eq_iff_iff, beq_iff_eq,
    beq_iff_eq, Nat.mul_eq_zero]
  omega

theorem eq_zero_of_isZero {number : Double} (isZero : number.isZero = true) :
    number = zero number.isNegative := by
  have finite : number.isFinite = true := by
    rw [Double.isZero, Bool.and_eq_true] at isZero
    exact isZero.1
  have none : number.significand = 0 := beq_iff_eq.mp ((isZero_eq number finite).symm.trans isZero)
  have fields : number.exponentField = 0 ∧ number.fraction = 0 := by
    have leading : 0 < fractionCount := by decide
    unfold significand at none
    split at none
    next subnormal => exact ⟨subnormal, none⟩
    next => omega
  refine eq_of_fields ?_ ?_ ?_
  · cases number.isNegative <;> decide
  · rw [fields.1]
    cases number.isNegative <;> decide
  · rw [fields.2]
    cases number.isNegative <;> decide

/-- A number lies between the middles of the gaps around a double; `unit` is the gap above it, and the
gap below a power of two is half as wide. -/
structure Nearest (number : Double) (unit counted : Nat) : Prop where
  above : 4 * (number.significand * unit) ≤ 4 * counted + 2 * unit
  below : 4 * counted ≤ 4 * (number.significand * unit) + 2 * unit
  tie : number.significand % 2 = 1 →
    4 * (number.significand * unit) ≠ 4 * counted + 2 * unit ∧
      4 * counted ≠ 4 * (number.significand * unit) + 2 * unit
  narrow : number.significand = fractionCount → 0 < number.shift →
    4 * (number.significand * unit) ≤ 4 * counted + unit

/-- The bits that a quotient gets, but for the sign. -/
theorem Nearest.pattern_eq {number : Double} {scaled denominator : Nat}
    (nearest : number.Nearest (denominator <<< number.shift) scaled) (positive : 0 < denominator) :
    (Nat.log2 (scaled / denominator) - 52) * fractionCount +
        roundedQuotient scaled (denominator <<< (Nat.log2 (scaled / denominator) - 52)) =
      number.shift * fractionCount + number.significand := by
  obtain ⟨above, below, tie, narrow⟩ := nearest
  have least := number.fractionCount_le
  have most := number.significand_lt
  generalize number.significand = significand at *
  generalize number.shift = shift at *
  rw [Nat.shiftLeft_eq] at above below tie narrow
  have unit_pos : 0 < denominator * 2 ^ shift := Nat.mul_pos positive (Nat.two_pow_pos _)
  have room := Nat.mul_le_mul_right (denominator * 2 ^ shift) most
  rw [Nat.succ_mul, Nat.mul_assoc] at room
  by_cases normal : 0 < shift → fractionCount * (denominator * 2 ^ shift) ≤ scaled
  · have same : Nat.log2 (scaled / denominator) - 52 = shift :=
      log2_div_sub_eq positive (by rw [Nat.shiftLeft_eq]; omega) (by rwa [Nat.shiftLeft_eq])
    rw [same, Nat.shiftLeft_eq,
      roundedQuotient_eq significand unit_pos (by omega) (by omega) (by omega)]
  -- Below a power of two the doubles are half as far from each other.
  · obtain ⟨shifted, less⟩ := Classical.not_imp.mp normal
    obtain rfl : significand = fractionCount := by
      by_contra other
      have := least shifted
      have more := Nat.mul_le_mul_right (denominator * 2 ^ shift)
        (show fractionCount + 1 ≤ significand by omega)
      rw [Nat.add_mul] at more
      omega
    have close := narrow rfl shifted
    obtain ⟨lower, rfl⟩ : ∃ lower, shift = lower + 1 := ⟨shift - 1, by omega⟩
    have half : denominator * 2 ^ (lower + 1) = 2 * (denominator * 2 ^ lower) := by
      rw [Nat.pow_succ]
      ac_rfl
    have whole : fractionCount * (denominator * 2 ^ (lower + 1)) =
        2 * (fractionCount * (denominator * 2 ^ lower)) := by rw [half, Nat.mul_left_comm]
    have more := Nat.le_mul_of_pos_left (denominator * 2 ^ lower) (show 0 < fractionCount by decide)
    rw [whole] at close less
    rw [half] at close unit_pos
    have same : Nat.log2 (scaled / denominator) - 52 = lower :=
      log2_div_sub_eq positive (by rw [Nat.shiftLeft_eq]; omega)
        fun _ => by rw [Nat.shiftLeft_eq]; omega
    rw [same, Nat.shiftLeft_eq,
      roundedQuotient_eq (2 * fractionCount) (by omega) (by rw [Nat.mul_assoc]; omega)
        (by rw [Nat.mul_assoc]; omega) (by omega), Nat.succ_mul lower]
    omega

theorem ofRatio_eq {number : Double} {numerator denominator : Nat} (finite : number.isFinite = true)
    (nearest : number.Nearest (denominator <<< number.shift) (numerator * one))
    (positive : 0 < denominator) : ofRatio number.isNegative numerator denominator = number := by
  have fields := number.exponentField_mul_add_fraction
  have bits := number.bits_eq_fields
  have fraction := number.fraction_lt
  have exponent : number.exponentField < 2047 := by
    have bound : number.exponentField < exponentCount := Nat.mod_lt _ (by decide)
    simp only [isFinite, bne_iff_ne] at finite
    unfold exponentCount at bound
    omega
  have most := Nat.mul_le_mul_right fractionCount exponent
  rw [Nat.succ_mul] at most
  unfold ofRatio
  dsimp only
  rw [nearest.pattern_eq positive, ← fields, if_neg (by omega)]
  have same : number.exponentField * fractionCount + number.fraction +
      (if number.isNegative then signBit else 0) = number.bits.toNat := by
    rw [bits]
    omega
  rw [same, UInt64.ofNat_toNat]

end Double

end RowPipeline
