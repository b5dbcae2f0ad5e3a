import RowPipeline.Double.Basic

/-!
What the fields of a double say of its place on the line. Magnitudes grow with the exponent field and,
within one exponent, with the fraction; so two doubles at one place are the same number, apart from the
two zeros and from NaN.
-/

namespace RowPipeline

namespace Double

variable {left right number : Double}

theorem fraction_lt (number : Double) : number.fraction < fractionCount :=
  Nat.mod_lt _ (by decide)

/-- The bits are made of the sign, the exponent field and the fraction. -/
theorem bits_eq_fields (number : Double) :
    number.bits.toNat =
      (if number.isNegative then signBit else 0) + number.exponentField * fractionCount +
        number.fraction := by
  have bound := number.bits.toNat_lt
  unfold isNegative exponentField fraction signBit fractionCount exponentCount
  by_cases negative : 0x8000000000000000 ≤ number.bits.toNat
  · rw [decide_eq_true negative, if_pos rfl]
    omega
  · rw [decide_eq_false negative, if_neg Bool.false_ne_true]
    omega

theorem eq_of_fields (sign : left.isNegative = right.isNegative)
    (exponent : left.exponentField = right.exponentField)
    (fraction : left.fraction = right.fraction) : left = right := by
  have bits : left.bits.toNat = right.bits.toNat := by
    rw [bits_eq_fields left, bits_eq_fields right, sign, exponent, fraction]
  cases left
  cases right
  exact congrArg Double.mk (UInt64.toNat_inj.mp bits)

/-! ### Magnitudes -/

theorem significand_lt (number : Double) : number.significand < 2 * fractionCount := by
  have bound := number.fraction_lt
  unfold significand
  split <;> omega

/-- The magnitude of a greater exponent lies above all magnitudes of a lower one. -/
theorem magnitude_lt_of_exponentField_lt (lower : left.exponentField < right.exponentField) :
    left.magnitude < right.magnitude := by
  have normal : right.significand = fractionCount + right.fraction := by
    rw [significand, if_neg (by omega)]
  have above : fractionCount <<< right.shift ≤ right.magnitude := by
    rw [magnitude, Nat.shiftLeft_eq, Nat.shiftLeft_eq, normal]
    exact Nat.mul_le_mul_right _ (Nat.le_add_right _ _)
  refine Nat.lt_of_lt_of_le ?_ above
  rcases Nat.eq_zero_or_pos left.exponentField with subnormal | positive
  · have significand : left.significand = left.fraction := by rw [significand, if_pos subnormal]
    have shift : left.shift = 0 := by rw [shift, subnormal]
    rw [magnitude, significand, shift, Nat.shiftLeft_zero, Nat.shiftLeft_eq]
    exact Nat.lt_of_lt_of_le left.fraction_lt (Nat.le_mul_of_pos_right _ (Nat.two_pow_pos _))
  · have shifts : left.shift + 1 ≤ right.shift := by
      unfold shift
      omega
    calc left.significand <<< left.shift
      _ < (2 * fractionCount) <<< left.shift := by
        rw [Nat.shiftLeft_eq, Nat.shiftLeft_eq]
        exact Nat.mul_lt_mul_of_pos_right left.significand_lt (Nat.two_pow_pos _)
      _ = fractionCount <<< (left.shift + 1) := by
        rw [Nat.shiftLeft_eq, Nat.shiftLeft_eq, Nat.pow_succ, Nat.mul_comm 2, Nat.mul_assoc,
          Nat.mul_comm 2]
      _ ≤ fractionCount <<< right.shift := by
        rw [Nat.shiftLeft_eq, Nat.shiftLeft_eq]
        exact Nat.mul_le_mul_left _ (Nat.pow_le_pow_right (by decide) shifts)

theorem fields_of_magnitude_eq (same : left.magnitude = right.magnitude) :
    left.exponentField = right.exponentField ∧ left.fraction = right.fraction := by
  have exponent : left.exponentField = right.exponentField := by
    rcases Nat.lt_trichotomy left.exponentField right.exponentField with lower | equal | higher
    · exact absurd same (Nat.ne_of_lt (magnitude_lt_of_exponentField_lt lower))
    · exact equal
    · exact absurd same.symm (Nat.ne_of_lt (magnitude_lt_of_exponentField_lt higher))
  refine ⟨exponent, ?_⟩
  have shift : left.shift = right.shift := by rw [shift, shift, exponent]
  have significands : left.significand = right.significand := by
    rw [magnitude, magnitude, shift, Nat.shiftLeft_eq, Nat.shiftLeft_eq] at same
    exact Nat.mul_right_cancel (Nat.two_pow_pos _) same
  unfold significand at significands
  split at significands <;> split at significands <;> omega

/-! ### Places -/

theorem isZero_iff (finite : number.isFinite = true) : number.isZero = true ↔ number.units = 0 := by
  unfold isZero units
  rw [finite, Bool.true_and, beq_iff_eq]
  split <;> omega

/-- A finite number other than zero is the only one with its value. -/
theorem eq_of_units_eq (same : left.units = right.units) (nonzero : left.units ≠ 0) :
    left = right := by
  have parts : left.isNegative = right.isNegative ∧ left.magnitude = right.magnitude := by
    unfold units at same nonzero
    cases sign : left.isNegative <;> cases sign' : right.isNegative <;>
      rw [sign] at nonzero <;> rw [sign, sign'] at same
    all_goals
      simp only [Bool.false_eq_true, if_true, if_false] at same nonzero
      grind
  obtain ⟨exponent, fraction⟩ := fields_of_magnitude_eq parts.2
  exact eq_of_fields parts.1 exponent fraction

theorem position_of_isFinite (finite : number.isFinite = true) :
    number.position = (0, number.units) := by
  rw [position, if_pos finite]

theorem position_of_isZero (zero : number.isZero = true) : number.position = (0, 0) := by
  have finite : number.isFinite = true := by
    simp only [isZero, Bool.and_eq_true] at zero
    exact zero.1
  rw [position_of_isFinite finite, (isZero_iff finite).mp zero]

theorem isFinite_of_isNaN (nan : number.isNaN = true) : number.isFinite = false := by
  simp only [isNaN, Bool.and_eq_true, Bool.not_eq_true'] at nan
  exact nan.1

theorem position_of_isNaN (nan : number.isNaN = true) : number.position = (2, 0) := by
  rw [position, if_neg (by rw [isFinite_of_isNaN nan]; decide), if_pos nan]

theorem position_of_isInfinite (infinite : number.isInfinite = true) :
    number.position = (if number.isNegative then -1 else 1, 0) := by
  simp only [isInfinite, Bool.and_eq_true, Bool.not_eq_true', beq_iff_eq] at infinite
  have other : number.isNaN = false := by simp [isNaN, infinite]
  rw [position, if_neg (by rw [infinite.1]; decide), if_neg (by rw [other]; decide)]
  split <;> rfl

/-- Every double is finite, infinite or NaN. -/
theorem finite_or_infinite_or_nan (number : Double) :
    number.isFinite = true ∨ number.isInfinite = true ∨ number.isNaN = true := by
  unfold isInfinite isNaN
  cases number.isFinite <;> cases zero : number.fraction == 0 <;> simp_all

/-- Only the finite numbers are at the places between the infinities. -/
theorem isFinite_of_position {units : Int} (place : number.position = (0, units)) :
    number.isFinite = true ∧ number.units = units := by
  rcases number.finite_or_infinite_or_nan with finite | infinite | nan
  · rw [position_of_isFinite finite] at place
    exact ⟨finite, congrArg Prod.snd place⟩
  · rw [position_of_isInfinite infinite] at place
    split at place <;> cases place
  · rw [position_of_isNaN nan] at place
    cases place

private theorem eq_of_isInfinite (infinite : left.isInfinite = true) (infinite' : right.isInfinite = true)
    (sign : left.isNegative = right.isNegative) : left = right := by
  simp only [isInfinite, isFinite, Bool.and_eq_true, Bool.not_eq_true', bne_eq_false_iff_eq,
    beq_iff_eq] at infinite infinite'
  exact eq_of_fields sign (infinite.1.trans infinite'.1.symm) (infinite.2.trans infinite'.2.symm)

/-- Doubles at one place are the same, but for the two zeros and for the many NaNs. -/
theorem eq_of_position_eq (same : left.position = right.position) :
    left = right ∨ (left.isZero = true ∧ right.isZero = true) ∨
      (left.isNaN = true ∧ right.isNaN = true) := by
  rcases left.finite_or_infinite_or_nan with finite | infinite | nan
  · rw [position_of_isFinite finite] at same
    obtain ⟨finite', units⟩ := isFinite_of_position same.symm
    by_cases zero : left.units = 0
    · exact .inr (.inl ⟨(isZero_iff finite).mpr zero, (isZero_iff finite').mpr (units.trans zero)⟩)
    · exact .inl (eq_of_units_eq units.symm zero)
  · rw [position_of_isInfinite infinite] at same
    rcases right.finite_or_infinite_or_nan with finite' | infinite' | nan'
    · rw [position_of_isFinite finite'] at same
      split at same <;> cases same
    · rw [position_of_isInfinite infinite'] at same
      refine .inl (eq_of_isInfinite infinite infinite' ?_)
      cases sign : left.isNegative <;> cases sign' : right.isNegative <;> simp_all
    · rw [position_of_isNaN nan'] at same
      split at same <;> cases same
  · rw [position_of_isNaN nan] at same
    rcases right.finite_or_infinite_or_nan with finite' | infinite' | nan'
    · rw [position_of_isFinite finite'] at same
      cases same
    · rw [position_of_isInfinite infinite'] at same
      split at same <;> cases same
    · exact .inr (.inr ⟨nan, nan'⟩)

end Double

end RowPipeline
