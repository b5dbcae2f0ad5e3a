import RowPipeline.Json.Printer
import RowPipeline.Proofs.NumberOrder
import RowPipeline.Proofs.ShortestDecimal

/-!
Doubles that are whole numbers. One is shown with the digits of the integer that it is equal to if its
shortest decimal is that integer. Below 2 to the power 53 it is, since no other whole number lies in the
interval of the double.
-/

namespace RowPipeline

/-- The whole numbers below this are all doubles, and so are all halves between them. -/
def Double.wholeBound : Nat := 2 * Double.fractionCount

namespace Decimal

/-- Whether a decimal is a whole number and has no places after the point. -/
def writes (decimal : Decimal) (whole : Nat) : Bool :=
  0 ≤ decimal.exponent && decimal.digits * Nat.pow 10 decimal.exponent.toNat == whole

private theorem toDigits_mul_pow {number : Nat} (positive : 0 < number) (count : Nat) :
    Nat.toDigits 10 (number * 10 ^ count) = Nat.toDigits 10 number ++ NumberFormat.zeros count := by
  induction count with
  | zero => simp [NumberFormat.zeros]
  | succ count ih =>
    have earlier : 0 < number * 10 ^ count := Nat.mul_pos positive (Nat.pow_pos (by decide))
    have last := Nat.toDigits_append_toDigits (by decide : 1 < 10) earlier (by decide : 0 < 10)
    calc Nat.toDigits 10 (number * 10 ^ (count + 1))
        = Nat.toDigits 10 (10 * (number * 10 ^ count) + 0) := by congr 1; ring
      _ = Nat.toDigits 10 (number * 10 ^ count) ++ ['0'] := last.symm
      _ = Nat.toDigits 10 number ++ NumberFormat.zeros (count + 1) := by
        rw [ih, List.append_assoc]
        exact congrArg _ List.replicate_succ'.symm

/-- If the middle is a whole number, the search ends before it looks at places after the point. -/
theorem exponent_refine_nonneg {tie : Tie} {interval : Interval} {whole : Nat}
    (inside : interval.Holds (interval.middle / quarters))
    (middle : (interval.middle / quarters : ℚ) = whole) (steps : Nat) {exponent : Int}
    (nonneg : 0 ≤ exponent) (enough : exponent ≤ steps) :
    0 ≤ (refine tie interval steps exponent).exponent := by
  induction steps generalizing exponent with
  | zero => exact nonneg
  | succ steps ih =>
    rw [refine]
    split
    next => exact nonneg
    next missed =>
      have more : exponent ≠ 0 := by
        rintro rfl
        have found := @isSome_onGrid? interval 0 tie whole inside
          (by rwa [zpow_zero, mul_one, ← middle])
        rw [missed] at found
        exact Bool.false_ne_true found
      exact ih (by omega) (by omega)

variable {number : Double} {whole : Nat}

theorem middle_of_whole (counted : number.magnitude = whole * Double.one) :
    (Interval.ofDouble number).middle = whole * quarters := by
  rw [middle_eq, gap_eq, ← Nat.shiftLeft_eq, ← Double.magnitude, counted, quarters]
  ring

private theorem significand_pos (counted : number.magnitude = whole * Double.one) (positive : 0 < whole) :
    0 < number.significand := by
  have magnitude : 0 < number.magnitude := counted ▸ Nat.mul_pos positive Double.one_pos
  rw [Double.magnitude, Nat.shiftLeft_eq] at magnitude
  exact Nat.pos_of_mul_pos_right magnitude

/-- Doubles below the bound are at most one apart. -/
theorem gap_lt (counted : number.magnitude = whole * Double.one) (bound : whole < Double.wholeBound) :
    gap number < 2 * Double.one := by
  have one := Double.one_pos
  by_cases low : number.exponentField = 0
  · rw [gap_eq, Double.shift, low]
    omega
  · have leading : Double.fractionCount ≤ number.significand := by
      rw [Double.significand, if_neg low]
      omega
    have magnitude : number.significand * gap number < Double.fractionCount * (2 * Double.one) := by
      rw [gap_eq, ← Nat.shiftLeft_eq, ← Double.magnitude, counted, Nat.mul_left_comm, ← Nat.mul_assoc]
      exact Nat.mul_lt_mul_of_pos_right bound one
    exact Nat.lt_of_mul_lt_mul_left ((Nat.mul_le_mul_right _ leading).trans_lt magnitude)

/-- A whole number in the interval is the double. -/
theorem eq_of_holds {other : Nat} (counted : number.magnitude = whole * Double.one)
    (bound : whole < Double.wholeBound) (holds : (Interval.ofDouble number).Holds other) :
    other = whole := by
  have nearby := gap_lt counted bound
  have middle := middle_of_whole counted
  have upper := upper_eq number
  have lower : (Interval.ofDouble number).middle ≤
      (Interval.ofDouble number).lower + 2 * gap number := by
    rcases Nat.eq_zero_or_pos number.significand with none | nonzero
    · rw [middle_eq, none]
      omega
    · have lower := lower_eq nonzero
      split at lower <;> omega
  have low : (Interval.ofDouble number).lower ≤ other * quarters := by exact_mod_cast holds.lower_le
  have high : other * quarters ≤ (Interval.ofDouble number).upper := by exact_mod_cast holds.le_upper
  have below : other * quarters < (whole + 1) * quarters := by
    rw [Nat.add_mul]
    unfold quarters at *
    omega
  have above : whole * quarters < (other + 1) * quarters := by
    rw [Nat.add_mul]
    unfold quarters at *
    omega
  have := Nat.lt_of_mul_lt_mul_right below
  have := Nat.lt_of_mul_lt_mul_right above
  omega

/-- The shortest decimal of a whole number has no places after the point, and is exact. -/
theorem shortest_of_whole (tie : Tie) (counted : number.magnitude = whole * Double.one)
    (positive : 0 < whole) (bound : whole < Double.wholeBound) :
    (shortest tie number).writes whole = true := by
  have nonzero := significand_pos counted positive
  have inside := holds_middle nonzero
  have middle : ((Interval.ofDouble number).middle / quarters : ℚ) = whole := by
    rw [middle_of_whole counted, Nat.cast_mul, mul_div_cancel_right₀ _ quarters_pos.ne']
  have coarsest : coarsestExponent (Interval.ofDouble number) = (Nat.toDigits 10 whole).length := by
    have quotient : (Interval.ofDouble number).middle / quarters = whole := by
      rw [middle_of_whole counted, Nat.mul_div_cancel _ (Nat.cast_pos.mp quarters_pos)]
    rw [coarsestExponent, quotient]
    exact if_pos positive
  have few : (Nat.toDigits 10 whole).length ≤ 17 :=
    (Nat.length_toDigits_le_iff (by decide) (by decide)).mpr (bound.trans (by decide))
  have nonneg : 0 ≤ (shortest tie number).exponent :=
    exponent_refine_nonneg inside middle 17 (by omega) (by omega)
  obtain ⟨exponent, same⟩ := Int.eq_ofNat_of_zero_le nonneg
  have holds := holds_shortest tie nonzero
  rw [toRat, same, zpow_natCast] at holds
  have value : (shortest tie number).digits * 10 ^ exponent = whole :=
    eq_of_holds counted bound (by exact_mod_cast holds)
  rw [writes, same, Bool.and_eq_true, decide_eq_true_eq, beq_iff_eq, Int.toNat_natCast]
  exact ⟨Int.natCast_nonneg exponent, value⟩

end Decimal

namespace Double

variable {number : Double}

private theorem magnitudeText_of_whole {whole : Nat} (finite : number.isFinite = true)
    (counted : number.magnitude = whole * one)
    (written : 0 < whole → (Decimal.shortest .away number).writes whole = true) :
    NumberFormat.plain.magnitudeText number = Nat.toDigits 10 whole := by
  rcases Nat.eq_zero_or_pos whole with rfl | positive
  · rw [NumberFormat.magnitudeText, if_pos (by simp [isZero, finite, counted])]
    rfl
  · have nonzero : number.magnitude ≠ 0 := counted ▸ (Nat.mul_pos positive one_pos).ne'
    have written := written positive
    rw [Decimal.writes, Bool.and_eq_true, decide_eq_true_eq, beq_iff_eq] at written
    obtain ⟨nonneg, value⟩ := written
    obtain ⟨exponent, same⟩ := Int.eq_ofNat_of_zero_le nonneg
    rw [same, Int.toNat_natCast, Nat.pow_eq] at value
    have digits : 0 < (Decimal.shortest .away number).digits :=
      Nat.pos_of_mul_pos_right (value ▸ positive)
    rw [NumberFormat.magnitudeText, if_neg (by simp [isZero, nonzero])]
    simp only [NumberFormat.plain, same]
    rw [NumberFormat.positionalText, if_neg, if_neg, ← value, Decimal.toDigits_mul_pow digits]
    · simp
    · omega
    · have := Nat.length_toDigits_pos (b := 10) (n := (Decimal.shortest .away number).digits)
      omega

theorem magnitude_of_units {whole : Int} (counted : number.units = whole * one) :
    number.magnitude = whole.natAbs * one := by
  rw [← Int.natAbs_natCast one, ← Int.natAbs_mul, ← counted, units]
  split <;> simp

/-- A double whose shortest decimal is a whole number is shown as the integer, except a negative zero. -/
theorem displayText_of_whole {whole : Int} (finite : number.isFinite = true)
    (counted : number.units = whole * one)
    (written : 0 < whole.natAbs → (Decimal.shortest .away number).writes whole.natAbs = true)
    (unsigned : whole = 0 → number.isNegative = false) :
    number.displayText = String.ofList (Json.integerText whole) := by
  have magnitude := magnitude_of_units counted
  have sign : number.isNegative = true ↔ whole < 0 := by
    rw [units] at counted
    cases negative : number.isNegative with
    | true =>
      have nonzero : whole ≠ 0 := fun zero => Bool.noConfusion (negative.symm.trans (unsigned zero))
      have positive := Nat.mul_pos (Int.natAbs_pos.mpr nonzero) one_pos
      rw [negative, if_pos rfl] at counted
      have below : whole * one < 0 := by omega
      exact iff_of_true rfl (neg_of_mul_neg_left below (Int.natCast_nonneg one))
    | false =>
      rw [negative, if_neg Bool.false_ne_true] at counted
      have above : 0 ≤ whole * one := by omega
      have nonneg := nonneg_of_mul_nonneg_left above (Int.natCast_pos.mpr one_pos)
      exact iff_of_false Bool.false_ne_true (not_lt.mpr nonneg)
  rw [displayText, if_pos finite, NumberFormat.finiteText,
    magnitudeText_of_whole finite magnitude written, Json.integerText]
  simp only [sign]

end Double

end RowPipeline
