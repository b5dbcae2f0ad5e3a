import RowPipeline.Double.Basic

/-!
Rounding of exact quotients to the nearest double, with ties to the even significand. All
arithmetic on doubles and all reading of decimals goes through `ofRatio`.
-/

namespace RowPipeline

namespace Double

def roundedQuotient (numerator denominator : Nat) : Nat :=
  let quotient := numerator / denominator
  let remainder := numerator % denominator
  if 2 * remainder < denominator then quotient
  else if denominator < 2 * remainder then quotient + 1
  else quotient + quotient % 2

/-- The double nearest to `numerator / denominator`, with the given sign. A quotient that rounds
beyond the greatest finite number becomes infinite. -/
def ofRatio (negative : Bool) (numerator denominator : Nat) : Double :=
  let scaled := numerator * one
  let shift := Nat.log2 (scaled / denominator) - 52
  let pattern := shift * fractionCount + roundedQuotient scaled (denominator <<< shift)
  if 2047 * fractionCount ≤ pattern then infinity negative
  else ⟨UInt64.ofNat (pattern + if negative then signBit else 0)⟩

def ofInt (number : Int) : Double := ofRatio (number < 0) number.natAbs 1

/-- The double nearest to `digits * 10 ^ exponent`; `none` if it is too great to be finite.
Exponents far outside the range of doubles are settled by the count of digits alone. Readers of
numbers that trade exactness for speed may end up one place beside the nearest double, and then not
every double is read back from its own text: whatever is said about texts that are read back assumes
a reader that is as exact as this one. -/
def ofDecimal? (negative : Bool) (digits : Nat) (exponent : Int) : Option Double :=
  let digitCount : Int := (Nat.toDigits 10 digits).length
  if digits = 0 then some (zero negative)
  else if 400 < digitCount + exponent then none
  else if digitCount + exponent < -400 then some (zero negative)
  else
    let number :=
      if 0 ≤ exponent then ofRatio negative (digits * Nat.pow 10 exponent.toNat) 1
      else ofRatio negative digits (Nat.pow 10 (-exponent).toNat)
    if number.isFinite then some number else none

end Double

end RowPipeline
