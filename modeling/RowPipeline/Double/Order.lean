import RowPipeline.Double.Rounding

/-!
Comparisons of doubles: by magnitude, where NaN cannot be compared, and by bit pattern, where every
double has a place of its own.
-/

namespace RowPipeline

namespace Double

/-- 2 to the power 63, the least double above all integers of 64 bits. -/
def longEnd : Double := ⟨0x43e0000000000000⟩

def normalized (number : Double) : Double := ⟨number.normalizedBits⟩

def comparePositions (left right : Int × Int) : Ordering :=
  (compare left.1 right.1).then (compare left.2 right.2)

/-- Whether a number is less than another. NaN is neither less nor greater than any number. -/
def isBelow (left right : Double) : Bool :=
  !left.isNaN && !right.isNaN && (comparePositions left.position right.position).isLT

/-- The bits as an integer that falls as the magnitude of a negative number grows. -/
def pattern (number : Double) : Int :=
  if number.isNegative then (signBit : Int) - 1 - number.bits.toNat else number.bits.toNat

/-- Compares any two doubles by their bits: NaNs lie beyond the infinities of their signs, and negative
zero below zero. -/
def comparePatterns (left right : Double) : Ordering := compare left.pattern right.pattern

def whole (number : Double) : Int := number.units.tdiv one

end Double

end RowPipeline
