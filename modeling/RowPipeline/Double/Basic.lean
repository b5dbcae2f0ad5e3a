/-!
Binary floating-point numbers of 64 bits, kept as their bit pattern. A finite number is read as
a whole multiple of the least positive one, so that every question about its magnitude is a
question about integers.
-/

namespace RowPipeline

/-- A 64-bit binary floating-point number: sign, 11 exponent bits and 52 fraction bits. -/
structure Double where
  bits : UInt64
  deriving DecidableEq, Inhabited, Repr

namespace Double

/-- How many values the fraction field has; normal numbers add this to it. -/
def fractionCount : Nat := 0x10000000000000

def exponentCount : Nat := 0x800

def signBit : Nat := 0x8000000000000000

def nan : Double := ⟨0x7ff8000000000000⟩

def zero (negative : Bool) : Double := ⟨if negative then 0x8000000000000000 else 0⟩

def infinity (negative : Bool) : Double :=
  ⟨if negative then 0xfff0000000000000 else 0x7ff0000000000000⟩

def isNegative (number : Double) : Bool := signBit ≤ number.bits.toNat

/-- The exponent field, 0 for subnormal numbers and 2047 for infinities and NaNs. -/
def exponentField (number : Double) : Nat := number.bits.toNat / fractionCount % exponentCount

def fraction (number : Double) : Nat := number.bits.toNat % fractionCount

def isFinite (number : Double) : Bool := number.exponentField != 2047

def isNaN (number : Double) : Bool := !number.isFinite && number.fraction != 0

def isInfinite (number : Double) : Bool := !number.isFinite && number.fraction == 0

/-- The significand of a finite number, with the leading bit that normal numbers leave out. -/
def significand (number : Double) : Nat :=
  if number.exponentField = 0 then number.fraction else fractionCount + number.fraction

/-- How far the significand of a finite number is shifted above the least positive number. -/
def shift (number : Double) : Nat := number.exponentField - 1

def places : Nat := 1074

/-- The magnitude of a finite number, counted in least positive numbers. -/
def magnitude (number : Double) : Nat := number.significand <<< number.shift

def one : Nat := 1 <<< places

/-- A finite number counted in least positive numbers: its exact value times `one`. -/
def units (number : Double) : Int :=
  if number.isNegative then -(number.magnitude : Int) else number.magnitude

def isZero (number : Double) : Bool := number.isFinite && number.magnitude == 0

def negate (number : Double) : Double := ⟨number.bits ^^^ 0x8000000000000000⟩

/-- Where a number stands on the extended line: its side of the finite numbers, then its units.
Both infinities lie outside the finite numbers and NaN lies above all. -/
def position (number : Double) : Int × Int :=
  if number.isFinite then (0, number.units)
  else if number.isNaN then (2, 0)
  else if number.isNegative then (-1, 0)
  else (1, 0)

/-- The integer that a finite number is exactly equal to, if it is one. -/
def toInt? (number : Double) : Option Int :=
  if number.isFinite && number.units % one == 0 then some (number.units / one)
  else none

/-- The bits after every NaN became one NaN and negative zero became zero. -/
def normalizedBits (number : Double) : UInt64 :=
  if number.isNaN then nan.bits else if number.isZero then 0 else number.bits

end Double

end RowPipeline
