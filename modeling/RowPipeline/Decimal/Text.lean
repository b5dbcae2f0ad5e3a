import RowPipeline.Decimal.Shortest

/-!
Text of doubles. Two formats share the digits and differ in layout: the plain one never writes an
exponent, the data one always shows that a number is not an integer.
-/

namespace RowPipeline

structure NumberFormat where
  /-- The least and the greatest decimal exponent written without an exponent part, if bounded. -/
  positional : Option (Int × Int)
  /-- Whether an integral number is written with a zero after the point. -/
  keepsPoint : Bool
  tie : Tie

namespace NumberFormat

/-- People read numbers without exponents, and whole numbers without a point. -/
def plain : NumberFormat := ⟨none, false, .away⟩

/-- Data files write exponents outside of 1e-5 to 1e16 and keep a point in whole numbers. -/
def data : NumberFormat := ⟨some (-5, 15), true, .toEven⟩

def zeros (count : Nat) : List Char := List.replicate count '0'

def positionalText (format : NumberFormat) (digits : List Char) (point : Int) : List Char :=
  if point ≤ 0 then '0' :: '.' :: zeros (-point).toNat ++ digits
  else if point < digits.length then
    digits.take point.toNat ++ '.' :: digits.drop point.toNat
  else
    digits ++ zeros (point - digits.length).toNat ++ (if format.keepsPoint then ['.', '0'] else [])

/-- One digit before the point, and an exponent that always has a sign. -/
def scientificText (digits : List Char) (exponent : Int) : List Char :=
  let significand :=
    match digits with
    | first :: second :: rest => first :: '.' :: second :: rest
    | short => short
  let sign := if exponent < 0 then '-' else '+'
  significand ++ 'e' :: sign :: Nat.toDigits 10 exponent.natAbs

def magnitudeText (format : NumberFormat) (number : Double) : List Char :=
  if number.isZero then format.positionalText ['0'] 1
  else
    let decimal := Decimal.shortest format.tie number
    let digits := Nat.toDigits 10 decimal.digits
    let point := decimal.exponent + digits.length
    match format.positional with
    | none => format.positionalText digits point
    | some (least, greatest) =>
      if least ≤ point - 1 && point - 1 ≤ greatest then format.positionalText digits point
      else scientificText digits (point - 1)

def finiteText (format : NumberFormat) (number : Double) : List Char :=
  if number.isNegative then '-' :: format.magnitudeText number else format.magnitudeText number

end NumberFormat

namespace Double

/-- The text shown to people: infinities and NaN have names. -/
def displayText (number : Double) : String :=
  if number.isFinite then String.ofList (NumberFormat.plain.finiteText number)
  else if number.isNaN then "NaN"
  else if number.isNegative then "-inf"
  else "inf"

end Double

end RowPipeline
