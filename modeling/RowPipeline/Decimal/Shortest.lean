import RowPipeline.Double.Basic

/-!
The shortest decimal that reads back as a given double. The interval of numbers that round to the
double is compared with the decimal grids from coarse to fine; the first grid with a point inside
the interval gives the digits.
-/

namespace RowPipeline

/-- A positive decimal `digits * 10 ^ exponent`. -/
structure Decimal where
  digits : Nat
  exponent : Int
  deriving DecidableEq, Repr

inductive Tie where
  | toEven
  | away
  deriving DecidableEq, Repr

namespace Decimal

/-- The numbers that round to a positive double, in quarters of the least positive double. -/
structure Interval where
  lower : Nat
  middle : Nat
  upper : Nat
  closed : Bool

/-- Half of the gap to each neighbour belongs to a double; its ends do if the significand is
even. The gap below a power of two is half as wide as the gap above it. -/
def Interval.ofDouble (number : Double) : Interval :=
  let unit := 1 <<< number.shift
  let middle := 4 * number.significand * unit
  let narrow := number.significand == Double.fractionCount && 1 < number.exponentField
  { lower := middle - (if narrow then unit else 2 * unit)
    middle
    upper := middle + 2 * unit
    closed := number.significand % 2 == 0 }

def quarters : Nat := 4 * Double.one

/-- A number of quarters as a fraction with the grid's step as unit:
`(numerator, denominator)` of `count / step`, where a step is `10 ^ exponent`. -/
def inSteps (exponent : Int) (count : Nat) : Nat × Nat :=
  if 0 ≤ exponent then (count, quarters * Nat.pow 10 exponent.toNat)
  else (count * Nat.pow 10 (-exponent).toNat, quarters)

/-- Whether the point `count * 10 ^ exponent` of a grid lies in the interval. -/
def Interval.contains (interval : Interval) (exponent : Int) (count : Nat) : Bool :=
  let (lower, denominator) := inSteps exponent interval.lower
  let (upper, _) := inSteps exponent interval.upper
  if interval.closed then lower ≤ count * denominator && count * denominator ≤ upper
  else lower < count * denominator && count * denominator < upper

/-- The nearest of the two grid points around the middle that lie in the interval. -/
def onGrid? (tie : Tie) (interval : Interval) (exponent : Int) : Option Nat :=
  let (numerator, denominator) := inSteps exponent interval.middle
  let below := numerator / denominator
  let remainder := numerator % denominator
  match interval.contains exponent below, interval.contains exponent (below + 1) with
  | true, false => some below
  | false, true => some (below + 1)
  | false, false => none
  | true, true =>
    if 2 * remainder < denominator then some below
    else if denominator < 2 * remainder then some (below + 1)
    else match tie with
      | .toEven => some (below + below % 2)
      | .away => some (below + 1)

/-- The exponent of the coarsest grid: the least power of ten above the middle. -/
def coarsestExponent (interval : Interval) : Int :=
  let whole := interval.middle / quarters
  if 0 < whole then (Nat.toDigits 10 whole).length
  else
    let scaled := interval.middle * Nat.pow 10 330 / quarters
    ((Nat.toDigits 10 scaled).length : Int) - 330

def refine (tie : Tie) (interval : Interval) : Nat → Int → Decimal
  | 0, exponent => ⟨(onGrid? tie interval exponent).getD 0, exponent⟩
  | steps + 1, exponent =>
    match onGrid? tie interval exponent with
    | some digits => ⟨digits, exponent⟩
    | none => refine tie interval steps (exponent - 1)

/-- The decimal with the fewest digits that rounds to a finite double other than zero, and the
nearest to it among those. Seventeen digits always suffice. -/
def shortest (tie : Tie) (number : Double) : Decimal :=
  let interval := Interval.ofDouble number
  refine tie interval 17 (coarsestExponent interval)

end Decimal

end RowPipeline
