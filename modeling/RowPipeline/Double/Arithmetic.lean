import RowPipeline.Double.Rounding

/-!
Correctly rounded arithmetic on doubles: each operation computes its exact result from integers
and rounds it once.
-/

namespace RowPipeline

namespace Double

/-- A sum that is zero keeps its sign only if both terms were negative. -/
def add (left right : Double) : Double :=
  if left.isNaN || right.isNaN then nan
  else if left.isInfinite then
    if right.isInfinite && left.isNegative != right.isNegative then nan else left
  else if right.isInfinite then right
  else
    let sum := left.units + right.units
    if sum = 0 then zero (left.isNegative && right.isNegative)
    else ofRatio (sum < 0) sum.natAbs one

def sub (left right : Double) : Double := left.add right.negate

def mul (left right : Double) : Double :=
  let negative := left.isNegative != right.isNegative
  if left.isNaN || right.isNaN then nan
  else if left.isInfinite || right.isInfinite then
    if left.isZero || right.isZero then nan else infinity negative
  else ofRatio negative (left.magnitude * right.magnitude) (one * one)

def div (left right : Double) : Double :=
  let negative := left.isNegative != right.isNegative
  if left.isNaN || right.isNaN then nan
  else if left.isInfinite then
    if right.isInfinite then nan else infinity negative
  else if right.isInfinite then zero negative
  else if right.isZero then
    if left.isZero then nan else infinity negative
  else ofRatio negative left.magnitude right.magnitude

end Double

end RowPipeline
