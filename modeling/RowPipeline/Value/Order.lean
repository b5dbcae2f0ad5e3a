import RowPipeline.Double.Order
import RowPipeline.Value.Basic

/-!
The total order of cells: null, booleans, numbers, texts, arrays, objects. Numbers of both types
compare by their exact magnitudes, and NaN lies above all other numbers.
-/

namespace RowPipeline

namespace Value

/-- The place of a type in the order; both types of numbers share one. -/
def rank : Value → Nat
  | .null => 0
  | .bool _ => 1
  | .long _ => 2
  | .double _ => 2
  | .text _ => 3
  | .array _ => 4
  | .object _ => 5

/-- Compares an integer with a double without rounding the integer: doubles beyond all integers first,
then the integer with the whole part of the double, then that part with the double itself. -/
def compareLongDouble (long : Int64) (number : Double) : Ordering :=
  let number := number.normalized
  if number.isNaN then (Double.ofInt long.toInt).comparePatterns number
  else if !number.isBelow .longEnd then .lt
  else if number.isBelow Double.longEnd.negate then .gt
  else
    (Ord.compare long.toInt number.whole).then
      (Ord.compare (number.whole * Double.one) number.units)

mutual

def compare : Value → Value → Ordering
  | .bool left, .bool right => Ord.compare left right
  | .long left, .long right => Ord.compare left.toInt right.toInt
  | .long left, .double right => compareLongDouble left right
  | .double left, .long right => (compareLongDouble right left).swap
  | .double left, .double right => left.normalized.comparePatterns right.normalized
  | .text left, .text right => Ord.compare left right
  | .array left, .array right => compareItems left right
  | .object left, .object right => compareFields left right
  | left, right => Ord.compare left.rank right.rank

def compareItems : List Value → List Value → Ordering
  | [], [] => .eq
  | [], _ :: _ => .lt
  | _ :: _, [] => .gt
  | left :: lefts, right :: rights => (compare left right).then (compareItems lefts rights)

def compareField : String × Value → String × Value → Ordering
  | (name, left), (other, right) => (Ord.compare name other).then (compare left right)

def compareFields : List (String × Value) → List (String × Value) → Ordering
  | [], [] => .eq
  | [], _ :: _ => .lt
  | _ :: _, [] => .gt
  | left :: lefts, right :: rights => (compareField left right).then (compareFields lefts rights)

end

/-- Cells are the same if the order does not tell them apart, as with `1` and `1.0`. -/
def same (left right : Value) : Bool := compare left right == .eq

end Value

end RowPipeline
