import RowPipeline.Value.Basic

/-!
What a hash function is fed with for a cell. Numbers that are equal to an integer are written as
that integer, whichever type they have.
-/

namespace RowPipeline

inductive HashWrite where
  | tag (value : Nat)
  | integer (value : Int)
  | bits (value : UInt64)
  | text (value : String)
  | length (value : Nat)
  deriving DecidableEq, Repr

namespace Value

/-- The integer that stands for a double, if the double is a whole number of 64 bits. -/
def exactLong? (number : Double) : Option Int64 := number.toInt?.bind Long.ofInt?

mutual

def hashWrites : Value → List HashWrite
  | .null => [.tag 0]
  | .bool value => [.tag 1, .integer (if value then 1 else 0)]
  | .long value => [.tag 2, .integer value.toInt]
  | .double value =>
    match exactLong? value with
    | some whole => [.tag 2, .integer whole.toInt]
    | none => [.tag 6, .bits value.normalizedBits]
  | .text value => [.tag 3, .text value]
  | .array items => .tag 4 :: .length items.length :: hashItems items
  | .object fields => .tag 5 :: hashFields fields

def hashItems : List Value → List HashWrite
  | [] => []
  | item :: rest => hashWrites item ++ hashItems rest

def hashField : String × Value → List HashWrite
  | (name, value) => .text name :: hashWrites value

def hashFields : List (String × Value) → List HashWrite
  | [] => []
  | field :: rest => hashField field ++ hashFields rest

end

end Value

end RowPipeline
