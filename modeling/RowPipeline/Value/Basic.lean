import RowPipeline.Dictionary
import RowPipeline.Double.Rounding

/-!
Cells of a row. A cell has a type of its own; numbers come as 64-bit integers and as doubles.
-/

namespace RowPipeline

namespace Long

/-- An integer as 64 bits, if it is in their range. -/
def ofInt? (value : Int) : Option Int64 :=
  if -0x8000000000000000 ≤ value && value < 0x8000000000000000 then some (Int64.ofInt value)
  else none

end Long

inductive Value where
  | null
  | bool (value : Bool)
  | long (value : Int64)
  | double (value : Double)
  | text (value : String)
  | array (items : List Value)
  /-- The fields have ascending names. -/
  | object (fields : List (String × Value))
  deriving Inhabited, Repr

inductive ValueType where
  | null
  | boolean
  | long
  | double
  | text
  | array
  | object
  deriving DecidableEq, Repr

def ValueType.name : ValueType → String
  | .null => "null"
  | .boolean => "boolean"
  | .long => "long"
  | .double => "double"
  | .text => "text"
  | .array => "array"
  | .object => "object"

abbrev Fields := Dictionary String Value

namespace Value

mutual

def decEq : (left right : Value) → Decidable (left = right)
  | .null, .null => isTrue rfl
  | .bool left, .bool right => decidable_of_iff (left = right) (by simp)
  | .long left, .long right => decidable_of_iff (left = right) (by simp)
  | .double left, .double right => decidable_of_iff (left = right) (by simp)
  | .text left, .text right => decidable_of_iff (left = right) (by simp)
  | .array left, .array right =>
    have := decEqItems left right
    decidable_of_iff (left = right) (by simp)
  | .object left, .object right =>
    have := decEqFields left right
    decidable_of_iff (left = right) (by simp)
  | .null, .bool _ | .null, .long _ | .null, .double _ | .null, .text _ | .null, .array _
  | .null, .object _ | .bool _, .null | .bool _, .long _ | .bool _, .double _ | .bool _, .text _
  | .bool _, .array _ | .bool _, .object _ | .long _, .null | .long _, .bool _ | .long _, .double _
  | .long _, .text _ | .long _, .array _ | .long _, .object _ | .double _, .null
  | .double _, .bool _ | .double _, .long _ | .double _, .text _ | .double _, .array _
  | .double _, .object _ | .text _, .null | .text _, .bool _ | .text _, .long _
  | .text _, .double _ | .text _, .array _ | .text _, .object _ | .array _, .null
  | .array _, .bool _ | .array _, .long _ | .array _, .double _ | .array _, .text _
  | .array _, .object _ | .object _, .null | .object _, .bool _ | .object _, .long _
  | .object _, .double _ | .object _, .text _ | .object _, .array _ => isFalse nofun

def decEqItems : (left right : List Value) → Decidable (left = right)
  | [], [] => isTrue rfl
  | [], _ :: _ | _ :: _, [] => isFalse nofun
  | left :: more, right :: others =>
    have := decEq left right
    have := decEqItems more others
    decidable_of_iff (left = right ∧ more = others) (by simp)

def decEqField : (left right : String × Value) → Decidable (left = right)
  | (name, left), (other, right) =>
    have := decEq left right
    decidable_of_iff (name = other ∧ left = right) (by simp)

def decEqFields : (left right : List (String × Value)) → Decidable (left = right)
  | [], [] => isTrue rfl
  | [], _ :: _ | _ :: _, [] => isFalse nofun
  | left :: more, right :: others =>
    have := decEqField left right
    have := decEqFields more others
    decidable_of_iff (left = right ∧ more = others) (by simp)

end

instance : DecidableEq Value := decEq

def type : Value → ValueType
  | .null => .null
  | .bool _ => .boolean
  | .long _ => .long
  | .double _ => .double
  | .text _ => .text
  | .array _ => .array
  | .object _ => .object

def isNull : Value → Bool
  | .null => true
  | _ => false

def bool? : Value → Option Bool
  | .bool value => some value
  | _ => none

def long? : Value → Option Int64
  | .long value => some value
  | _ => none

/-- A number as a double; an integer is rounded to the nearest. -/
def double? : Value → Option Double
  | .long value => some (Double.ofInt value.toInt)
  | .double value => some value
  | _ => none

def text? : Value → Option String
  | .text value => some value
  | _ => none

/-- Bytes counted for every cell, whatever it holds. -/
def overhead : Nat := 32

mutual

def size : Value → Nat
  | .text value => overhead + value.utf8ByteSize
  | .array items => overhead + sizeOfItems items
  | .object fields => overhead + sizeOfFields fields
  | _ => overhead

def sizeOfItems : List Value → Nat
  | [] => 0
  | item :: rest => size item + sizeOfItems rest

def sizeOfField : String × Value → Nat
  | (name, value) => name.utf8ByteSize + size value

def sizeOfFields : List (String × Value) → Nat
  | [] => 0
  | field :: rest => sizeOfField field + sizeOfFields rest

end

end Value

end RowPipeline
