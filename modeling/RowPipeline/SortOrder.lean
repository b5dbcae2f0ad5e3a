import RowPipeline.Error.Basic
import RowPipeline.Row

/-!
The order in which rows are sorted. Columns are compared one after the other; each has its own
direction and its own place for nulls, and the direction does not move the nulls.
-/

namespace RowPipeline

structure SortColumn where
  index : Nat
  /-- Whether greater cells come first. -/
  reverse : Bool
  nullsFirst : Bool
  deriving DecidableEq, Repr

namespace SortColumn

def compareCells (column : SortColumn) (left right : Value) : Ordering :=
  match left.isNull, right.isNull with
  | true, true => .eq
  | true, false => if column.nullsFirst then .lt else .gt
  | false, true => if column.nullsFirst then .gt else .lt
  | false, false => if column.reverse then right.compare left else left.compare right

def compare (column : SortColumn) (left right : Row) : Ordering :=
  column.compareCells (left.getD column.index .null) (right.getD column.index .null)

end SortColumn

abbrev SortOrder := List SortColumn

namespace SortOrder

/-- Flags are given for all columns or for none. -/
def checkFlags (name : String) (flags : List Bool) (columns : Nat) : Except ParameterFault Unit :=
  if flags.isEmpty || flags.length == columns then .ok ()
  else .error (.flagCount name flags.length columns)

/-- The column at a position. Without flags, cells ascend and nulls come last; nulls come first
where cells descend and nothing else is said. -/
def column (indices : List Nat) (reverseFlags nullsFirst : List Bool) (position : Nat) :
    SortColumn :=
  let reverse := reverseFlags.getD position false
  ⟨indices.getD position 0, reverse, nullsFirst.getD position reverse⟩

def ofFlags (indices : List Nat) (reverseFlags nullsFirst : List Bool) :
    Except ParameterFault SortOrder := do
  checkFlags "reverse_flags" reverseFlags indices.length
  checkFlags "nulls_first" nullsFirst indices.length
  return (List.range indices.length).map (column indices reverseFlags nullsFirst)

/-- The first column in which two rows differ decides. -/
def compare : SortOrder → Row → Row → Ordering
  | [], _, _ => .eq
  | column :: rest, left, right => (column.compare left right).then (compare rest left right)

def le (order : SortOrder) (left right : Row) : Bool := order.compare left right != .gt

end SortOrder

end RowPipeline
