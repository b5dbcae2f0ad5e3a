import RowPipeline.Aggregate.Function
import RowPipeline.Double.Arithmetic
import RowPipeline.Error.Fault
import RowPipeline.Value.Order
import RowPipeline.Value.Text

/-!
What an aggregate function remembers of the rows it saw. A state takes single values or the partial
states of other shards, and ends as a partial state or as a final value.
-/

namespace RowPipeline

inductive AggregateState where
  | count (total : Int64)
  | sum (total : Option Value)
  | min (least : Option Value)
  | max (greatest : Option Value)
  | avg (total : Double) (count : Int64)
  | arbitrary (first : Option Value)
  deriving DecidableEq, Inhabited, Repr

namespace AggregateState

def size : Nat := 40

def initial : AggregateFunction → AggregateState
  | .countStar | .count => .count 0
  | .sum => .sum none
  | .min => .min none
  | .max => .max none
  | .avg => .avg (Double.zero false) 0
  | .arbitrary => .arbitrary none

/-- A state after one more value or partial state, and what was wrong with that one, if anything. -/
abbrev Step := AggregateState × Option EvaluationFault

/-- A running sum with one more value that is not null. Integers are added exactly as long as all
values are integers. -/
def plus (total : Option Value) (value : Value) : Except EvaluationFault Value :=
  match total, value with
  | none, .long first => .ok (.long first)
  | none, .double first => .ok (.double first)
  | none, other => .error (.sumType other.type)
  | some (.long left), .long right =>
    match Long.ofInt? (left.toInt + right.toInt) with
    | some exact => .ok (.long exact)
    | none => .error .sumOverflow
  | some total, value =>
    match total.double?, value.double? with
    | some left, some right => .ok (.double (left.add right))
    | _, _ => .error (.sumType value.type)

/-- A state with more rows in its count. A count that would leave its 64 bits stops the program. -/
def tally (counted : Int64 → AggregateState) (rows more : Int64) : Step :=
  match Long.ofInt? (rows.toInt + more.toInt) with
  | some total => (counted total, none)
  | none => (counted rows, some .tallyOverflow)

/-- Takes a value that is not null. A sum that fails forgets what it held. -/
def take (value : Value) : AggregateState → Step
  | .count total => tally .count total 1
  | .sum total =>
    match plus total value with
    | .ok more => (.sum (some more), none)
    | .error fault => (.sum none, some fault)
  | .min least =>
    match least with
    | some current =>
      (.min (some (if value.compare current == .lt then value else current)), none)
    | none => (.min (some value), none)
  | .max greatest =>
    match greatest with
    | some current =>
      (.max (some (if value.compare current == .gt then value else current)), none)
    | none => (.max (some value), none)
  | .avg total rows =>
    match value.double? with
    | some number => tally (.avg (total.add number)) rows 1
    | none => (.avg total rows, some (.averageType value.type))
  | .arbitrary first => (.arbitrary (some (first.getD value)), none)

/-- Takes what a row gives the function: `count(*)` counts the row itself, and all other functions
pass over nulls and over rows that give nothing. -/
def iterate (function : AggregateFunction) (value : Option Value) (state : AggregateState) : Step :=
  match function, state, value with
  | .countStar, .count total, _ => tally .count total 1
  | .countStar, state, _ => (state, none)
  | _, state, none => (state, none)
  | _, state, some .null => (state, none)
  | _, state, some value => state.take value

/-- Merges a partial state; null is the partial state of no rows. The sum of an average is merged
before its count is looked at. -/
def reduce (function : AggregateFunction) (partialState : Value) (state : AggregateState) : Step :=
  let fault : EvaluationFault := .partialState function partialState.display
  match state, partialState with
  | state, .null => (state, none)
  | .count total, .long more => tally .count total more
  | .count total, _ => (.count total, some fault)
  | .avg total rows, .array [first, second] =>
    match first.double?, second.long? with
    | none, _ => (.avg total rows, some fault)
    | some more, none => (.avg (total.add more) rows, some fault)
    | some more, some further => tally (.avg (total.add more)) rows further
  | .avg total rows, _ => (.avg total rows, some fault)
  | state, value => state.iterate function (some value)

def final : AggregateState → Value
  | .count total => .long total
  | .sum value | .min value | .max value | .arbitrary value => value.getD .null
  | .avg total rows =>
    if rows == 0 then .null else .double (total.div (Double.ofInt rows.toInt))

/-- The state as a cell that another shard can merge. Only an average differs from its result. -/
def partialValue : AggregateState → Value
  | .avg total rows => .array [.double total, .long rows]
  | other => other.final

end AggregateState

end RowPipeline
