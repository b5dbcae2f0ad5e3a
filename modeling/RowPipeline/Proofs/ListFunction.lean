import Mathlib.Algebra.Ring.Int.Defs
import RowPipeline.Projection.Basic
import RowPipeline.SortOrder

/-!
What projections that only look at rows make of a whole list of rows. These functions know nothing of
stages: they are what a plan means, not how it is run.
-/

namespace RowPipeline

namespace Symbol

/-- Whether a query is true on a row; a null is not. -/
def holds (query : Symbol) (row : Row) : Except EvaluationFault Bool := do
  match ← query.evaluate row with
  | .bool value => return value
  | .null => return false
  | other => throw (.predicateType other.type)

def filterRows (query : Symbol) : List Row → Except EvaluationFault (List Row)
  | [] => return []
  | row :: rest => do
    let passes ← query.holds row
    let others ← query.filterRows rest
    return if passes then row :: others else others

end Symbol

namespace OrderedTopN

/-- The cells that are emitted of a row, and those it is sorted by. -/
def rank (parameters : OrderedTopN) (row : Row) : Except EvaluationFault (Row × Row) := do
  let outputs ← Symbol.evaluateAll row parameters.outputs
  let keys ← Symbol.evaluateAll row parameters.orderBy
  return (outputs, keys)

/-- A sort key with its flags. -/
def keyColumn (parameters : OrderedTopN) (position : Nat) : SortColumn :=
  let reverse := parameters.reverseFlags.getD position false
  ⟨position, reverse, parameters.nullsFirst.getD position reverse⟩

def keyOrder (parameters : OrderedTopN) : SortOrder :=
  (List.range parameters.orderBy.length).map parameters.keyColumn

def sortRows (parameters : OrderedTopN) (rows : List Row) :
    Except EvaluationFault (List (Row × Row)) := do
  let ranked ← rows.mapM parameters.rank
  return ranked.mergeSort fun left right => parameters.keyOrder.le left.2 right.2

/-- As many rows as there may be, without a limit all. -/
def limited (limit : Option Nat) (rows : List Row) : List Row :=
  match limit with
  | none => rows
  | some limit => rows.take limit

def sliceRows (parameters : OrderedTopN) (rows : List Row) :
    Except EvaluationFault (List Row) := do
  let sorted ← parameters.sortRows rows
  return limited parameters.limit ((sorted.drop parameters.offset).map (·.1))

end OrderedTopN

namespace AggregateCall

/-- The state of a call that is given a value, or a partial state where the mode says so. -/
def take (call : AggregateCall) (mode : AggregateMode) (value : Option Value)
    (state : AggregateState) : Except EvaluationFault AggregateState :=
  let step :=
    if mode.consumesPartials then state.reduce call.function (value.getD .null)
    else state.iterate call.function value
  match step with
  | (state, none) => .ok state
  | (_, some fault) => .error fault

def step (call : AggregateCall) (mode : AggregateMode) (state : AggregateState) (row : Row) :
    Except EvaluationFault AggregateState := do
  let value ← call.inputs.head?.mapM (·.evaluate row)
  call.take mode value state

def fold (call : AggregateCall) (mode : AggregateMode) (rows : List Row) :
    Except EvaluationFault AggregateState :=
  rows.foldlM (call.step mode) (.initial call.function)

def resultOf (mode : AggregateMode) (state : AggregateState) : Value :=
  if mode.producesPartials then state.partialValue else state.final

/-- The one row with the results of all calls. -/
def aggregateRows (calls : List AggregateCall) (mode : AggregateMode) (rows : List Row) :
    Except EvaluationFault (List Row) := do
  let states ← calls.mapM (·.fold mode rows)
  return [states.map (resultOf mode)]

end AggregateCall

namespace Counts

/-- The count that a row stands for; a null counts nothing. -/
def ofRow : Row → Except EvaluationFault Int
  | [] => throw .countOfEmptyRow
  | .null :: _ => return 0
  | .long count :: _ => return count.toInt
  | other :: _ => throw (.countType other.type)

/-- The one row with the sum of all counts, as far as it has 64 bits. -/
def sumRows (rows : List Row) : Except EvaluationFault (List Row) := do
  let counts ← rows.mapM ofRow
  match Long.ofInt? counts.sum with
  | some total => return [[.long total]]
  | none => throw .countOverflow

/-- Whether the first rows, however many, have a sum of counts. -/
def Bounded (rows : List Row) : Prop :=
  ∀ length ≤ rows.length, (sumRows (rows.take length)).isOk = true

instance (rows : List Row) : Decidable (Bounded rows) :=
  inferInstanceAs (Decidable (∀ length ≤ rows.length, _))

end Counts

namespace Projection

/-- What a projection makes of all rows, if it only looks at rows. -/
def listFunction? : Projection → Option (List Row → Except EvaluationFault (List Row))
  | .filter query => some query.filterRows
  | .eval outputs => some fun rows => rows.mapM (Symbol.evaluateAll · outputs)
  | .topN limit offset => some fun rows => return (rows.drop offset).take limit
  | .orderedTopN parameters => some parameters.sliceRows
  | .aggregation calls mode => some (AggregateCall.aggregateRows calls mode)
  | .mergeCount => some Counts.sumRows
  | _ => none

/-- What a plan makes of all rows, where the list functions of its projections succeed one after the
other. -/
inductive ListMeaning : List Projection → List Row → List Row → Prop where
  | nil : ListMeaning [] rows rows
  | cons : projection.listFunction? = some function → function rows = .ok middle →
      ListMeaning plan middle out → ListMeaning (projection :: plan) rows out

/-- Wherever a plan merges counts, no sum of the first of them is too great, whatever the sum of all. -/
def CountsBounded (plan : List Projection) (rows : List Row) : Prop :=
  ∀ before after middle, plan = before ++ .mergeCount :: after → ListMeaning before rows middle →
    Counts.Bounded middle

end Projection

end RowPipeline
