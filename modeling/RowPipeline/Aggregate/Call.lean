import RowPipeline.Aggregate.State
import RowPipeline.Expression.Evaluation

/-!
Aggregate calls of a plan, and the compiled calls that stages run on rows.
-/

namespace RowPipeline

structure AggregateCall where
  function : AggregateFunction
  inputs : List Symbol
  deriving Repr, BEq

/-- The number of inputs a function takes: a merged partial state is always one column. -/
def AggregateFunction.inputCount (function : AggregateFunction) (mode : AggregateMode) : Nat :=
  if mode.consumesPartials then 1 else function.arity

/-- A compiled call: the function with the expression of its input, if it has one. -/
structure Aggregate where
  function : AggregateFunction
  mode : AggregateMode
  input : Option Expression

namespace Aggregate

def compile (mode : AggregateMode) (call : AggregateCall) : Except ExecutionError Aggregate := do
  let expected := call.function.inputCount mode
  if call.inputs.length != expected then
    throw (.invalidParameter (.aggregateInputs call.function expected mode call.inputs.length))
  let input ← Expression.compileOption call.inputs.head?
  return ⟨call.function, mode, input⟩

def compileAll (mode : AggregateMode) (calls : List AggregateCall) :
    Except ExecutionError (List Aggregate) :=
  calls.mapM (compile mode)

def initial (aggregate : Aggregate) : AggregateState := .initial aggregate.function

def inputValue (aggregate : Aggregate) (row : Row) : Except EvaluationFault (Option Value) :=
  match aggregate.input with
  | some expression => (expression.evaluate row).map some
  | none => .ok none

def step (aggregate : Aggregate) (row : Row) (state : AggregateState) : AggregateState.Step :=
  match aggregate.inputValue row with
  | .error fault => (state, some fault)
  | .ok value =>
    if aggregate.mode.consumesPartials then
      state.reduce aggregate.function (value.getD .null)
    else state.iterate aggregate.function value

/-- The cell that stands for the rows seen: a partial state or a result, as the mode asks. -/
def terminate (aggregate : Aggregate) (state : AggregateState) : Value :=
  if aggregate.mode.producesPartials then state.partialValue else state.final

/-- One step of several calls on the same row. The calls after one that fails are not run. -/
def stepAll (row : Row) :
    List (Aggregate × AggregateState) → List (Aggregate × AggregateState) × Option EvaluationFault
  | [] => ([], none)
  | (aggregate, state) :: rest =>
    match aggregate.step row state with
    | (state, some fault) => ((aggregate, state) :: rest, some fault)
    | (state, none) =>
      let (rest, fault) := stepAll row rest
      ((aggregate, state) :: rest, fault)

def initialAll (aggregates : List Aggregate) : List (Aggregate × AggregateState) :=
  aggregates.map fun aggregate => (aggregate, aggregate.initial)

def terminateAll (states : List (Aggregate × AggregateState)) : List Value :=
  states.map fun (aggregate, state) => aggregate.terminate state

end Aggregate

end RowPipeline
