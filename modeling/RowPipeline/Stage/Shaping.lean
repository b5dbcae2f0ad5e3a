import RowPipeline.Expression.Evaluation
import RowPipeline.Stage.Receiver

/-!
Stages that pass rows on as they come: filters, transformations and slices.
-/

namespace RowPipeline

variable {σ δ : Type}

structure FilterStage where
  query : Expression

namespace FilterStage

/-- Whether a row passes; a null does not. -/
def admits (stage : FilterStage) (row : Row) : Except EvaluationFault Bool :=
  match stage.query.evaluate row with
  | .ok (.bool value) => .ok value
  | .ok .null => .ok false
  | .ok other => .error (.predicateType other.type)
  | .error fault => .error fault

def takeRow (next : Receiver σ δ) (row : Row) : Turn σ (FilterStage × δ) Flow := do
  let (stage, _) ← Turn.own
  if ← Turn.evaluated (stage.admits row) then Turn.below (next.takeRow row)
  else return .more

end FilterStage

structure EvalStage where
  outputs : List Expression

namespace EvalStage

def takeRow (next : Receiver σ δ) (row : Row) : Turn σ (EvalStage × δ) Flow := do
  let (stage, _) ← Turn.own
  let outputs ← Turn.evaluated (Expression.evaluateAll stage.outputs row)
  Turn.below (next.takeRow outputs)

end EvalStage

/-- Passes a number of rows after an offset. -/
structure SliceStage where
  toSkip : Nat
  remaining : Nat

namespace SliceStage

def takeRow (next : Receiver σ δ) (row : Row) : Turn σ (SliceStage × δ) Flow := do
  let (stage, below) ← Turn.own
  if 0 < stage.toSkip then
    Turn.setOwn ({ stage with toSkip := stage.toSkip - 1 }, below)
    return .more
  else if stage.remaining = 0 then return .stop
  else
    Turn.setOwn ({ stage with remaining := stage.remaining - 1 }, below)
    let flow ← Turn.below (next.takeRow row)
    return if stage.remaining = 1 then .stop else flow

end SliceStage

end RowPipeline
