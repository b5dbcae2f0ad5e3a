import RowPipeline.Expression.Evaluation
import RowPipeline.Stage.Receiver

/-!
Stages that emit one number: the sum of counts, and the number of system rows that were updated.
-/

namespace RowPipeline

variable {σ δ : Type}

structure CountStage where
  total : Int64 := 0

namespace CountStage

/-- The total after one more row; nulls count nothing. -/
def plus (total : Int64) : Row → Except EvaluationFault Int64
  | [] => .error .countOfEmptyRow
  | .null :: _ => .ok total
  | .long count :: _ =>
    match Long.ofInt? (total.toInt + count.toInt) with
    | some exact => .ok exact
    | none => .error .countOverflow
  | other :: _ => .error (.countType other.type)

def takeRow (row : Row) : Turn σ CountStage Flow := do
  let stage ← Turn.own
  let total ← Turn.evaluated (plus stage.total row)
  Turn.setOwn ⟨total⟩
  return .more

def finish (next : Receiver σ δ) : Turn σ (CountStage × δ) Unit :=
  next.emitOne fun stage => [.long stage.total]

end CountStage

/-- Assigns cells of system rows. -/
structure SystemUpdateStage where
  relation : String
  key : Expression
  assignments : List (String × Expression)
  updated : Nat := 0

namespace SystemUpdateStage

def takeRow (services : Services σ) (row : Row) : Turn σ SystemUpdateStage Flow := do
  let stage ← Turn.own
  let key ← Turn.evaluated (stage.key.evaluate row)
  let assignments ← Turn.evaluated (Expression.evaluateAssignments stage.assignments row)
  let job ← Turn.job
  let (found, state) := services.updateRow stage.relation key assignments job.node.services
  Turn.modifyJob (·.withServices state)
  if found then Turn.setOwn { stage with updated := stage.updated + 1 }
  return .more

def finish (next : Receiver σ δ) : Turn σ (SystemUpdateStage × δ) Unit :=
  next.emitOne fun stage => [.long (Int64.ofNat stage.updated)]

end SystemUpdateStage

end RowPipeline
