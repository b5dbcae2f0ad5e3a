import RowPipeline.Aggregate.Call
import RowPipeline.Stage.Receiver

/-!
Stages that aggregate: over all rows, or over the rows of each key. Groups are kept and emitted in
the order in which their keys first occurred.
-/

namespace RowPipeline

variable {σ δ : Type}

/-- Aggregates over all rows and emits one row. -/
structure AggregateStage where
  states : List (Aggregate × AggregateState)

namespace AggregateStage

def takeRow (row : Row) : Turn σ AggregateStage Flow := do
  let stage ← Turn.own
  let (states, fault) := Aggregate.stepAll row stage.states
  Turn.setOwn ⟨states⟩
  match fault with
  | none => return .more
  | some fault => throw (.evaluation fault)

def finish (next : Receiver σ δ) : Turn σ (AggregateStage × δ) Unit :=
  next.emitOne fun stage => Aggregate.terminateAll stage.states

end AggregateStage

/-- The rows of one key, as the key of the first of them and what was aggregated. -/
structure RowGroup where
  key : Row
  states : List (Aggregate × AggregateState)

namespace RowGroup

def overhead : Nat := 48

def size (key : Row) (aggregates : Nat) : Nat :=
  overhead + Row.size key + AggregateState.size * aggregates

def row (group : RowGroup) : Row := group.key ++ Aggregate.terminateAll group.states

end RowGroup

/-- Aggregates over the rows of each key. -/
structure GroupStage where
  keys : List Expression
  aggregates : List Aggregate
  share : MemoryShare := {}
  groups : List RowGroup := []

namespace GroupStage

def hasGroup (stage : GroupStage) (key : Row) : Bool :=
  stage.groups.any fun group => group.key.same key

def ensureGroup (key : Row) : Turn σ GroupStage Unit := do
  let stage ← Turn.own
  if stage.hasGroup key then return ()
  let share ← Turn.onJob (Job.charge stage.share (RowGroup.size key stage.aggregates.length))
  let group : RowGroup := ⟨key, Aggregate.initialAll stage.aggregates⟩
  Turn.setOwn { stage with share := share, groups := stage.groups ++ [group] }

def stepGroup (key row : Row) : List RowGroup → List RowGroup × Option EvaluationFault
  | [] => ([], none)
  | group :: rest =>
    if group.key.same key then
      let (states, fault) := Aggregate.stepAll row group.states
      ({ group with states := states } :: rest, fault)
    else
      let (rest, fault) := stepGroup key row rest
      (group :: rest, fault)

def takeRow (row : Row) : Turn σ GroupStage Flow := do
  let stage ← Turn.own
  let key ← Turn.evaluated (Expression.evaluateAll stage.keys row)
  ensureGroup key
  let stage ← Turn.own
  let (groups, fault) := stepGroup key row stage.groups
  Turn.setOwn { stage with groups := groups }
  match fault with
  | none => return .more
  | some fault => throw (.evaluation fault)

def rows (stage : GroupStage) : List Row := stage.groups.map RowGroup.row

def clear : GroupStage × Job σ → GroupStage × Job σ
  | (stage, job) =>
    let (share, job) := Job.releaseAll stage.share job
    ({ stage with share := share, groups := [] }, job)

def finish (next : Receiver σ δ) : Turn σ (GroupStage × δ) Unit := next.emitAll rows clear

end GroupStage

end RowPipeline
