import RowPipeline.Expression.Evaluation
import RowPipeline.SortOrder
import RowPipeline.Stage.Receiver

/-!
Stages that sort. Rows are kept as the cells to emit followed by the cells to sort by. Without a
limit all rows are kept and sorted in the end; with one only as many as can still be emitted.
-/

namespace RowPipeline

variable {σ δ : Type}

/-- What is kept of rows, and in which order they are emitted. -/
structure Sorting where
  /-- The columns to emit, then the columns to sort by. -/
  columns : List Expression
  outputs : Nat
  order : SortOrder
  offset : Nat

namespace Sorting

def keep (sorting : Sorting) (row : Row) : Except EvaluationFault Row :=
  Expression.evaluateAll sorting.columns row

def emitted (sorting : Sorting) (kept : Row) : Row := kept.take sorting.outputs

/-- Sorts so that rows of one rank keep their order. -/
def sorted (sorting : Sorting) (rows : List Row) : List Row := rows.mergeSort sorting.order.le

/-- Puts a row behind all rows of a sorted list that do not come after it. -/
def insert (sorting : Sorting) (row : Row) : List Row → List Row
  | [] => [row]
  | other :: rest =>
    if sorting.order.compare row other == .lt then row :: other :: rest
    else other :: sorting.insert row rest

end Sorting

structure SortStage where
  sorting : Sorting
  share : MemoryShare := {}
  newest : List Row := []

namespace SortStage

def takeRow (row : Row) : Turn σ SortStage Flow := do
  let stage ← Turn.own
  let kept ← Turn.evaluated (stage.sorting.keep row)
  let share ← Turn.onJob (Job.charge stage.share (Row.size kept))
  Turn.setOwn { stage with share := share, newest := kept :: stage.newest }
  return .more

def rows (stage : SortStage) : List Row :=
  ((stage.sorting.sorted stage.newest.reverse).drop stage.sorting.offset).map stage.sorting.emitted

def clear : SortStage × Job σ → SortStage × Job σ
  | (stage, job) =>
    let (share, job) := Job.releaseAll stage.share job
    ({ stage with share := share, newest := [] }, job)

def finish (next : Receiver σ δ) : Turn σ (SortStage × δ) Unit := next.emitAll rows clear

end SortStage

/-- Sorts rows and keeps only those that can still be among the first. -/
structure TopStage where
  sorting : Sorting
  limit : Nat
  share : MemoryShare := {}
  best : List Row := []

namespace TopStage

/-- How many rows can still be emitted, as far as rows can be counted. -/
def capacity (stage : TopStage) : Nat :=
  min (stage.limit + stage.sorting.offset) Bucket.greatestSize

/-- What becomes of a stage that is offered a row while it is full: nothing if the row does not come
before the last one, which otherwise has to go. -/
inductive Offer where
  | declined
  | accepted
  | replacing (last : Row)

def offer (stage : TopStage) (kept : Row) : Offer :=
  if stage.best.length < stage.capacity then .accepted
  else
    match stage.best.getLast? with
    | none => .declined
    | some last =>
      if stage.sorting.order.compare kept last == .lt then .replacing last else .declined

/-- Keeps a row, once it could be charged. -/
def keep (kept : Row) : Turn σ TopStage Unit := do
  let stage ← Turn.own
  let share ← Turn.onJob (Job.charge stage.share (Row.size kept))
  Turn.setOwn { stage with share := share, best := stage.sorting.insert kept stage.best }

def evict (last : Row) : TopStage × Job σ → TopStage × Job σ
  | (stage, job) =>
    let (share, job) := Job.release stage.share (Row.size last) job
    ({ stage with share := share, best := stage.best.dropLast }, job)

def takeRow (row : Row) : Turn σ TopStage Flow := do
  let stage ← Turn.own
  let kept ← Turn.evaluated (stage.sorting.keep row)
  match stage.offer kept with
  | .declined => return .more
  | .accepted =>
    keep kept
    return .more
  | .replacing last =>
    Turn.ofState fun state => ((), evict last state)
    keep kept
    return .more

def rows (stage : TopStage) : List Row :=
  ((stage.best.drop stage.sorting.offset).take stage.limit).map stage.sorting.emitted

def clear : TopStage × Job σ → TopStage × Job σ
  | (stage, job) =>
    let (share, job) := Job.releaseAll stage.share job
    ({ stage with share := share, best := [] }, job)

def finish (next : Receiver σ δ) : Turn σ (TopStage × δ) Unit := next.emitAll rows clear

end TopStage

end RowPipeline
