import RowPipeline.Stage.Counting
import RowPipeline.Stage.Exporting
import RowPipeline.Stage.Fetching
import RowPipeline.Stage.Grouping
import RowPipeline.Stage.IndexWriting
import RowPipeline.Stage.Shaping
import RowPipeline.Stage.Sorting

/-!
Stages of every kind behind one interface. A stage takes rows until it is finished or failed, and it
is finished at most once.
-/

namespace RowPipeline

namespace Phase

def row (stage : String) (phase : Phase) : Except ExecutionError Phase :=
  if phase.isTerminal then .error (.invalidState (.rowAfterEnd stage phase)) else .ok .running

def finish (stage : String) (phase : Phase) : Except ExecutionError Phase :=
  if phase.isTerminal then .error (.invalidState (.finishAfterEnd stage phase))
  else .ok .completed

/-- The phase after a failure; nothing if there was one before. -/
def fail? (phase : Phase) : Option Phase := if phase == .failed then none else some .failed

end Phase

inductive StageBody where
  | filter (stage : FilterStage)
  | eval (stage : EvalStage)
  | slice (stage : SliceStage)
  | sort (stage : SortStage)
  | top (stage : TopStage)
  | group (stage : GroupStage)
  | aggregate (stage : AggregateStage)
  | count (stage : CountStage)
  | systemUpdate (stage : SystemUpdateStage)
  | exporting (stage : ExportStage)
  | indexWrite (stage : IndexWriteStage)
  | shardWrite (stage : ShardWriteStage)
  | fetch (stage : FetchStage)

namespace StageBody

variable {σ δ : Type}

def takeRow (services : Services σ) (next : Receiver σ δ) (row : Row) :
    Turn σ (StageBody × δ) Flow := do
  match (← Turn.own).1 with
  | .filter stage => Turn.within .filter stage (FilterStage.takeRow next row)
  | .eval stage => Turn.within .eval stage (EvalStage.takeRow next row)
  | .slice stage => Turn.within .slice stage (SliceStage.takeRow next row)
  | .sort stage => Turn.within .sort stage (Turn.above (SortStage.takeRow row))
  | .top stage => Turn.within .top stage (Turn.above (TopStage.takeRow row))
  | .group stage => Turn.within .group stage (Turn.above (GroupStage.takeRow row))
  | .aggregate stage => Turn.within .aggregate stage (Turn.above (AggregateStage.takeRow row))
  | .count stage => Turn.within .count stage (Turn.above (CountStage.takeRow row))
  | .systemUpdate stage =>
    Turn.within .systemUpdate stage (Turn.above (SystemUpdateStage.takeRow services row))
  | .exporting stage => Turn.within .exporting stage (Turn.above (ExportStage.takeRow row))
  | .indexWrite stage =>
    Turn.within .indexWrite stage (Turn.above (IndexWriteStage.takeRow services row))
  | .shardWrite stage =>
    Turn.within .shardWrite stage (Turn.above (ShardWriteStage.takeRow services row))
  | .fetch stage => Turn.within .fetch stage (FetchStage.takeRow services next row)

/-- Emits what is left and finishes what is behind. -/
def finish (services : Services σ) (next : Receiver σ δ) : Turn σ (StageBody × δ) Unit := do
  match (← Turn.own).1 with
  | .filter _ | .eval _ | .slice _ => Turn.below next.finish
  | .sort stage => Turn.within .sort stage (SortStage.finish next)
  | .top stage => Turn.within .top stage (TopStage.finish next)
  | .group stage => Turn.within .group stage (GroupStage.finish next)
  | .aggregate stage => Turn.within .aggregate stage (AggregateStage.finish next)
  | .count stage => Turn.within .count stage (CountStage.finish next)
  | .systemUpdate stage => Turn.within .systemUpdate stage (SystemUpdateStage.finish next)
  | .exporting stage => Turn.within .exporting stage (ExportStage.finish next)
  | .indexWrite stage => Turn.within .indexWrite stage (IndexWriteStage.finish services next)
  | .shardWrite stage => Turn.within .shardWrite stage (ShardWriteStage.finish services next)
  | .fetch stage => Turn.within .fetch stage (FetchStage.finish services next)

/-- Lets the requests of the stage go on while the cluster is asked for something else. -/
def meanwhile (services : Services σ) : StageBody × Job σ → StageBody × Job σ
  | (.indexWrite stage, job) =>
    let (writer, job) := BulkWriter.exchange services (stage.writer, job)
    (.indexWrite { stage with writer := writer }, job)
  | (.shardWrite stage, job) =>
    let (writer, job) := BulkWriter.exchange services (stage.writer, job)
    (.shardWrite { stage with writer := writer }, job)
  | state => state

def clear (services : Services σ) : StageBody × Job σ → StageBody × Job σ
  | (.sort stage, job) =>
    let (stage, job) := SortStage.clear (stage, job)
    (.sort stage, job)
  | (.top stage, job) =>
    let (stage, job) := TopStage.clear (stage, job)
    (.top stage, job)
  | (.group stage, job) =>
    let (stage, job) := GroupStage.clear (stage, job)
    (.group stage, job)
  | (.fetch stage, job) =>
    let (stage, job) := FetchStage.clear (stage, job)
    (.fetch stage, job)
  | (.exporting stage, job) => (.exporting { stage with output := none }, job)
  | (.indexWrite stage, job) =>
    let (writer, job) := BulkWriter.abandon services (stage.writer, job)
    (.indexWrite { stage with writer := writer }, job)
  | (.shardWrite stage, job) =>
    let (writer, job) := BulkWriter.abandon services (stage.writer, job)
    (.shardWrite { stage with writer := writer }, job)
  | state => state

/-- Lets go of the stage: the job gets back what the stage still holds. -/
def dispose : StageBody → Job σ → Job σ
  | .sort stage, job => (SortStage.clear (stage, job)).2
  | .top stage, job => (TopStage.clear (stage, job)).2
  | .group stage, job => (GroupStage.clear (stage, job)).2
  | .fetch stage, job => (FetchStage.clear (stage, job)).2
  | .indexWrite stage, job => (BulkWriter.cancel (stage.writer, job)).2
  | .shardWrite stage, job => (BulkWriter.cancel (stage.writer, job)).2
  | _, job => job

end StageBody

structure Stage where
  kind : StageKind
  body : StageBody
  phase : Phase := .created

namespace Stage

variable {σ δ : Type}

def inBody {α : Type} (turn : Turn σ (StageBody × δ) α) : Turn σ (Stage × δ) α := do
  let (stage, _) ← Turn.own
  Turn.within (fun body => { stage with body := body }) stage.body turn

def takeRow (services : Services σ) (next : Receiver σ δ) (row : Row) :
    Turn σ (Stage × δ) Flow := do
  let (stage, below) ← Turn.own
  let phase ← Turn.ofExcept (stage.phase.row stage.kind.name)
  Turn.setOwn ({ stage with phase := phase }, below)
  inBody (StageBody.takeRow services next row)

def finish (services : Services σ) (next : Receiver σ δ) : Turn σ (Stage × δ) Unit := do
  let (stage, below) ← Turn.own
  let phase ← Turn.ofExcept (stage.phase.finish stage.kind.name)
  Turn.setOwn ({ stage with phase := phase }, below)
  inBody (StageBody.finish services next)

def meanwhile (services : Services σ) (next : Receiver σ δ) :
    (Stage × δ) × Job σ → (Stage × δ) × Job σ
  | ((stage, below), job) =>
    let (body, job) := StageBody.meanwhile services (stage.body, job)
    let (below, job) := next.meanwhile (below, job)
    (({ stage with body := body }, below), job)

/-- A failure is passed on once. -/
def fail (services : Services σ) (next : Receiver σ δ) (error : ExecutionError) :
    (Stage × δ) × Job σ → (Stage × δ) × Job σ
  | ((stage, below), job) =>
    match stage.phase.fail? with
    | none => ((stage, below), job)
    | some phase =>
      let (body, job) := StageBody.clear services (stage.body, job)
      let (below, job) := next.fail error (below, job)
      (({ stage with phase := phase, body := body }, below), job)

def receiver (services : Services σ) (next : Receiver σ δ) : Receiver σ (Stage × δ) where
  attached _ := true
  takeRow := takeRow services next
  finish := finish services next
  meanwhile := meanwhile services next
  fail := fail services next

end Stage

end RowPipeline
