import RowPipeline.Export.Shape
import RowPipeline.Stage.Receiver

/-!
The stage that writes rows to a file. The file is made when the first row comes or, if none does, at
the end; the stage emits the number of rows that were written.
-/

namespace RowPipeline

variable {σ δ : Type}

structure ExportStage where
  path : String
  compression : Option Compression
  shape : ExportShape
  overwrites : Fields
  output : Option FilePath := none
  written : Nat := 0

namespace ExportStage

/-- What files answer; a fault fails the stage. -/
def answered {α : Type} : Except FileTree.Fault α → Turn σ ExportStage α
  | .ok value => return value
  | .error fault => throw (.io fault.message)

/-- Makes the file unless it is open. Directories made on the way stay if that fails. -/
def ensureOpen : Turn σ ExportStage FilePath := do
  let stage ← Turn.own
  match stage.output with
  | some path => return path
  | none =>
    let job ← Turn.job
    let (result, files) := job.node.files.create stage.path stage.compression
    Turn.modifyJob (·.withFiles files)
    let path ← answered result
    Turn.setOwn { stage with output := some path }
    return path

def takeRow (row : Row) : Turn σ ExportStage Flow := do
  let stage ← Turn.own
  let line ← Turn.evaluated (stage.shape.line stage.overwrites row)
  let path ← ensureOpen
  let files ← answered ((← Turn.job).node.files.append path line)
  Turn.modifyJob (·.withFiles files)
  let stage ← Turn.own
  Turn.setOwn { stage with written := stage.written + 1 }
  return .more

def closedFields (stage : ExportStage) : List (String × String) :=
  [("path", stage.path), ("rows", toString stage.written)]

def close : Turn σ ExportStage Unit := do
  let path ← ensureOpen
  let stage ← Turn.own
  Turn.setOwn { stage with output := none }
  answered ((← Turn.job).node.files.close path)
  Turn.modifyJob fun job =>
    (job.count fun metrics =>
      { metrics with rowsExported := metrics.rowsExported + stage.written }).report
      .fileWriterClosed stage.closedFields

def finish (next : Receiver σ δ) : Turn σ (ExportStage × δ) Unit := do
  Turn.above close
  next.emitOne fun stage => [.long (Int64.ofNat stage.written)]

end ExportStage

end RowPipeline
