import RowPipeline.Log.Severity

/-!
The events that the execution of plans reports.
-/

namespace RowPipeline

inductive Event where
  | configLoaded
  | stageCompiled
  | stageFinished
  | stageFailed
  | bulkDispatched
  | bulkFailed
  | admissionWait
  | indexCreated
  | fetchPartial
  | memoryLimitExceeded
  | fileWriterClosed
  deriving DecidableEq, Repr

namespace Event

def name : Event → String
  | .configLoaded => "CONFIG_LOADED"
  | .stageCompiled => "STAGE_COMPILED"
  | .stageFinished => "STAGE_FINISHED"
  | .stageFailed => "STAGE_FAILED"
  | .bulkDispatched => "BULK_DISPATCHED"
  | .bulkFailed => "BULK_FAILED"
  | .admissionWait => "ADMISSION_WAIT"
  | .indexCreated => "INDEX_CREATED"
  | .fetchPartial => "FETCH_PARTIAL"
  | .memoryLimitExceeded => "MEMORY_LIMIT_EXCEEDED"
  | .fileWriterClosed => "FILE_WRITER_CLOSED"

def all : List Event :=
  [.configLoaded, .stageCompiled, .stageFinished, .stageFailed, .bulkDispatched, .bulkFailed,
    .admissionWait, .indexCreated, .fetchPartial, .memoryLimitExceeded, .fileWriterClosed]

def isFailure (event : Event) : Bool := event == .stageFailed || event == .memoryLimitExceeded

/-- Failures are errors; everything else is detail. -/
def severity (event : Event) : Severity := if event.isFailure then .error else .trace

end Event

end RowPipeline
