import RowPipeline.Bulk.Writer
import RowPipeline.Index.Address
import RowPipeline.Index.Partition
import RowPipeline.Stage.Receiver

/-!
Stages that write rows as documents of indices, and stages that change or delete documents of the
shard they run on. A row that cannot be written is counted as a failure and does not end the stage.
-/

namespace RowPipeline

variable {σ δ : Type}

inductive Payload where
  /-- A column holds the document, of which some members can be left out. -/
  | source (column : Expression) (includes excludes : Option (List String))
  /-- Columns are put together; an existing document is changed by assignments instead. -/
  | columns (names : List String) (values : List Expression)
      (onDuplicate : Option (List (String × Expression)))

namespace Payload

def isIncluded (includes excludes : Option (List String)) (name : String) : Bool :=
  includes.all (·.contains name) && excludes.all (!·.contains name)

/-- The members of the document that a cell holds. -/
def sourceFields : Value → Except ItemFault Fields
  | .object fields => .ok fields
  | .text text =>
    match Json.parse? text with
    | some (.object members) => .ok (Dictionary.ofList (Value.fieldsOfJson members))
    | some _ => .error .sourceNotObject
    | none => .error (.sourceSyntax "malformed document")
  | other => .error (.sourceType other.type)

def assignmentsOf (row : Row) :
    Option (List (String × Expression)) → Except ItemFault (Option (List (String × Value)))
  | none => .ok none
  | some assignments =>
    match Expression.evaluateAssignments assignments row with
    | .ok values => .ok (some values)
    | .error fault => .error (.evaluation fault)

def operation (row : Row) : Payload → Except ItemFault BulkOperation
  | .source column includes excludes => do
    let cell ← Addressing.evaluate column row
    let fields ← sourceFields cell
    return .index (.object (fields.filter fun (name, _) => isIncluded includes excludes name))
  | .columns names values onDuplicate => do
    let onDuplicate ← assignmentsOf row onDuplicate
    let values ← Addressing.evaluateAll values row
    return .insert names values onDuplicate

end Payload

structure IndexWriteStage where
  naming : IndexNaming
  addressing : Addressing
  payload : Payload
  origin : Option Expression
  result : WriterResult
  writer : BulkWriter

namespace IndexWriteStage

def originOf (stage : IndexWriteStage) (row : Row) : Except EvaluationFault (Option String) :=
  match stage.origin with
  | none => .ok none
  | some expression =>
    match expression.evaluate row with
    | .ok .null => .ok none
    | .ok value => .ok (some value.display)
    | .error fault => .error fault

/-- A row as an item, with the index it belongs to. -/
structure Item where
  address : DocumentAddress
  operation : BulkOperation
  index : String

def itemOf (stage : IndexWriteStage) (fresh : String) (row : Row) : Except ItemFault Item := do
  let address ← stage.addressing.address fresh row
  let operation ← stage.payload.operation row
  match stage.naming.resolve row with
  | .ok index => return ⟨address, operation, index⟩
  | .error fault => throw (.evaluation fault)

/-- The identifier for a row without a primary key. -/
def takeId (stage : IndexWriteStage) (job : Job σ) : String × Job σ :=
  if stage.addressing.needsFreshId then job.freshId else ("", job)

def write (services : Services σ) (row : Row) (stage : IndexWriteStage) (job : Job σ) :
    BulkWriter.State σ :=
  match stage.originOf row with
  | .error fault =>
    BulkWriter.reject services none (ItemFault.evaluation fault).message (stage.writer, job)
  | .ok origin =>
    let (fresh, job) := stage.takeId job
    let state := (stage.writer, job)
    match stage.itemOf fresh row with
    | .error fault => BulkWriter.reject services origin fault.message state
    | .ok item =>
      match services.resolve job.node.services item.index item.address.routingKey with
      | none => BulkWriter.reject services origin (ItemFault.noShard item.index).message state
      | some target =>
        BulkWriter.add services target item.address.id item.address.routing item.operation origin
          state

def takeRow (services : Services σ) (row : Row) : Turn σ IndexWriteStage Flow :=
  Turn.ofState fun (stage, job) =>
    let (writer, job) := stage.write services row job
    (.more, ({ stage with writer := writer }, job))

def summarize (services : Services σ) : Turn σ IndexWriteStage (List Row) :=
  Turn.ofState fun (stage, job) =>
    let (summary, (writer, job)) := BulkWriter.finish services (stage.writer, job)
    (summary.rows stage.result, ({ stage with writer := writer }, job))

def finish (services : Services σ) (next : Receiver σ δ) : Turn σ (IndexWriteStage × δ) Unit :=
  next.emitLast (summarize services)

end IndexWriteStage

/-- What is done to the documents of a shard. -/
inductive ShardChange where
  | update (assignments : List (String × Expression)) (requiredVersion : Option Expression)
  | delete

namespace ShardChange

/-- The version that a document has to have, if any is asked for. -/
def requiredVersion (row : Row) : Option Expression → Except EvaluationFault (Option Int64)
  | none => .ok none
  | some expression =>
    match expression.evaluate row with
    | .ok .null => .ok none
    | .ok (.long version) => .ok (some version)
    | .ok other => .error (.versionType other.type)
    | .error fault => .error fault

def operation (row : Row) : ShardChange → Except EvaluationFault BulkOperation
  | .delete => .ok .delete
  | .update assignments version => do
    let assignments ← Expression.evaluateAssignments assignments row
    let required ← requiredVersion row version
    return .update assignments required

end ShardChange

structure ShardWriteStage where
  target : ShardTarget
  uid : Expression
  change : ShardChange
  writer : BulkWriter

namespace ShardWriteStage

def idOf (stage : ShardWriteStage) (row : Row) : Except ItemFault String :=
  match stage.uid.evaluate row with
  | .ok .null => .error .nullDocumentId
  | .ok value => .ok value.display
  | .error fault => .error (.evaluation fault)

def itemOf (stage : ShardWriteStage) (row : Row) : Except ItemFault (String × BulkOperation) := do
  let id ← stage.idOf row
  match stage.change.operation row with
  | .ok operation => return (id, operation)
  | .error fault => throw (.evaluation fault)

def write (services : Services σ) (row : Row) (stage : ShardWriteStage) (job : Job σ) :
    BulkWriter.State σ :=
  match stage.itemOf row with
  | .error fault => BulkWriter.reject services none fault.message (stage.writer, job)
  | .ok (id, operation) =>
    BulkWriter.add services stage.target id none operation none (stage.writer, job)

def takeRow (services : Services σ) (row : Row) : Turn σ ShardWriteStage Flow :=
  Turn.ofState fun (stage, job) =>
    let (writer, job) := stage.write services row job
    (.more, ({ stage with writer := writer }, job))

def summarize (services : Services σ) : Turn σ ShardWriteStage (List Row) :=
  Turn.ofState fun (stage, job) =>
    let (summary, (writer, job)) := BulkWriter.finish services (stage.writer, job)
    (summary.rows .rowCount, ({ stage with writer := writer }, job))

def finish (services : Services σ) (next : Receiver σ δ) : Turn σ (ShardWriteStage × δ) Unit :=
  next.emitLast (summarize services)

end ShardWriteStage

end RowPipeline
