import RowPipeline.Stage.Receiver

/-!
The stage that appends columns of documents to rows. Rows are collected and fetched for together,
with one request to each node. A row whose document cannot be had is recorded and left out.
-/

namespace RowPipeline

variable {σ δ : Type}

/-- A row that waits for its document. -/
structure FetchRow where
  node : NodeName
  id : Nat
  cells : Row

namespace FetchRow

def bytes (row : FetchRow) : Nat := Row.size row.cells

end FetchRow

/-- The rows whose documents one node has. -/
structure FetchBatch where
  node : NodeName
  rows : List FetchRow

namespace FetchBatch

def request (columns : List String) (batch : FetchBatch) : FetchRequest :=
  ⟨batch.node, columns, batch.rows.map (·.id)⟩

def add (row : FetchRow) : List FetchBatch → List FetchBatch
  | [] => [⟨row.node, [row]⟩]
  | batch :: rest =>
    if batch.node == row.node then { batch with rows := batch.rows ++ [row] } :: rest
    else batch :: add row rest

def ofRows (rows : List FetchRow) : List FetchBatch :=
  rows.foldl (fun batches row => add row batches) []

end FetchBatch

/-- Why a row did not get its document. -/
inductive FetchFault where
  | noId
  | unknownReader (reader id : Nat)
  | request (id : Nat) (node : NodeName) (error : ExecutionError)
  | missing (id : Nat) (node : NodeName)
  | width (id : Nat) (node : NodeName) (values columns : Nat)
  deriving DecidableEq, Repr

def FetchFault.message : FetchFault → String
  | .noId => "row without fetch id"
  | .unknownReader reader id => s!"unknown reader {reader} for fetch id {id}"
  | .request id node error => s!"fetch id {id} on node {node}: {error.message}"
  | .missing id node => s!"document for fetch id {id} missing on node {node}"
  | .width id node values columns =>
    s!"fetch id {id} on node {node} returned {values} values for {columns} columns"

structure FetchStage where
  idColumn : Nat
  columns : List String
  /-- The node of each reader; of several entries the last counts. -/
  readers : List ReaderLocation
  size : Nat
  share : MemoryShare := {}
  /-- The rows that wait, the latest first. -/
  newest : List FetchRow := []

namespace FetchStage

def nodeOf (stage : FetchStage) (reader : Nat) : Option NodeName :=
  (stage.readers.reverse.find? (·.reader == reader)).map (·.node)

/-- The fetch id of a row; a null is none. -/
def readId (stage : FetchStage) (row : Row) : Except EvaluationFault (Option Nat) :=
  match row[stage.idColumn]? with
  | none => .error (.fetchColumnOutOfRange stage.idColumn row.length)
  | some .null => .ok none
  | some (.long value) => .ok (some (FetchId.ofLong value))
  | some other => .error (.fetchIdType other.type)

def record (fault : FetchFault) (job : Job σ) : Job σ := job.recordFailure .fetch fault.message

def free (row : FetchRow) : FetchStage × Job σ → FetchStage × Job σ
  | (stage, job) =>
    let (share, job) := Job.release stage.share row.bytes job
    ({ stage with share := share }, job)

def refuse (node : NodeName) (error : ExecutionError) :
    List FetchRow → FetchStage × Job σ → FetchStage × Job σ
  | [], state => state
  | row :: rest, (stage, job) =>
    refuse node error rest (free row (stage, record (.request row.id node error) job))

/-- What goes on while the rows of an answered request are joined. -/
structure Joining where
  /-- The cells that no row took yet. -/
  response : FetchResponse
  missing : Nat
  flow : Flow

/-- Joins a row with the cells of its document and pushes it, unless no more rows are wanted. -/
def joinRow (next : Receiver σ δ) (node : NodeName) (row : FetchRow) (joining : Joining) :
    Turn σ (FetchStage × δ) Joining := do
  Turn.above (Turn.ofState fun state => ((), free row state))
  let (stage, _) ← Turn.own
  match joining.response.get? row.id with
  | none =>
    Turn.modifyJob (record (.missing row.id node))
    return { joining with missing := joining.missing + 1 }
  | some values =>
    let joining := { joining with response := joining.response.erase row.id }
    if values.length != stage.columns.length then
      Turn.modifyJob (record (.width row.id node values.length stage.columns.length))
      return joining
    else if joining.flow == .stop then return joining
    else
      let flow ← Turn.below (next.takeRow (row.cells ++ values))
      return { joining with flow := flow }

def joinRows (next : Receiver σ δ) (node : NodeName) :
    List FetchRow → Joining → Turn σ (FetchStage × δ) Joining
  | [], joining => return joining
  | row :: rest, joining => do
    let joining ← joinRow next node row joining
    joinRows next node rest joining

def partialFields (job : Job σ) (missing : Nat) (node : NodeName) : List (String × String) :=
  [("job_id", job.id), ("missing", toString missing), ("node", node)]

def reportMissing (missing : Nat) (node : NodeName) (job : Job σ) : Job σ :=
  if missing = 0 then job
  else
    let job := job.count fun metrics =>
      { metrics with fetchRowsMissing := metrics.fetchRowsMissing + missing }
    job.report .fetchPartial (partialFields job missing node)

/-- Sends the request of a batch and joins its rows. -/
def fetchBatch (services : Services σ) (next : Receiver σ δ) (batch : FetchBatch) (flow : Flow) :
    Turn σ (FetchStage × δ) Flow := do
  let (stage, _) ← Turn.own
  let job ← Turn.job
  let (answer, state) := services.fetch (batch.request stage.columns) job.node.services
  Turn.modifyJob fun job =>
    (job.withServices state).count fun metrics =>
      { metrics with fetchRequests := metrics.fetchRequests + 1 }
  match answer with
  | .error error =>
    Turn.above (Turn.ofState fun state => ((), refuse batch.node error batch.rows state))
    return flow
  | .ok response =>
    let joining ← joinRows next batch.node batch.rows ⟨response, 0, flow⟩
    Turn.modifyJob (reportMissing joining.missing batch.node)
    return joining.flow

def nextBatch (services : Services σ) (stage : FetchStage) (batches : List FetchBatch)
    (job : Job σ) : Nat :=
  let position :=
    services.nextFetch (batches.map fun batch => batch.request stage.columns) job.node.services
  if position < batches.length then position else 0

/-- Fetches for batches in the order of their answers, at most `fuel` of them. -/
def fetchAll (services : Services σ) (next : Receiver σ δ) :
    Nat → List FetchBatch → Flow → Turn σ (FetchStage × δ) Flow
  | 0, _, flow => return flow
  | fuel + 1, batches, flow => do
    let (stage, _) ← Turn.own
    let position := nextBatch services stage batches (← Turn.job)
    match batches[position]? with
    | none => return flow
    | some batch =>
      let flow ← fetchBatch services next batch flow
      fetchAll services next fuel (batches.eraseIdx position) flow

def accept (services : Services σ) (batches : List FetchBatch) (job : Job σ) : Job σ :=
  job.withServices
    (batches.foldl (fun state batch => services.accept batch.node state) job.node.services)

/-- Fetches for all rows that wait. -/
def flush (services : Services σ) (next : Receiver σ δ) : Turn σ (FetchStage × δ) Flow := do
  let (stage, below) ← Turn.own
  let batches := FetchBatch.ofRows stage.newest.reverse
  Turn.setOwn ({ stage with newest := [] }, below)
  Turn.modifyJob (accept services batches)
  if !batches.isEmpty then Turn.below (Turn.ofState fun state => ((), next.meanwhile state))
  fetchAll services next batches.length batches .more

def keep (row : FetchRow) : Turn σ FetchStage Unit := do
  let stage ← Turn.own
  let share ← Turn.onJob (Job.charge stage.share row.bytes)
  Turn.setOwn { stage with share := share, newest := row :: stage.newest }

def takeRow (services : Services σ) (next : Receiver σ δ) (row : Row) :
    Turn σ (FetchStage × δ) Flow := do
  let (stage, _) ← Turn.own
  match ← Turn.evaluated (stage.readId row) with
  | none =>
    Turn.modifyJob (record .noId)
    return .more
  | some id =>
    match stage.nodeOf (FetchId.reader id) with
    | none =>
      Turn.modifyJob (record (.unknownReader (FetchId.reader id) id))
      return .more
    | some node =>
      Turn.above (keep ⟨node, id, row⟩)
      let (stage, _) ← Turn.own
      if stage.size ≤ stage.newest.length then flush services next else return .more

def clear : FetchStage × Job σ → FetchStage × Job σ
  | (stage, job) =>
    let (share, job) := Job.releaseAll stage.share job
    ({ stage with share := share, newest := [] }, job)

def finish (services : Services σ) (next : Receiver σ δ) : Turn σ (FetchStage × δ) Unit := do
  let _ ← flush services next
  Turn.below next.finish

end FetchStage

end RowPipeline
