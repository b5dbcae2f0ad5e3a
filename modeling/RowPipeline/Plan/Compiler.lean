import RowPipeline.Export.Target
import RowPipeline.Projection.Basic
import RowPipeline.Stage.Basic

/-!
Compilation of plans. All parameters are checked before any row flows: a plan becomes a chain of
stages, or there is an error and no stage.
-/

namespace RowPipeline

namespace Projection

variable {σ : Type}

def parameter {α : Type} : Except ParameterFault α → Except ExecutionError α
  | .ok value => .ok value
  | .error fault => .error (.invalidParameter fault)

def require (condition : Bool) (fault : ParameterFault) : Except ExecutionError Unit :=
  if condition then .ok () else .error (.invalidParameter fault)

/-- The columns to emit come first, and the order looks at those behind them. -/
def compileOrderedTopN (parameters : OrderedTopN) : Except ExecutionError StageBody := do
  require (!parameters.orderBy.isEmpty) .sortWithoutKeys
  let outputs := parameters.outputs.length
  let columns ← Expression.compileAll (parameters.outputs ++ parameters.orderBy)
  let indices := (List.range parameters.orderBy.length).map (outputs + ·)
  let order ←
    parameter (SortOrder.ofFlags indices parameters.reverseFlags parameters.nullsFirst)
  let sorting : Sorting := ⟨columns, outputs, order, parameters.offset⟩
  match parameters.limit with
  | none => return .sort { sorting := sorting }
  | some limit =>
    require (limit != 0) .sortLimit
    return .top { sorting := sorting, limit := limit }

def compileExport (job : Job σ) (parameters : Export) : Except ExecutionError StageBody := do
  let path ← parameter (ExportTarget.path parameters.uri job.id job.shard parameters.compression)
  let columns ← Expression.compileAll parameters.inputs
  let shape ← parameter (ExportShape.ofColumns parameters.format columns parameters.names)
  return .exporting
    { path := path, compression := parameters.compression, shape := shape,
      overwrites := parameters.overwrites }

def compileSourceIndexWriter (settings : Settings) (parameters : SourceIndexWriter) :
    Except ExecutionError StageBody := do
  let target := parameters.target
  let config ← BulkConfig.ofSettings settings parameters.bulkActions
  let naming ← IndexNaming.compile target.table target.partitionedBy
  let addressing ← Addressing.compile target.primaryKeys target.clusteredBy
  let source ← Expression.compile parameters.source
  let origin ← Expression.compileOption parameters.origin
  let config :=
    { config with
      createsIndices := target.createsIndices
      options := ⟨parameters.overwritesDuplicates, false⟩ }
  return .indexWrite
    { naming := naming, addressing := addressing
      payload := .source source parameters.includes parameters.excludes
      origin := origin, result := parameters.result, writer := { config := config } }

def compileColumnIndexWriter (settings : Settings) (parameters : ColumnIndexWriter) :
    Except ExecutionError StageBody := do
  require (parameters.columns.length == parameters.values.length)
    (.columnCount parameters.columns.length parameters.values.length)
  let target := parameters.target
  let config ← BulkConfig.ofSettings settings parameters.bulkActions
  let onDuplicate ← parameters.onDuplicate.mapM Expression.compileAssignments
  let naming ← IndexNaming.compile target.table target.partitionedBy
  let addressing ← Addressing.compile target.primaryKeys target.clusteredBy
  let values ← Expression.compileAll parameters.values
  let config :=
    { config with
      createsIndices := target.createsIndices
      options := ⟨false, parameters.ignoresDuplicates⟩ }
  return .indexWrite
    { naming := naming, addressing := addressing
      payload := .columns parameters.columns values onDuplicate
      origin := none, result := parameters.result, writer := { config := config } }

def shardTarget (services : Services σ) (job : Job σ) (statement : ShardStatement) :
    Except ExecutionError ShardTarget :=
  match job.shard with
  | none => .error (.shardIdentityMissing statement)
  | some shard =>
    .ok ⟨shard, (services.nodeForShard job.node.services shard).getD services.localNode⟩

def compileUpdate (services : Services σ) (settings : Settings) (job : Job σ)
    (parameters : Update) : Except ExecutionError StageBody := do
  let target ← shardTarget services job .update
  let assignments ← Expression.compileAssignments parameters.assignments
  require (!assignments.isEmpty) .updateWithoutAssignments
  let version ← Expression.compileOption parameters.requiredVersion
  let config ← BulkConfig.ofSettings settings parameters.bulkActions
  let uid ← Expression.compile parameters.uid
  return .shardWrite ⟨target, uid, .update assignments version, { config := config }⟩

def compileDelete (services : Services σ) (settings : Settings) (job : Job σ)
    (parameters : Delete) : Except ExecutionError StageBody := do
  let target ← shardTarget services job .delete
  let config ← BulkConfig.ofSettings settings parameters.bulkActions
  let uid ← Expression.compile parameters.uid
  return .shardWrite ⟨target, uid, .delete, { config := config }⟩

def compileFetch (settings : Settings) (parameters : Fetch) : Except ExecutionError StageBody := do
  let size := parameters.size.getD settings.fetchSize
  require (size != 0) .fetchSize
  return .fetch
    { idColumn := parameters.idColumn, columns := parameters.columns,
      readers := parameters.readers, size := size }

/-- The one relation that all assignments name. -/
def singleRelation : List SystemAssignment → Except ExecutionError String
  | [] => .error (.invalidParameter .systemUpdateWithoutAssignments)
  | first :: rest =>
    match rest.find? (·.relation != first.relation) with
    | some other => .error (.mixedTableAssignment first.relation other.relation)
    | none => .ok first.relation

def compileSystemUpdate (services : Services σ) (job : Job σ) (parameters : SystemUpdate) :
    Except ExecutionError StageBody := do
  let relation ← singleRelation parameters.assignments
  if !services.hasTable job.node.services relation then throw (.unknownRelation relation)
  let assignments ←
    Expression.compileAssignments
      (parameters.assignments.map fun assignment => (assignment.column, assignment.value))
  let key ← Expression.compile parameters.key
  return .systemUpdate { relation := relation, key := key, assignments := assignments }

def compileBody (services : Services σ) (settings : Settings) (job : Job σ) :
    Projection → Except ExecutionError StageBody
  | .orderedTopN parameters => compileOrderedTopN parameters
  | .topN limit offset => do
    require (limit != 0) .sliceLimit
    return .slice ⟨offset, limit⟩
  | .eval outputs => return .eval ⟨← Expression.compileAll outputs⟩
  | .filter query => return .filter ⟨← Expression.compile query⟩
  | .group keys values mode => do
    let keys ← Expression.compileAll keys
    let aggregates ← Aggregate.compileAll mode values
    return .group { keys := keys, aggregates := aggregates }
  | .aggregation calls mode =>
    return .aggregate ⟨Aggregate.initialAll (← Aggregate.compileAll mode calls)⟩
  | .mergeCount => return .count {}
  | .writer parameters => compileExport job parameters
  | .sourceIndexWriter parameters => compileSourceIndexWriter settings parameters
  | .columnIndexWriter parameters => compileColumnIndexWriter settings parameters
  | .update parameters => compileUpdate services settings job parameters
  | .delete parameters => compileDelete services settings job parameters
  | .fetch parameters => compileFetch settings parameters
  | .systemUpdate parameters => compileSystemUpdate services job parameters

/-- Compiles one projection; a stage that compiles is counted and reported. -/
def compile (services : Services σ) (settings : Settings) (projection : Projection)
    (job : Job σ) : Except ExecutionError Stage × Job σ :=
  match projection.compileBody services settings job with
  | .error error => (.error error, job)
  | .ok body =>
    let job := job.count fun metrics =>
      { metrics with stagesCompiled := metrics.stagesCompiled + 1 }
    (.ok { kind := projection.kind, body := body },
      job.report .stageCompiled [("job_id", job.id), ("stage", projection.kind.name)])

def compileAll (services : Services σ) (settings : Settings) :
    List Projection → Job σ → Except ExecutionError (List Stage) × Job σ
  | [], job => (.ok [], job)
  | projection :: rest, job =>
    match projection.compile services settings job with
    | (.error error, job) => (.error error, job)
    | (.ok stage, job) =>
      match compileAll services settings rest job with
      | (.error error, job) => (.error error, job)
      | (.ok stages, job) => (.ok (stage :: stages), job)

end Projection

end RowPipeline
