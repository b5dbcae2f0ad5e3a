import RowPipeline.Cluster.Simulation
import RowPipeline.CommandLine.Arguments
import RowPipeline.Plan.Execution
import RowPipeline.Projection.Parser

/-!
The commands of the program. Plans run on a cluster in memory; the outcome is one JSON document.
-/

namespace RowPipeline

namespace CommandLine

inductive CommandError where
  | settings (error : ExecutionError)
  | unreadable (path detail : String)
  | emptyFile (path : String)
  | syntaxError (detail : String)
  | rowShape (json : Json)
  | rowsShape
  | emptyCluster
  | shardForm (text : String)
  | execution (error : ExecutionError)

namespace CommandError

def code : CommandError → String
  | .settings _ => "SHX_CLI_CONFIG_ERROR"
  | .unreadable _ _ | .emptyFile _ | .syntaxError _ => "SHX_CLI_IO_ERROR"
  | .rowShape _ | .rowsShape | .emptyCluster | .shardForm _ => "SHX_CLI_INVALID_ARGUMENT"
  | .execution _ => "SHX_CLI_EXECUTION_FAILED"

def message : CommandError → String
  | .settings error => error.message
  | .unreadable path detail => s!"Failed to read {path}: {detail}"
  | .emptyFile path => s!"{path} is empty"
  | .syntaxError detail => s!"JSON error: {detail}"
  | .rowShape json => s!"each row must be a JSON array, got {json.text}"
  | .rowsShape => "rows must be a JSON array of arrays"
  | .emptyCluster => "--nodes and --shards must be > 0"
  | .shardForm text => s!"invalid shard '{text}', expected <index>:<id>"
  | .execution error => s!"{error.code}: {error.message}"

/-- Whether the program ended before it could report the error. -/
def stops : CommandError → Bool
  | .execution (.evaluation fault) => fault.stops
  | _ => false

def display (error : CommandError) : String := s!"{error.code}: {error.message}"

end CommandError

/-- The files that can be read: the content of each, or why there is none. -/
abbrev Reading := String → Except String String

structure Surroundings where
  reading : Reading
  /-- The files and directories that are there already. -/
  files : FileTree := {}
  ids : IdSource

structure Report where
  outcome : Except CommandError Json
  log : Log
  files : FileTree

namespace Report

def envelope (report : Report) : Json :=
  match report.outcome with
  | .ok data => .object [("data", data), ("status", .string "ok")]
  | .error error =>
    .object
      [("code", .string error.code), ("message", .string error.message),
        ("status", .string "error")]

/-- Whether the program ended in the middle of the command. -/
def stopped (report : Report) : Bool :=
  match report.outcome with
  | .ok _ => false
  | .error error => error.stops

def standardLines (report : Report) : List String :=
  report.log.standardLines ++ if report.stopped then [] else [report.envelope.text ++ "\n"]

def exitCode (report : Report) : Nat :=
  if report.stopped then 101 else if report.outcome.isOk then 0 else 1

def failure (report : Report) : Option String :=
  match report.outcome with
  | .ok _ => none
  | .error error => some error.display

end Report

/-- The ranges of code points with the property White_Space. -/
def blankRanges : List (Nat × Nat) :=
  [(0x09, 0x0d), (0x20, 0x20), (0x85, 0x85), (0xa0, 0xa0), (0x1680, 0x1680), (0x2000, 0x200a),
    (0x2028, 0x2029), (0x202f, 0x202f), (0x205f, 0x205f), (0x3000, 0x3000)]

def isBlank (character : Char) : Bool :=
  blankRanges.any fun (first, last) => first ≤ character.toNat && character.toNat ≤ last

def isBlankText (text : String) : Bool := text.toList.all isBlank

/-- Settings from a file; reading one is reported. -/
def loadSettings (reading : Reading) (path : Option String) (log : Log) :
    Except CommandError Settings × Log :=
  match path with
  | none => (.ok {}, log)
  | some path =>
    match reading path with
    | .error detail => (.error (.settings (.invalidParameter (.settingsFile detail))), log)
    | .ok text =>
      match Settings.parse text with
      | .error error => (.error (.settings error), log)
      | .ok settings =>
        let log := log.record .info .configLoaded [("path", path)]
        (.ok settings, { log with minimum := settings.severity })

def loadPlan (reading : Reading) (path : String) : Except CommandError (List Projection) :=
  match reading path with
  | .error detail => .error (.unreadable path detail)
  | .ok text => (Projection.parsePlan text).mapError .execution

def rowOfJson : Json → Except CommandError Row
  | .array cells => .ok (Value.itemsOfJson cells)
  | other => .error (.rowShape other)

def loadRows (reading : Reading) (path : String) : Except CommandError (List Row) :=
  match reading path with
  | .error detail => .error (.unreadable path detail)
  | .ok text =>
    if isBlankText text then .error (.emptyFile path)
    else
      match (Json.parse? text).map Json.canonical with
      | none => .error (.syntaxError "malformed document")
      | some (.array rows) => rows.mapM rowOfJson
      | some _ => .error .rowsShape

def parseShard : Option String → Except CommandError (Option ShardId)
  | none => .ok none
  | some text =>
    match ShardId.parse? text with
    | some shard => .ok (some shard)
    | none => .error (.shardForm text)

def newJob (here : Surroundings) (settings : Settings) (shard : Option ShardId)
    (cluster : LocalCluster) (log : Log) : Job Simulation :=
  let (id, ids) := here.ids.next
  { id := id, shard := shard
    memory := { label := s!"job-{id}", limit := settings.memoryLimit }
    node := { services := { cluster := cluster }, log := log, files := here.files, ids := ids } }

def failureJson (failure : RowFailure) : Json :=
  .object [("message", .string failure.message), ("stage", .string failure.stage.name)]

def rowJson (row : Row) : Json := .array (Value.itemsToJson row)

def runData (rows : List Row) (job : Job Simulation) : Json :=
  .object
    [("failures", .array (job.failures.map failureJson)), ("metrics", job.node.metrics.toJson),
      ("rows", .array (rows.map rowJson))]

def reportOf (job : Job Simulation) (outcome : Except ExecutionError Json) : Report :=
  ⟨outcome.mapError .execution, job.node.log, job.node.files⟩

def runPlan (here : Surroundings) (plan : List Projection) (rows : List Row) (settings : Settings)
    (shard : Option ShardId) (nodes shards : Nat) (indices : List String) (log : Log) : Report :=
  let cluster := indices.foldl LocalCluster.addIndex (LocalCluster.ofSize nodes shards)
  let job := newJob here settings shard cluster log
  let (result, job) := Plan.execute Simulation.services settings plan rows job
  reportOf job (result.map (runData · job))

def validatePlan (here : Surroundings) (plan : List Projection) (settings : Settings)
    (shard : Option ShardId) (log : Log) : Report :=
  let job := newJob here settings shard (LocalCluster.ofSize 1 1) log
  let (result, job) := Projection.compileAll Simulation.services settings plan job
  let stagesJson := fun (stages : List Stage) =>
    Json.object [("stages", .strings (stages.map (·.kind.name)))]
  reportOf job (result.map stagesJson)

/-- A report on something that failed before a job began. -/
def refused (here : Surroundings) (log : Log) (error : CommandError) : Report :=
  ⟨.error error, log, here.files⟩

def prepareRun (reading : Reading) (plan rows : String) (shard : Option String)
    (nodes shards : Nat) : Except CommandError (List Projection × List Row × Option ShardId) := do
  let plan ← loadPlan reading plan
  let rows ← loadRows reading rows
  if nodes == 0 || shards == 0 then throw .emptyCluster
  let shard ← parseShard shard
  return (plan, rows, shard)

def prepareValidate (reading : Reading) (plan : String) (shard : Option String) :
    Except CommandError (List Projection × Option ShardId) := do
  let plan ← loadPlan reading plan
  let shard ← parseShard shard
  return (plan, shard)

def execute (here : Surroundings) : Command → Report
  | .run plan rows config shard nodes shards indices =>
    match loadSettings here.reading config .empty with
    | (.error error, log) => refused here log error
    | (.ok settings, log) =>
      match prepareRun here.reading plan rows shard nodes shards with
      | .error error => refused here log error
      | .ok (plan, rows, shard) => runPlan here plan rows settings shard nodes shards indices log
  | .validate plan config shard =>
    match loadSettings here.reading config .empty with
    | (.error error, log) => refused here log error
    | (.ok settings, log) =>
      match prepareValidate here.reading plan shard with
      | .error error => refused here log error
      | .ok (plan, shard) => validatePlan here plan settings shard log

def inputPaths : Command → List String
  | .run plan rows config _ _ _ _ => config.toList ++ [plan, rows]
  | .validate plan config _ => config.toList ++ [plan]

end CommandLine

end RowPipeline
