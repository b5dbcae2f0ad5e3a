import RowPipeline.Cluster.Local
import RowPipeline.Services
import RowPipeline.Value.Text

/-!
The services of a cluster in memory, with faults that can be asked for. Answers come in only when
someone waits, and then in the order of the requests.
-/

namespace RowPipeline

/-- The rows of a system table by the text of their key. Keys are the same if they are shown the
same. -/
abbrev SystemTable := Dictionary String Fields

namespace SystemTable

def insertRow (table : SystemTable) (key : Value) (fields : Fields) : SystemTable :=
  table.insert key.display fields

def row? (table : SystemTable) (key : Value) : Option Fields := table.get? key.display

/-- Assigns cells of a row; `none` if there is no row with the key. -/
def updateRow? (table : SystemTable) (key : Value) (assignments : List (String × Value)) :
    Option SystemTable :=
  (table.row? key).map fun fields => table.insert key.display (fields.extend assignments)

end SystemTable

structure Faults where
  unroutedIndices : List String := []
  hidesNodes : Bool := false
  /-- How often the creation of an index is still refused. -/
  refusals : Dictionary String Nat := []
  /-- The locations whose results are left out of answers. -/
  droppedItems : List Nat := []
  /-- The cells that are answered for every fetch id, if that is asked for. -/
  fetchedRow : Option Row := none

structure Simulation where
  cluster : LocalCluster
  tables : Dictionary String SystemTable := []
  faults : Faults := {}

namespace Simulation

def resolve (simulation : Simulation) (index routingKey : String) : Option ShardTarget :=
  if simulation.faults.unroutedIndices.contains index then none
  else some (simulation.cluster.resolve index routingKey)

def nodeForShard (simulation : Simulation) (shard : ShardId) : Option NodeName :=
  if simulation.faults.hidesNodes then none else some (simulation.cluster.nodeForShard shard)

def createIndex (index : String) (simulation : Simulation) :
    Except ExecutionError Unit × Simulation :=
  match simulation.faults.refusals.get? index with
  | some (left + 1) =>
    let faults :=
      { simulation.faults with refusals := simulation.faults.refusals.insert index left }
    (.error (.transport (.createRefused index)), { simulation with faults := faults })
  | _ => (.ok (), { simulation with cluster := simulation.cluster.createIndex index })

def accept (node : NodeName) (simulation : Simulation) : Simulation :=
  { simulation with cluster := simulation.cluster.accept node }

def bulk (node : NodeName) (timeout : Nat) (request : BulkRequest) (simulation : Simulation) :
    Option (Except ExecutionError (List ItemResult)) × Simulation :=
  let (answer, cluster) := simulation.cluster.executeBulk node timeout request
  let kept := fun (results : List ItemResult) =>
    results.filter fun result => !simulation.faults.droppedItems.contains result.location
  (answer.map (·.map kept), { simulation with cluster := cluster })

def fetch (request : FetchRequest) (simulation : Simulation) :
    Except ExecutionError FetchResponse × Simulation :=
  let (answer, cluster) := simulation.cluster.executeFetch request
  let answer :=
    match simulation.faults.fetchedRow with
    | none => answer
    | some row => answer.map fun _ => Dictionary.ofList (request.ids.map fun id => (id, row))
  (answer, { simulation with cluster := cluster })

/-- Requests are answered in the order in which they were sent. All take the same time, and so does an
exchange, which sees the answers only to requests that were on their way during an earlier one, or
that are given less time. -/
def nextArrival (pause : Pause) (timeout : Nat) (inFlight : List Transit)
    (simulation : Simulation) : Option Nat :=
  let isTimed := simulation.cluster.isTimed
  let isLate := timeout < simulation.cluster.latency.getD 0
  let isOverdue := inFlight.head?.any (·.overdue)
  let arrives :=
    match pause with
    | .exchange => isTimed && (isOverdue || isLate)
    | .turn => isTimed && isOverdue
    | .standstill => true
  if arrives then some 0 else none

def updateRow (relation : String) (key : Value) (assignments : List (String × Value))
    (simulation : Simulation) : Bool × Simulation :=
  match (simulation.tables.get? relation).bind (·.updateRow? key assignments) with
  | some table =>
    (true, { simulation with tables := simulation.tables.insert relation table })
  | none => (false, simulation)

def services : Services Simulation where
  localNode := LocalCluster.nodeName 0
  resolve := resolve
  nodeForShard := nodeForShard
  indexExists simulation index := simulation.cluster.indexExists index
  createIndex := createIndex
  accept := accept
  bulk := bulk
  fetch := fetch
  nextArrival := nextArrival
  nextFetch _ _ := 0
  hasTable simulation relation := simulation.tables.contains relation
  updateRow := updateRow

end Simulation

end RowPipeline
