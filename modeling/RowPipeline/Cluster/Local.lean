import RowPipeline.Cluster.Documents
import RowPipeline.Cluster.Fetch
import RowPipeline.Text.Codes

/-!
A cluster in the memory of one program. It keeps documents, answers bulk and fetch requests, can be
told to fail, and remembers what it was asked.
-/

namespace RowPipeline

structure BulkRecord where
  node : NodeName
  shard : ShardId
  items : Nat
  deriving DecidableEq, Repr

structure LocalCluster where
  nodeCount : Nat
  shardsPerIndex : Nat
  /-- Milliseconds before a request is answered, if requests take time at all. -/
  latency : Option Nat := none
  indices : Dictionary String Documents := []
  failingShards : List ShardId := []
  failingFetchNodes : List NodeName := []
  fetchDocuments : Dictionary Nat Fields := []
  bulkRecords : List BulkRecord := []
  /-- The fetch requests that were served, each with its number of ids, the latest first. -/
  fetchRecords : List (NodeName × Nat) := []
  createCalls : Nat := 0
  /-- The requests that are being served by each node, and the greatest number there was. -/
  load : Dictionary NodeName (Nat × Nat) := []

namespace LocalCluster

def ofSize (nodes shards : Nat) : LocalCluster :=
  { nodeCount := max nodes 1, shardsPerIndex := max shards 1 }

def nodeName (number : Nat) : NodeName := s!"node-{number}"

def nodes (cluster : LocalCluster) : List NodeName := (List.range cluster.nodeCount).map nodeName

def localNode (_ : LocalCluster) : NodeName := nodeName 0

def nodeForShard (cluster : LocalCluster) (shard : ShardId) : NodeName :=
  nodeName (shard.id % cluster.nodeCount)

/-- A checksum of the routing key picks the shard. -/
def resolve (cluster : LocalCluster) (index routingKey : String) : ShardTarget :=
  let shard : ShardId := ⟨index, (Checksum.ofText routingKey).toNat % cluster.shardsPerIndex⟩
  ⟨shard, cluster.nodeForShard shard⟩

def indexExists (cluster : LocalCluster) (index : String) : Bool := cluster.indices.contains index

def documents (cluster : LocalCluster) (index : String) : Documents :=
  (cluster.indices.get? index).getD []

def document? (cluster : LocalCluster) (index id : String) : Option StoredDocument :=
  (cluster.documents index).get? id

def addIndex (cluster : LocalCluster) (index : String) : LocalCluster :=
  { cluster with indices := cluster.indices.alter index (·.getD []) }

def createIndex (cluster : LocalCluster) (index : String) : LocalCluster :=
  let cluster := cluster.addIndex index
  { cluster with createCalls := cluster.createCalls + 1 }

def enter (cluster : LocalCluster) (node : NodeName) : LocalCluster :=
  let change : Option (Nat × Nat) → Nat × Nat := fun load =>
    let (current, peak) := load.getD (0, 0)
    (current + 1, max peak (current + 1))
  { cluster with load := cluster.load.alter node change }

def leave (cluster : LocalCluster) (node : NodeName) : LocalCluster :=
  let change : Option (Nat × Nat) → Nat × Nat := fun load =>
    let (current, peak) := load.getD (0, 0)
    (current - 1, peak)
  { cluster with load := cluster.load.alter node change }

def peakLoad (cluster : LocalCluster) (node : NodeName) : Nat :=
  ((cluster.load.get? node).getD (0, 0)).2

/-- Applies a bulk request: the request fails as a whole, or every item gets an answer. -/
def applyBulk (cluster : LocalCluster) (node : NodeName) (request : BulkRequest) :
    Except ExecutionError (List ItemResult) × LocalCluster :=
  let record : BulkRecord := ⟨node, request.shard, request.items.length⟩
  let cluster := { cluster with bulkRecords := record :: cluster.bulkRecords }
  if cluster.failingShards.contains request.shard then
    (.error (.transport (.shardUnavailable request.shard)), cluster)
  else
    match cluster.indices.get? request.shard.index with
    | none =>
      let fault : ItemFault := .indexMissing request.shard.index
      (.ok (request.items.map fun item => ⟨item.location, some fault.message⟩), cluster)
    | some documents =>
      let (documents, results) := Documents.applyAll request.options request.items documents
      (.ok results, { cluster with indices := cluster.indices.insert request.shard.index documents })

def isTimed (cluster : LocalCluster) : Bool := cluster.latency.getD 0 != 0

/-- A request that takes time occupies its node from when it gets there. -/
def accept (cluster : LocalCluster) (node : NodeName) : LocalCluster :=
  if cluster.isTimed then cluster.enter node else cluster

/-- A request that takes no time gets to its node when it is served. -/
def serve (cluster : LocalCluster) (node : NodeName) : LocalCluster :=
  if cluster.isTimed then cluster else cluster.enter node

/-- Serves a bulk request within a time in milliseconds; `none` if the answer comes too late, in
which case nothing is applied and the node stays busy with the request. -/
def executeBulk (cluster : LocalCluster) (node : NodeName) (timeout : Nat)
    (request : BulkRequest) : Option (Except ExecutionError (List ItemResult)) × LocalCluster :=
  let cluster := cluster.serve node
  if timeout < cluster.latency.getD 0 then (none, cluster)
  else
    let (answer, cluster) := cluster.applyBulk node request
    (some answer, cluster.leave node)

/-- The columns of one document; a column that it lacks is null. -/
def fetchOne? (cluster : LocalCluster) (columns : List String) (id : Nat) : Option (Nat × Row) :=
  (cluster.fetchDocuments.get? id).map fun fields =>
    (id, columns.map fun column => (fields.get? column).getD .null)

def executeFetch (cluster : LocalCluster) (request : FetchRequest) :
    Except ExecutionError FetchResponse × LocalCluster :=
  let cluster := cluster.serve request.node
  let record := (request.node, request.ids.length)
  let cluster := { cluster with fetchRecords := record :: cluster.fetchRecords }
  let answer :=
    if cluster.failingFetchNodes.contains request.node then
      .error (.transport (.nodeUnavailable request.node))
    else .ok (Dictionary.ofList (request.ids.filterMap (cluster.fetchOne? request.columns)))
  (answer, cluster.leave request.node)

end LocalCluster

end RowPipeline
