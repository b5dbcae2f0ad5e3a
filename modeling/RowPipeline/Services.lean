import RowPipeline.Bulk.Request
import RowPipeline.Cluster.Fetch

/-!
What the stages of a plan need from the cluster around them. Nothing is said about what the cluster
answers, in which order answers come in, or whether they come in at all.
-/

namespace RowPipeline

/-- An item that waits to be sent, with the origin under which its outcome is recorded. -/
structure PendingItem where
  item : BulkItem
  origin : Option String
  deriving Repr, BEq

structure Dispatch where
  node : NodeName
  shard : ShardId
  items : List PendingItem
  deriving Repr, BEq

def Dispatch.request (options : BulkOptions) (dispatch : Dispatch) : BulkRequest :=
  ⟨dispatch.shard, options, dispatch.items.map (·.item)⟩

structure Transit where
  dispatch : Dispatch
  /-- Whether time passed since it was sent. -/
  overdue : Bool := false
  deriving Repr, BEq

/-- The occasions on which answers to requests can come in. -/
inductive Pause where
  /-- Something else is asked of the cluster: an index is created, or documents are fetched. -/
  | exchange
  /-- Whoever can go on does so, before any more time passes. -/
  | turn
  /-- Nothing goes on before an answer comes in. -/
  | standstill
  deriving DecidableEq, Repr

structure Services (σ : Type) where
  localNode : NodeName
  resolve : σ → String → String → Option ShardTarget
  nodeForShard : σ → ShardId → Option NodeName
  indexExists : σ → String → Bool
  createIndex : String → σ → Except ExecutionError Unit × σ
  accept : NodeName → σ → σ
  /-- The answer to a bulk request, or nothing if none comes in time. -/
  bulk : NodeName → Nat → BulkRequest → σ → Option (Except ExecutionError (List ItemResult)) × σ
  fetch : FetchRequest → σ → Except ExecutionError FetchResponse × σ
  /-- Which of the requests on their way is answered next during a pause, if any is. The number is
  the time that a request is given. -/
  nextArrival : Pause → Nat → List Transit → σ → Option Nat
  /-- Which of several fetch requests is answered next. -/
  nextFetch : List FetchRequest → σ → Nat
  hasTable : σ → String → Bool
  /-- Assigns cells of a row of a system table; false if there is no such row. -/
  updateRow : String → Value → List (String × Value) → σ → Bool × σ

end RowPipeline
