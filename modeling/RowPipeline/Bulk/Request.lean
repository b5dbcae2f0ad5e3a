import RowPipeline.Settings

/-!
Bulk requests: changes to documents of one shard that travel together, and the answers to them.
-/

namespace RowPipeline

inductive BulkOperation where
  | index (source : Value)
  /-- Stores a document made of columns, or changes the one that is there already. -/
  | insert (columns : List String) (values : List Value)
      (onDuplicate : Option (List (String × Value)))
  /-- Changes a document, if it has the required version. -/
  | update (assignments : List (String × Value)) (requiredVersion : Option Int64)
  | delete
  deriving Inhabited, Repr, BEq

structure BulkItem where
  /-- The number of the item in the stage it comes from. -/
  location : Nat
  id : String
  routing : Option String
  operation : BulkOperation
  deriving Inhabited, Repr, BEq

/-- What happens when the document of an item exists. -/
structure BulkOptions where
  overwritesDuplicates : Bool := false
  ignoresDuplicates : Bool := false
  deriving DecidableEq, Repr

structure BulkRequest where
  shard : ShardId
  options : BulkOptions
  items : List BulkItem
  deriving Repr, BEq

structure ItemResult where
  location : Nat
  /-- Why the item failed; nothing if it succeeded. -/
  error : Option String
  deriving DecidableEq, Repr

/-- Where the documents of a routing key are kept. -/
structure ShardTarget where
  shard : ShardId
  node : NodeName
  deriving DecidableEq, Repr

structure BulkConfig where
  /-- Items of one request. -/
  size : Nat
  requestsPerNode : Nat
  /-- Milliseconds after which a request counts as failed. -/
  timeout : Nat
  createsIndices : Bool
  options : BulkOptions
  deriving DecidableEq, Repr

namespace BulkConfig

/-- The settings of the node, with the number of items that a plan may ask for. -/
def ofSettings (settings : Settings) (bulkActions : Option Nat) :
    Except ExecutionError BulkConfig :=
  let size := bulkActions.getD settings.bulkSize
  if size = 0 then .error (.invalidParameter .bulkActions)
  else .ok ⟨size, settings.requestsPerNode, settings.bulkTimeout, false, {}⟩

end BulkConfig

end RowPipeline
