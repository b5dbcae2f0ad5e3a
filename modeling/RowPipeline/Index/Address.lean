import RowPipeline.Bulk.ItemFault
import RowPipeline.Expression.Evaluation
import RowPipeline.Text.Codes
import RowPipeline.Value.Text

/-!
Addresses of documents: an id made of the primary key, and the text that picks the shard.
-/

namespace RowPipeline

structure DocumentAddress where
  id : String
  routing : Option String
  deriving DecidableEq, Repr

def DocumentAddress.routingKey (address : DocumentAddress) : String :=
  address.routing.getD address.id

structure Addressing where
  primaryKeys : List Expression
  clusteredBy : Option Expression

namespace Addressing

def compile (primaryKeys : List Symbol) (clusteredBy : Option Symbol) :
    Except ExecutionError Addressing := do
  let primaryKeys ← Expression.compileAll primaryKeys
  let clusteredBy ← Expression.compileOption clusteredBy
  return ⟨primaryKeys, clusteredBy⟩

/-- Without a primary key every document gets an id of its own. -/
def needsFreshId (addressing : Addressing) : Bool := addressing.primaryKeys.isEmpty

/-- A single key is shown as it is; several keys are encoded together. -/
def idOfKeys (fresh : String) : List Value → Except ItemFault String
  | [] => .ok fresh
  | [.null] => .error .nullPrimaryKey
  | [key] => .ok key.display
  | keys =>
    if keys.any Value.isNull then .error .nullPrimaryKey
    else .ok (Base64.encodeText (Value.listText keys))

def evaluate (expression : Expression) (row : Row) : Except ItemFault Value :=
  match expression.evaluate row with
  | .ok value => .ok value
  | .error fault => .error (.evaluation fault)

def evaluateAll (expressions : List Expression) (row : Row) : Except ItemFault (List Value) :=
  match Expression.evaluateAll expressions row with
  | .ok values => .ok values
  | .error fault => .error (.evaluation fault)

def routing (addressing : Addressing) (row : Row) : Except ItemFault (Option String) :=
  match addressing.clusteredBy with
  | none => .ok none
  | some expression =>
    match evaluate expression row with
    | .ok .null => .error .nullClusteringValue
    | .ok value => .ok (some value.display)
    | .error fault => .error fault

/-- The address of a row; `fresh` is its id if the table has no primary key. -/
def address (addressing : Addressing) (fresh : String) (row : Row) :
    Except ItemFault DocumentAddress := do
  let keys ← evaluateAll addressing.primaryKeys row
  let id ← idOfKeys fresh keys
  let routing ← addressing.routing row
  return ⟨id, routing⟩

end Addressing

end RowPipeline
