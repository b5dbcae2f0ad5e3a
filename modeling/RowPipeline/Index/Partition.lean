import RowPipeline.Expression.Evaluation
import RowPipeline.Text.Codes
import RowPipeline.Value.Text

/-!
Names of indices. A table that is not partitioned is one index of the same name; a partition of a
table is an index whose name holds the values of the partition.
-/

namespace RowPipeline

namespace Partition

def namePrefix : String := ".partitioned."

def indexName (table : String) (values : List Value) : String :=
  namePrefix ++ table ++ "." ++ Base64.encodeText (Value.listText values)

/-- The values that the name of a partition's index holds. -/
def values? (index : String) : Option (List Value) := do
  let name := index.toList
  if !namePrefix.toList.isPrefixOf name then none
  else
    let (_, identifier) ← ShardId.splitLast? '.' (name.drop namePrefix.length)
    let text ← Base64.decodeText? (String.ofList identifier)
    match ← Json.parse? text with
    | .array items => some (Value.itemsOfJson items)
    | _ => none

end Partition

structure IndexNaming where
  table : String
  partitions : List Expression

namespace IndexNaming

def compile (table : String) (partitionedBy : List Symbol) : Except ExecutionError IndexNaming := do
  return ⟨table, ← Expression.compileAll partitionedBy⟩

def isPartitioned (naming : IndexNaming) : Bool := !naming.partitions.isEmpty

def resolve (naming : IndexNaming) (row : Row) : Except EvaluationFault String :=
  if naming.isPartitioned then
    (Expression.evaluateAll naming.partitions row).map (Partition.indexName naming.table)
  else .ok naming.table

end IndexNaming

end RowPipeline
