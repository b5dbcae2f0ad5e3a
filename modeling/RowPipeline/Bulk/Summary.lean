import RowPipeline.Dictionary
import RowPipeline.Projection.Basic
import RowPipeline.Row

/-!
What became of the items of a batched write: how many succeeded and failed, in all and for each node
and origin, and with which messages.
-/

namespace RowPipeline

/-- The items of one origin on one node. -/
structure OriginSummary where
  succeeded : Nat := 0
  failed : Nat := 0
  /-- How often each message was given. -/
  errors : Dictionary String Nat := []
  deriving DecidableEq, Repr

/-- A node with the origin of items, which may be unknown. -/
structure Origin where
  node : NodeName
  uri : Option String
  deriving DecidableEq, Repr

/-- Origins are ordered by node; unknown ones come first. -/
instance : Ord Origin where
  compare left right :=
    (compare left.node right.node).then
      (match left.uri, right.uri with
      | none, none => .eq
      | none, some _ => .lt
      | some _, none => .gt
      | some first, some second => compare first second)

structure BulkSummary where
  succeeded : Nat := 0
  failed : Nat := 0
  origins : Dictionary Origin OriginSummary := []
  deriving Repr

namespace BulkSummary

def recordSuccess (summary : BulkSummary) (node : NodeName) (uri : Option String) : BulkSummary :=
  let change : Option OriginSummary → OriginSummary := fun entry =>
    let entry := entry.getD {}
    { entry with succeeded := entry.succeeded + 1 }
  { summary with
    succeeded := summary.succeeded + 1
    origins := summary.origins.alter ⟨node, uri⟩ change }

def recordFailure (summary : BulkSummary) (node : NodeName) (uri : Option String)
    (message : String) : BulkSummary :=
  let change : Option OriginSummary → OriginSummary := fun entry =>
    let entry := entry.getD {}
    { entry with
      failed := entry.failed + 1
      errors := entry.errors.alter message fun count => count.getD 0 + 1 }
  { summary with
    failed := summary.failed + 1
    origins := summary.origins.alter ⟨node, uri⟩ change }

def record (summary : BulkSummary) (node : NodeName) (uri : Option String) :
    Option String → BulkSummary
  | some message => summary.recordFailure node uri message
  | none => summary.recordSuccess node uri

def countCell (count : Nat) : Value := .long (Int64.ofNat count)

def originRow (origin : Origin) (entry : OriginSummary) : Row :=
  [.text origin.node, (origin.uri.map Value.text).getD .null, countCell entry.succeeded,
    countCell entry.failed, .object (entry.errors.map fun (message, count) => (message, countCell count))]

def rows (summary : BulkSummary) : WriterResult → List Row
  | .rowCount => [[countCell summary.succeeded]]
  | .returnSummary => summary.origins.map fun (origin, entry) => originRow origin entry

end BulkSummary

end RowPipeline
