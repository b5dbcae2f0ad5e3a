import RowPipeline.Dictionary
import RowPipeline.Row
import RowPipeline.Shard

/-!
Fetch ids and the requests for documents by fetch id. An id names a reader and a document of it.
-/

namespace RowPipeline

namespace FetchId

def documentCount : Nat := 0x100000000

/-- Packs the number of a reader and that of its document. -/
def ofParts (reader document : Nat) : Nat := reader * documentCount + document

def reader (id : Nat) : Nat := id / documentCount

/-- The id that a cell holds: its 64 bits without a sign. -/
def ofLong (value : Int64) : Nat := value.toUInt64.toNat

def toLong (id : Nat) : Int64 := (UInt64.ofNat id).toInt64

end FetchId

structure FetchRequest where
  node : NodeName
  columns : List String
  ids : List Nat
  deriving DecidableEq, Repr

/-- The cells of the documents that were found, by fetch id. -/
abbrev FetchResponse := Dictionary Nat Row

end RowPipeline
