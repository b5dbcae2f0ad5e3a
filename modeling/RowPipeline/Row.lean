import RowPipeline.Value.Order

/-!
Rows and finite collections of rows. A stored collection can be passed over again and again; a
stream gives each of its rows once.
-/

namespace RowPipeline

abbrev Row := List Value

/-- The estimated memory of a row in bytes. -/
def Row.size (row : Row) : Nat := Value.sizeOfItems row

def Row.same (left right : Row) : Bool := Value.compareItems left right == .eq

inductive Bucket where
  | stored (rows : List Row)
  /-- The size is that of the whole stream, however much of it was read. -/
  | stream (size : Nat) (remaining : List Row)

namespace Bucket

/-- The greatest number of rows that a bucket can tell. -/
def greatestSize : Nat := 0xffffffffffffffff

def ofStream (rows : List Row) : Bucket := .stream rows.length rows

def size : Bucket → Nat
  | .stored rows => rows.length
  | .stream size _ => size

def rows : Bucket → List Row
  | .stored rows => rows
  | .stream _ remaining => remaining

/-- A pass that ends after `count` rows: what it delivered, and the bucket after it. -/
def take (count : Nat) : Bucket → List Row × Bucket
  | .stored rows => (rows.take count, .stored rows)
  | .stream size remaining => (remaining.take count, .stream size (remaining.drop count))

/-- A stored copy of the rows that are left. -/
def materialize (bucket : Bucket) : Bucket := .stored bucket.rows

end Bucket

end RowPipeline
