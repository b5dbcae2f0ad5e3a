import RowPipeline.Aggregate.Call

/-!
Plans: lists of projections, each of which describes one stage that rows pass.
-/

namespace RowPipeline

/-- Sorts rows and keeps a slice of them; without a limit all rows after the offset. -/
structure OrderedTopN where
  outputs : List Symbol
  orderBy : List Symbol
  /-- For each column whether greater cells come first. -/
  reverseFlags : List Bool
  /-- For each column whether nulls come first. -/
  nullsFirst : List Bool
  limit : Option Nat
  offset : Nat
  deriving Repr, BEq

inductive Compression where
  | gzip
  deriving DecidableEq, Repr

def Compression.name : Compression → String
  | .gzip => "gzip"

inductive OutputFormat where
  | jsonObject
  | jsonArray
  deriving DecidableEq, Repr

def OutputFormat.name : OutputFormat → String
  | .jsonObject => "json_object"
  | .jsonArray => "json_array"

structure Export where
  /-- The directory of the file, whose name tells the shard or the job. -/
  uri : String
  compression : Option Compression
  format : OutputFormat
  /-- What is written of a row; nothing means that the first column is the document. -/
  inputs : List Symbol
  names : List String
  /-- Members that every object is given whatever the row holds. -/
  overwrites : Fields
  deriving Repr, BEq

/-- What an index writer tells when it is done: a count of rows, or a row for each node and origin
with its errors. -/
inductive WriterResult where
  | rowCount
  | returnSummary
  deriving DecidableEq, Repr

def WriterResult.name : WriterResult → String
  | .rowCount => "row_count"
  | .returnSummary => "return_summary"

structure IndexTarget where
  table : String
  primaryKeys : List Symbol
  clusteredBy : Option Symbol
  partitionedBy : List Symbol
  createsIndices : Bool
  deriving Repr, BEq

structure SourceIndexWriter where
  target : IndexTarget
  source : Symbol
  includes : Option (List String)
  excludes : Option (List String)
  overwritesDuplicates : Bool
  origin : Option Symbol
  bulkActions : Option Nat
  result : WriterResult
  deriving Repr, BEq

structure ColumnIndexWriter where
  target : IndexTarget
  columns : List String
  values : List Symbol
  /-- The assignments to a document that is there already. -/
  onDuplicate : Option (Dictionary String Symbol)
  ignoresDuplicates : Bool
  bulkActions : Option Nat
  result : WriterResult
  deriving Repr, BEq

structure Update where
  uid : Symbol
  assignments : Dictionary String Symbol
  requiredVersion : Option Symbol
  bulkActions : Option Nat
  deriving Repr, BEq

structure Delete where
  uid : Symbol
  bulkActions : Option Nat
  deriving Repr, BEq

structure ReaderLocation where
  reader : Nat
  node : NodeName
  deriving DecidableEq, Repr

structure Fetch where
  idColumn : Nat
  columns : List String
  readers : List ReaderLocation
  size : Option Nat
  deriving DecidableEq, Repr

structure SystemAssignment where
  relation : String
  column : String
  value : Symbol
  deriving Repr, BEq

structure SystemUpdate where
  key : Symbol
  assignments : List SystemAssignment
  deriving Repr, BEq

inductive Projection where
  | orderedTopN (parameters : OrderedTopN)
  | topN (limit offset : Nat)
  | eval (outputs : List Symbol)
  | filter (query : Symbol)
  | group (keys : List Symbol) (values : List AggregateCall) (mode : AggregateMode)
  | aggregation (calls : List AggregateCall) (mode : AggregateMode)
  | mergeCount
  | writer (parameters : Export)
  | sourceIndexWriter (parameters : SourceIndexWriter)
  | columnIndexWriter (parameters : ColumnIndexWriter)
  | update (parameters : Update)
  | delete (parameters : Delete)
  | fetch (parameters : Fetch)
  | systemUpdate (parameters : SystemUpdate)
  deriving Repr, BEq

/-- The kinds of projections, which are also the kinds of stages. -/
inductive StageKind where
  | orderedTopN
  | topN
  | eval
  | filter
  | group
  | aggregation
  | mergeCount
  | writer
  | sourceIndexWriter
  | columnIndexWriter
  | update
  | delete
  | fetch
  | systemUpdate
  deriving DecidableEq, Repr

namespace StageKind

def name : StageKind → String
  | .orderedTopN => "ordered_top_n"
  | .topN => "top_n"
  | .eval => "eval"
  | .filter => "filter"
  | .group => "group"
  | .aggregation => "aggregation"
  | .mergeCount => "merge_count"
  | .writer => "writer"
  | .sourceIndexWriter => "source_index_writer"
  | .columnIndexWriter => "column_index_writer"
  | .update => "update"
  | .delete => "delete"
  | .fetch => "fetch"
  | .systemUpdate => "sys_update"

def all : List StageKind :=
  [.orderedTopN, .topN, .eval, .filter, .group, .aggregation, .mergeCount, .writer,
    .sourceIndexWriter, .columnIndexWriter, .update, .delete, .fetch, .systemUpdate]

end StageKind

def Projection.kind : Projection → StageKind
  | .orderedTopN _ => .orderedTopN
  | .topN _ _ => .topN
  | .eval _ => .eval
  | .filter _ => .filter
  | .group _ _ _ => .group
  | .aggregation _ _ => .aggregation
  | .mergeCount => .mergeCount
  | .writer _ => .writer
  | .sourceIndexWriter _ => .sourceIndexWriter
  | .columnIndexWriter _ => .columnIndexWriter
  | .update _ => .update
  | .delete _ => .delete
  | .fetch _ => .fetch
  | .systemUpdate _ => .systemUpdate

end RowPipeline
