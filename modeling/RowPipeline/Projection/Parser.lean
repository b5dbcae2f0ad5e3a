import RowPipeline.Json.Parser
import RowPipeline.Json.Record
import RowPipeline.Projection.Basic
import RowPipeline.Value.Text

/-!
Reading of symbols, aggregate calls and plans from JSON.
-/

namespace RowPipeline

namespace Symbol

inductive Kind where
  | input
  | literal
  | function
  deriving DecidableEq, Repr

namespace Kind

def name : Kind → String
  | .input => "input"
  | .literal => "literal"
  | .function => "function"

def all : List Kind := [.input, .literal, .function]

/-- A kind is given by its name. Inside a larger document its position among the kinds is understood
as well. -/
def ofJson? (nested : Bool) : Json → Option Kind
  | .string text => all.find? (·.name == text)
  | .number (.integer position) =>
    if nested && 0 ≤ position then all[position.toNat]? else none
  | _ => none

end Kind

/-- Reads a symbol whose calls nest less than `depth` deep. -/
def readWithin (nested : Bool) : Nat → Json → Option Symbol
  | 0, _ => none
  | depth + 1, json => do
    let (tag, content) ← Record.tagged? "kind" json
    match ← Kind.ofJson? nested tag with
    | .input =>
      let record ← Record.ofJson? ["index"] content
      let index ← record.required "index" Json.count?
      some (.input index)
    | .literal =>
      let record ← Record.ofJson? ["value"] content
      let value ← record.required "value" (some ∘ Value.ofJson)
      some (.literal value)
    | .function =>
      let record ← Record.ofJson? ["name", "args"] content
      let function ←
        record.required "name" (Json.named? true ScalarFunction.all ScalarFunction.name)
      let arguments ← record.required "args" (Json.arrayOf? (readWithin true depth))
      some (.call function arguments)

def ofJson? (json : Json) : Option Symbol := readWithin false json.height json

def ofPart? (json : Json) : Option Symbol := readWithin true json.height json

end Symbol

namespace AggregateCall

def fieldNames : List String := ["function", "inputs"]

def readWithin (nested : Bool) (json : Json) : Option AggregateCall := do
  let record ← Record.ofJson? fieldNames json
  let function ←
    record.required "function" (Json.named? nested AggregateFunction.all AggregateFunction.tag)
  let inputs ←
    record.defaulted "inputs" []
      (Json.arrayOf? (if nested then Symbol.ofPart? else Symbol.ofJson?))
  some ⟨function, inputs⟩

def parse? (text : String) : Option AggregateCall :=
  (Json.parseRecord? fieldNames text).bind (readWithin false)

def ofPart? (json : Json) : Option AggregateCall := readWithin true json

end AggregateCall

def IndexTarget.ofJson? (json : Json) : Option IndexTarget := do
  let record ←
    Record.ofJson?
      ["table", "primary_keys", "clustered_by", "partitioned_by", "auto_create_indices"] json
  let table ← record.required "table" Json.string?
  let primaryKeys ← record.defaulted "primary_keys" [] (Json.arrayOf? Symbol.ofPart?)
  let clusteredBy ← record.optional "clustered_by" Symbol.ofPart?
  let partitionedBy ← record.defaulted "partitioned_by" [] (Json.arrayOf? Symbol.ofPart?)
  let createsIndices ← record.defaulted "auto_create_indices" false Json.bool?
  some ⟨table, primaryKeys, clusteredBy, partitionedBy, createsIndices⟩

def ReaderLocation.ofJson? (json : Json) : Option ReaderLocation := do
  let record ← Record.ofJson? ["reader_id", "node"] json
  let reader ← record.required "reader_id" (Json.natBelow? 0x100000000)
  let node ← record.required "node" Json.string?
  some ⟨reader, node⟩

def SystemAssignment.ofJson? (json : Json) : Option SystemAssignment := do
  let record ← Record.ofJson? ["relation", "column", "value"] json
  let relation ← record.required "relation" Json.string?
  let column ← record.required "column" Json.string?
  let value ← record.required "value" Symbol.ofPart?
  some ⟨relation, column, value⟩

namespace Projection

def symbols? : Json → Option (List Symbol) := Json.arrayOf? Symbol.ofPart?

def texts? : Json → Option (List String) := Json.arrayOf? Json.string?

def calls? : Json → Option (List AggregateCall) :=
  Json.arrayOf? AggregateCall.ofPart?

def mode? : Json → Option AggregateMode := Json.named? true AggregateMode.all AggregateMode.tag

def writerResult? : Json → Option WriterResult :=
  Json.named? true [.rowCount, .returnSummary] WriterResult.name

/-- Reads the parameters of a projection of a known kind; `none` if they are malformed. -/
def ofParameters? (json : Json) : StageKind → Option Projection
  | .orderedTopN => do
    let record ←
      Record.ofJson? ["outputs", "order_by", "reverse_flags", "nulls_first", "limit", "offset"] json
    let outputs ← record.required "outputs" symbols?
    let orderBy ← record.required "order_by" symbols?
    let reverseFlags ← record.defaulted "reverse_flags" [] (Json.arrayOf? Json.bool?)
    let nullsFirst ← record.defaulted "nulls_first" [] (Json.arrayOf? Json.bool?)
    let limit ← record.optional "limit" Json.count?
    let offset ← record.defaulted "offset" 0 Json.count?
    some (.orderedTopN ⟨outputs, orderBy, reverseFlags, nullsFirst, limit, offset⟩)
  | .topN => do
    let record ← Record.ofJson? ["limit", "offset"] json
    let limit ← record.required "limit" Json.count?
    let offset ← record.defaulted "offset" 0 Json.count?
    some (.topN limit offset)
  | .eval => do
    let record ← Record.ofJson? ["outputs"] json
    (record.required "outputs" symbols?).map .eval
  | .filter => do
    let record ← Record.ofJson? ["query"] json
    (record.required "query" Symbol.ofPart?).map .filter
  | .group => do
    let record ← Record.ofJson? ["keys", "values", "mode"] json
    let keys ← record.required "keys" symbols?
    let values ← record.required "values" calls?
    let mode ← record.defaulted "mode" .iterFinal mode?
    some (.group keys values mode)
  | .aggregation => do
    let record ← Record.ofJson? ["aggregations", "mode"] json
    let calls ← record.required "aggregations" calls?
    let mode ← record.defaulted "mode" .iterFinal mode?
    some (.aggregation calls mode)
  | .mergeCount => some .mergeCount
  | .writer => do
    let record ←
      Record.ofJson?
        ["uri", "compression", "output_format", "inputs", "output_names", "overwrites"] json
    let uri ← record.required "uri" Json.string?
    let compression ←
      record.optional "compression" (Json.named? true [Compression.gzip] Compression.name)
    let format ←
      record.defaulted "output_format" .jsonObject
        (Json.named? true [.jsonObject, .jsonArray] OutputFormat.name)
    let inputs ← record.defaulted "inputs" [] symbols?
    let names ← record.defaulted "output_names" [] texts?
    let overwrites ← record.defaulted "overwrites" [] (Json.dictionaryOf? (some ∘ Value.ofJson))
    some (.writer ⟨uri, compression, format, inputs, names, overwrites⟩)
  | .sourceIndexWriter => do
    let record ←
      Record.ofJson?
        ["target", "raw_source", "includes", "excludes", "overwrite_duplicates", "source_uri",
          "bulk_actions", "result_mode"] json
    let target ← record.required "target" IndexTarget.ofJson?
    let source ← record.required "raw_source" Symbol.ofPart?
    let includes ← record.optional "includes" texts?
    let excludes ← record.optional "excludes" texts?
    let overwrites ← record.defaulted "overwrite_duplicates" false Json.bool?
    let origin ← record.optional "source_uri" Symbol.ofPart?
    let bulkActions ← record.optional "bulk_actions" Json.count?
    let result ← record.defaulted "result_mode" .rowCount writerResult?
    some (.sourceIndexWriter
      ⟨target, source, includes, excludes, overwrites, origin, bulkActions, result⟩)
  | .columnIndexWriter => do
    let record ←
      Record.ofJson?
        ["target", "columns", "column_symbols", "on_duplicate_key", "ignore_duplicate_keys",
          "bulk_actions", "result_mode"] json
    let target ← record.required "target" IndexTarget.ofJson?
    let columns ← record.required "columns" texts?
    let values ← record.required "column_symbols" symbols?
    let onDuplicate ← record.optional "on_duplicate_key" (Json.dictionaryOf? Symbol.ofPart?)
    let ignores ← record.defaulted "ignore_duplicate_keys" false Json.bool?
    let bulkActions ← record.optional "bulk_actions" Json.count?
    let result ← record.defaulted "result_mode" .rowCount writerResult?
    some (.columnIndexWriter ⟨target, columns, values, onDuplicate, ignores, bulkActions, result⟩)
  | .update => do
    let record ← Record.ofJson? ["uid", "assignments", "required_version", "bulk_actions"] json
    let uid ← record.required "uid" Symbol.ofPart?
    let assignments ← record.required "assignments" (Json.dictionaryOf? Symbol.ofPart?)
    let requiredVersion ← record.optional "required_version" Symbol.ofPart?
    let bulkActions ← record.optional "bulk_actions" Json.count?
    some (.update ⟨uid, assignments, requiredVersion, bulkActions⟩)
  | .delete => do
    let record ← Record.ofJson? ["uid", "bulk_actions"] json
    let uid ← record.required "uid" Symbol.ofPart?
    let bulkActions ← record.optional "bulk_actions" Json.count?
    some (.delete ⟨uid, bulkActions⟩)
  | .fetch => do
    let record ← Record.ofJson? ["fetch_id", "columns", "readers", "fetch_size"] json
    let idColumn ← record.required "fetch_id" Json.count?
    let columns ← record.required "columns" texts?
    let readers ← record.required "readers" (Json.arrayOf? ReaderLocation.ofJson?)
    let size ← record.optional "fetch_size" Json.count?
    some (.fetch ⟨idColumn, columns, readers, size⟩)
  | .systemUpdate => do
    let record ← Record.ofJson? ["key", "assignments"] json
    let key ← record.required "key" Symbol.ofPart?
    let assignments ← record.required "assignments" (Json.arrayOf? SystemAssignment.ofJson?)
    some (.systemUpdate ⟨key, assignments⟩)

def tag? : Json → Option String
  | .object members => (members.lookup "type").bind Json.string?
  | _ => none

/-- Reads a projection from a document without repeated members. -/
def ofJson (json : Json) : Except ExecutionError Projection :=
  match tag? json with
  | none => .error (.unsupportedStage "<untagged>")
  | some tag =>
    match StageKind.all.find? (·.name == tag) with
    | none => .error (.unsupportedStage tag)
    | some kind =>
      match ofParameters? json kind with
      | some projection => .ok projection
      | none => .error (.invalidParameter (.projectionShape tag "malformed parameters"))

/-- The document of a text, in which the last of several members with one name counts. -/
def document (text : String) : Except ExecutionError Json :=
  match Json.parse? text with
  | some json => .ok json.canonical
  | none => .error (.invalidParameter (.planSyntax "malformed document"))

def parse (text : String) : Except ExecutionError Projection := document text >>= ofJson

def parsePlan (text : String) : Except ExecutionError (List Projection) := do
  match ← document text with
  | .array items => items.mapM ofJson
  | _ => throw (.invalidParameter .planShape)

end Projection

end RowPipeline
