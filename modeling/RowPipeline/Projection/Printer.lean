import RowPipeline.Projection.Basic
import RowPipeline.Value.Text

/-!
Plans as JSON. A projection is an object that is tagged with its kind; every parameter is written,
and the members of objects come in the order of their names.
-/

namespace RowPipeline

namespace Json

def ofOption {α : Type} (toJson : α → Json) : Option α → Json
  | some value => toJson value
  | none => .null

def ofList {α : Type} (toJson : α → Json) (values : List α) : Json := .array (values.map toJson)

def ofDictionary {α : Type} (toJson : α → Json) (entries : Dictionary String α) : Json :=
  .object (entries.map fun (name, value) => (name, toJson value))

end Json

namespace Symbol

mutual

def toJson : Symbol → Json
  | .input index => .object [("index", .nat index), ("kind", .string "input")]
  | .literal value => .object [("kind", .string "literal"), ("value", value.toJson)]
  | .call function arguments =>
    .object
      [("args", .array (allToJson arguments)), ("kind", .string "function"),
        ("name", .string function.name)]

def allToJson : List Symbol → List Json
  | [] => []
  | symbol :: rest => toJson symbol :: allToJson rest

end

end Symbol

def AggregateCall.toJson (call : AggregateCall) : Json :=
  .object
    [("function", .string call.function.tag), ("inputs", Json.ofList Symbol.toJson call.inputs)]

def IndexTarget.toJson (target : IndexTarget) : Json :=
  .object
    [("auto_create_indices", .bool target.createsIndices),
      ("clustered_by", Json.ofOption Symbol.toJson target.clusteredBy),
      ("partitioned_by", Json.ofList Symbol.toJson target.partitionedBy),
      ("primary_keys", Json.ofList Symbol.toJson target.primaryKeys),
      ("table", .string target.table)]

def ReaderLocation.toJson (location : ReaderLocation) : Json :=
  .object [("node", .string location.node), ("reader_id", .nat location.reader)]

def SystemAssignment.toJson (assignment : SystemAssignment) : Json :=
  .object
    [("column", .string assignment.column), ("relation", .string assignment.relation),
      ("value", assignment.value.toJson)]

namespace Projection

/-- The members of a projection whose names come before `type`. -/
def leadingMembers : Projection → List (String × Json)
  | .orderedTopN parameters =>
    [("limit", Json.ofOption .nat parameters.limit),
      ("nulls_first", Json.ofList .bool parameters.nullsFirst),
      ("offset", .nat parameters.offset),
      ("order_by", Json.ofList Symbol.toJson parameters.orderBy),
      ("outputs", Json.ofList Symbol.toJson parameters.outputs),
      ("reverse_flags", Json.ofList .bool parameters.reverseFlags)]
  | .topN limit offset => [("limit", .nat limit), ("offset", .nat offset)]
  | .eval outputs => [("outputs", Json.ofList Symbol.toJson outputs)]
  | .filter query => [("query", query.toJson)]
  | .group keys _ mode =>
    [("keys", Json.ofList Symbol.toJson keys), ("mode", .string mode.tag)]
  | .aggregation calls mode =>
    [("aggregations", Json.ofList AggregateCall.toJson calls), ("mode", .string mode.tag)]
  | .mergeCount => []
  | .writer parameters =>
    [("compression", Json.ofOption (fun compression => .string compression.name)
        parameters.compression),
      ("inputs", Json.ofList Symbol.toJson parameters.inputs),
      ("output_format", .string parameters.format.name),
      ("output_names", .strings parameters.names),
      ("overwrites", Json.ofDictionary Value.toJson parameters.overwrites)]
  | .sourceIndexWriter parameters =>
    [("bulk_actions", Json.ofOption .nat parameters.bulkActions),
      ("excludes", Json.ofOption .strings parameters.excludes),
      ("includes", Json.ofOption .strings parameters.includes),
      ("overwrite_duplicates", .bool parameters.overwritesDuplicates),
      ("raw_source", parameters.source.toJson),
      ("result_mode", .string parameters.result.name),
      ("source_uri", Json.ofOption Symbol.toJson parameters.origin),
      ("target", parameters.target.toJson)]
  | .columnIndexWriter parameters =>
    [("bulk_actions", Json.ofOption .nat parameters.bulkActions),
      ("column_symbols", Json.ofList Symbol.toJson parameters.values),
      ("columns", .strings parameters.columns),
      ("ignore_duplicate_keys", .bool parameters.ignoresDuplicates),
      ("on_duplicate_key", Json.ofOption (Json.ofDictionary Symbol.toJson) parameters.onDuplicate),
      ("result_mode", .string parameters.result.name),
      ("target", parameters.target.toJson)]
  | .update parameters =>
    [("assignments", Json.ofDictionary Symbol.toJson parameters.assignments),
      ("bulk_actions", Json.ofOption .nat parameters.bulkActions),
      ("required_version", Json.ofOption Symbol.toJson parameters.requiredVersion)]
  | .delete parameters => [("bulk_actions", Json.ofOption .nat parameters.bulkActions)]
  | .fetch parameters =>
    [("columns", .strings parameters.columns), ("fetch_id", .nat parameters.idColumn),
      ("fetch_size", Json.ofOption .nat parameters.size),
      ("readers", Json.ofList ReaderLocation.toJson parameters.readers)]
  | .systemUpdate parameters =>
    [("assignments", Json.ofList SystemAssignment.toJson parameters.assignments),
      ("key", parameters.key.toJson)]

def trailingMembers : Projection → List (String × Json)
  | .group _ values _ => [("values", Json.ofList AggregateCall.toJson values)]
  | .writer parameters => [("uri", .string parameters.uri)]
  | .update parameters => [("uid", parameters.uid.toJson)]
  | .delete parameters => [("uid", parameters.uid.toJson)]
  | _ => []

def toJson (projection : Projection) : Json :=
  .object
    (projection.leadingMembers ++ ("type", .string projection.kind.name) ::
      projection.trailingMembers)

end Projection

end RowPipeline
