import RowPipeline.Error.Basic
import RowPipeline.Json.Parser
import RowPipeline.Json.Record
import RowPipeline.Log.Severity

/-!
Settings of a node, with the values they have when nothing is said.
-/

namespace RowPipeline

structure Settings where
  bulkSize : Nat := 10000
  /-- Bulk requests that may be on their way to one node at a time. -/
  requestsPerNode : Nat := 5
  /-- Rows that are collected before documents are fetched for them. -/
  fetchSize : Nat := 500
  bulkTimeout : Nat := 60000
  /-- Bytes that one job may hold. -/
  memoryLimit : Nat := 268435456
  logLevel : String := "info"
  deriving DecidableEq, Repr

namespace Settings

def fieldNames : List String :=
  ["bulk_size", "max_concurrent_requests_per_node", "fetch_size", "bulk_request_timeout_ms",
    "memory_limit_bytes", "log_level"]

def ofJson? (json : Json) : Option Settings := do
  let defaults : Settings := {}
  let record ← Record.ofJson? fieldNames json
  let bulkSize ← record.defaulted "bulk_size" defaults.bulkSize Json.count?
  let requestsPerNode ←
    record.defaulted "max_concurrent_requests_per_node" defaults.requestsPerNode Json.count?
  let fetchSize ← record.defaulted "fetch_size" defaults.fetchSize Json.count?
  let bulkTimeout ← record.defaulted "bulk_request_timeout_ms" defaults.bulkTimeout Json.count?
  let memoryLimit ← record.defaulted "memory_limit_bytes" defaults.memoryLimit Json.count?
  let logLevel ← record.defaulted "log_level" defaults.logLevel Json.string?
  some ⟨bulkSize, requestsPerNode, fetchSize, bulkTimeout, memoryLimit, logLevel⟩

def toJson (settings : Settings) : Json :=
  .object
    [("bulk_size", .nat settings.bulkSize),
      ("max_concurrent_requests_per_node", .nat settings.requestsPerNode),
      ("fetch_size", .nat settings.fetchSize),
      ("bulk_request_timeout_ms", .nat settings.bulkTimeout),
      ("memory_limit_bytes", .nat settings.memoryLimit), ("log_level", .string settings.logLevel)]

/-- The first thing that is wrong with the values, if anything is. -/
def fault? (settings : Settings) : Option ParameterFault :=
  if settings.bulkSize = 0 then some (.settingZero "bulk_size")
  else if settings.requestsPerNode = 0 then some (.settingZero "max_concurrent_requests_per_node")
  else if settings.fetchSize = 0 then some (.settingZero "fetch_size")
  else if settings.bulkTimeout = 0 then some (.settingZero "bulk_request_timeout_ms")
  else if settings.memoryLimit = 0 then some (.settingZero "memory_limit_bytes")
  else if (Severity.parse? settings.logLevel).isNone then some (.logLevel settings.logLevel)
  else none

def parse (text : String) : Except ExecutionError Settings :=
  match (Json.parseRecord? fieldNames text).bind ofJson? with
  | none => .error (.invalidParameter (.settingsSyntax "malformed settings"))
  | some settings =>
    match settings.fault? with
    | some fault => .error (.invalidParameter fault)
    | none => .ok settings

def severity (settings : Settings) : Severity := (Severity.parse? settings.logLevel).getD .info

end Settings

end RowPipeline
