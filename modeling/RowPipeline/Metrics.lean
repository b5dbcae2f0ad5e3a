import RowPipeline.Json.Basic

/-!
Counters of what the stages of a node did.
-/

namespace RowPipeline

structure Metrics where
  stagesCompiled : Nat := 0
  stagesFailed : Nat := 0
  bulkRequestsDispatched : Nat := 0
  bulkRequestsFailed : Nat := 0
  bulkItemsSucceeded : Nat := 0
  bulkItemsFailed : Nat := 0
  indicesCreated : Nat := 0
  fetchRequests : Nat := 0
  fetchRowsMissing : Nat := 0
  rowsExported : Nat := 0
  deriving DecidableEq, Repr

namespace Metrics

/-- The counters under the names that reports use, in the order of the names. -/
def toJson (metrics : Metrics) : Json :=
  .object
    [("bulk_items_failed", .nat metrics.bulkItemsFailed),
      ("bulk_items_succeeded", .nat metrics.bulkItemsSucceeded),
      ("bulk_requests_dispatched", .nat metrics.bulkRequestsDispatched),
      ("bulk_requests_failed", .nat metrics.bulkRequestsFailed),
      ("fetch_requests", .nat metrics.fetchRequests),
      ("fetch_rows_missing", .nat metrics.fetchRowsMissing),
      ("indices_created", .nat metrics.indicesCreated),
      ("rows_exported", .nat metrics.rowsExported),
      ("stages_compiled", .nat metrics.stagesCompiled),
      ("stages_failed", .nat metrics.stagesFailed)]

end Metrics

end RowPipeline
