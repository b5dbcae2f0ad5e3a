import RowPipeline.Aggregate.Function
import RowPipeline.Expression.Function
import RowPipeline.Shard
import RowPipeline.Value.Basic

/-!
Causes of failures, grouped by what was wrong, with the wording of each.
-/

namespace RowPipeline

/-- What made the evaluation of one row fail. -/
inductive EvaluationFault where
  | columnOutOfRange (index width : Nat)
  | missingArgument (function : ScalarFunction)
  | argumentType (function : ScalarFunction) (type : ValueType)
  | longOverflow (function : ScalarFunction) (left right : Int64)
  | predicateType (type : ValueType)
  | sumType (type : ValueType)
  | sumOverflow
  | averageType (type : ValueType)
  | tallyOverflow
  | partialState (function : AggregateFunction) (shown : String)
  | countOfEmptyRow
  | countType (type : ValueType)
  | countOverflow
  | exportOfEmptyRow
  | fetchColumnOutOfRange (index width : Nat)
  | fetchIdType (type : ValueType)
  | versionType (type : ValueType)
  | stated (text : String)
  deriving DecidableEq, Repr

def EvaluationFault.message : EvaluationFault → String
  | .columnOutOfRange index width => s!"input column {index} out of range for row of width {width}"
  | .missingArgument function => s!"{function.name} lacks an argument"
  | .argumentType function type => s!"{function.name} cannot be applied to a {type.name} argument"
  | .longOverflow function left right =>
    s!"long overflow in {function.name}({left.toInt}, {right.toInt})"
  | .predicateType type => s!"filter predicate returned {type.name}, expected boolean"
  | .sumType type => s!"sum cannot aggregate {type.name}"
  | .sumOverflow => "long overflow in sum"
  | .averageType type => s!"avg cannot aggregate {type.name}"
  | .tallyOverflow => "attempt to add with overflow"
  | .partialState function shown => s!"invalid partial state for {function.name}: {shown}"
  | .countOfEmptyRow => "merge_count received an empty row"
  | .countType type => s!"merge_count expects a numeric count, got {type.name}"
  | .countOverflow => "row count overflow"
  | .exportOfEmptyRow => "writer received an empty row"
  | .fetchColumnOutOfRange index width =>
    s!"fetch id column {index} out of range for row of width {width}"
  | .fetchIdType type => s!"fetch id must be a long, got {type.name}"
  | .versionType type => s!"version must be an integer, got {type.name}"
  | .stated text => text

/-- Whether the program ends at a fault, so that no caller is told of it. The count of an aggregate
is the one number that is added without asking whether the sum fits. -/
def EvaluationFault.stops : EvaluationFault → Bool
  | .tallyOverflow => true
  | _ => false

inductive ParameterFault where
  | argumentCount (function : ScalarFunction) (given : Nat)
  | aggregateInputs (function : AggregateFunction) (expected : Nat) (mode : AggregateMode)
      (given : Nat)
  | sliceLimit
  | sortWithoutKeys
  | sortLimit
  | flagCount (flags : String) (given columns : Nat)
  | fetchSize
  | bulkActions
  | exportScheme (uri : String)
  | exportPath
  | exportNames (names inputs : Nat)
  | columnCount (names values : Nat)
  | updateWithoutAssignments
  | systemUpdateWithoutAssignments
  | planSyntax (detail : String)
  | planShape
  | projectionShape (kind detail : String)
  | settingsSyntax (detail : String)
  | settingsFile (detail : String)
  | settingZero (setting : String)
  | logLevel (level : String)
  | stated (text : String)
  deriving DecidableEq, Repr

def ParameterFault.message : ParameterFault → String
  | .argumentCount function given => s!"{function.name} does not accept {given} argument(s)"
  | .aggregateInputs function expected mode given =>
    s!"{function.name} expects {expected} input(s) in {mode.name} mode, got {given}"
  | .sliceLimit => "top_n limit must be > 0"
  | .sortWithoutKeys => "ordered_top_n requires at least one order_by symbol"
  | .sortLimit => "ordered_top_n limit must be > 0"
  | .flagCount flags given columns => s!"{flags} has {given} entries for {columns} order-by column(s)"
  | .fetchSize => "fetch_size must be > 0"
  | .bulkActions => "bulk_actions must be > 0"
  | .exportScheme uri => s!"unsupported export URI scheme: {uri}"
  | .exportPath => "export URI has no path"
  | .exportNames names inputs => s!"writer has {names} output names for {inputs} inputs"
  | .columnCount names values => s!"{names} column names for {values} column values"
  | .updateWithoutAssignments => "update without assignments"
  | .systemUpdateWithoutAssignments => "sys update without assignments"
  | .planSyntax detail => s!"invalid JSON: {detail}"
  | .planShape => "a plan must be a JSON array of projections"
  | .projectionShape kind detail => s!"malformed {kind} projection: {detail}"
  | .settingsSyntax detail => s!"Invalid settings JSON: {detail}"
  | .settingsFile detail => s!"Failed to read settings: {detail}"
  | .settingZero setting => s!"{setting} must be > 0"
  | .logLevel level => s!"Invalid log_level: '{level}'"
  | .stated text => text

/-- How far a stage got: rows may follow until it completed or failed. -/
inductive Phase where
  | created
  | running
  | completed
  | failed
  deriving DecidableEq, Repr

def Phase.name : Phase → String
  | .created => "Created"
  | .running => "Running"
  | .completed => "Completed"
  | .failed => "Failed"

def Phase.isTerminal (phase : Phase) : Bool := phase == .completed || phase == .failed

/-- A call that does not fit the state of the one that received it. -/
inductive StateFault where
  | rowAfterEnd (stage : String) (phase : Phase)
  | finishAfterEnd (stage : String) (phase : Phase)
  | noDownstream
  | rowAfterDelivery
  | stated (text : String)
  deriving DecidableEq, Repr

def StateFault.message : StateFault → String
  | .rowAfterEnd stage phase => s!"{stage} received a row after reaching {phase.name}"
  | .finishAfterEnd stage phase => s!"{stage} finished twice (state {phase.name})"
  | .noDownstream => "projector has no downstream"
  | .rowAfterDelivery => "collector received a row after completion"
  | .stated text => text

inductive TransportFault where
  | shardUnavailable (shard : ShardId)
  | nodeUnavailable (node : NodeName)
  | timedOut (shard : ShardId) (milliseconds : Nat)
  | createRefused (index : String)
  | stated (text : String)
  deriving DecidableEq, Repr

def TransportFault.message : TransportFault → String
  | .shardUnavailable shard => s!"shard {shard.display} is unavailable"
  | .nodeUnavailable node => s!"node {node} is unavailable"
  | .timedOut shard milliseconds =>
    s!"bulk request to {shard.display} timed out after {milliseconds}ms"
  | .createRefused index => s!"create {index} refused"
  | .stated text => text

end RowPipeline
