import RowPipeline.Error.Fault

/-!
Errors that end the execution of a plan, and the categories that callers see.
-/

namespace RowPipeline

/-- The statements that need a shard to run on. -/
inductive ShardStatement where
  | update
  | delete
  deriving DecidableEq, Repr

def ShardStatement.name : ShardStatement → String
  | .update => "Update"
  | .delete => "Delete"

inductive ExecutionError where
  | unsupportedStage (kind : String)
  | shardIdentityMissing (statement : ShardStatement)
  | mixedTableAssignment (first second : String)
  | invalidParameter (fault : ParameterFault)
  | unknownRelation (relation : String)
  | invalidState (fault : StateFault)
  | memoryLimitExceeded (label : String) (requested used limit : Nat)
  | transport (fault : TransportFault)
  | evaluation (fault : EvaluationFault)
  | io (detail : String)
  | cancelled
  | internal (detail : String)
  deriving DecidableEq, Repr

inductive ErrorCategory where
  | contractViolation
  | resource
  | transport
  | evaluation
  | io
  | internal
  deriving DecidableEq, Repr

def ErrorCategory.code : ErrorCategory → String
  | .contractViolation => "SHX_CONTRACT_VIOLATION"
  | .resource => "SHX_MEMORY_LIMIT"
  | .transport => "SHX_TRANSPORT_FAILED"
  | .evaluation => "SHX_EVALUATION_FAILED"
  | .io => "SHX_IO_FAILED"
  | .internal => "SHX_INTERNAL"

namespace ExecutionError

def message : ExecutionError → String
  | .unsupportedStage kind => s!"Unsupported projection: {kind}"
  | .shardIdentityMissing statement =>
    s!"{statement.name} projection can only be executed on a shard"
  | .mixedTableAssignment first second => s!"Mixed table assignments found: {first} and {second}"
  | .invalidParameter fault => s!"Invalid projection parameter: {fault.message}"
  | .unknownRelation relation => s!"Unknown relation: {relation}"
  | .invalidState fault => s!"Invalid projector state: {fault.message}"
  | .memoryLimitExceeded label requested used limit =>
    s!"Memory limit exceeded for [{label}]: requested {requested} bytes, " ++
      s!"used {used} of {limit} bytes"
  | .transport fault => s!"Transport failure: {fault.message}"
  | .evaluation fault => s!"Evaluation error: {fault.message}"
  | .io detail => s!"I/O error: {detail}"
  | .cancelled => "Execution cancelled"
  | .internal detail => s!"Internal error: {detail}"

def category : ExecutionError → ErrorCategory
  | .unsupportedStage _ | .shardIdentityMissing _ | .mixedTableAssignment _ _
  | .invalidParameter _ | .unknownRelation _ | .invalidState _ => .contractViolation
  | .memoryLimitExceeded _ _ _ _ => .resource
  | .transport _ => .transport
  | .evaluation _ => .evaluation
  | .io _ => .io
  | .cancelled | .internal _ => .internal

def code (error : ExecutionError) : String := error.category.code

def isContractViolation (error : ExecutionError) : Bool := error.category == .contractViolation

/-- The message under which an error is recorded against the one row it concerns. Only failures of
evaluation concern a row alone; every other error fails the stage. -/
def itemFailure? : ExecutionError → Option String
  | .evaluation fault => some fault.message
  | _ => none

end ExecutionError

end RowPipeline
