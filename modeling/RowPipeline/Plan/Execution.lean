import RowPipeline.Plan.Compiler
import RowPipeline.Stage.Chain

/-!
Execution of plans: all rows are pushed into the head of the chain, which is then finished. The first
error fails the whole chain.
-/

namespace RowPipeline

namespace Receiver

variable {σ τ : Type}

/-- Pushes rows until there are no more or no more are wanted, then finishes the receiver. -/
def drain (head : Receiver σ τ) (rows : List Row) : Turn σ τ Unit := do
  head.feed rows
  head.finish

def failureFields (kinds : List StageKind) (error : ExecutionError) : List (String × String) :=
  [("code", error.code), ("error", error.message),
    ("stages", String.intercalate "," (kinds.map (·.name)))]

/-- Runs rows through a receiver; an error is reported, and the receiver is failed with it. -/
def run (head : Receiver σ τ) (kinds : List StageKind) (rows : List Row) (state : τ × Job σ) :
    Except ExecutionError Unit × (τ × Job σ) :=
  match head.drain rows state with
  | (.ok (), state) => (.ok (), state)
  | (.error error, (receiver, job)) =>
    let job := job.report .stageFailed (failureFields kinds error)
    (.error error, head.fail error (receiver, job))

end Receiver

namespace Chain

variable {σ : Type}

def run (services : Services σ) (kinds : List StageKind) (length : Nat) (rows : List Row)
    (state : Chain length × Job σ) : Except ExecutionError Unit × (Chain length × Job σ) :=
  (receiver services length).run kinds rows state

end Chain

namespace Plan

variable {σ : Type}

def finishedFields (job : Job σ) (kinds : List StageKind) (rows : List Row) :
    List (String × String) :=
  [("elapsed_ms", "0"), ("job_id", job.id), ("rows", toString rows.length),
    ("stages", String.intercalate "," (kinds.map (·.name)))]

/-- Runs rows through compiled stages and answers the rows that leave the last one. -/
def runStages (services : Services σ) (stages : List Stage) (rows : List Row) (job : Job σ) :
    Except ExecutionError (List Row) × Job σ :=
  let kinds := stages.map Stage.kind
  let chain := Chain.ofStages (.collecting {}) stages
  let (outcome, (chain, job)) := Chain.run services kinds stages.length rows (chain, job)
  let job := Chain.dispose stages.length chain job
  match outcome, (Chain.terminal stages.length chain).result with
  | .error error, _ => (.error error, job)
  | .ok (), .error error => (.error error, job)
  | .ok (), .ok rows => (.ok rows, job.report .stageFinished (finishedFields job kinds rows))

def execute (services : Services σ) (settings : Settings) (plan : List Projection)
    (rows : List Row) (job : Job σ) : Except ExecutionError (List Row) × Job σ :=
  match Projection.compileAll services settings plan job with
  | (.error error, job) => (.error error, job)
  | (.ok stages, job) => runStages services stages rows job

end Plan

end RowPipeline
