import RowPipeline.Cluster.Admission
import RowPipeline.Cluster.IndexCreation
import RowPipeline.Export.Files
import RowPipeline.Memory
import RowPipeline.Metrics
import RowPipeline.Services
import RowPipeline.UniqueId

/-!
The state that the stages of a job work on: what belongs to the job, and what the node shares among
its jobs.
-/

namespace RowPipeline

structure Node (σ : Type) where
  services : σ
  /-- The slots of the nodes that requests go to. The permits are those of other jobs. -/
  admission : Admission := {}
  creation : IndexCreation := {}
  metrics : Metrics := {}
  log : Log := .empty
  files : FileTree := {}
  ids : IdSource := ⟨0, 0⟩

abbrev Node.loads {σ : Type} (node : Node σ) : NodeLoads := node.admission.loads

structure RowFailure where
  stage : StageKind
  message : String
  deriving DecidableEq, Repr

structure Job (σ : Type) where
  id : String
  shard : Option ShardId
  memory : MemoryAccount
  /-- The rows passed over, the latest first. -/
  newestFailures : List RowFailure := []
  node : Node σ

namespace Job

variable {σ : Type}

def failures (job : Job σ) : List RowFailure := job.newestFailures.reverse

def report (job : Job σ) (event : Event) (fields : List (String × String)) : Job σ :=
  { job with node := { job.node with log := job.node.log.report event fields } }

def count (job : Job σ) (change : Metrics → Metrics) : Job σ :=
  { job with node := { job.node with metrics := change job.node.metrics } }

def withServices (job : Job σ) (services : σ) : Job σ :=
  { job with node := { job.node with services := services } }

def withAdmission (job : Job σ) (admission : Admission) : Job σ :=
  { job with node := { job.node with admission := admission } }

def withLoads (job : Job σ) (loads : NodeLoads) : Job σ :=
  job.withAdmission { job.node.admission with loads := loads }

def withFiles (job : Job σ) (files : FileTree) : Job σ :=
  { job with node := { job.node with files := files } }

def recordFailure (job : Job σ) (stage : StageKind) (message : String) : Job σ :=
  { job with newestFailures := ⟨stage, message⟩ :: job.newestFailures }

def refusalFields (account : MemoryAccount) (bytes : Nat) : List (String × String) :=
  [("label", account.label), ("limit", toString account.limit), ("requested", toString bytes),
    ("used", toString account.used)]

/-- Charges a share; a refusal is reported and changes nothing else. -/
def charge (share : MemoryShare) (bytes : Nat) (job : Job σ) :
    Except ExecutionError MemoryShare × Job σ :=
  match share.charge? bytes job.memory with
  | some (share, memory) => (.ok share, { job with memory := memory })
  | none =>
    (.error (job.memory.refusal bytes),
      job.report .memoryLimitExceeded (refusalFields job.memory bytes))

def release (share : MemoryShare) (bytes : Nat) (job : Job σ) : MemoryShare × Job σ :=
  let (share, memory) := share.release bytes job.memory
  (share, { job with memory := memory })

def releaseAll (share : MemoryShare) (job : Job σ) : MemoryShare × Job σ :=
  let (share, memory) := share.releaseAll job.memory
  (share, { job with memory := memory })

def freshId (job : Job σ) : String × Job σ :=
  let (id, ids) := job.node.ids.next
  (id, { job with node := { job.node with ids := ids } })

end Job

end RowPipeline
