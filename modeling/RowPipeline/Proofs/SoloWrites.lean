import RowPipeline.Proofs.Imprints
import RowPipeline.Stage.IndexWriting

/-!
Rows that are written alone, each before the next is looked at: its index is created if need be, a
request with nothing but its item is answered at once, and the answer is recorded.
-/

namespace RowPipeline

namespace LocalCluster

/-- Writes an item alone. -/
def writeAlone (terms : WriteTerms) (target : ShardTarget) (pending : PendingItem) :
    LocalCluster × BulkSummary → LocalCluster × BulkSummary
  | (cluster, summary) =>
    let index := target.shard.index
    let isWanted := terms.createsIndices && !terms.created.contains index
    let cluster :=
      if isWanted && !cluster.indexExists index then cluster.createIndex index else cluster
    let dispatch : Dispatch := ⟨target.node, target.shard, [pending]⟩
    let (answer, cluster) := cluster.applyBulk target.node (dispatch.request terms.options)
    (cluster, summary.recordAll (BulkOutcome.accounts ⟨dispatch, answer⟩))

end LocalCluster

namespace IndexWriteStage

/-- Writes a row alone, or records why it cannot be written. -/
def writeAlone (stage : IndexWriteStage) (terms : WriteTerms) (state : LocalCluster × BulkSummary)
    (row : Row) : LocalCluster × BulkSummary :=
  let (cluster, summary) := state
  let reject := fun origin (fault : ItemFault) =>
    (cluster, summary.recordFailure cluster.localNode origin fault.message)
  match stage.originOf row with
  | .error fault => reject none (.evaluation fault)
  | .ok origin =>
    match stage.itemOf "" row with
    | .error fault => reject origin fault
    | .ok item =>
      let target := cluster.resolve item.index item.address.routingKey
      let pending : PendingItem :=
        ⟨⟨0, item.address.id, item.address.routing, item.operation⟩, origin⟩
      LocalCluster.writeAlone terms target pending state

def writeAllAlone (stage : IndexWriteStage) (terms : WriteTerms) (rows : List Row) :
    LocalCluster × BulkSummary :=
  rows.foldl (stage.writeAlone terms) (terms.start, {})

end IndexWriteStage

/-! ### Later states of a cluster -/

namespace LocalCluster

/-- A cluster that is set up like another. -/
structure Alike (cluster cluster' : LocalCluster) : Prop where
  nodeCount : cluster'.nodeCount = cluster.nodeCount
  shardsPerIndex : cluster'.shardsPerIndex = cluster.shardsPerIndex
  latency : cluster'.latency = cluster.latency
  failingShards : cluster'.failingShards = cluster.failingShards

namespace Alike

variable {cluster middle cluster' : LocalCluster}

theorem refl (cluster : LocalCluster) : Alike cluster cluster := ⟨rfl, rfl, rfl, rfl⟩

theorem trans (here : Alike cluster middle) (there : Alike middle cluster') : Alike cluster cluster' :=
  ⟨there.nodeCount.trans here.nodeCount, there.shardsPerIndex.trans here.shardsPerIndex,
    there.latency.trans here.latency, there.failingShards.trans here.failingShards⟩

theorem nodeForShard (alike : Alike cluster cluster') (shard : ShardId) :
    cluster'.nodeForShard shard = cluster.nodeForShard shard := by
  unfold LocalCluster.nodeForShard
  rw [alike.nodeCount]

theorem resolve (alike : Alike cluster cluster') (index routingKey : String) :
    cluster'.resolve index routingKey = cluster.resolve index routingKey := by
  unfold LocalCluster.resolve
  rw [alike.shardsPerIndex]
  simp only [alike.nodeForShard]

theorem applyBulk (cluster : LocalCluster) (node : NodeName) (request : BulkRequest) :
    Alike cluster (cluster.applyBulk node request).2 := by
  unfold LocalCluster.applyBulk
  dsimp only
  split
  · exact ⟨rfl, rfl, rfl, rfl⟩
  · split <;> exact ⟨rfl, rfl, rfl, rfl⟩

end Alike

theorem indexExists_applyBulk (cluster : LocalCluster) (node : NodeName) (request : BulkRequest)
    (index : String) :
    (cluster.applyBulk node request).2.indexExists index = cluster.indexExists index := by
  unfold indexExists
  cases fails : cluster.failingShards.contains request.shard with
  | true => rw [(applyBulk_of_failing fails).2]
  | false =>
    cases found : cluster.indices.get? request.shard.index with
    | none => rw [(applyBulk_of_missing fails found).2]
    | some documents =>
      rw [(applyBulk_of_found fails found).2]
      by_cases same : index = request.shard.index <;>
        simp [Dictionary.contains, Dictionary.get?_insert, same, found]

theorem indexExists_createIndex {cluster : LocalCluster} {index : String}
    (missing : cluster.indexExists index = false) (other : String) :
    (cluster.createIndex index).indexExists other = (cluster.indexExists other || other == index) :=
  congrFun (congrArg Imprint.found (Imprint.of_createIndex missing {})) other

end LocalCluster

/-- A cluster that may come of writing on the given terms. -/
structure WriteTerms.Later (terms : WriteTerms) (cluster : LocalCluster) : Prop where
  alike : terms.start.Alike cluster
  kept : ∀ index, terms.start.indexExists index = true → cluster.indexExists index = true
  stands : ∀ index, cluster.indexExists index = true → terms.stands index = true

namespace WriteTerms.Later

variable {terms : WriteTerms} {cluster cluster' : LocalCluster} {index : String}

theorem start (terms : WriteTerms) : terms.Later terms.start where
  alike := .refl _
  kept _ found := found
  stands _ found := by simp [WriteTerms.stands, found]

/-- Writing to indices that are there leaves a later state. -/
theorem congr (later : terms.Later cluster) (alike : cluster.Alike cluster')
    (same : ∀ index, cluster'.indexExists index = cluster.indexExists index) : terms.Later cluster' where
  alike := later.alike.trans alike
  kept index found := (same index).trans (later.kept index found)
  stands index found := later.stands index ((same index).symm.trans found)

theorem createIndex (later : terms.Later cluster) (missing : cluster.indexExists index = false)
    (stands : terms.stands index = true) : terms.Later (cluster.createIndex index) where
  alike := later.alike.trans ⟨rfl, rfl, rfl, rfl⟩
  kept other found := by
    rw [LocalCluster.indexExists_createIndex missing, later.kept other found, Bool.true_or]
  stands other found := by
    rw [LocalCluster.indexExists_createIndex missing, Bool.or_eq_true, beq_iff_eq] at found
    rcases found with found | rfl
    · exact later.stands other found
    · exact stands

/-- An index that nobody creates is there if it was from the start. -/
theorem indexExists_eq_stands (later : terms.Later cluster)
    (settled : cluster.indexExists index = false →
      (terms.createsIndices && !terms.created.contains index) = false) :
    cluster.indexExists index = terms.stands index := by
  cases found : cluster.indexExists index with
  | true => exact (later.stands index found).symm
  | false =>
    have absent : terms.start.indexExists index = false := by
      refine Bool.eq_false_iff.mpr fun present => ?_
      rw [later.kept index present] at found
      cases found
    rw [WriteTerms.stands, absent, settled found, Bool.false_or]

end WriteTerms.Later

/-! ### What is left behind -/

namespace LocalCluster

variable {terms : WriteTerms} {cluster : LocalCluster}

theorem of_writeAlone (later : terms.Later cluster) (summary : BulkSummary) (target : ShardTarget)
    (pending : PendingItem) :
    terms.Later (writeAlone terms target pending (cluster, summary)).1 ∧
      Imprint.of (writeAlone terms target pending (cluster, summary)).1
          (writeAlone terms target pending (cluster, summary)).2 =
        (Imprint.of cluster summary).land terms ⟨target, pending⟩ := by
  let dispatch : Dispatch := ⟨target.node, target.shard, [pending]⟩
  have applied (ready : LocalCluster) (later : terms.Later ready)
      (stands : ready.indexExists target.shard.index = terms.stands target.shard.index)
      (same : (Imprint.of ready summary).landAll terms dispatch.routed =
        (Imprint.of cluster summary).landAll terms dispatch.routed) :
      let result := ready.applyBulk target.node (dispatch.request terms.options)
      terms.Later result.2 ∧
        Imprint.of result.2 (summary.recordAll (BulkOutcome.accounts ⟨dispatch, result.1⟩)) =
          (Imprint.of cluster summary).land terms ⟨target, pending⟩ :=
    ⟨later.congr (.applyBulk ready target.node _) (indexExists_applyBulk ready target.node _),
      (@Imprint.of_applyBulk terms ready dispatch summary later.alike.failingShards stands
        (List.nodup_singleton _)).trans same⟩
  unfold writeAlone
  dsimp only
  cases wanted : terms.createsIndices && !terms.created.contains target.shard.index with
  | false =>
    exact applied cluster later (later.indexExists_eq_stands fun _ => wanted) rfl
  | true =>
    have stands : terms.stands target.shard.index = true := by
      rw [WriteTerms.stands, wanted, Bool.or_true]
    cases found : cluster.indexExists target.shard.index with
    | true => exact applied cluster later (found.trans stands.symm) rfl
    | false =>
      refine applied (cluster.createIndex target.shard.index) (later.createIndex found stands) ?_ ?_
      · rw [indexExists_createIndex found, stands, beq_self_eq_true, Bool.or_true]
      · rw [Imprint.of_createIndex found]
        exact Imprint.landAll_find stands ⟨_, List.mem_singleton_self _, rfl⟩ _

end LocalCluster

end RowPipeline
