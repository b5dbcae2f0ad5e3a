import RowPipeline.Cluster.Simulation
import RowPipeline.Proofs.WriterCalls

/-!
Requests that a cluster in memory has on record. It is asked nothing that writers did not send, though a
request that comes too late leaves no record.
-/

namespace RowPipeline

namespace Simulation

private theorem bulkRecords_accept (node : NodeName) (simulation : Simulation) :
    (services.accept node simulation).cluster.bulkRecords = simulation.cluster.bulkRecords := by
  simp only [services, accept, LocalCluster.accept]
  split <;> rfl

private theorem bulkRecords_createIndex {index : String} {before after : Simulation}
    {answer : Except ExecutionError Unit}
    (asked : services.createIndex index before = (answer, after)) :
    after.cluster.bulkRecords = before.cluster.bulkRecords := by
  have same : (services.createIndex index before).2.cluster.bulkRecords =
      before.cluster.bulkRecords := by
    simp only [services, createIndex]
    split <;> rfl
  rwa [asked] at same

/-- A bulk request is recorded, unless it comes too late. -/
theorem bulkRecords_bulk (node : NodeName) (timeout : Nat) (request : BulkRequest)
    (simulation : Simulation) :
    let after := (services.bulk node timeout request simulation).2
    after.cluster.bulkRecords = simulation.cluster.bulkRecords ∨
      after.cluster.bulkRecords =
        ⟨node, request.shard, request.items.length⟩ :: simulation.cluster.bulkRecords := by
  have served : (simulation.cluster.serve node).bulkRecords = simulation.cluster.bulkRecords := by
    unfold LocalCluster.serve
    split <;> rfl
  show (simulation.cluster.executeBulk node timeout request).2.bulkRecords = _ ∨
    (simulation.cluster.executeBulk node timeout request).2.bulkRecords = _
  unfold LocalCluster.executeBulk
  dsimp only
  split
  · exact .inl served
  · refine .inr ?_
    rw [← served]
    unfold LocalCluster.applyBulk LocalCluster.leave
    dsimp only
    split
    · rfl
    · split <;> rfl

end Simulation

def Dispatch.record (dispatch : Dispatch) : BulkRecord :=
  ⟨dispatch.node, dispatch.shard, dispatch.items.length⟩

namespace BulkWriter

/-- Whatever a writer has on its way was sent, and so was all that its cluster recorded since the
earlier records. -/
structure Recorded (earlier : List BulkRecord) (requests : List Dispatch) (state : State Simulation) :
    Prop where
  way : ∀ transit ∈ state.1.inFlight, transit.dispatch ∈ requests
  asked : ∃ served, state.2.node.services.cluster.bulkRecords = served ++ earlier ∧
    ∀ record ∈ served, ∃ request ∈ requests, record = request.record

namespace Recorded

variable {earlier : List BulkRecord} {requests more : List Dispatch} {state after : State Simulation}

theorem congr (recorded : Recorded earlier requests state)
    (same : after.2.node.services.cluster.bulkRecords = state.2.node.services.cluster.bulkRecords)
    (way : after.1.inFlight ⊆ state.1.inFlight) : Recorded earlier requests after where
  way transit member := recorded.way transit (way member)
  asked := same ▸ recorded.asked

theorem mono (recorded : Recorded earlier requests state) (kept : requests ⊆ more) :
    Recorded earlier more state where
  way transit member := kept (recorded.way transit member)
  asked := by
    obtain ⟨served, records, sent⟩ := recorded.asked
    refine ⟨served, records, fun record member => ?_⟩
    obtain ⟨request, there, same⟩ := sent record member
    exact ⟨request, kept there, same⟩

private theorem bulkRecords_reach (transit : Transit) (job : Job Simulation) :
    (reach Simulation.services transit job).node.services.cluster.bulkRecords =
      job.node.services.cluster.bulkRecords := by
  unfold reach
  split
  · rfl
  · exact Simulation.bulkRecords_accept _ _

theorem arrive (recorded : Recorded earlier requests state) (position : Nat) :
    Recorded earlier requests (arrive Simulation.services position state) := by
  obtain ⟨writer, job⟩ := state
  cases sent : writer.inFlight[position]? with
  | none => rwa [arrive_of_none sent]
  | some transit =>
    obtain ⟨served, records, known⟩ := recorded.asked
    have reached := (bulkRecords_reach transit job).trans records
    have way : writer.inFlight.eraseIdx position ⊆ writer.inFlight := (List.eraseIdx_sublist ..).subset
    rw [arrive_answered sent rfl]
    refine ⟨fun transit member => recorded.way transit (way member), ?_⟩
    rcases Simulation.bulkRecords_bulk transit.dispatch.node writer.config.timeout
      (transit.dispatch.request writer.config.options)
      (reach Simulation.services transit job).node.services with late | noted
    · exact ⟨served, late.trans reached, known⟩
    · refine ⟨transit.dispatch.record :: served, ?_, ?_⟩
      · refine noted.trans ?_
        rw [reached, Dispatch.request, List.length_map]
        rfl
      · intro record member
        rcases List.mem_cons.mp member with rfl | old
        · exact ⟨transit.dispatch, recorded.way transit (List.mem_of_getElem? sent), rfl⟩
        · exact known record old

theorem age (recorded : Recorded earlier requests state) :
    Recorded earlier requests (age Simulation.services state) where
  way transit member := by
    obtain ⟨original, there, rfl⟩ := List.mem_map.mp member
    exact recorded.way original there
  asked := by
    have reached (transits : List Transit) (job : Job Simulation) :
        (transits.foldl (fun job transit => reach Simulation.services transit job)
          job).node.services.cluster.bulkRecords = job.node.services.cluster.bulkRecords := by
      induction transits generalizing job with
      | nil => rfl
      | cons transit rest ih => exact (ih _).trans (bulkRecords_reach transit job)
    obtain ⟨served, records, known⟩ := recorded.asked
    exact ⟨served, (reached state.1.inFlight state.2).trans records, known⟩

theorem following : Following Simulation.services (Recorded earlier) where
  congr recorded _ way same :=
    recorded.congr (congrArg (·.cluster.bulkRecords) same) (way ▸ fun _ member => member)
  arriving _ := ⟨fun _ position _ recorded => recorded.arrive position, fun _ recorded => recorded.age⟩
  create asked recorded := recorded.congr (Simulation.bulkRecords_createIndex asked) fun _ member => member
  depart dispatch recorded := by
    refine ⟨fun transit member => ?_, (recorded.mono (List.subset_append_left _ _)).asked⟩
    rcases List.mem_append.mp member with old | new
    · exact List.mem_append_left _ (recorded.way transit old)
    · obtain rfl := List.mem_singleton.mp new
      exact List.mem_append_right _ (.head _)

end Recorded

end BulkWriter

end RowPipeline
