import RowPipeline.Proofs.WriterCalls

/-!
Requests as nodes get them. Every request that a writer sends is handed to its node once, with the items
that it was made of, whatever the node makes of it.
-/

namespace RowPipeline

variable {σ : Type}

/-- A bulk request that a node was asked. -/
structure Posted where
  node : NodeName
  request : BulkRequest

def Dispatch.posted (options : BulkOptions) (dispatch : Dispatch) : Posted :=
  ⟨dispatch.node, dispatch.request options⟩

/-- The same services, which remember the bulk requests. -/
def Services.posting (services : Services σ) : Services (σ × List Posted) where
  localNode := services.localNode
  resolve state := services.resolve state.1
  nodeForShard state := services.nodeForShard state.1
  indexExists state := services.indexExists state.1
  createIndex index state :=
    let (answer, state') := services.createIndex index state.1
    (answer, (state', state.2))
  accept node state := (services.accept node state.1, state.2)
  bulk node timeout request state :=
    let (answer, state') := services.bulk node timeout request state.1
    (answer, (state', state.2 ++ [⟨node, request⟩]))
  fetch request state :=
    let (answer, state') := services.fetch request state.1
    (answer, (state', state.2))
  nextArrival pause timeout inFlight state := services.nextArrival pause timeout inFlight state.1
  nextFetch requests state := services.nextFetch requests state.1
  hasTable state := services.hasTable state.1
  updateRow relation key assignments state :=
    let (found, state') := services.updateRow relation key assignments state.1
    (found, (state', state.2))

namespace BulkWriter

variable {services : Services σ}

/-- What nodes were asked so far. -/
def posted (state : State (σ × List Posted)) : List Posted := state.2.node.services.2

/-- Of the requests that were sent, those that are not on their way were handed to their nodes, after
what nodes were asked earlier. -/
structure Handed (options : BulkOptions) (earlier : List Posted) (requests : List Dispatch)
    (state : State (σ × List Posted)) : Prop where
  configured : state.1.config.options = options
  conserved : ∃ handed, posted state = earlier ++ handed ∧
    (handed ++ state.1.inFlight.map (·.dispatch.posted options)).Perm
      (requests.map (·.posted options))

namespace Handed

variable {options : BulkOptions} {earlier : List Posted} {requests : List Dispatch}
variable {state after : State (σ × List Posted)}

theorem congr (handed : Handed options earlier requests state)
    (config : after.1.config = state.1.config) (same : posted after = posted state)
    (way : after.1.inFlight.map (·.dispatch) = state.1.inFlight.map (·.dispatch)) :
    Handed options earlier requests after where
  configured := config ▸ handed.configured
  conserved := by
    obtain ⟨got, asked, all⟩ := handed.conserved
    have onWay : after.1.inFlight.map (·.dispatch.posted options) =
        state.1.inFlight.map (·.dispatch.posted options) := by
      have mapped := congrArg (List.map (·.posted options)) way
      rwa [List.map_map, List.map_map] at mapped
    exact ⟨got, same.trans asked, onWay ▸ all⟩

private theorem reach_posted (transit : Transit) (job : Job (σ × List Posted)) :
    (reach services.posting transit job).node.services.2 = job.node.services.2 := by
  unfold reach
  split <;> rfl

theorem arrive (handed : Handed options earlier requests state) (position : Nat) :
    Handed options earlier requests (arrive services.posting position state) := by
  obtain ⟨writer, job⟩ := state
  cases sent : writer.inFlight[position]? with
  | none => rwa [arrive_of_none sent]
  | some transit =>
    obtain ⟨got, asked, all⟩ := handed.conserved
    obtain ⟨before, after, split, left, -⟩ := eraseIdx_split sent
    rw [arrive_answered sent rfl]
    refine ⟨handed.configured, got ++ [transit.dispatch.posted options], ?_, ?_⟩
    · show (reach services.posting transit job).node.services.2 ++
        [transit.dispatch.posted writer.config.options] = _
      rw [reach_posted, handed.configured, ← List.append_assoc]
      exact congrArg (· ++ _) asked
    · refine List.Perm.trans ?_ all
      simp only [left]
      simp only [split, List.map_append, List.map_cons, List.append_assoc, List.singleton_append]
      exact List.perm_middle.symm.append_left got

theorem age (handed : Handed options earlier requests state) :
    Handed options earlier requests (age services.posting state) := by
  have reached (transits : List Transit) (job : Job (σ × List Posted)) :
      (transits.foldl (fun job transit => reach services.posting transit job) job).node.services.2 =
        job.node.services.2 := by
    induction transits generalizing job with
    | nil => rfl
    | cons transit rest ih => exact (ih _).trans (reach_posted transit job)
  refine handed.congr rfl (reached state.1.inFlight state.2) ?_
  simp [BulkWriter.age]

theorem following : Following services.posting (Handed options earlier) where
  congr handed config way same :=
    handed.congr config (congrArg (·.2) same) (congrArg (List.map (·.dispatch)) way)
  arriving _ := ⟨fun _ position _ handed => handed.arrive position, fun _ handed => handed.age⟩
  create asked handed := handed.congr rfl (congrArg (·.2.2) asked).symm rfl
  depart dispatch handed := by
    obtain ⟨got, asked, all⟩ := handed.conserved
    refine ⟨handed.configured, got, asked, ?_⟩
    simp only [BulkWriter.depart, List.map_append, List.map_cons, List.map_nil]
    rw [← List.append_assoc]
    exact all.append_right _

end Handed

/-- Every request that is sent over calls and the finish after them is handed to its node once. -/
theorem posted_finish (services : Services σ) (config : BulkConfig) (job : Job (σ × List Posted))
    (calls : List Call) :
    let start : State (σ × List Posted) := ({ config := config }, job)
    let last := (finish services.posting (calls.foldl (Call.apply services.posting) start)).2
    ∃ handed, posted last = posted start ++ handed ∧
      handed.Perm ((requests services.posting start calls).map (·.posted config.options)) := by
  intro start last
  have fresh : Handed config.options (posted start) [] start :=
    ⟨rfl, [], (List.append_nil _).symm, .nil⟩
  obtain ⟨finished, settled⟩ := Handed.following.finish calls fresh
  obtain ⟨handed, asked, all⟩ := finished.conserved
  rw [settled, List.map_nil, List.append_nil] at all
  exact ⟨handed, asked, all⟩

end BulkWriter

end RowPipeline
