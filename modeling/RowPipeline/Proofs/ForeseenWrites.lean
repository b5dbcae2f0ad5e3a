import RowPipeline.Cluster.Simulation
import RowPipeline.Proofs.SoloWrites

/-!
What a cluster will hold once everything that is on its way or waits to be sent has landed. However a
writer batches its items, and whichever shard answers first, nothing but a further row changes that.
-/

namespace RowPipeline

/-! ### A cluster that answers in some order -/

namespace LocalCluster

variable {cluster cluster' : LocalCluster}

/-- What a request does depends on the indices and on the shards that fail. -/
theorem applyBulk_congr (alike : cluster.Alike cluster') (same : cluster'.indices = cluster.indices)
    (node : NodeName) (request : BulkRequest) :
    (cluster'.applyBulk node request).1 = (cluster.applyBulk node request).1 ∧
      (cluster'.applyBulk node request).2.indices = (cluster.applyBulk node request).2.indices := by
  have failing := alike.failingShards
  cases fails : cluster.failingShards.contains request.shard with
  | true =>
    obtain ⟨answer, left⟩ := @applyBulk_of_failing cluster node request fails
    obtain ⟨answer', left'⟩ := @applyBulk_of_failing cluster' node request (failing ▸ fails)
    exact ⟨answer'.trans answer.symm, left'.trans (same.trans left.symm)⟩
  | false =>
    cases found : cluster.indices.get? request.shard.index with
    | none =>
      obtain ⟨answer, left⟩ := @applyBulk_of_missing cluster node request fails found
      obtain ⟨answer', left'⟩ :=
        @applyBulk_of_missing cluster' node request (failing ▸ fails) (same ▸ found)
      exact ⟨answer'.trans answer.symm, left'.trans (same.trans left.symm)⟩
    | some documents =>
      obtain ⟨answer, left⟩ := @applyBulk_of_found cluster node request fails documents found
      obtain ⟨answer', left'⟩ :=
        @applyBulk_of_found cluster' node request (failing ▸ fails) documents (same ▸ found)
      exact ⟨answer'.trans answer.symm, left'.trans (same ▸ left.symm)⟩

theorem serve_alike (cluster : LocalCluster) (node : NodeName) :
    cluster.Alike (cluster.serve node) ∧ (cluster.serve node).indices = cluster.indices := by
  unfold serve
  split <;> exact ⟨⟨rfl, rfl, rfl, rfl⟩, rfl⟩

theorem accept_alike (cluster : LocalCluster) (node : NodeName) :
    cluster.Alike (cluster.accept node) ∧ (cluster.accept node).indices = cluster.indices := by
  unfold accept
  split <;> exact ⟨⟨rfl, rfl, rfl, rfl⟩, rfl⟩

theorem indexExists_executeBulk (cluster : LocalCluster) (node : NodeName) (timeout : Nat)
    (request : BulkRequest) (index : String) :
    (cluster.executeBulk node timeout request).2.indexExists index = cluster.indexExists index := by
  have served : (cluster.serve node).indexExists index = cluster.indexExists index := by
    unfold indexExists
    rw [(cluster.serve_alike node).2]
  unfold executeBulk
  dsimp only
  split
  · exact served
  · exact (indexExists_applyBulk (cluster.serve node) node request index).trans served

private theorem executeBulk_inTime {timeout : Nat} (inTime : cluster.latency.getD 0 ≤ timeout)
    (node : NodeName) (request : BulkRequest) :
    ∃ after, cluster.executeBulk node timeout request =
        (some (cluster.applyBulk node request).1, after) ∧
      cluster.Alike after ∧ after.indices = (cluster.applyBulk node request).2.indices := by
  obtain ⟨served, same⟩ := cluster.serve_alike node
  obtain ⟨answer, indices⟩ := applyBulk_congr served same node request
  have prompt : ¬ timeout < (cluster.serve node).latency.getD 0 := by
    rw [served.latency]
    exact Nat.not_lt.mpr inTime
  have applied := Alike.applyBulk (cluster.serve node) node request
  refine ⟨((cluster.serve node).applyBulk node request).2.leave node, ?_, ?_, indices⟩
  · simp only [executeBulk, if_neg prompt, answer]
  · exact served.trans (applied.trans ⟨rfl, rfl, rfl, rfl⟩)

end LocalCluster

namespace Simulation

/-- The services of a cluster in memory, with answers to bulk requests coming in some other order. -/
def answeringIn (nextArrival : Pause → Nat → List Transit → Simulation → Option Nat) :
    Services Simulation :=
  { services with nextArrival := nextArrival }

/-- Requests to one shard are answered in the order in which they were sent. -/
def InOrder (nextArrival : Pause → Nat → List Transit → Simulation → Option Nat) : Prop :=
  ∀ pause timeout inFlight simulation position transit,
    nextArrival pause timeout inFlight simulation = some position →
    inFlight[position]? = some transit →
    ∀ earlier ∈ inFlight.take position, earlier.dispatch.shard ≠ transit.dispatch.shard

variable {nextArrival : Pause → Nat → List Transit → Simulation → Option Nat}
variable {simulation : Simulation}

/-- A request is answered in time, and nothing is left out of the answer. -/
theorem bulk_inTime {timeout : Nat} (inTime : simulation.cluster.latency.getD 0 ≤ timeout)
    (faultless : simulation.faults = {}) (node : NodeName) (request : BulkRequest) :
    ∃ after : Simulation, bulk node timeout request simulation =
        (some (simulation.cluster.applyBulk node request).1, after) ∧
      after.faults = {} ∧ simulation.cluster.Alike after.cluster ∧
      after.cluster.indices = (simulation.cluster.applyBulk node request).2.indices := by
  obtain ⟨after, executed, alike, indices⟩ :=
    simulation.cluster.executeBulk_inTime inTime node request
  refine ⟨{ simulation with cluster := after }, ?_, faultless, alike, indices⟩
  have complete (results : List ItemResult) :
      results.filter (fun result => !simulation.faults.droppedItems.contains result.location) =
        results := by
    simp [faultless]
  simp only [bulk, executed, Option.map_some, complete]
  cases (simulation.cluster.applyBulk node request).1 <;> rfl

end Simulation

/-! ### What will have landed -/

/-- Which documents of a shard are written to. -/
abbrev Sharding := ShardId → String → Prop

/-- No two shards of an index have a document of the same id. -/
def Sharding.Disjoint (known : Sharding) : Prop :=
  ∀ shard shard' id, known shard id → known shard' id → shard.index = shard'.index → shard = shard'

/-- A request as a writer makes it from items with numbers below the next one. -/
structure Dispatch.Proper (terms : WriteTerms) (known : Sharding) (next : Nat) (dispatch : Dispatch) :
    Prop where
  node : dispatch.node = terms.start.nodeForShard dispatch.shard
  items : dispatch.items ≠ []
  distinct : (dispatch.items.map (·.item.location)).Nodup
  numbered : ∀ pending ∈ dispatch.items, pending.item.location < next
  known : ∀ pending ∈ dispatch.items, known dispatch.shard pending.item.id

namespace Dispatch.Proper

variable {terms : WriteTerms} {known : Sharding} {next : Nat} {dispatch other : Dispatch}

theorem later (proper : dispatch.Proper terms known next) : dispatch.Proper terms known (next + 1) :=
  { proper with numbered := fun pending member => Nat.lt_succ_of_lt (proper.numbered pending member) }

theorem concat (proper : dispatch.Proper terms known next) {item : PendingItem}
    (numbered : item.item.location = next) (owned : known dispatch.shard item.item.id) :
    Dispatch.Proper terms known (next + 1) { dispatch with items := dispatch.items ++ [item] } where
  node := proper.node
  items := by simp
  distinct := by
    have new : next ∉ dispatch.items.map (·.item.location) := by
      rintro member
      obtain ⟨pending, own, same⟩ := List.mem_map.mp member
      exact Nat.ne_of_lt (proper.numbered pending own) same
    rw [List.map_append, List.map_singleton, numbered]
    exact List.nodup_append_comm.mp (List.nodup_cons.mpr ⟨new, proper.distinct⟩)
  numbered := List.forall_mem_append.mpr
    ⟨proper.later.numbered, List.forall_mem_singleton.mpr (numbered ▸ Nat.lt_succ_self next)⟩
  known := List.forall_mem_append.mpr ⟨proper.known, List.forall_mem_singleton.mpr owned⟩

/-- An item for another shard has no document in common with a request. -/
theorem apart_item (disjoint : known.Disjoint) (proper : dispatch.Proper terms known next)
    {item : RoutedItem} (owned : known item.target.shard item.pending.item.id)
    (different : item.target.shard ≠ dispatch.shard) :
    ∀ other ∈ dispatch.routed, item.key ≠ other.key := by
  intro other member same
  obtain ⟨pending, own, rfl⟩ := List.mem_map.mp member
  obtain ⟨index, id⟩ := Prod.mk.inj same
  exact different (disjoint _ _ _ owned (id ▸ proper.known pending own) index)

theorem apart (disjoint : known.Disjoint) (proper : dispatch.Proper terms known next)
    (proper' : other.Proper terms known next) (different : dispatch.shard ≠ other.shard) :
    ∀ item ∈ dispatch.routed, ∀ item' ∈ other.routed, item.key ≠ item'.key := by
  intro item member
  obtain ⟨pending, own, rfl⟩ := List.mem_map.mp member
  exact proper'.apart_item disjoint (proper.known pending own) different

end Dispatch.Proper

namespace Imprint

variable {terms : WriteTerms} {known : Sharding} {next : Nat}

theorem landAll_front (disjoint : known.Disjoint) {before after : List Dispatch} {dispatch : Dispatch}
    (proper : ∀ other ∈ before ++ dispatch :: after, other.Proper terms known next)
    (different : ∀ other ∈ before, other.shard ≠ dispatch.shard) (imprint : Imprint) :
    imprint.landAll terms ((before ++ dispatch :: after).flatMap Dispatch.routed) =
      (imprint.landAll terms dispatch.routed).landAll terms
        ((before ++ after).flatMap Dispatch.routed) := by
  have own := proper dispatch (by simp)
  have apart : ∀ item ∈ before.flatMap Dispatch.routed, ∀ item' ∈ dispatch.routed,
      item.key ≠ item'.key := by
    intro item member
    obtain ⟨other, there, routed⟩ := List.mem_flatMap.mp member
    exact Dispatch.Proper.apart disjoint (proper other (by simp [there])) own (different other there)
      item routed
  simp only [List.flatMap_append, List.flatMap_cons, landAll_append]
  rw [landAll_comm imprint apart]

end Imprint

namespace BulkWriter

/-- The requests with items that have not landed, in the order in which they are to. -/
def queue (hand : List Dispatch) (writer : BulkWriter) : List Dispatch :=
  writer.inFlight.map (·.dispatch) ++ hand ++ writer.pending

/-- What is expected of a writer is there once its requests have landed. -/
structure Foreseen (terms : WriteTerms) (known : Sharding) (expected : Imprint) (hand : List Dispatch)
    (writer : BulkWriter) (job : Job Simulation) : Prop where
  options : writer.config.options = terms.options
  createsIndices : writer.config.createsIndices = terms.createsIndices
  inTime : terms.start.latency.getD 0 ≤ writer.config.timeout
  faultless : job.node.services.faults = {}
  later : terms.Later job.node.services.cluster
  started : terms.created ⊆ job.node.creation.created
  created : ∀ index ∈ job.node.creation.created,
    index ∈ terms.created ∨ job.node.services.cluster.indexExists index = true
  ensured : ∀ index ∈ writer.ensured,
    job.node.services.cluster.indexExists index = terms.stands index
  sent : ∀ transit ∈ writer.inFlight,
    job.node.services.cluster.indexExists transit.dispatch.shard.index =
      terms.stands transit.dispatch.shard.index
  queued : ∀ dispatch ∈ writer.queue hand, dispatch.Proper terms known writer.nextLocation
  waiting : (writer.pending.map (·.shard)).Nodup
  foreseen : (Imprint.of job.node.services.cluster
      (writer.summary.recordAll writer.arrivedAccounts)).landAll terms
    ((writer.queue hand).flatMap Dispatch.routed) = expected

variable {terms : WriteTerms} {known : Sharding} {expected : Imprint} {hand : List Dispatch}
variable {writer : BulkWriter} {job : Job Simulation}
variable {nextArrival : Pause → Nat → List Transit → Simulation → Option Nat}

namespace Foreseen

private theorem onCluster {job' : Job Simulation}
    (holds : Foreseen terms known expected hand writer job)
    (faultless : job'.node.services.faults = {})
    (alike : job.node.services.cluster.Alike job'.node.services.cluster)
    (same : job'.node.services.cluster.indices = job.node.services.cluster.indices)
    (created : job'.node.creation = job.node.creation) :
    Foreseen terms known expected hand writer job' := by
  have exists_ (index : String) : job'.node.services.cluster.indexExists index =
      job.node.services.cluster.indexExists index := by
    unfold LocalCluster.indexExists
    rw [same]
  exact {
    options := holds.options
    createsIndices := holds.createsIndices
    inTime := holds.inTime
    faultless := faultless
    later := holds.later.congr alike exists_
    started := created ▸ holds.started
    created := by simpa only [created, exists_] using holds.created
    ensured := by simpa only [exists_] using holds.ensured
    sent := by simpa only [exists_] using holds.sent
    queued := holds.queued
    waiting := holds.waiting
    foreseen := by rw [Imprint.of_congr same, holds.foreseen] }

theorem accept (holds : Foreseen terms known expected hand writer job) (node : NodeName) :
    Foreseen terms known expected hand writer
      (job.withServices ((Simulation.answeringIn nextArrival).accept node job.node.services)) := by
  obtain ⟨alike, same⟩ := job.node.services.cluster.accept_alike node
  exact holds.onCluster holds.faultless alike same rfl

theorem reach (holds : Foreseen terms known expected hand writer job) (transit : Transit) :
    Foreseen terms known expected hand writer
      (BulkWriter.reach (Simulation.answeringIn nextArrival) transit job) := by
  unfold BulkWriter.reach
  split
  · exact holds
  · exact holds.accept transit.dispatch.node

/-- The queue of a writer of which a request on its way is looked at. -/
theorem queue_split {position : Nat} {transit : Transit} {hand : List Dispatch} {writer : BulkWriter}
    (sent : writer.inFlight[position]? = some transit) :
    ∃ before after, writer.queue hand = before ++ transit.dispatch :: after ∧
      queue hand { writer with inFlight := writer.inFlight.eraseIdx position } = before ++ after ∧
      before = (writer.inFlight.take position).map (·.dispatch) := by
  obtain ⟨before, after, sent_eq, left_eq, rfl⟩ := eraseIdx_split sent
  refine ⟨_, after.map (·.dispatch) ++ hand ++ writer.pending, ?_, ?_, rfl⟩
  · rw [queue]
    conv_lhs => rw [sent_eq]
    simp
  · rw [queue, left_eq]
    simp

theorem land (disjoint : known.Disjoint) (holds : Foreseen terms known expected hand writer job)
    {position : Nat} {transit : Transit} (sent : writer.inFlight[position]? = some transit)
    (next : ∀ earlier ∈ writer.inFlight.take position,
      earlier.dispatch.shard ≠ transit.dispatch.shard) {after : Simulation}
    (faultless : after.faults = {}) (alike : job.node.services.cluster.Alike after.cluster)
    (same : after.cluster.indices = (job.node.services.cluster.applyBulk transit.dispatch.node
      (transit.dispatch.request writer.config.options)).2.indices) :
    Foreseen terms known expected hand
      { writer with
        inFlight := writer.inFlight.eraseIdx position
        arrived := writer.arrived ++ [⟨transit.dispatch,
          (job.node.services.cluster.applyBulk transit.dispatch.node
            (transit.dispatch.request writer.config.options)).1⟩] }
      (job.withServices after) := by
  obtain ⟨before, rest, queue_eq, left_eq, rfl⟩ := @queue_split position transit hand writer sent
  have queued := queue_eq ▸ holds.queued
  have stands := holds.sent transit (List.mem_of_getElem? sent)
  have proper := queued transit.dispatch (by simp)
  have exists_ (index : String) :
      after.cluster.indexExists index = job.node.services.cluster.indexExists index := by
    unfold LocalCluster.indexExists
    rw [same]
    exact LocalCluster.indexExists_applyBulk ..
  have landed := @Imprint.of_applyBulk terms job.node.services.cluster transit.dispatch
    (writer.summary.recordAll writer.arrivedAccounts) holds.later.alike.failingShards stands
    proper.distinct
  rw [← holds.options] at landed
  have others : ∀ dispatch ∈ (writer.inFlight.take position).map (·.dispatch),
      dispatch.shard ≠ transit.dispatch.shard := by
    intro dispatch member
    obtain ⟨earlier, there, rfl⟩ := List.mem_map.mp member
    exact next earlier there
  exact {
    options := holds.options
    createsIndices := holds.createsIndices
    inTime := holds.inTime
    faultless := faultless
    later := holds.later.congr alike exists_
    started := holds.started
    created := by
      intro index member
      exact (holds.created index member).imp_right fun found => (exists_ index).trans found
    ensured := fun index member => (exists_ index).trans (holds.ensured index member)
    sent := fun transit member =>
      (exists_ _).trans (holds.sent transit (List.mem_of_mem_eraseIdx member))
    queued := by
      intro dispatch member
      have member : dispatch ∈
        queue hand { writer with inFlight := writer.inFlight.eraseIdx position } := member
      rw [left_eq] at member
      refine queued dispatch ?_
      rcases List.mem_append.mp member with early | late
      · exact List.mem_append_left _ early
      · exact List.mem_append_right _ (.tail _ late)
    waiting := holds.waiting
    foreseen := by
      have left : queue hand
          { writer with
            inFlight := writer.inFlight.eraseIdx position
            arrived := writer.arrived ++ [⟨transit.dispatch,
              (job.node.services.cluster.applyBulk transit.dispatch.node
                (transit.dispatch.request writer.config.options)).1⟩] } =
          (writer.inFlight.take position).map (·.dispatch) ++ rest := left_eq
      have expected := holds.foreseen
      rw [queue_eq, Imprint.landAll_front disjoint queued others, ← landed] at expected
      rw [left, ← expected, ← Imprint.of_congr same]
      simp only [arrivedAccounts, List.flatMap_append, List.flatMap_cons, List.flatMap_nil,
        List.append_nil, BulkSummary.recordAll_append]
      rfl }

/-- A request that is answered lands, if only requests to other shards were sent before it. -/
theorem arrive (disjoint : known.Disjoint) (holds : Foreseen terms known expected hand writer job)
    {position : Nat}
    (next : ∀ transit, writer.inFlight[position]? = some transit →
      ∀ earlier ∈ writer.inFlight.take position, earlier.dispatch.shard ≠ transit.dispatch.shard) :
    ∃ writer' job', BulkWriter.arrive (Simulation.answeringIn nextArrival) position (writer, job) =
        (writer', job') ∧ Foreseen terms known expected hand writer' job' := by
  cases sent : writer.inFlight[position]? with
  | none => exact ⟨writer, job, arrive_of_none sent, holds⟩
  | some transit =>
    have reached := @reach _ _ _ _ _ _ nextArrival holds transit
    let there := BulkWriter.reach (Simulation.answeringIn nextArrival) transit job
    have inTime : there.node.services.cluster.latency.getD 0 ≤ writer.config.timeout := by
      rw [reached.later.alike.latency]
      exact holds.inTime
    obtain ⟨after, answered, faultless, alike, same⟩ := Simulation.bulk_inTime inTime
      reached.faultless transit.dispatch.node (transit.dispatch.request writer.config.options)
    have landed := reached.land disjoint sent (next transit sent) faultless alike same
    exact ⟨_, _, arrive_answered sent answered, { landed with }⟩

theorem age (holds : Foreseen terms known expected hand writer job) :
    ∃ writer' job', BulkWriter.age (Simulation.answeringIn nextArrival) (writer, job) =
        (writer', job') ∧ Foreseen terms known expected hand writer' job' := by
  have reached (transits : List Transit) (job : Job Simulation)
      (holds : Foreseen terms known expected hand writer job) :
      Foreseen terms known expected hand writer (transits.foldl (fun job transit =>
        BulkWriter.reach (Simulation.answeringIn nextArrival) transit job) job) := by
    induction transits generalizing job with
    | nil => exact holds
    | cons transit rest ih => exact ih _ (holds.reach transit)
  have reached := reached writer.inFlight job holds
  have same : queue hand { writer with inFlight := writer.inFlight.map ({ · with overdue := true }) } =
      writer.queue hand := by
    simp [queue, Function.comp_def]
  refine ⟨_, _, rfl, { reached with sent := ?_, queued := ?_, foreseen := ?_ }⟩
  · intro transit member
    obtain ⟨earlier, there, rfl⟩ := List.mem_map.mp member
    exact reached.sent earlier there
  · rw [same]
    exact reached.queued
  · rw [same]
    exact reached.foreseen

/-- Whichever request is answered next, none to its shard was sent before it. -/
theorem inOrder_of_answerable (inOrder : Simulation.InOrder nextArrival) {position : Nat}
    (next : Answerable (Simulation.answeringIn nextArrival) (writer, job) position) {transit : Transit}
    (sent : writer.inFlight[position]? = some transit) :
    ∀ earlier ∈ writer.inFlight.take position, earlier.dispatch.shard ≠ transit.dispatch.shard := by
  have chosen : position = 0 ∨ ∃ pause,
      BulkWriter.nextArrival (Simulation.answeringIn nextArrival) pause (writer, job) =
        some position := by
    rcases next with ⟨pause, next⟩ | rfl
    · exact .inr ⟨pause, next⟩
    · unfold nextPosition
      dsimp only
      split
      · cases picked : BulkWriter.nextArrival (Simulation.answeringIn nextArrival) .standstill
          (writer, job) with
        | none => exact .inl rfl
        | some position => exact .inr ⟨.standstill, picked⟩
      · exact .inl rfl
  rcases chosen with rfl | ⟨pause, picked⟩
  · simp
  · exact inOrder pause _ _ _ position transit picked sent

/-- However long a writer waits, what is expected of it stays. -/
theorem lasting (disjoint : known.Disjoint) (inOrder : Simulation.InOrder nextArrival)
    (hand : List Dispatch) :
    Lasting (Simulation.answeringIn nextArrival) fun state =>
      Foreseen terms known expected hand state.1 state.2 where
  arrive := by
    rintro ⟨writer, job⟩ position next holds
    obtain ⟨writer', job', arrived, holds'⟩ :=
      @arrive _ _ _ _ _ _ nextArrival disjoint holds position fun transit sent =>
        inOrder_of_answerable inOrder next sent
    rw [arrived]
    exact holds'
  age := by
    rintro ⟨writer, job⟩ holds
    obtain ⟨writer', job', aged, holds'⟩ := @age _ _ _ _ _ _ nextArrival holds
    rw [aged]
    exact holds'
  withAdmission := by
    rintro writer job loads holds
    exact { holds with }
  report := by
    rintro writer job event fields holds
    exact { holds with }

/-! ### Indices -/

/-- An index that is there, or that counts as created, is there if it is to stand. -/
theorem stands_of_settled (holds : Foreseen terms known expected hand writer job) {index : String}
    (settled : job.node.services.cluster.indexExists index = true ∨
      index ∈ job.node.creation.created) :
    job.node.services.cluster.indexExists index = terms.stands index := by
  refine holds.later.indexExists_eq_stands fun missing => ?_
  rcases settled with found | noted
  · rw [found] at missing
    cases missing
  · rcases holds.created index noted with early | found
    · simp [early]
    · rw [found] at missing
      cases missing

theorem createIndex (holds : Foreseen terms known expected hand writer job) {index : String}
    (wanted : ∃ dispatch ∈ hand, dispatch.shard.index = index)
    (asked : writer.config.createsIndices = true)
    (missing : job.node.services.cluster.indexExists index = false)
    (unknown : index ∉ job.node.creation.created) {state : Simulation}
    (faultless : state.faults = {})
    (created : state.cluster = job.node.services.cluster.createIndex index) :
    terms.stands index = true ∧
      Foreseen terms known expected hand writer (job.withServices state) := by
  have stands : terms.stands index = true := by
    have early : index ∉ terms.created := fun member => unknown (holds.started member)
    simp [WriteTerms.stands, ← holds.createsIndices, asked, early]
  have exists_ (other : String) : state.cluster.indexExists other =
      (job.node.services.cluster.indexExists other || other == index) := by
    rw [created, LocalCluster.indexExists_createIndex missing]
  have still {other : String}
      (same : job.node.services.cluster.indexExists other = terms.stands other) :
      state.cluster.indexExists other = terms.stands other := by
    rw [exists_, same]
    by_cases own : other = index <;> simp [own, stands]
  obtain ⟨dispatch, there, rfl⟩ := wanted
  have queued : dispatch ∈ writer.queue hand := by simp [queue, there]
  obtain ⟨pending, member⟩ := List.exists_mem_of_ne_nil _ (holds.queued dispatch queued).items
  have item : ∃ item ∈ (writer.queue hand).flatMap Dispatch.routed,
      item.target.shard.index = dispatch.shard.index :=
    ⟨_, List.mem_flatMap.mpr ⟨dispatch, queued, List.mem_map_of_mem member⟩, rfl⟩
  refine ⟨stands, ?_⟩
  exact {
    options := holds.options
    createsIndices := holds.createsIndices
    inTime := holds.inTime
    faultless := faultless
    later := created ▸ holds.later.createIndex missing stands
    started := holds.started
    created := by
      intro other noted
      refine (holds.created other noted).imp_right fun found => ?_
      exact (exists_ other).trans (by rw [found, Bool.true_or])
    ensured := fun other member => still (holds.ensured other member)
    sent := fun transit member => still (holds.sent transit member)
    queued := holds.queued
    waiting := holds.waiting
    foreseen := by
      have found := Imprint.of_createIndex missing (writer.summary.recordAll writer.arrivedAccounts)
      rw [← holds.foreseen,
        ← Imprint.landAll_find stands item (Imprint.of job.node.services.cluster _), ← found, ← created]
      rfl }

theorem ensure (holds : Foreseen terms known expected hand writer job) {index : String}
    (stands : job.node.services.cluster.indexExists index = terms.stands index) :
    Foreseen terms known expected hand (BulkWriter.ensure index (writer, job)).1 job :=
  { holds with
    ensured := by
      intro other member
      rcases List.mem_cons.mp member with rfl | member
      · exact stands
      · exact holds.ensured other member }

end Foreseen

private theorem lasting_indices (found : String → Bool) (creation : IndexCreation) :
    Lasting (Simulation.answeringIn nextArrival) fun state =>
      state.2.node.services.cluster.indexExists = found ∧ state.2.node.creation = creation := by
  have reached (transit : Transit) (job : Job Simulation)
      (holds : job.node.services.cluster.indexExists = found ∧ job.node.creation = creation) :
      let after := reach (Simulation.answeringIn nextArrival) transit job
      after.node.services.cluster.indexExists = found ∧ after.node.creation = creation := by
    unfold reach
    split
    · exact holds
    · refine ⟨Eq.trans ?_ holds.1, holds.2⟩
      funext index
      unfold LocalCluster.indexExists
      exact congrArg _ (job.node.services.cluster.accept_alike transit.dispatch.node).2
  refine ⟨⟨?_, ?_⟩, ?_, ?_⟩
  · rintro ⟨writer, job⟩ position - holds
    cases sent : writer.inFlight[position]? with
    | none => rwa [arrive_of_none sent]
    | some transit =>
      have there := reached transit job holds
      rw [arrive_answered sent rfl]
      refine ⟨Eq.trans ?_ there.1, there.2⟩
      funext index
      exact LocalCluster.indexExists_executeBulk ..
  · rintro ⟨writer, job⟩ holds
    unfold age
    dsimp only
    generalize writer.inFlight = transits
    induction transits generalizing job with
    | nil => exact holds
    | cons transit rest ih => exact ih _ (reached transit job holds)
  · exact fun _ _ _ holds => holds
  · exact fun _ _ _ _ holds => holds

namespace Foreseen

/-! ### Sending -/

/-- A request that is taken up is to land before those for other shards that go on waiting. -/
theorem take (disjoint : known.Disjoint) (holds : Foreseen terms known expected [] writer job)
    {dispatch : Dispatch} (found : writer.pending.find? (·.shard == dispatch.shard) = some dispatch) :
    Foreseen terms known expected [dispatch]
      { writer with pending := writer.pending.eraseP (·.shard == dispatch.shard) } job := by
  obtain ⟨before, after, pending_eq, left_eq, others⟩ := eraseP_split found
  let sent := writer.inFlight.map (·.dispatch)
  have queue_eq : writer.queue [] = sent ++ (before ++ dispatch :: after) := by
    simp [queue, pending_eq, sent]
  have queue_eq' : queue [dispatch]
      { writer with pending := writer.pending.eraseP (·.shard == dispatch.shard) } =
        sent ++ dispatch :: (before ++ after) := by
    simp [queue, left_eq, sent]
  have same : (sent ++ dispatch :: (before ++ after)).Perm (writer.queue []) := by
    rw [queue_eq]
    exact List.perm_middle.symm.append_left _
  have queued : ∀ other ∈ before ++ dispatch :: after,
      other.Proper terms known writer.nextLocation := fun other member =>
    holds.queued other (queue_eq ▸ List.mem_append_right _ member)
  have front := Imprint.landAll_front disjoint queued (by simpa using others)
  refine { holds with queued := ?_, waiting := ?_, foreseen := ?_ }
  · intro other member
    rw [queue_eq'] at member
    exact holds.queued other (same.mem_iff.mp member)
  · exact holds.waiting.sublist (List.eraseP_sublist.map _)
  · rw [← holds.foreseen, queue_eq, queue_eq', List.flatMap_append, List.flatMap_append,
      Imprint.landAll_append, Imprint.landAll_append, front, List.flatMap_cons, Imprint.landAll_append]
    rfl

/-- The creation of an index takes a while, in which other requests are answered. -/
theorem create (disjoint : known.Disjoint) (inOrder : Simulation.InOrder nextArrival)
    (holds : Foreseen terms known expected hand writer job) {dispatch : Dispatch}
    (wanted : dispatch ∈ hand) (asked : writer.config.createsIndices = true)
    (missing : job.node.services.cluster.indexExists dispatch.shard.index = false)
    (unknown : dispatch.shard.index ∉ job.node.creation.created) {state : Simulation}
    (created : Simulation.createIndex dispatch.shard.index job.node.services = (.ok (), state))
    {creation : IndexCreation}
    (noted : creation.created = job.node.creation.created ++ [dispatch.shard.index]) :
    let after := BulkWriter.ensure dispatch.shard.index (noteCreation dispatch.shard.index creation
      (exchange (Simulation.answeringIn nextArrival) (writer, job.withServices state)))
    Foreseen terms known expected hand after.1 after.2 := by
  have made : state.faults = {} ∧
      state.cluster = job.node.services.cluster.createIndex dispatch.shard.index := by
    rw [Simulation.createIndex, holds.faultless] at created
    obtain rfl := (Prod.mk.inj created).2
    exact ⟨rfl, rfl⟩
  obtain ⟨stands, ready⟩ :=
    holds.createIndex ⟨dispatch, wanted, rfl⟩ asked missing unknown made.1 made.2
  have lasting := (@lasting terms known expected nextArrival disjoint inOrder hand).and
    (lasting_indices state.cluster.indexExists job.node.creation)
  obtain ⟨held, found, same⟩ :=
    @Arriving.exchange _ _ _ lasting.toArriving (writer, job.withServices state) ⟨ready, rfl, rfl⟩
  generalize exchange (Simulation.answeringIn nextArrival)
    (writer, job.withServices state) = exchanged at held found same
  obtain ⟨writer', job'⟩ := exchanged
  have here : job'.node.services.cluster.indexExists dispatch.shard.index = true := by
    rw [found, made.2, LocalCluster.indexExists_createIndex missing, beq_self_eq_true, Bool.or_true]
  refine { held.ensure (here.trans stands.symm) with started := ?_, created := ?_ }
  · rw [noteCreation]
    exact noted ▸ fun index member => List.mem_append_left _ (same ▸ held.started member)
  · intro index member
    have member : index ∈ creation.created := member
    rw [noted, ← same] at member
    rcases List.mem_append.mp member with early | own
    · exact held.created index early
    · obtain rfl := List.mem_singleton.mp own
      exact .inr here

theorem depart {dispatch : Dispatch} (holds : Foreseen terms known expected [dispatch] writer job)
    (prepared : writer.config.createsIndices = true → dispatch.shard.index ∈ writer.ensured) :
    let after := BulkWriter.depart dispatch (writer, job)
    Foreseen terms known expected [] after.1 after.2 := by
  have same : queue [] { writer with inFlight := writer.inFlight ++ [⟨dispatch, false⟩] } =
      writer.queue [dispatch] := by
    simp [queue]
  refine { holds with sent := ?_, queued := ?_, foreseen := ?_ }
  · intro transit member
    rcases List.mem_append.mp member with earlier | last
    · exact holds.sent transit earlier
    · obtain rfl := List.mem_singleton.mp last
      cases asked : writer.config.createsIndices with
      | true => exact holds.ensured _ (prepared asked)
      | false =>
        refine holds.later.indexExists_eq_stands fun _ => ?_
        rw [← holds.createsIndices, asked, Bool.false_and]
  · exact fun other member => holds.queued other (same ▸ member)
  · exact same ▸ holds.foreseen

theorem reap (holds : Foreseen terms known expected hand writer job) :
    let after := BulkWriter.reap (writer, job)
    Foreseen terms known expected hand after.1 after.2 := by
  obtain ⟨job', reaped, counted⟩ := reap_apply writer job
  have faultless : job'.node.services.faults = {} := counted.services ▸ holds.faultless
  have kept := holds.onCluster faultless (counted.services ▸ .refl _) (counted.services ▸ rfl)
    counted.creation
  rw [reaped]
  exact { kept with }

/-- However a writer sends its requests, what is expected of it stays. -/
theorem keeping (disjoint : known.Disjoint) (inOrder : Simulation.InOrder nextArrival) :
    Keeping (Simulation.answeringIn nextArrival) fun hand state =>
      Foreseen terms known expected hand state.1 state.2 where
  arriving hand := (lasting disjoint inOrder hand).toArriving
  take _ _ _ found holds := holds.take disjoint found
  there _ _ _ _ settled holds := holds.ensure (holds.stands_of_settled settled)
  create _ _ _ _ _ asked missing unknown created noted holds :=
    holds.create disjoint inOrder (List.mem_singleton_self _) asked missing unknown created noted
  refuse := by
    -- The creation of an index is refused only by a cluster with faults.
    rintro dispatch writer job error state creation refused holds
    have faultless : job.node.services.faults = {} := holds.faultless
    have refused : Simulation.createIndex dispatch.shard.index job.node.services =
      (.error error, state) := refused
    rw [Simulation.createIndex, faultless] at refused
    cases (Prod.mk.inj refused).1
  depart dispatch _ _ :=
    (lasting disjoint inOrder [dispatch]).depart
      (fun state => Foreseen terms known expected [] state.1 state.2)
      fun _ _ prepared holds => holds.depart prepared
  reap _ holds := holds.reap

end Foreseen

end BulkWriter

end RowPipeline
