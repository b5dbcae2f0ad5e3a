import RowPipeline.Proofs.ForeseenWrites
import RowPipeline.Proofs.WrittenRows

/-!
Batches do not show. A stage that writes rows to indices leaves the same indices and documents behind,
and the same summary, as writing the rows alone in their order would, however many items it puts into
a request, however many requests are on their way, and whichever shard answers first.
-/

namespace RowPipeline

/-! ### Items that join those that wait -/

namespace BulkWriter

variable {shard : ShardId} {node : NodeName} {item : PendingItem}

variable {terms : WriteTerms} {known : Sharding} {next : Nat}

private theorem proper_enqueue {dispatches : List Dispatch}
    (home : node = terms.start.nodeForShard shard) (numbered : item.item.location = next)
    (owned : known shard item.item.id)
    (proper : ∀ dispatch ∈ dispatches, dispatch.Proper terms known next) :
    ∀ dispatch ∈ enqueue shard node item dispatches, dispatch.Proper terms known (next + 1) := by
  induction dispatches with
  | nil =>
    intro dispatch member
    obtain rfl := List.mem_singleton.mp member
    exact ⟨home, List.cons_ne_nil _ _, List.nodup_singleton _, by simp [numbered], by simpa using owned⟩
  | cons first rest ih =>
    have own := proper first List.mem_cons_self
    have others := fun dispatch member => proper dispatch (List.mem_cons_of_mem first member)
    intro dispatch member
    unfold enqueue at member
    split at member
    next same =>
      obtain rfl : first.shard = shard := by simpa using same
      rcases List.mem_cons.mp member with rfl | member
      · exact own.concat numbered owned
      · exact (others dispatch member).later
    next =>
      rcases List.mem_cons.mp member with rfl | member
      · exact own.later
      · exact ih others dispatch member

end BulkWriter

namespace Imprint

variable {terms : WriteTerms} {known : Sharding} {next : Nat}

/-- An item that joins those that wait lands after all of them. -/
theorem landAll_enqueue (disjoint : known.Disjoint) {dispatches : List Dispatch}
    (proper : ∀ dispatch ∈ dispatches, dispatch.Proper terms known next)
    (distinct : (dispatches.map (·.shard)).Nodup) {target : ShardTarget} {item : PendingItem}
    (home : target.node = terms.start.nodeForShard target.shard)
    (owned : known target.shard item.item.id) (imprint : Imprint) :
    imprint.landAll terms
        ((BulkWriter.enqueue target.shard target.node item dispatches).flatMap Dispatch.routed) =
      (imprint.landAll terms (dispatches.flatMap Dispatch.routed)).land terms ⟨target, item⟩ := by
  induction dispatches generalizing imprint with
  | nil => rfl
  | cons first rest ih =>
    have own := proper first List.mem_cons_self
    have others := fun dispatch member => proper dispatch (List.mem_cons_of_mem first member)
    obtain ⟨new, distinct⟩ := List.nodup_cons.mp distinct
    unfold BulkWriter.enqueue
    by_cases same : first.shard = target.shard
    · have joined : Dispatch.routed { first with items := first.items ++ [item] } =
          first.routed ++ [⟨target, item⟩] := by
        simp [Dispatch.routed, own.node, same, ← home]
      have apart : ∀ own ∈ [RoutedItem.mk target item], ∀ other ∈ rest.flatMap Dispatch.routed,
          own.key ≠ other.key := by
        intro own member other there
        obtain rfl := List.mem_singleton.mp member
        obtain ⟨dispatch, waits, routed⟩ := List.mem_flatMap.mp there
        have elsewhere : target.shard ≠ dispatch.shard := fun equal =>
          new (List.mem_map.mpr ⟨dispatch, waits, (same.trans equal).symm⟩)
        exact (others dispatch waits).apart_item disjoint owned elsewhere other routed
      rw [if_pos (beq_iff_eq.mpr same), List.flatMap_cons, List.flatMap_cons, joined, landAll_append,
        landAll_append, landAll_append]
      exact landAll_comm (imprint.landAll terms first.routed) apart
    · simp only [beq_iff_eq, same, if_false, List.flatMap_cons, landAll_append]
      exact ih others distinct _

end Imprint

namespace BulkWriter.Foreseen

variable {terms : WriteTerms} {known : Sharding} {expected : Imprint}
variable {writer : BulkWriter} {job : Job Simulation}
variable {nextArrival : Pause → Nat → List Transit → Simulation → Option Nat}

theorem add (disjoint : known.Disjoint) (inOrder : Simulation.InOrder nextArrival)
    (holds : Foreseen terms known expected [] writer job) {target : ShardTarget} {id : String}
    (home : target.node = terms.start.nodeForShard target.shard) (owned : known target.shard id)
    (routing : Option String) (operation : BulkOperation) (origin : Option String) :
    let added := BulkWriter.add (Simulation.answeringIn nextArrival) target id routing operation origin
      (writer, job)
    Foreseen terms known (expected.land terms ⟨target, ⟨⟨0, id, routing, operation⟩, origin⟩⟩) []
      added.1 added.2 := by
  let item : PendingItem := ⟨⟨writer.nextLocation, id, routing, operation⟩, origin⟩
  have waits : ∀ dispatch ∈ writer.pending, dispatch.Proper terms known writer.nextLocation :=
    fun dispatch member => holds.queued dispatch (by simp [queue, member])
  let enqueued := enqueue target.shard target.node item writer.pending
  have ready : Foreseen terms known (expected.land terms ⟨target, item⟩) []
      { writer with nextLocation := writer.nextLocation + 1, pending := enqueued } job := by
    refine { holds with queued := ?_, waiting := nodup_enqueue holds.waiting, foreseen := ?_ }
    · intro dispatch member
      rcases List.mem_append.mp member with sent | waiting
      · exact (holds.queued dispatch (List.mem_append_left _ sent)).later
      · exact proper_enqueue home rfl owned waits dispatch waiting
    · have landed := holds.foreseen
      simp only [queue, List.append_nil, List.flatMap_append, Imprint.landAll_append] at landed ⊢
      rw [← landed, ← Imprint.landAll_enqueue disjoint waits holds.waiting home owned]
      rfl
  rw [← Imprint.land_renumber expected target _ origin writer.nextLocation]
  exact (keeping disjoint inOrder).add ready

theorem reject (holds : Foreseen terms known expected [] writer job) (origin : Option String)
    (message : String) :
    let rejected := BulkWriter.reject (Simulation.answeringIn nextArrival) origin message (writer, job)
    Foreseen terms known
      (expected.record ⟨0, LocalCluster.nodeName 0, origin, some message⟩) [] rejected.1
        rejected.2 := by
  intro rejected
  let account : Account := ⟨0, LocalCluster.nodeName 0, origin, some message⟩
  have proper : ∀ dispatch ∈ queue [] rejected.1, dispatch.Proper terms known rejected.1.nextLocation :=
    fun dispatch member => (holds.queued dispatch member).later
  have noted := BulkSummary.recordAll_comm writer.summary [account] writer.arrivedAccounts
  refine { holds with queued := proper, foreseen := ?_ }
  rw [← holds.foreseen, ← Imprint.record_landAll]
  let routed := (writer.queue []).flatMap Dispatch.routed
  exact congrArg (fun summary =>
    (Imprint.of job.node.services.cluster summary).landAll terms routed) noted

end BulkWriter.Foreseen

/-! ### Rows -/

namespace IndexWriteStage

/-- Rows of the same index and id are routed alike. -/
def RoutesAlike (stage : IndexWriteStage) (rows : List Row) : Prop :=
  ∀ row ∈ rows, ∀ row' ∈ rows, ∀ item item',
    stage.itemOf "" row = .ok item → stage.itemOf "" row' = .ok item' →
    item.index = item'.index → item.address.id = item'.address.id →
    item.address.routingKey = item'.address.routingKey

/-- The shards that rows are written to, with the documents. -/
def sharding (stage : IndexWriteStage) (cluster : LocalCluster) (rows : List Row) : Sharding :=
  fun shard id => ∃ row ∈ rows, ∃ item, stage.itemOf "" row = .ok item ∧ item.address.id = id ∧
    (cluster.resolve item.index item.address.routingKey).shard = shard

variable {stage : IndexWriteStage} {rows : List Row}

/-- Without a clustering column, the id of a document routes it. -/
theorem routesAlike_of_unclustered (unclustered : stage.addressing.clusteredBy = none)
    (rows : List Row) : stage.RoutesAlike rows := by
  have key (row : Row) (item : Item) (made : stage.itemOf "" row = .ok item) :
      item.address.routingKey = item.address.id := by
    obtain ⟨address, addressed, made⟩ := ok_of_bind made
    obtain ⟨operation, _, made⟩ := ok_of_bind made
    obtain ⟨_, _, addressed⟩ := ok_of_bind addressed
    obtain ⟨id, _, addressed⟩ := ok_of_bind addressed
    have routing : stage.addressing.routing row = .ok none := by
      rw [Addressing.routing, unclustered]
    rw [routing] at addressed
    cases addressed
    cases named : stage.naming.resolve row with
    | error fault => simp [named] at made
    | ok index =>
      simp only [named] at made
      cases made
      rfl
  intro row _ row' _ item item' made made' _ same
  rw [key row item made, key row' item' made', same]

private theorem sharding_disjoint (alike : stage.RoutesAlike rows) (cluster : LocalCluster) :
    (stage.sharding cluster rows).Disjoint := by
  rintro _ _ _ ⟨row, member, item, made, rfl, rfl⟩ ⟨row', member', item', made', same, rfl⟩ index
  have index : item.index = item'.index := index
  rw [index, alike row member row' member' item item' made made' index same.symm]

end IndexWriteStage

/-- A writer that puts rows into batches, after rows that were written alone. -/
structure BulkWriter.Alongside (terms : WriteTerms) (known : Sharding)
    (alone : LocalCluster × BulkSummary) (state : BulkWriter.State Simulation) : Prop where
  later : terms.Later alone.1
  foreseen : Foreseen terms known (Imprint.of alone.1 alone.2) [] state.1 state.2

namespace BulkWriter.Alongside

variable {terms : WriteTerms} {known : Sharding} {alone : LocalCluster × BulkSummary}
variable {stage : IndexWriteStage} {job : Job Simulation} {state : State Simulation}
variable {nextArrival : Pause → Nat → List Transit → Simulation → Option Nat}

theorem start {config : BulkConfig} (job : Job Simulation) (faultless : job.node.services.faults = {})
    (inTime : job.node.services.cluster.latency.getD 0 ≤ config.timeout) :
    let terms : WriteTerms := ⟨config.options, config.createsIndices, job.node.creation.created,
      job.node.services.cluster⟩
    Alongside terms known (terms.start, {}) ({ config := config }, job) where
  later := .start _
  foreseen := {
    options := rfl
    createsIndices := rfl
    inTime := inTime
    faultless := faultless
    later := .start _
    started := List.Subset.refl _
    created := fun _ member => .inl member
    ensured := nofun
    sent := nofun
    queued := nofun
    waiting := .nil
    foreseen := rfl }

/-- A row is expected to leave behind what it does alone. -/
theorem write (disjoint : known.Disjoint) (inOrder : Simulation.InOrder nextArrival)
    (keyed : stage.addressing.needsFreshId = false) {row : Row}
    (owned : ∀ item, stage.itemOf "" row = .ok item →
      known (terms.start.resolve item.index item.address.routingKey).shard item.address.id)
    (holds : Alongside terms known alone (stage.writer, job)) :
    Alongside terms known (stage.writeAlone terms alone row)
      (stage.write (Simulation.answeringIn nextArrival) row job) := by
  have named : stage.takeId job = ("", job) := by
    rw [IndexWriteStage.takeId, keyed]
    rfl
  unfold IndexWriteStage.write IndexWriteStage.writeAlone
  dsimp only
  cases stage.originOf row with
  | error fault => exact ⟨holds.later, holds.foreseen.reject none _⟩
  | ok origin =>
    rw [named]
    dsimp only
    cases made : stage.itemOf "" row with
    | error fault => exact ⟨holds.later, holds.foreseen.reject origin _⟩
    | ok item =>
      have here := holds.foreseen.later.alike.resolve item.index item.address.routingKey
      have there := holds.later.alike.resolve item.index item.address.routingKey
      have resolved : (Simulation.answeringIn nextArrival).resolve job.node.services item.index
          item.address.routingKey = some (alone.1.resolve item.index item.address.routingKey) := by
        have faultless : job.node.services.faults = {} := holds.foreseen.faultless
        show Simulation.resolve _ _ _ = _
        rw [Simulation.resolve, faultless, here, there]
        rfl
      simp only [resolved]
      obtain ⟨later, landed⟩ := LocalCluster.of_writeAlone holds.later alone.2
        (alone.1.resolve item.index item.address.routingKey)
        ⟨⟨0, item.address.id, item.address.routing, item.operation⟩, origin⟩
      refine ⟨later, ?_⟩
      rw [landed, there]
      exact holds.foreseen.add disjoint inOrder rfl (owned item made) item.address.routing
        item.operation origin

/-- However a stage is driven, what is expected is what its rows leave behind alone. -/
theorem visits (disjoint : known.Disjoint) (inOrder : Simulation.InOrder nextArrival)
    (keyed : stage.addressing.needsFreshId = false) (visits : List Visit)
    (owned : ∀ row ∈ Visit.rows visits, ∀ item, stage.itemOf "" row = .ok item →
      known (terms.start.resolve item.index item.address.routingKey).shard item.address.id)
    (holds : Alongside terms known alone state) :
    Alongside terms known ((Visit.rows visits).foldl (stage.writeAlone terms) alone)
      (visits.foldl ((StageBody.indexWrite stage).visit (Simulation.answeringIn nextArrival))
        state) := by
  induction visits generalizing alone state with
  | nil => exact holds
  | cons visit rest ih =>
    cases visit with
    | row row =>
      have rows_eq : Visit.rows (.row row :: rest) = row :: Visit.rows rest := rfl
      rw [rows_eq] at owned ⊢
      refine ih (fun row member => owned row (.tail _ member)) ?_
      exact @write _ _ _ { stage with writer := state.1 } state.2 _ disjoint inOrder keyed _
        (owned row List.mem_cons_self) holds
    | pause =>
      exact ih owned ⟨holds.later, (Foreseen.lasting disjoint inOrder []).exchange holds.foreseen⟩

/-- A writer that finishes leaves behind what its rows do alone. -/
theorem finish (disjoint : known.Disjoint) (inOrder : Simulation.InOrder nextArrival)
    (holds : Alongside terms known alone state) :
    ∃ writer job, BulkWriter.finish (Simulation.answeringIn nextArrival) state =
        (alone.2, (writer, job)) ∧
      ∀ index, job.node.services.cluster.indexExists index = alone.1.indexExists index ∧
        ∀ id, job.node.services.cluster.document? index id = alone.1.document? index id := by
  obtain ⟨writer, job, finished, held, waiting, sent, arrived⟩ :=
    (Foreseen.keeping disjoint inOrder).finish holds.foreseen
  have same : Imprint.of job.node.services.cluster writer.summary = Imprint.of alone.1 alone.2 := by
    simpa [queue, waiting, sent, arrivedAccounts, arrived, BulkSummary.recordAll, Imprint.landAll]
      using held.foreseen
  obtain ⟨found, document, summary⟩ := Imprint.mk.inj same
  exact ⟨_, job, summary ▸ finished, fun index =>
    ⟨congrFun found index, fun id => congrFun document (index, id)⟩⟩

end BulkWriter.Alongside

/-! ### Compiled stages -/

namespace Projection

/-- Where a projection writes rows, if it writes them to indices. -/
def target? : Projection → Option IndexTarget
  | .sourceIndexWriter parameters => some parameters.target
  | .columnIndexWriter parameters => some parameters.target
  | _ => none

/-- A projection that asks for another number of items in a request. -/
def withBulkActions (actions : Option Nat) : Projection → Projection
  | .sourceIndexWriter parameters => .sourceIndexWriter { parameters with bulkActions := actions }
  | .columnIndexWriter parameters => .columnIndexWriter { parameters with bulkActions := actions }
  | projection => projection

variable {services services' : Services Simulation} {settings : Settings} {projection : Projection}
variable {target : IndexTarget}

private theorem timeout_of_ofSettings {actions : Option Nat} {config : BulkConfig}
    (made : BulkConfig.ofSettings settings actions = .ok config) :
    config.timeout = settings.bulkTimeout := by
  unfold BulkConfig.ofSettings at made
  dsimp only at made
  split at made <;> cases made
  rfl

/-- The addresses of rows are told by where the projection writes them. -/
theorem addressing_of_compileBody {written : IndexWriteStage} {job : Job Simulation}
    (writes : projection.target? = some target)
    (compiled : projection.compileBody services settings job = .ok (.indexWrite written)) :
    Addressing.compile target.primaryKeys target.clusteredBy = .ok written.addressing := by
  cases projection with
  | sourceIndexWriter parameters =>
    obtain rfl := Option.some.inj writes
    obtain ⟨_, _, compiled⟩ := ok_of_bind compiled
    obtain ⟨_, _, compiled⟩ := ok_of_bind compiled
    obtain ⟨addressing, addressed, compiled⟩ := ok_of_bind compiled
    iterate 2 obtain ⟨_, _, compiled⟩ := ok_of_bind compiled
    cases compiled
    exact addressed
  | columnIndexWriter parameters =>
    obtain rfl := Option.some.inj writes
    iterate 4 obtain ⟨_, _, compiled⟩ := ok_of_bind compiled
    obtain ⟨addressing, addressed, compiled⟩ := ok_of_bind compiled
    obtain ⟨_, _, compiled⟩ := ok_of_bind compiled
    cases compiled
    exact addressed
  | _ => cases writes

/-- What a stage does with a row does not depend on how many items it puts into a request. -/
theorem compileBody_withBulkActions {solo : Settings} {written : IndexWriteStage} {body : StageBody}
    {job job' : Job Simulation} (writes : projection.target? = some target)
    (alone : projection.compileBody services solo job = .ok (.indexWrite written))
    (actions : Option Nat)
    (compiled : (projection.withBulkActions actions).compileBody services' settings job' = .ok body) :
    ∃ config : BulkConfig, body = .indexWrite { written with writer := { config := config } } ∧
      config.options = written.writer.config.options ∧
      config.createsIndices = written.writer.config.createsIndices ∧
      config.timeout = settings.bulkTimeout := by
  cases projection with
  | sourceIndexWriter parameters =>
    obtain ⟨_, _, alone⟩ := ok_of_bind alone
    obtain ⟨naming, named, alone⟩ := ok_of_bind alone
    obtain ⟨addressing, addressed, alone⟩ := ok_of_bind alone
    obtain ⟨source, sourced, alone⟩ := ok_of_bind alone
    obtain ⟨origin, told, alone⟩ := ok_of_bind alone
    cases alone
    obtain ⟨config, sized, compiled⟩ := ok_of_bind compiled
    have timeout : config.timeout = settings.bulkTimeout := timeout_of_ofSettings sized
    simp only [named, addressed, sourced, told] at compiled
    cases compiled
    exact ⟨_, rfl, rfl, rfl, timeout⟩
  | columnIndexWriter parameters =>
    obtain ⟨_, counted, alone⟩ := ok_of_bind alone
    obtain ⟨_, _, alone⟩ := ok_of_bind alone
    obtain ⟨assignments, assigned, alone⟩ := ok_of_bind alone
    obtain ⟨naming, named, alone⟩ := ok_of_bind alone
    obtain ⟨addressing, addressed, alone⟩ := ok_of_bind alone
    obtain ⟨values, valued, alone⟩ := ok_of_bind alone
    cases alone
    obtain ⟨_, _, compiled⟩ := ok_of_bind compiled
    obtain ⟨config, sized, compiled⟩ := ok_of_bind compiled
    have timeout : config.timeout = settings.bulkTimeout := timeout_of_ofSettings sized
    simp only [assigned, named, addressed, valued] at compiled
    cases compiled
    exact ⟨_, rfl, rfl, rfl, timeout⟩
  | _ => cases writes

private theorem keyed_of_compile {primaryKeys : List Symbol} {clusteredBy : Option Symbol}
    {addressing : Addressing} (keyed : primaryKeys ≠ [])
    (compiled : Addressing.compile primaryKeys clusteredBy = .ok addressing) :
    addressing.needsFreshId = false := by
  obtain ⟨keys, compiledKeys, compiled⟩ := ok_of_bind compiled
  obtain ⟨_, _, compiled⟩ := ok_of_bind compiled
  cases compiled
  have lengths : keys.length = primaryKeys.length := length_of_mapM compiledKeys
  cases keys with
  | nil => exact absurd (List.length_eq_zero_iff.mp lengths.symm) keyed
  | cons => rfl

private theorem unclustered_of_compile {primaryKeys : List Symbol} {addressing : Addressing}
    (compiled : Addressing.compile primaryKeys none = .ok addressing) :
    addressing.clusteredBy = none := by
  obtain ⟨_, _, compiled⟩ := ok_of_bind compiled
  obtain ⟨_, same, compiled⟩ := ok_of_bind compiled
  cases same
  cases compiled
  rfl

/-- Batches do not show: if requests to one shard are answered in their order and none takes too long,
a stage that writes rows to indices leaves the indices and documents behind, and emits the summary, of
its rows written alone in their order, whatever the bulk size and the limit of requests. -/
theorem writes_alone {δ : Type} (nextArrival : Pause → Nat → List Transit → Simulation → Option Nat)
    (settings solo : Settings) (projection : Projection) (target : IndexTarget) (actions : Option Nat)
    (written : IndexWriteStage) (compiling compiled job : Job Simulation) (stage : Stage)
    (next : Receiver Simulation δ) (below : δ) (visits : List Visit)
    (writes : projection.target? = some target) (keyed : target.primaryKeys ≠ [])
    (reference : projection.compileBody Simulation.services solo compiling = .ok (.indexWrite written))
    (done : (projection.withBulkActions actions).compile (Simulation.answeringIn nextArrival) settings
      compiling = (.ok stage, compiled))
    (routed : target.clusteredBy = none ∨ written.RoutesAlike (Visit.rows visits))
    (inOrder : Simulation.InOrder nextArrival) (faultless : job.node.services.faults = {})
    (inTime : job.node.services.cluster.latency.getD 0 ≤ settings.bulkTimeout) :
    let terms : WriteTerms := ⟨written.writer.config.options, written.writer.config.createsIndices,
      job.node.creation.created, job.node.services.cluster⟩
    let alone := written.writeAllAlone terms (Visit.rows visits)
    ∃ fed stage' job',
      Stage.drive (Simulation.answeringIn nextArrival) next visits ((stage, below), job) =
          (List.replicate (Visit.rows visits).length (.ok .more), fed) ∧
        Stage.finish (Simulation.answeringIn nextArrival) next fed =
          (Turn.below (next.pushAll (alone.2.rows written.result) >>= fun _ => next.finish))
            ((stage', below), job') ∧
        ∀ index, job'.node.services.cluster.indexExists index = alone.1.indexExists index ∧
          ∀ id, job'.node.services.cluster.document? index id = alone.1.document? index id := by
  intro terms alone
  obtain ⟨body, built, rfl⟩ := compile_ok done
  obtain ⟨config, rfl, options, creates, timeout⟩ :=
    compileBody_withBulkActions writes reference actions built
  have addressed := addressing_of_compileBody writes reference
  have alike : written.RoutesAlike (Visit.rows visits) := by
    rcases routed with unclustered | alike
    · have column := unclustered_of_compile (unclustered ▸ addressed)
      exact IndexWriteStage.routesAlike_of_unclustered column _
    · exact alike
  let batched : IndexWriteStage := { written with writer := { config := config } }
  let cluster := job.node.services.cluster
  have disjoint := IndexWriteStage.sharding_disjoint alike cluster
  let known := written.sharding cluster (Visit.rows visits)
  have started : BulkWriter.Alongside terms known (terms.start, {}) ({ config := config }, job) := by
    have started := @BulkWriter.Alongside.start known config job faultless (timeout ▸ inTime)
    rwa [options, creates] at started
  have held := @BulkWriter.Alongside.visits _ _ _ batched _ nextArrival disjoint inOrder
    (keyed_of_compile keyed addressed) visits
    (fun row member item made => ⟨row, member, item, made, rfl, rfl⟩) started
  obtain ⟨writer, job', finished, same⟩ := held.finish disjoint inOrder
  rcases visited : visits.foldl
    ((StageBody.indexWrite batched).visit (Simulation.answeringIn nextArrival))
    ({ config := config }, job) with ⟨after, middle⟩
  rw [visited] at finished
  let stage : Stage := ⟨(projection.withBulkActions actions).kind, .indexWrite batched, .created⟩
  have fresh : stage.body.writer? = some { config := config } := rfl
  obtain ⟨phase, unended, driven⟩ := Stage.drive_written fresh rfl visited next below
  let driven' : Stage := { stage with body := stage.body.withWriter after, phase := phase }
  have kept : driven'.body.writer? = some after := rfl
  have ended := Stage.finish_written kept unended finished next below
  exact ⟨_, _, job', driven, ended, same⟩

end Projection

namespace Simulation

/-- The second request on its way is answered ahead of the first if it is for another shard. -/
def overtaking (_ : Pause) (_ : Nat) (inFlight : List Transit) (_ : Simulation) : Option Nat :=
  match inFlight with
  | first :: second :: _ => if first.dispatch.shard = second.dispatch.shard then some 0 else some 1
  | _ => some 0

private theorem overtaking_inOrder : InOrder overtaking := by
  intro pause timeout inFlight simulation position transit next sent earlier before
  unfold overtaking at next
  split at next
  next first second rest =>
    split at next
    · cases next
      simp at before
    next different =>
      cases next
      obtain rfl : second = transit := by simpa using sent
      obtain rfl : earlier = first := by simpa using before
      exact different
  next =>
    cases next
    simp at before

end Simulation

namespace Projection

/-- A document that is written twice ends in its second version, though a request for another shard
overtakes the first. -/
theorem writes_alone_overtaken :
    let target : IndexTarget := ⟨"t", [.input 0], none, [], true⟩
    let projection : Projection :=
      .sourceIndexWriter ⟨target, .input 1, none, none, true, none, none, .rowCount⟩
    let visits : List Visit := [.row [.text "1", .object []], .row [.text "4", .object []], .pause,
      .row [.text "1", .object []]]
    let job := Job.alone.withServices { cluster := LocalCluster.ofSize 2 2 }
    let services := Simulation.answeringIn Simulation.overtaking
    projection.target? = some target ∧ target.primaryKeys ≠ [] ∧ target.clusteredBy = none ∧
      Simulation.InOrder Simulation.overtaking ∧ job.node.services.faults = {} ∧
      job.node.services.cluster.latency.getD 0 ≤ ({} : Settings).bulkTimeout ∧
      ∃ written stage compiled,
        projection.compileBody Simulation.services {} job = .ok (.indexWrite written) ∧
          (projection.withBulkActions (some 1)).compile services {} job = (.ok stage, compiled) ∧
          ∃ fed stage' job',
            Stage.drive services Terminal.receiver visits ((stage, .collecting {}), job) =
                ([.ok .more, .ok .more, .ok .more], fed) ∧
              Stage.finish services Terminal.receiver fed =
                (Turn.below (Terminal.receiver.pushAll [[.long 3]] >>= fun _ =>
                  Terminal.receiver.finish)) ((stage', .collecting {}), job') ∧
              job'.node.services.cluster.indexExists "t" = true ∧
              (job'.node.services.cluster.document? "t" "1").map (·.version) = some 2 := by
  intro target projection visits job services
  have writes : projection.target? = some target := rfl
  have keyed : target.primaryKeys ≠ [] := List.cons_ne_nil _ _
  have inTime : job.node.services.cluster.latency.getD 0 ≤ ({} : Settings).bulkTimeout := by decide
  let addressing : Addressing := ⟨[⟨.input 0, rfl⟩], none⟩
  let config : BulkConfig := ⟨({} : Settings).bulkSize, ({} : Settings).requestsPerNode,
    ({} : Settings).bulkTimeout, true, ⟨true, false⟩⟩
  let written : IndexWriteStage :=
    ⟨⟨"t", []⟩, addressing, .source ⟨.input 1, rfl⟩ none none, none, .rowCount, { config := config }⟩
  have reference : projection.compileBody Simulation.services {} job = .ok (.indexWrite written) := rfl
  let terms : WriteTerms := ⟨config.options, true, [], LocalCluster.ofSize 2 2⟩
  let alone := written.writeAllAlone terms (Visit.rows visits)
  have succeeded : alone.2.succeeded = 3 := by decide +kernel
  have rows : alone.2.rows .rowCount = [[.long 3]] := by
    show [[BulkSummary.countCell alone.2.succeeded]] = _
    rw [succeeded]
    rfl
  have found : alone.1.indexExists "t" = true := by decide +kernel
  have version : (alone.1.document? "t" "1").map (·.version) = some 2 := by decide +kernel
  have inOrder := Simulation.overtaking_inOrder
  refine ⟨writes, keyed, rfl, inOrder, rfl, inTime, written, _, _, reference, rfl, ?_⟩
  obtain ⟨fed, stage', job', driven, finished, same⟩ :=
    writes_alone Simulation.overtaking {} {} projection target (some 1) written job _ job _
      Terminal.receiver (.collecting {}) visits writes keyed reference rfl (.inl rfl) inOrder rfl inTime
  obtain ⟨kept, documents⟩ := same "t"
  refine ⟨fed, stage', job', driven, rows ▸ finished, kept.trans found, ?_⟩
  rw [documents "1"]
  exact version

end Projection

end RowPipeline
