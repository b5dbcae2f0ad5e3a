import RowPipeline.Proofs.Accounts
import RowPipeline.Proofs.Waiting

/-!
The steps of a batched writer: what settles an item, and the rules from which something goes on
holding of the writer in whichever order requests are answered.
-/

namespace RowPipeline

variable {σ : Type}

/-! ### Accounts of requests -/

/-- What is recorded of the items of an answered request. -/
def BulkOutcome.accounts (outcome : BulkOutcome) : List Account :=
  (BulkWriter.itemErrors outcome).map fun (pending, error) =>
    ⟨pending.item.location, outcome.dispatch.node, pending.origin, error⟩

/-- The same job after more items were counted. Nothing is asked of the cluster for that. -/
structure Job.Counted (accounts : List Account) (job job' : Job σ) : Prop where
  services : job'.node.services = job.node.services
  creation : job'.node.creation = job.node.creation
  admission : job'.node.admission = job.node.admission
  memory : job'.memory = job.memory
  dispatched : job'.node.metrics.bulkRequestsDispatched = job.node.metrics.bulkRequestsDispatched
  succeeded : job'.node.metrics.bulkItemsSucceeded =
    job.node.metrics.bulkItemsSucceeded + accounts.countP Account.succeeded
  failed : job'.node.metrics.bulkItemsFailed =
    job.node.metrics.bulkItemsFailed + accounts.countP Account.failed

namespace Job.Counted

variable {first second : List Account} {job middle job' : Job σ}

theorem nil (job : Job σ) : Job.Counted [] job job := ⟨rfl, rfl, rfl, rfl, rfl, rfl, rfl⟩

theorem append (here : Job.Counted first job middle) (there : Job.Counted second middle job') :
    Job.Counted (first ++ second) job job' where
  services := there.services.trans here.services
  creation := there.creation.trans here.creation
  admission := there.admission.trans here.admission
  memory := there.memory.trans here.memory
  dispatched := there.dispatched.trans here.dispatched
  succeeded := by rw [there.succeeded, here.succeeded, List.countP_append, Nat.add_assoc]
  failed := by rw [there.failed, here.failed, List.countP_append, Nat.add_assoc]

end Job.Counted

namespace BulkWriter

variable {services : Services σ} {inv inv' : State σ → Prop}

private theorem reportFailure_counted (outcome : BulkOutcome) (job : Job σ) :
    Job.Counted [] job (reportFailure outcome job) := by
  unfold reportFailure
  split <;> exact ⟨rfl, rfl, rfl, rfl, rfl, rfl, rfl⟩

/-- Merging an outcome records one account for each item. -/
theorem merge_apply (outcome : BulkOutcome) (writer : BulkWriter) (job : Job σ) :
    ∃ job', merge outcome (writer, job) =
        ({ writer with summary := writer.summary.recordAll outcome.accounts }, job') ∧
      Job.Counted outcome.accounts job job' := by
  have recorded : (itemErrors outcome).foldl
      (fun summary (pending, error) => summary.record outcome.dispatch.node pending.origin error)
      writer.summary = writer.summary.recordAll outcome.accounts := by
    simp only [BulkOutcome.accounts, BulkSummary.recordAll, List.foldl_map]
    rfl
  have failed : ((itemErrors outcome).filter (·.2.isSome)).length =
      outcome.accounts.countP Account.failed := by
    rw [BulkOutcome.accounts, List.countP_map, List.countP_eq_length_filter]
    rfl
  have total : (itemErrors outcome).length - outcome.accounts.countP Account.failed =
      outcome.accounts.countP Account.succeeded := by
    have both := Account.countP_succeeded_add_failed outcome.accounts
    rw [BulkOutcome.accounts, List.length_map] at both
    rw [BulkOutcome.accounts]
    omega
  have reported := reportFailure_counted outcome job
  unfold merge
  dsimp only
  rw [recorded, failed, total]
  refine ⟨_, rfl, { reported with succeeded := ?_, failed := ?_ }⟩
  · exact congrArg (· + outcome.accounts.countP Account.succeeded) reported.succeeded
  · exact congrArg (· + outcome.accounts.countP Account.failed) reported.failed

/-- What the answers that came in will record. -/
def arrivedAccounts (writer : BulkWriter) : List Account :=
  writer.arrived.flatMap BulkOutcome.accounts

private theorem foldl_merge_apply (outcomes : List BulkOutcome) (writer : BulkWriter) (job : Job σ) :
    let accounts := outcomes.flatMap BulkOutcome.accounts
    ∃ job', outcomes.foldl (fun state outcome => merge outcome state) (writer, job) =
        ({ writer with summary := writer.summary.recordAll accounts }, job') ∧
      Job.Counted accounts job job' := by
  induction outcomes generalizing writer job with
  | nil => exact ⟨job, rfl, .nil job⟩
  | cons outcome rest ih =>
    obtain ⟨middle, merged, here⟩ := merge_apply outcome writer job
    obtain ⟨job', reaped, there⟩ :=
      ih { writer with summary := writer.summary.recordAll outcome.accounts } middle
    refine ⟨job', ?_, here.append there⟩
    rw [List.foldl_cons, merged, reaped, List.flatMap_cons, BulkSummary.recordAll_append]

/-- Reaping records the accounts of everything that came in. -/
theorem reap_apply (writer : BulkWriter) (job : Job σ) :
    ∃ job', reap (writer, job) =
        ({ writer with
            arrived := []
            summary := writer.summary.recordAll writer.arrivedAccounts }, job') ∧
      Job.Counted writer.arrivedAccounts job job' :=
  foldl_merge_apply writer.arrived { writer with arrived := [] } job

/-! ### Requests that are taken out of a list -/

theorem eraseIdx_split {α : Type} {items : List α} {position : Nat} {item : α}
    (found : items[position]? = some item) :
    ∃ before after, items = before ++ item :: after ∧ items.eraseIdx position = before ++ after ∧
      before = items.take position := by
  obtain ⟨inside, rfl⟩ := List.getElem?_eq_some_iff.mp found
  refine ⟨items.take position, items.drop (position + 1), ?_, List.eraseIdx_eq_take_drop_succ .., rfl⟩
  rw [List.getElem_cons_drop, List.take_append_drop]

theorem eraseP_split {α : Type} {items : List α} {wanted : α → Bool} {item : α}
    (found : items.find? wanted = some item) :
    ∃ before after, items = before ++ item :: after ∧ items.eraseP wanted = before ++ after ∧
      ∀ other ∈ before, wanted other = false := by
  obtain ⟨here, before, after, rfl, others⟩ := List.find?_eq_some_iff_append.mp found
  have unwanted : ∀ other ∈ before, ¬wanted other = true := by simpa using others
  refine ⟨before, after, rfl, ?_, by simpa using others⟩
  rw [List.eraseP_append_right _ unwanted, List.eraseP_cons_of_pos here]

/-! ### Shards that something waits for -/

private theorem map_shard_enqueue (shard : ShardId) (node : NodeName) (item : PendingItem)
    (dispatches : List Dispatch) :
    (enqueue shard node item dispatches).map (·.shard) =
      if shard ∈ dispatches.map (·.shard) then dispatches.map (·.shard)
      else dispatches.map (·.shard) ++ [shard] := by
  induction dispatches with
  | nil => rfl
  | cons dispatch rest ih =>
    unfold enqueue
    by_cases same : dispatch.shard = shard
    · simp [same]
    · have other : shard ≠ dispatch.shard := fun equal => same equal.symm
      simp only [beq_iff_eq, same, if_false, List.map_cons, ih, List.mem_cons, other, false_or]
      split <;> rfl

theorem nodup_enqueue {shard : ShardId} {node : NodeName} {item : PendingItem}
    {dispatches : List Dispatch} (distinct : (dispatches.map (·.shard)).Nodup) :
    ((enqueue shard node item dispatches).map (·.shard)).Nodup := by
  rw [map_shard_enqueue]
  split
  · exact distinct
  next new =>
    exact (List.perm_append_singleton shard _).nodup_iff.mpr (List.nodup_cons.mpr ⟨new, distinct⟩)

theorem map_shard_eraseP (dispatches : List Dispatch) (shard : ShardId) :
    (dispatches.eraseP (·.shard == shard)).map (·.shard) = (dispatches.map (·.shard)).erase shard := by
  induction dispatches with
  | nil => rfl
  | cons dispatch rest ih =>
    by_cases same : dispatch.shard = shard <;> simp [same, ih]

/-! ### What waiting leaves alone -/

/-- The same writer as far as waiting does not concern it. -/
structure Apart (writer writer' : BulkWriter) : Prop where
  config : writer'.config = writer.config
  pending : writer'.pending = writer.pending
  ensured : writer'.ensured = writer.ensured
  nextLocation : writer'.nextLocation = writer.nextLocation
  summary : writer'.summary = writer.summary

namespace Apart

variable {writer middle writer' : BulkWriter}

theorem refl (writer : BulkWriter) : Apart writer writer := ⟨rfl, rfl, rfl, rfl, rfl⟩

theorem trans (here : Apart writer middle) (there : Apart middle writer') : Apart writer writer' :=
  ⟨there.config.trans here.config, there.pending.trans here.pending,
    there.ensured.trans here.ensured, there.nextLocation.trans here.nextLocation,
    there.summary.trans here.summary⟩

theorem arrive (position : Nat) (state : State σ) :
    Apart state.1 (BulkWriter.arrive services position state).1 := by
  obtain ⟨writer, job⟩ := state
  cases sent : writer.inFlight[position]? with
  | none =>
    rw [arrive_of_none sent]
    exact .refl writer
  | some transit =>
    rw [arrive_answered sent rfl]
    exact ⟨rfl, rfl, rfl, rfl, rfl⟩

end Apart

theorem Arriving.and (first : Arriving services inv) (second : Arriving services inv') :
    Arriving services fun state => inv state ∧ inv' state where
  arrive state position next holds :=
    ⟨first.arrive state position next holds.1, second.arrive state position next holds.2⟩
  age state holds := ⟨first.age state holds.1, second.age state holds.2⟩

namespace Lasting

theorem and (first : Lasting services inv) (second : Lasting services inv') :
    Lasting services fun state => inv state ∧ inv' state where
  toArriving := first.toArriving.and second.toArriving
  withAdmission writer job loads holds :=
    ⟨first.withAdmission writer job loads holds.1, second.withAdmission writer job loads holds.2⟩
  report writer job event fields holds :=
    ⟨first.report writer job event fields holds.1, second.report writer job event fields holds.2⟩

theorem apart (writer : BulkWriter) :
    Lasting services fun state : State σ => Apart writer state.1 where
  arrive state position _ holds := holds.trans (.arrive position state)
  age _ holds := ⟨holds.config, holds.pending, holds.ensured, holds.nextLocation, holds.summary⟩
  withAdmission _ _ _ holds := holds
  report _ _ _ _ holds := holds

end Lasting

/-! ### Rules -/

/-- A request is on its way from now on. -/
def depart (dispatch : Dispatch) : State σ → State σ
  | (writer, job) =>
    let job := job.count fun metrics =>
      { metrics with bulkRequestsDispatched := metrics.bulkRequestsDispatched + 1 }
    ({ writer with inFlight := writer.inFlight ++ [⟨dispatch, false⟩] },
      job.report .bulkDispatched (dispatchFields job dispatch))

/-- A request that waited for a slot, which changed nothing about its index. -/
theorem Lasting.depart {dispatch : Dispatch} {writer : BulkWriter} {job : Job σ}
    (lasting : Lasting services inv) (inv' : State σ → Prop)
    (departs : ∀ writer job,
      (writer.config.createsIndices = true → dispatch.shard.index ∈ writer.ensured) →
      inv (writer, job) → inv' (BulkWriter.depart dispatch (writer, job)))
    (known : writer.config.createsIndices = true → dispatch.shard.index ∈ writer.ensured)
    (holds : inv (writer, job)) :
    inv' (BulkWriter.depart dispatch
      (BulkWriter.acquire services dispatch.node (writer, job))) := by
  have both := lasting.and (.apart writer)
  obtain ⟨held, same⟩ := both.acquire dispatch.node ⟨holds, Apart.refl writer⟩
  rcases acquired : BulkWriter.acquire services dispatch.node (writer, job) with ⟨writer', job'⟩
  rw [acquired] at held same
  exact departs writer' job' (by rwa [same.config, same.ensured]) held

/-- What goes on holding of a writer while it sends requests, of which it may have one in hand that
neither waits any more nor is on its way yet. -/
structure Keeping (services : Services σ) (inv : List Dispatch → State σ → Prop) : Prop where
  arriving : ∀ hand, Arriving services (inv hand)
  take : ∀ dispatch writer job, writer.pending.find? (·.shard == dispatch.shard) = some dispatch →
    inv [] (writer, job) →
      inv [dispatch]
        ({ writer with pending := writer.pending.eraseP (·.shard == dispatch.shard) }, job)
  there : ∀ dispatch writer job, writer.config.createsIndices = true →
    services.indexExists job.node.services dispatch.shard.index = true ∨
      dispatch.shard.index ∈ job.node.creation.created →
    inv [dispatch] (writer, job) → inv [dispatch] (ensure dispatch.shard.index (writer, job))
  create : ∀ dispatch writer job state creation, writer.config.createsIndices = true →
    services.indexExists job.node.services dispatch.shard.index = false →
    dispatch.shard.index ∉ job.node.creation.created →
    services.createIndex dispatch.shard.index job.node.services = (.ok (), state) →
    creation.created = job.node.creation.created ++ [dispatch.shard.index] →
    inv [dispatch] (writer, job) →
      inv [dispatch] (ensure dispatch.shard.index
        (noteCreation dispatch.shard.index creation
          (exchange services (writer, job.withServices state))))
  refuse : ∀ dispatch writer job error state creation,
    services.createIndex dispatch.shard.index job.node.services = (.error error, state) →
    inv [dispatch] (writer, job) →
      inv [] (merge ⟨dispatch, .error error⟩
        (writer, withCreation creation (job.withServices state)))
  depart : ∀ dispatch writer job,
    (writer.config.createsIndices = true → dispatch.shard.index ∈ writer.ensured) →
    inv [dispatch] (writer, job) →
      inv [] (depart dispatch (acquire services dispatch.node (writer, job)))
  reap : ∀ state, inv [] state → inv [] (reap state)

variable {inv : List Dispatch → State σ → Prop}

namespace Keeping

theorem send (keeping : Keeping services inv) {dispatch : Dispatch} {state : State σ}
    (holds : inv [dispatch] state) : inv [] (BulkWriter.send services dispatch state) := by
  obtain ⟨writer, job⟩ := state
  have prepared : Prepared services _ writer job _ :=
    prepareIndex_prepared dispatch.shard.index writer job
  unfold BulkWriter.send
  generalize prepareIndex services dispatch.shard.index (writer, job) = result at prepared
  cases prepared with
  | spared known => exact keeping.depart dispatch writer job known holds
  | there asked found =>
    exact keeping.depart dispatch _ job (fun _ => List.mem_cons_self)
      (keeping.there dispatch writer job asked found holds)
  | refused error state creation asked =>
    exact keeping.refuse dispatch writer job error state creation asked holds
  | created state creation asked missing unknown done noted =>
    exact keeping.depart dispatch _ _ (fun _ => List.mem_cons_self)
      (keeping.create dispatch writer job state creation asked missing unknown done noted holds)

theorem flush (keeping : Keeping services inv) (shard : ShardId) {state : State σ}
    (holds : inv [] state) : inv [] (BulkWriter.flush services shard state) := by
  obtain ⟨writer, job⟩ := state
  unfold BulkWriter.flush
  cases found : writer.pending.find? (·.shard == shard) with
  | none => simpa only [found] using holds
  | some dispatch =>
    obtain rfl : dispatch.shard = shard := by simpa using List.find?_some found
    simp only [found]
    exact keeping.send (keeping.take dispatch writer job found holds)

private theorem flushAll (keeping : Keeping services inv) (shards : List ShardId) {state : State σ}
    (holds : inv [] state) :
    inv [] (shards.foldl
      (fun state shard => BulkWriter.reap (BulkWriter.flush services shard state)) state) := by
  induction shards generalizing state with
  | nil => exact holds
  | cons shard rest ih => exact ih (keeping.reap _ (keeping.flush shard holds))

/-- A row that becomes an item changes nothing else once it waits. -/
theorem add (keeping : Keeping services inv) {target : ShardTarget} {id : String}
    {routing origin : Option String} {operation : BulkOperation} {writer : BulkWriter} {job : Job σ}
    (holds : inv []
      ({ writer with
          nextLocation := writer.nextLocation + 1
          pending := enqueue target.shard target.node
            ⟨⟨writer.nextLocation, id, routing, operation⟩, origin⟩ writer.pending }, job)) :
    inv [] (BulkWriter.add services target id routing operation origin (writer, job)) := by
  unfold BulkWriter.add
  dsimp only
  split
  · exact keeping.reap _ (keeping.flush target.shard holds)
  · exact keeping.reap _ holds

end Keeping

/-! ### The end -/

theorem Prepared.pending {index : String} {writer : BulkWriter} {job : Job σ}
    {result : Except ExecutionError Unit} {state : State σ}
    (prepared : Prepared services index writer job (result, state)) :
    state.1.pending = writer.pending := by
  cases prepared with
  | spared | there | refused => rfl
  | created state =>
    exact ((Lasting.apart writer).exchange (Apart.refl writer)).pending

private theorem send_pending (dispatch : Dispatch) (state : State σ) :
    (send services dispatch state).1.pending = state.1.pending := by
  obtain ⟨writer, job⟩ := state
  have prepared : Prepared services _ writer job _ :=
    prepareIndex_prepared dispatch.shard.index writer job
  unfold send
  rcases result : prepareIndex services dispatch.shard.index (writer, job) with ⟨_ | _, state⟩
  · rw [result] at prepared
    exact prepared.pending
  · rw [result] at prepared
    exact ((Lasting.apart state.1).acquire dispatch.node (Apart.refl state.1)).pending.trans
      prepared.pending

theorem flush_pending (shard : ShardId) (state : State σ) :
    (flush services shard state).1.pending = state.1.pending.eraseP (·.shard == shard) := by
  unfold flush
  dsimp only
  cases found : state.1.pending.find? (·.shard == shard) with
  | none =>
    rw [List.eraseP_of_forall_not (by simpa using List.find?_eq_none.mp found)]
  | some dispatch => exact send_pending dispatch _

/-- Once all shards are flushed that something waits for, nothing waits any more. -/
theorem flushAll_pending (shards : List ShardId) (state : State σ)
    (all : (state.1.pending.map (·.shard)).Perm shards) :
    (shards.foldl (fun state shard => reap (flush services shard state)) state).1.pending = [] := by
  induction shards generalizing state with
  | nil => exact List.map_eq_nil_iff.mp all.eq_nil
  | cons shard rest ih =>
    refine ih _ ?_
    have reaped : (reap (flush services shard state)).1.pending =
        state.1.pending.eraseP (·.shard == shard) := by
      obtain ⟨job', reaped, _⟩ := reap_apply (flush services shard state).1 (flush services shard state).2
      rw [reaped]
      exact flush_pending shard state
    rw [reaped, map_shard_eraseP]
    simpa using all.erase shard

/-- A writer that finishes has nothing left to settle. -/
theorem Keeping.finish {inv : List Dispatch → State σ → Prop} (keeping : Keeping services inv)
    {state : State σ} (holds : inv [] state) :
    ∃ writer job, finish services state =
        (writer.summary, ({ writer with summary := {} }, job)) ∧
      inv [] (writer, job) ∧ writer.pending = [] ∧ writer.inFlight = [] ∧ writer.arrived = [] := by
  let shards := (state.1.pending.map (·.shard)).mergeSort fun left right => left.compare right != .gt
  let flushed :=
    shards.foldl (fun state shard => BulkWriter.reap (BulkWriter.flush services shard state)) state
  have none_pending : flushed.1.pending = [] :=
    flushAll_pending shards state (List.mergeSort_perm _ _).symm
  have arriving := (keeping.arriving []).and (Lasting.apart flushed.1).toArriving
  obtain ⟨held, same⟩ := arriving.awaitAll ⟨keeping.flushAll shards holds, Apart.refl _⟩
  obtain ⟨job', reaped, _⟩ :=
    reap_apply (awaitAll services flushed).1 (awaitAll services flushed).2
  refine ⟨(BulkWriter.reap (awaitAll services flushed)).1, job', ?_, ?_, ?_, ?_, ?_⟩
  · rw [reaped]
    exact congrArg (fun last : State σ => (last.1.summary, ({ last.1 with summary := {} }, last.2)))
      reaped
  · have kept := keeping.reap _ held
    rw [reaped] at kept ⊢
    exact kept
  · rw [reaped]
    exact same.pending.trans none_pending
  · rw [reaped]
    exact awaitAll_inFlight flushed
  · rw [reaped]

end BulkWriter

end RowPipeline
