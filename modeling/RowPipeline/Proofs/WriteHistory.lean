import RowPipeline.Proofs.WriterSteps

/-!
Every item of a batched write has one account. The history of a writer tells what was asked of the
cluster and what it answered; whatever order that came in, the summary and the metrics hold just what
the history accounts for, and an item without an account still waits or is on its way.
-/

namespace RowPipeline

variable {σ : Type}

/-- What a writer does with the cluster, and with rows that it does not send. -/
inductive WriteStep where
  | reject (account : Account)
  | accept (node : NodeName)
  | create (index : String)
  | refuse (dispatch : Dispatch) (error : ExecutionError)
  /-- A request is answered, or there is no answer in time. -/
  | answer (dispatch : Dispatch) (answer : Option (Except ExecutionError (List ItemResult)))

namespace WriteStep

variable {services : Services σ} {config : BulkConfig}

/-- The accounts of the items that a step settles. -/
def accounts (timeout : Nat) : WriteStep → List Account
  | .reject account => [account]
  | .accept _ | .create _ => []
  | .refuse dispatch error => BulkOutcome.accounts ⟨dispatch, .error error⟩
  | .answer dispatch result => (BulkOutcome.ofAnswer timeout dispatch result).accounts

/-- A step takes the cluster from one state to another. -/
inductive Leads (services : Services σ) (config : BulkConfig) : WriteStep → σ → σ → Prop
  /-- A row that is rejected is counted as a failure under the local node. -/
  | reject (account : Account) (state : σ) (local_ : account.node = services.localNode)
    (failed : account.failed = true) : Leads services config (.reject account) state state
  | accept (node : NodeName) (state : σ) :
    Leads services config (.accept node) state (services.accept node state)
  | create (index : String) (state state' : σ)
    (created : services.createIndex index state = (.ok (), state')) :
    Leads services config (.create index) state state'
  | refuse (dispatch : Dispatch) (error : ExecutionError) (state state' : σ)
    (refused : services.createIndex dispatch.shard.index state = (.error error, state')) :
    Leads services config (.refuse dispatch error) state state'
  | answer (dispatch : Dispatch) (answer : Option (Except ExecutionError (List ItemResult)))
    (state state' : σ)
    (answered : services.bulk dispatch.node config.timeout (dispatch.request config.options) state =
      (answer, state')) :
    Leads services config (.answer dispatch answer) state state'

end WriteStep

/-- The steps that take the cluster from one state to another. -/
inductive WriteHistory (services : Services σ) (config : BulkConfig) (start : σ) :
    List WriteStep → σ → Prop
  | start : WriteHistory services config start [] start
  | step {steps : List WriteStep} {step : WriteStep} {state state' : σ}
    (before : WriteHistory services config start steps state)
    (leads : step.Leads services config state state') :
    WriteHistory services config start (steps ++ [step]) state'

/-- The number and the origin by which an item is told from the others. -/
def PendingItem.label (pending : PendingItem) : Option String × Nat :=
  (pending.origin, pending.item.location)

def Account.label (account : Account) : Option String × Nat := (account.uri, account.location)

def Dispatch.labels (dispatch : Dispatch) : List (Option String × Nat) :=
  dispatch.items.map PendingItem.label

theorem BulkOutcome.accounts_label (outcome : BulkOutcome) :
    outcome.accounts.map Account.label = outcome.dispatch.labels := by
  simp [BulkOutcome.accounts, BulkWriter.itemErrors, Dispatch.labels, Account.label,
    PendingItem.label, Function.comp_def]

namespace BulkWriter

variable {services : Services σ} {config : BulkConfig} {start : Job σ}
variable {uris : List (Option String)} {hand : List Dispatch} {steps : List WriteStep}
variable {writer : BulkWriter} {job : Job σ}

/-- The requests whose items are not settled: in hand, on their way or still growing. -/
def open_ (hand : List Dispatch) (writer : BulkWriter) : List Dispatch :=
  hand ++ writer.inFlight.map (·.dispatch) ++ writer.pending

/-- The accounts of what a history settled. -/
def settled (config : BulkConfig) (steps : List WriteStep) : List Account :=
  steps.flatMap (·.accounts config.timeout)

@[simp]
theorem settled_concat (config : BulkConfig) (steps : List WriteStep) (step : WriteStep) :
    settled config (steps ++ [step]) = settled config steps ++ step.accounts config.timeout := by
  simp [settled]

/-- A writer that was given rows of the origins `uris`, of which it settled what the steps say. What
was answered and not merged yet counts as settled. -/
structure Accounted (services : Services σ) (config : BulkConfig) (start : Job σ)
    (uris : List (Option String)) (hand : List Dispatch) (steps : List WriteStep)
    (writer : BulkWriter) (job : Job σ) : Prop where
  configured : writer.config = config
  history : WriteHistory services config start.node.services steps job.node.services
  summary : writer.summary.recordAll writer.arrivedAccounts = .recordAll {} (settled config steps)
  succeeded : job.node.metrics.bulkItemsSucceeded + writer.arrivedAccounts.countP Account.succeeded =
    start.node.metrics.bulkItemsSucceeded + (settled config steps).countP Account.succeeded
  failed : job.node.metrics.bulkItemsFailed + writer.arrivedAccounts.countP Account.failed =
    start.node.metrics.bulkItemsFailed + (settled config steps).countP Account.failed
  numbered : ((settled config steps).map Account.label ++
    (open_ hand writer).flatMap Dispatch.labels).Perm uris.zipIdx
  nextLocation : writer.nextLocation = uris.length

/-- Some history accounts for the items of a writer. -/
def HasAccounts (services : Services σ) (config : BulkConfig) (start : Job σ)
    (uris : List (Option String)) (hand : List Dispatch) (state : State σ) : Prop :=
  ∃ steps, Accounted services config start uris hand steps state.1 state.2

namespace Accounted

theorem told (holds : Accounted services config start uris hand steps writer job) {step : WriteStep}
    {state : σ} (leads : step.Leads services config job.node.services state)
    (settlesNothing : step.accounts config.timeout = []) :
    Accounted services config start uris hand (steps ++ [step]) writer (job.withServices state) where
  configured := holds.configured
  history := holds.history.step leads
  summary := by simpa [settlesNothing] using holds.summary
  succeeded := by simpa [settlesNothing, Job.withServices] using holds.succeeded
  failed := by simpa [settlesNothing, Job.withServices] using holds.failed
  numbered := by simpa [settlesNothing] using holds.numbered
  nextLocation := holds.nextLocation

theorem reach (holds : Accounted services config start uris hand steps writer job)
    (transit : Transit) :
    ∃ steps', Accounted services config start uris hand steps' writer
      (BulkWriter.reach services transit job) := by
  unfold BulkWriter.reach
  split
  · exact ⟨steps, holds⟩
  · exact ⟨_, holds.told (.accept transit.dispatch.node _) rfl⟩

theorem arrive (holds : Accounted services config start uris hand steps writer job)
    (position : Nat) :
    ∃ steps' writer' job', BulkWriter.arrive services position (writer, job) = (writer', job') ∧
      Accounted services config start uris hand steps' writer' job' := by
  cases sent : writer.inFlight[position]? with
  | none => exact ⟨steps, writer, job, arrive_of_none sent, holds⟩
  | some transit =>
    obtain ⟨steps, holds⟩ := holds.reach transit
    obtain rfl := holds.configured
    rcases answered : services.bulk transit.dispatch.node writer.config.timeout
      (transit.dispatch.request writer.config.options)
      (BulkWriter.reach services transit job).node.services with ⟨answer, state⟩
    let step := WriteStep.answer transit.dispatch answer
    have leads : step.Leads services writer.config _ state := .answer _ answer _ state answered
    obtain ⟨before, after, sent_eq, left_eq, _⟩ := eraseIdx_split sent
    refine ⟨steps ++ [step], _, _, arrive_answered sent answered, ?_⟩
    have arrived : arrivedAccounts { writer with
          inFlight := writer.inFlight.eraseIdx position
          arrived := writer.arrived ++ [.ofAnswer writer.config.timeout transit.dispatch answer] } =
        writer.arrivedAccounts ++ step.accounts writer.config.timeout := by
      simp [arrivedAccounts, step, WriteStep.accounts]
    exact {
      configured := rfl
      history := holds.history.step leads
      summary := by
        rw [settled_concat, BulkSummary.recordAll_append, ← holds.summary, arrived,
          BulkSummary.recordAll_append]
      succeeded := by
        rw [settled_concat, arrived, List.countP_append, List.countP_append, ← Nat.add_assoc,
          ← Nat.add_assoc, ← holds.succeeded]
        rfl
      failed := by
        rw [settled_concat, arrived, List.countP_append, List.countP_append, ← Nat.add_assoc,
          ← Nat.add_assoc, ← holds.failed]
        rfl
      numbered := by
        refine List.Perm.trans (List.perm_iff_count.mpr fun label => ?_) holds.numbered
        have labels : (step.accounts writer.config.timeout).map Account.label =
            transit.dispatch.labels := BulkOutcome.accounts_label _
        dsimp only [open_]
        rw [left_eq, sent_eq]
        simp [labels, List.count_append]
        omega
      nextLocation := holds.nextLocation }

theorem age (holds : Accounted services config start uris hand steps writer job) :
    ∃ steps' writer' job', BulkWriter.age services (writer, job) = (writer', job') ∧
      Accounted services config start uris hand steps' writer' job' := by
  have reached : ∃ steps', Accounted services config start uris hand steps' writer
      (writer.inFlight.foldl (fun job transit => BulkWriter.reach services transit job) job) := by
    induction writer.inFlight generalizing steps job with
    | nil => exact ⟨steps, holds⟩
    | cons transit rest ih =>
      obtain ⟨_, holds⟩ := holds.reach transit
      exact ih holds
  obtain ⟨steps', aged⟩ := reached
  refine ⟨steps', _, _, rfl, ⟨aged.configured, aged.history, aged.summary, aged.succeeded,
    aged.failed, ?_, aged.nextLocation⟩⟩
  simpa [open_, Function.comp_def] using aged.numbered

/-- The same with the same requests in other places. -/
theorem regroup {hand' : List Dispatch} {pending : List Dispatch} {inFlight : List Transit}
    (holds : Accounted services config start uris hand steps writer job)
    (same : (hand' ++ inFlight.map (·.dispatch) ++ pending).Perm (open_ hand writer)) :
    Accounted services config start uris hand' steps
      { writer with pending := pending, inFlight := inFlight } job :=
  { holds with
    numbered := (((same.flatMap_right _).append_left _).trans holds.numbered) }

theorem reap (holds : Accounted services config start uris hand steps writer job) :
    ∃ writer' job', BulkWriter.reap (writer, job) = (writer', job') ∧
      Accounted services config start uris hand steps writer' job' := by
  obtain ⟨job', reaped, counted⟩ := reap_apply writer job
  refine ⟨_, job', reaped, ⟨holds.configured, ?_, holds.summary, ?_, ?_, holds.numbered,
    holds.nextLocation⟩⟩
  · rw [counted.services]
    exact holds.history
  · rw [counted.succeeded, ← holds.succeeded]
    rfl
  · rw [counted.failed, ← holds.failed]
    rfl

/-- A step is booked whose items are recorded at once. They were open before, or they are those of
new rows. -/
theorem book {step : WriteStep} {job' : Job σ} {next : Nat} (hand' : List Dispatch)
    (new : List (Option String)) (holds : Accounted services config start uris hand steps writer job)
    (leads : step.Leads services config job.node.services job'.node.services)
    (succeeded : job'.node.metrics.bulkItemsSucceeded =
      job.node.metrics.bulkItemsSucceeded + (step.accounts config.timeout).countP Account.succeeded)
    (failed : job'.node.metrics.bulkItemsFailed =
      job.node.metrics.bulkItemsFailed + (step.accounts config.timeout).countP Account.failed)
    (labels : ((step.accounts config.timeout).map Account.label ++
      (open_ hand' writer).flatMap Dispatch.labels).Perm
        ((open_ hand writer).flatMap Dispatch.labels ++ new.zipIdx uris.length))
    (counted : next = writer.nextLocation + new.length) :
    Accounted services config start (uris ++ new) hand' (steps ++ [step])
      { writer with
        nextLocation := next
        summary := writer.summary.recordAll (step.accounts config.timeout) } job' where
  configured := holds.configured
  history := holds.history.step leads
  summary := by
    rw [settled_concat, BulkSummary.recordAll_append, ← holds.summary, BulkSummary.recordAll_comm]
    rfl
  succeeded := by
    have before := holds.succeeded
    rw [succeeded, settled_concat, List.countP_append, ← Nat.add_assoc, ← holds.succeeded,
      Nat.add_right_comm]
    rfl
  failed := by
    rw [failed, settled_concat, List.countP_append, ← Nat.add_assoc, ← holds.failed,
      Nat.add_right_comm]
    rfl
  numbered := by
    rw [settled_concat, List.map_append, List.append_assoc, List.zipIdx_append, Nat.zero_add]
    refine (labels.append_left _).trans ?_
    rw [← List.append_assoc]
    exact holds.numbered.append_right _
  nextLocation := by rw [counted, holds.nextLocation, List.length_append]

theorem refuse {dispatch : Dispatch} {error : ExecutionError} {state : σ}
    (holds : Accounted services config start uris [dispatch] steps writer job)
    (refused : services.createIndex dispatch.shard.index job.node.services = (.error error, state))
    (creation : IndexCreation) :
    ∃ steps' writer' job',
      merge ⟨dispatch, .error error⟩ (writer, withCreation creation (job.withServices state)) =
        (writer', job') ∧
      Accounted services config start uris [] steps' writer' job' := by
  obtain ⟨job', merged, counted⟩ :=
    merge_apply ⟨dispatch, .error error⟩ writer (withCreation creation (job.withServices state))
  have leads : (WriteStep.refuse dispatch error).Leads services config job.node.services
      job'.node.services := counted.services ▸ .refuse _ _ _ state refused
  have labels : ((WriteStep.refuse dispatch error).accounts config.timeout).map Account.label =
      dispatch.labels := BulkOutcome.accounts_label _
  have booked := book [] [] holds leads counted.succeeded counted.failed (by simp [labels, open_]) rfl
  rw [List.append_nil] at booked
  exact ⟨_, _, job', merged, booked⟩

theorem reject (holds : Accounted services config start uris hand steps writer job)
    (uri : Option String) (message : String) :
    ∃ steps' writer' job', BulkWriter.reject services uri message (writer, job) = (writer', job') ∧
      Accounted services config start (uris ++ [uri]) hand steps' writer' job' := by
  let account : Account := ⟨writer.nextLocation, services.localNode, uri, some message⟩
  let counted : Job σ := job.count fun metrics =>
    { metrics with bulkItemsFailed := metrics.bulkItemsFailed + 1 }
  have leads : (WriteStep.reject account).Leads services config job.node.services
      counted.node.services := .reject account _ rfl rfl
  have labels : (account.label :: (open_ hand writer).flatMap Dispatch.labels).Perm
      ((open_ hand writer).flatMap Dispatch.labels ++ [(uri, uris.length)]) := by
    rw [← holds.nextLocation]
    exact (List.perm_append_singleton _ _).symm
  exact ⟨_, _, counted, rfl, book hand [uri] holds leads rfl rfl labels rfl⟩

private theorem enqueue_labels (shard : ShardId) (node : NodeName) (item : PendingItem)
    (dispatches : List Dispatch) :
    ((BulkWriter.enqueue shard node item dispatches).flatMap Dispatch.labels).Perm
      (dispatches.flatMap Dispatch.labels ++ [item.label]) := by
  induction dispatches with
  | nil => simp [BulkWriter.enqueue, Dispatch.labels]
  | cons dispatch rest ih =>
    unfold BulkWriter.enqueue
    split
    · simp only [List.flatMap_cons, Dispatch.labels, List.map_append, List.append_assoc]
      exact (List.perm_append_comm.append_left _)
    · simp only [List.flatMap_cons, List.append_assoc]
      exact ih.append_left _

theorem enqueue (holds : Accounted services config start uris hand steps writer job)
    (target : ShardTarget) (item : PendingItem) (number : item.item.location = writer.nextLocation) :
    Accounted services config start (uris ++ [item.origin]) hand steps
      { writer with
        nextLocation := writer.nextLocation + 1
        pending := BulkWriter.enqueue target.shard target.node item writer.pending } job where
  configured := holds.configured
  history := holds.history
  summary := holds.summary
  succeeded := holds.succeeded
  failed := holds.failed
  numbered := by
    have label : item.label = (item.origin, uris.length) := by
      rw [PendingItem.label, number, holds.nextLocation]
    rw [List.zipIdx_append, Nat.zero_add, List.zipIdx_singleton, ← label]
    refine List.Perm.trans ?_ (holds.numbered.append_right _)
    have waiting := enqueue_labels target.shard target.node item writer.pending
    simp only [open_, List.flatMap_append, List.append_assoc]
    exact ((waiting.append_left _).append_left _).append_left _
  nextLocation := by simp [holds.nextLocation]

end Accounted

namespace HasAccounts

theorem lasting (hand : List Dispatch) :
    Lasting services (HasAccounts services config start uris hand) where
  arrive := by
    rintro ⟨writer, job⟩ position - ⟨steps, holds⟩
    obtain ⟨steps', writer', job', arrived, holds'⟩ := holds.arrive position
    exact ⟨steps', arrived ▸ holds'⟩
  age := by
    rintro ⟨writer, job⟩ ⟨steps, holds⟩
    obtain ⟨steps', writer', job', aged, holds'⟩ := holds.age
    exact ⟨steps', aged ▸ holds'⟩
  withAdmission := by
    rintro writer job loads ⟨steps, holds⟩
    exact ⟨steps, { holds with }⟩
  report := by
    rintro writer job event fields ⟨steps, holds⟩
    exact ⟨steps, { holds with }⟩

/-- Whatever the cluster does, the items of a writer stay accounted for. -/
theorem keeping : Keeping services (HasAccounts services config start uris) where
  arriving hand := (lasting hand).toArriving
  take := by
    rintro dispatch writer job found ⟨steps, holds⟩
    obtain ⟨before, after, waiting, rest, _⟩ := eraseP_split found
    refine ⟨steps, holds.regroup ?_⟩
    rw [open_, rest, waiting]
    simp only [List.nil_append, List.cons_append]
    exact List.perm_middle.symm.trans (List.perm_middle.symm.append_left _)
  there := by
    rintro dispatch writer job - - ⟨steps, holds⟩
    exact ⟨steps, { holds with }⟩
  create := by
    rintro dispatch writer job state creation - - - created - ⟨steps, holds⟩
    have told := holds.told (.create dispatch.shard.index _ _ created) (by simp [WriteStep.accounts])
    have ready : HasAccounts services config start uris [dispatch]
      (writer, job.withServices state) := ⟨_, told⟩
    obtain ⟨steps', exchanged⟩ := (lasting [dispatch]).exchange ready
    exact ⟨steps', { exchanged with }⟩
  refuse := by
    rintro dispatch writer job error state creation refused ⟨steps, holds⟩
    obtain ⟨steps', writer', job', merged, holds'⟩ := holds.refuse refused creation
    exact ⟨steps', merged ▸ holds'⟩
  depart dispatch _ _ := by
    refine (lasting [dispatch]).depart (HasAccounts services config start uris []) ?_
    rintro writer job - ⟨steps, holds⟩
    let departed : List Transit := writer.inFlight ++ [⟨dispatch, false⟩]
    have same : ([] ++ departed.map Transit.dispatch ++ writer.pending).Perm
        (open_ [dispatch] writer) := by
      simp only [departed, open_, List.nil_append, List.map_append, List.map_cons, List.map_nil]
      exact List.perm_append_comm.append_right _
    exact ⟨steps, { holds.regroup same with }⟩
  reap := by
    rintro ⟨writer, job⟩ ⟨steps, holds⟩
    obtain ⟨writer', job', reaped, holds'⟩ := holds.reap
    exact ⟨steps, reaped ▸ holds'⟩

end HasAccounts

end BulkWriter

end RowPipeline
