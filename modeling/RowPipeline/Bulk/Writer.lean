import RowPipeline.Bulk.ItemFault
import RowPipeline.Bulk.Summary
import RowPipeline.Job

/-!
Batched writes. Items are collected for each shard and sent together when there are enough of them or
when no more will come. Requests are on their way at the same time, as many to a node as it admits;
a request that fails fails all of its items, and an item that is malformed is never sent.
-/

namespace RowPipeline

/-- A request that was answered, or for which no answer will come. -/
structure BulkOutcome where
  dispatch : Dispatch
  answer : Except ExecutionError (List ItemResult)

structure BulkWriter where
  config : BulkConfig
  /-- The items that wait to be sent, in the order in which their shards first occurred. -/
  pending : List Dispatch := []
  /-- The requests on their way, in the order in which they were sent. -/
  inFlight : List Transit := []
  /-- The answered requests that are not in the summary yet, in the order of their answers. -/
  arrived : List BulkOutcome := []
  ensured : List String := []
  nextLocation : Nat := 0
  summary : BulkSummary := {}

namespace BulkWriter

variable {σ : Type}

/-- A writer in its job. -/
abbrev State (σ : Type) := BulkWriter × Job σ

/-! ### Requests on their way -/

/-- Sends a request to the cluster and takes in the answer; its slot becomes free. -/
def deliver (services : Services σ) (timeout : Nat) (options : BulkOptions) (dispatch : Dispatch)
    (job : Job σ) : BulkOutcome × Job σ :=
  let (answer, state) :=
    services.bulk dispatch.node timeout (dispatch.request options) job.node.services
  let job := (job.withServices state).withLoads (job.node.loads.release dispatch.node)
  (⟨dispatch, answer.getD (.error (.transport (.timedOut dispatch.shard timeout)))⟩, job)

/-- A request reaches its node, unless it is there already. -/
def reach (services : Services σ) (transit : Transit) (job : Job σ) : Job σ :=
  if transit.overdue then job
  else job.withServices (services.accept transit.dispatch.node job.node.services)

/-- The request at a position on the way is answered. -/
def arrive (services : Services σ) (position : Nat) : State σ → State σ
  | (writer, job) =>
    match writer.inFlight[position]? with
    | none => (writer, job)
    | some transit =>
      let (outcome, job) :=
        deliver services writer.config.timeout writer.config.options transit.dispatch
          (reach services transit job)
      ({ writer with
          inFlight := writer.inFlight.eraseIdx position
          arrived := writer.arrived ++ [outcome] },
        job)

def nextArrival (services : Services σ) (pause : Pause) : State σ → Option Nat
  | (writer, job) =>
    services.nextArrival pause writer.config.timeout writer.inFlight job.node.services

/-- The position of the request that is answered next, if one has to be. -/
def nextPosition (services : Services σ) (state : State σ) : Nat :=
  let position := (nextArrival services .standstill state).getD 0
  if position < state.1.inFlight.length then position else 0

/-- Takes in what is answered during a pause, at most `fuel` requests. -/
def settle (services : Services σ) (pause : Pause) : Nat → State σ → State σ
  | 0, state => state
  | fuel + 1, state =>
    match nextArrival services pause state with
    | none => state
    | some position => settle services pause fuel (arrive services position state)

/-- How many answers are taken in before whoever waits for something is looked at. -/
def burst : Nat := 61

/-- Lets time pass: whatever is still on its way reaches its node. -/
def age (services : Services σ) : State σ → State σ
  | (writer, job) =>
    ({ writer with inFlight := writer.inFlight.map ({ · with overdue := true }) },
      writer.inFlight.foldl (fun job transit => reach services transit job) job)

/-- Takes in what is answered while something else is asked of the cluster. -/
def exchange (services : Services σ) (state : State σ) : State σ :=
  age services (settle services .exchange state.1.inFlight.length state)

/-- Takes in at least one answer, if any request is on its way, and what else comes in meanwhile. -/
def await (services : Services σ) (state : State σ) : State σ :=
  let settled := settle services .turn burst state
  if settled.1.inFlight.length < state.1.inFlight.length then settled
  else
    let state := age services state
    settle services .standstill (burst - 1)
      (arrive services (nextPosition services state) state)

def arriveAll (services : Services σ) : Nat → State σ → State σ
  | 0, state => state
  | fuel + 1, state =>
    if state.1.inFlight.isEmpty then state
    else arriveAll services fuel (arrive services (nextPosition services state) state)

def awaitAll (services : Services σ) (state : State σ) : State σ :=
  let count := state.1.inFlight.length
  arriveAll services count (age services (settle services .turn count state))

/-- Takes a slot once others gave back as many as it needs. -/
def outwait (node : NodeName) : State σ → State σ
  | (writer, job) =>
    let admission := job.node.admission.giveWay node writer.config.requestsPerNode
      (job.node.loads.load node).inFlight
    (writer, job.withAdmission { admission with loads := admission.loads.grant node })

/-- Waits until the node has a slot. Answers free the slots of this writer; one that has nothing on
its way any more waits for those of others. -/
def awaitSlot (services : Services σ) (node : NodeName) : Nat → State σ → State σ
  | 0, state => outwait node state
  | fuel + 1, (writer, job) =>
    match job.node.loads.grant? node writer.config.requestsPerNode with
    | some loads => (writer, job.withLoads loads)
    | none => awaitSlot services node fuel (await services (writer, job))

/-- Takes a slot of a node; having to wait for it is reported. -/
def acquire (services : Services σ) (node : NodeName) : State σ → State σ
  | (writer, job) =>
    let limit := writer.config.requestsPerNode
    let job :=
      if job.node.loads.hasRoom node limit then job
      else job.report .admissionWait (Admission.waitFields node limit)
    awaitSlot services node writer.inFlight.length (writer, job)

/-! ### Outcomes -/

/-- What became of an item, by the answers to its request: the last answer for its location counts,
and an item without one failed. -/
def itemError (answers : List ItemResult) (location : Nat) : Option String :=
  match answers.reverse.find? (·.location == location) with
  | some result => result.error
  | none => some ItemFault.noResponse.message

def itemErrors (outcome : BulkOutcome) : List (PendingItem × Option String) :=
  outcome.dispatch.items.map fun pending =>
    (pending,
      match outcome.answer with
      | .ok answers => itemError answers pending.item.location
      | .error error => some (ItemFault.request error).message)

def failureFields (job : Job σ) (dispatch : Dispatch) (error : ExecutionError) :
    List (String × String) :=
  [("error", error.message), ("items", toString dispatch.items.length), ("job_id", job.id),
    ("node", dispatch.node), ("shard", dispatch.shard.display)]

/-- A request that failed as a whole is counted and reported. -/
def reportFailure (outcome : BulkOutcome) (job : Job σ) : Job σ :=
  match outcome.answer with
  | .ok _ => job
  | .error error =>
    let job := job.count fun metrics =>
      { metrics with bulkRequestsFailed := metrics.bulkRequestsFailed + 1 }
    job.report .bulkFailed (failureFields job outcome.dispatch error)

def merge (outcome : BulkOutcome) : State σ → State σ
  | (writer, job) =>
    let errors := itemErrors outcome
    let failed := (errors.filter (·.2.isSome)).length
    let summary := errors.foldl
      (fun summary (pending, error) => summary.record outcome.dispatch.node pending.origin error)
      writer.summary
    let job := (reportFailure outcome job).count fun metrics =>
      { metrics with
        bulkItemsSucceeded := metrics.bulkItemsSucceeded + (errors.length - failed)
        bulkItemsFailed := metrics.bulkItemsFailed + failed }
    ({ writer with summary := summary }, job)

def reap (state : State σ) : State σ :=
  let (writer, job) := state
  writer.arrived.foldl (fun state outcome => merge outcome state)
    ({ writer with arrived := [] }, job)

/-! ### Sending -/

def withCreation (creation : IndexCreation) (job : Job σ) : Job σ :=
  { job with node := { job.node with creation := creation } }

/-- Makes sure that an index exists, creating it on the first demand. A refusal comes at once, a
creation takes an exchange. -/
def ensureIndex (services : Services σ) (index : String) :
    State σ → Except ExecutionError Unit × State σ
  | (writer, job) =>
    match job.node.creation.arrive index 0 with
    | (_, .done) => (.ok (), (writer, job))
    | (creation, _) =>
      match services.createIndex index job.node.services with
      | (.error error, state) =>
        let job := job.withServices state
        (.error error, (writer, withCreation (creation.fail index).1 job))
      | (.ok (), state) =>
        let (writer, job) := exchange services (writer, job.withServices state)
        let job := (withCreation (creation.succeed index).1 job).count fun metrics =>
          { metrics with indicesCreated := metrics.indicesCreated + 1 }
        (.ok (), (writer, job.report .indexCreated [("index", index)]))

/-- Creates the index of a request if that is asked for and the index is missing. -/
def prepareIndex (services : Services σ) (index : String) :
    State σ → Except ExecutionError Unit × State σ
  | (writer, job) =>
    if !writer.config.createsIndices || writer.ensured.contains index then (.ok (), (writer, job))
    else
      let (result, writer, job) :=
        if services.indexExists job.node.services index then (.ok (), (writer, job))
        else ensureIndex services index (writer, job)
      match result with
      | .ok () => (.ok (), ({ writer with ensured := index :: writer.ensured }, job))
      | .error error => (.error error, (writer, job))

def dispatchFields (job : Job σ) (dispatch : Dispatch) : List (String × String) :=
  [("items", toString dispatch.items.length), ("job_id", job.id), ("node", dispatch.node),
    ("shard", dispatch.shard.display)]

/-- Sends a request, once its index exists and its node has a slot. -/
def send (services : Services σ) (dispatch : Dispatch) (state : State σ) : State σ :=
  match prepareIndex services dispatch.shard.index state with
  | (.error error, state) => merge ⟨dispatch, .error error⟩ state
  | (.ok (), state) =>
    let (writer, job) := acquire services dispatch.node state
    let job := job.count fun metrics =>
      { metrics with bulkRequestsDispatched := metrics.bulkRequestsDispatched + 1 }
    let job := job.report .bulkDispatched (dispatchFields job dispatch)
    ({ writer with inFlight := writer.inFlight ++ [⟨dispatch, false⟩] }, job)

def flush (services : Services σ) (shard : ShardId) (state : State σ) : State σ :=
  let (writer, job) := state
  match writer.pending.find? (·.shard == shard) with
  | none => state
  | some dispatch =>
    send services dispatch
      ({ writer with pending := writer.pending.eraseP (·.shard == shard) }, job)

def enqueue (shard : ShardId) (node : NodeName) (pending : PendingItem) :
    List Dispatch → List Dispatch
  | [] => [⟨node, shard, [pending]⟩]
  | dispatch :: rest =>
    if dispatch.shard == shard then
      { dispatch with items := dispatch.items ++ [pending] } :: rest
    else dispatch :: enqueue shard node pending rest

def pendingCount (writer : BulkWriter) (shard : ShardId) : Nat :=
  ((writer.pending.find? (·.shard == shard)).map (·.items.length)).getD 0

/-- Takes an item, and sends the request of its shard when it is full. -/
def add (services : Services σ) (target : ShardTarget) (id : String) (routing : Option String)
    (operation : BulkOperation) (origin : Option String) (state : State σ) : State σ :=
  let (writer, job) := state
  let item : PendingItem := ⟨⟨writer.nextLocation, id, routing, operation⟩, origin⟩
  let writer :=
    { writer with
      nextLocation := writer.nextLocation + 1
      pending := enqueue target.shard target.node item writer.pending }
  let state :=
    if writer.config.size ≤ writer.pendingCount target.shard then
      flush services target.shard (writer, job)
    else (writer, job)
  reap state

def reject (services : Services σ) (origin : Option String) (message : String) :
    State σ → State σ
  | (writer, job) =>
    ({ writer with
        nextLocation := writer.nextLocation + 1
        summary := writer.summary.recordFailure services.localNode origin message },
      job.count fun metrics => { metrics with bulkItemsFailed := metrics.bulkItemsFailed + 1 })

/-- Sends everything that waits, in order of the shards, and takes in all answers. -/
def finish (services : Services σ) (state : State σ) : BulkSummary × State σ :=
  let shards := (state.1.pending.map (·.shard)).mergeSort fun left right =>
    left.compare right != .gt
  let state := shards.foldl (fun state shard => reap (flush services shard state)) state
  let state := reap (awaitAll services state)
  (state.1.summary, ({ state.1 with summary := {} }, state.2))

/-- Gives up: what waits is dropped, and what is on its way arrives without being looked at. -/
def abandon (services : Services σ) (state : State σ) : State σ :=
  let (writer, job) := state
  let (writer, job) := awaitAll services ({ writer with pending := [] }, job)
  ({ writer with arrived := [] }, job)

/-- Stops without an end: what is on its way never arrives, and its slots become free. -/
def cancel (state : State σ) : State σ :=
  let (writer, job) := state
  let loads := writer.inFlight.foldl (fun loads transit => loads.release transit.dispatch.node)
    job.node.loads
  ({ writer with pending := [], inFlight := [], arrived := [] }, job.withLoads loads)

end BulkWriter

end RowPipeline
