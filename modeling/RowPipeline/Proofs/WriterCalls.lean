import RowPipeline.Proofs.Histories
import RowPipeline.Proofs.WriterSteps

/-!
What is asked of a writer, the requests that it sends, and the indices that are refused meanwhile.
-/

namespace RowPipeline

variable {σ : Type}

namespace BulkWriter

variable {services : Services σ}

/-! ### What is asked of a writer, and what it sends -/

/-- What is asked of a writer before it finishes. -/
inductive Call where
  | add (target : ShardTarget) (id : String) (routing : Option String) (operation : BulkOperation)
    (origin : Option String)
  | reject (origin : Option String) (message : String)
  /-- Something else is asked of the cluster. -/
  | pause

namespace Call

def apply (services : Services σ) (state : State σ) : Call → State σ
  | .add target id routing operation origin =>
    BulkWriter.add services target id routing operation origin state
  | .reject origin message => BulkWriter.reject services origin message state
  | .pause => exchange services state

def located : Call → Bool
  | .pause => false
  | _ => true

/-- The item that is added at a location, with its shard. -/
def item? (location : Nat) : Call → Option (ShardId × PendingItem)
  | .add target id routing operation origin =>
    some (target.shard, ⟨⟨location, id, routing, operation⟩, origin⟩)
  | _ => none

/-- The items that are added, in the order of the calls. -/
def added (calls : List Call) : List (ShardId × PendingItem) :=
  (calls.filter located).zipIdx.filterMap fun (call, location) => call.item? location

end Call

def dispatched (state : State σ) : Nat := state.2.node.metrics.bulkRequestsDispatched

/-- The request that a step sent, if it sent one: the newest that is on its way. -/
def sent (before after : State σ) : List Dispatch :=
  if dispatched after = dispatched before then []
  else (after.1.inFlight.getLast?.map (·.dispatch)).toList

/-- Sends what waits for a shard when no more will come. -/
def close (services : Services σ) (state : State σ) (shard : ShardId) : State σ :=
  reap (flush services shard state)

/-- The shards that something waits for, in the order in which they are closed. -/
def waitingShards (state : State σ) : List ShardId :=
  (state.1.pending.map (·.shard)).mergeSort fun left right => left.compare right != .gt

/-- The requests that are sent over calls and the finish after them, in the order of sending. -/
def requests (services : Services σ) (state : State σ) (calls : List Call) : List Dispatch :=
  let called := calls.foldl (Call.apply services) state
  let closed := (waitingShards called).foldl (close services) called
  observed (Call.apply services) (fun state call => sent state (call.apply services state)) state
      calls ++
    observed (close services) (fun state shard => sent state (close services state shard)) called
      (waitingShards called) ++
    sent closed (finish services called).2

def join (target : ShardTarget) (id : String) (routing : Option String) (operation : BulkOperation)
    (origin : Option String) : State σ → State σ
  | (writer, job) =>
    let item : PendingItem := ⟨⟨writer.nextLocation, id, routing, operation⟩, origin⟩
    ({ writer with
        nextLocation := writer.nextLocation + 1
        pending := enqueue target.shard target.node item writer.pending },
      job)

/-- What waits for a shard is in hand. -/
def without (shard : ShardId) : State σ → State σ
  | (writer, job) => ({ writer with pending := writer.pending.eraseP (·.shard == shard) }, job)

/-- Why the index of what waits for a shard is refused, if it is. -/
def refusal (services : Services σ) (state : State σ) (shard : ShardId) : List ExecutionError :=
  match state.1.pending.find? (·.shard == shard) with
  | none => []
  | some _ =>
    match prepareIndex services shard.index (without shard state) with
    | (.error error, _) => [error]
    | (.ok (), _) => []

/-- Why an index is refused that a call asks for. -/
def Call.refusal (services : Services σ) (state : State σ) : Call → List ExecutionError
  | .add target id routing operation origin =>
    let state := join target id routing operation origin state
    if state.1.config.size ≤ state.1.pendingCount target.shard then
      BulkWriter.refusal services state target.shard
    else []
  | _ => []

/-- The refusals of indices over calls and the finish after them. -/
def refusals (services : Services σ) (state : State σ) (calls : List Call) : List ExecutionError :=
  let called := calls.foldl (Call.apply services) state
  observed (Call.apply services) (Call.refusal services) state calls ++
    observed (close services) (refusal services) called (waitingShards called)

/-- An item that was added is sent at once if a request is full with it. -/
theorem Call.apply_add (services : Services σ) (target : ShardTarget) (id : String)
    (routing : Option String) (operation : BulkOperation) (origin : Option String) (state : State σ) :
    (Call.add target id routing operation origin).apply services state =
      let joined := join target id routing operation origin state
      if joined.1.config.size ≤ joined.1.pendingCount target.shard then
        close services joined target.shard
      else reap joined := by
  dsimp only
  rw [close, ← apply_ite reap]
  rfl

/-! ### Sending one request -/

/-- The same writer as far as it does not send, with the number of the requests that it sent. -/
structure Steady (before after : State σ) : Prop where
  config : after.1.config = before.1.config
  pending : after.1.pending = before.1.pending
  nextLocation : after.1.nextLocation = before.1.nextLocation
  dispatched : dispatched after = dispatched before

namespace Steady

variable {before middle after : State σ}

theorem refl (state : State σ) : Steady state state := ⟨rfl, rfl, rfl, rfl⟩

theorem trans (here : Steady before middle) (there : Steady middle after) : Steady before after :=
  ⟨there.config.trans here.config, there.pending.trans here.pending,
    there.nextLocation.trans here.nextLocation, there.dispatched.trans here.dispatched⟩

theorem arrive (position : Nat) (state : State σ) :
    Steady state (BulkWriter.arrive services position state) := by
  have apart := @Apart.arrive _ services position state
  refine ⟨apart.config, apart.pending, apart.nextLocation, ?_⟩
  obtain ⟨writer, job⟩ := state
  cases sent : writer.inFlight[position]? with
  | none => rw [arrive_of_none sent]
  | some transit =>
    obtain ⟨_, reached⟩ := reach_apply services transit job
    rw [arrive_answered sent rfl, reached]
    rfl

theorem age (state : State σ) : Steady state (BulkWriter.age services state) := by
  obtain ⟨_, aged⟩ := age_apply services state.1 state.2
  rw [show BulkWriter.age services state = _ from aged]
  exact ⟨rfl, rfl, rfl, rfl⟩

theorem lasting (services : Services σ) (before : State σ) :
    Lasting services (Steady before) where
  arrive state position _ steady := steady.trans (.arrive position state)
  age state steady := steady.trans (.age state)
  withAdmission _ _ _ steady := ⟨steady.config, steady.pending, steady.nextLocation, steady.dispatched⟩
  report _ _ _ _ steady := ⟨steady.config, steady.pending, steady.nextLocation, steady.dispatched⟩

theorem prepared {index : String} {writer : BulkWriter} {job : Job σ}
    {result : Except ExecutionError Unit} {state : State σ}
    (prepared : Prepared services index writer job (result, state)) :
    Steady (writer, job) state := by
  cases prepared with
  | spared | there | refused => exact ⟨rfl, rfl, rfl, rfl⟩
  | created cluster =>
    have exchanged := (lasting services (writer, job.withServices cluster)).exchange (.refl _)
    exact ⟨exchanged.config, exchanged.pending, exchanged.nextLocation, exchanged.dispatched⟩

theorem reap (state : State σ) : Steady state (BulkWriter.reap state) := by
  obtain ⟨job', reaped, counted⟩ := reap_apply state.1 state.2
  rw [show BulkWriter.reap state = _ from reaped]
  exact ⟨rfl, rfl, rfl, counted.dispatched⟩

theorem merge (outcome : BulkOutcome) (state : State σ) :
    Steady state (BulkWriter.merge outcome state) := by
  obtain ⟨job', merged, counted⟩ := merge_apply outcome state.1 state.2
  rw [show BulkWriter.merge outcome state = _ from merged]
  exact ⟨rfl, rfl, rfl, counted.dispatched⟩

end Steady

private theorem inFlight_reap (state : State σ) : (reap state).1.inFlight = state.1.inFlight := by
  obtain ⟨job', reaped, _⟩ := reap_apply state.1 state.2
  rw [show reap state = _ from reaped]

/-- A step sent requests and counted them. -/
structure Sends (before after : State σ) (requests : List Dispatch) : Prop where
  sent : sent before after = requests
  counted : dispatched after = dispatched before + requests.length

theorem Sends.nothing {before after : State σ} (same : dispatched after = dispatched before) :
    Sends before after [] :=
  ⟨if_pos same, same⟩

/-- What can come of closing a shard, with the requests that are sent. -/
inductive Closed (services : Services σ) (state : State σ) (shard : ShardId) :
    List Dispatch → State σ → Prop
  | idle (nothing : state.1.pending.find? (·.shard == shard) = none) :
    Closed services state shard [] (reap state)
  | refused (dispatch : Dispatch) (error : ExecutionError) (ready : State σ)
      (waits : state.1.pending.find? (·.shard == shard) = some dispatch)
      (prepares : prepareIndex services shard.index (without shard state) = (.error error, ready)) :
    Closed services state shard [] (reap (merge ⟨dispatch, .error error⟩ ready))
  | departed (dispatch : Dispatch) (ready : State σ)
      (waits : state.1.pending.find? (·.shard == shard) = some dispatch)
      (prepares : prepareIndex services shard.index (without shard state) = (.ok (), ready)) :
    Closed services state shard [dispatch]
      (reap (depart dispatch (acquire services dispatch.node ready)))

theorem close_closed (services : Services σ) (state : State σ) (shard : ShardId) :
    ∃ requests, Closed services state shard requests (close services state shard) := by
  cases waits : state.1.pending.find? (·.shard == shard) with
  | none =>
    have closed : close services state shard = reap state := by simp only [close, flush, waits]
    rw [closed]
    exact ⟨_, .idle waits⟩
  | some dispatch =>
    obtain rfl : dispatch.shard = shard := by simpa using List.find?_some waits
    have flushed : flush services dispatch.shard state =
        send services dispatch (without dispatch.shard state) := by
      simp only [flush, waits]
      rfl
    rw [close, flushed, send]
    rcases prepares : prepareIndex services dispatch.shard.index (without dispatch.shard state)
      with ⟨error | _, ready⟩
    · exact ⟨_, .refused dispatch error ready waits prepares⟩
    · exact ⟨_, .departed dispatch ready waits prepares⟩

theorem without_prepared {shard : ShardId} {state ready : State σ} {answer : Except ExecutionError Unit}
    (prepares : prepareIndex services shard.index (without shard state) = (answer, ready)) :
    Prepared services shard.index (without shard state).1 state.2 (answer, ready) :=
  prepares ▸ prepareIndex_prepared shard.index (without shard state).1 state.2

namespace Closed

variable {before state after : State σ} {shard : ShardId} {requests : List Dispatch}

theorem kept (closed : Closed services state shard requests after) :
    after.1.config = state.1.config ∧ after.1.nextLocation = state.1.nextLocation := by
  cases closed with
  | idle =>
    have steady := Steady.reap state
    exact ⟨steady.config, steady.nextLocation⟩
  | refused dispatch error ready _ prepares =>
    have steady := ((Steady.prepared (without_prepared prepares)).trans
      (.merge ⟨dispatch, .error error⟩ ready)).trans (.reap _)
    exact ⟨steady.config, steady.nextLocation⟩
  | departed dispatch ready _ prepares =>
    have waited := (Steady.lasting services _).acquire dispatch.node
      (Steady.prepared (without_prepared prepares))
    have reaped := Steady.reap (depart dispatch (acquire services dispatch.node ready))
    exact ⟨reaped.config.trans waited.config, reaped.nextLocation.trans waited.nextLocation⟩

theorem sends (closed : Closed services state shard requests after)
    (same : dispatched state = dispatched before) : Sends before after requests := by
  cases closed with
  | idle => exact .nothing ((Steady.reap state).dispatched.trans same)
  | refused dispatch error ready _ prepares =>
    have steady := ((Steady.prepared (without_prepared prepares)).trans
      (.merge ⟨dispatch, .error error⟩ ready)).trans (.reap _)
    exact .nothing (steady.dispatched.trans same)
  | departed dispatch ready _ prepares =>
    obtain ⟨waited, waited_eq⟩ : ∃ waited, waited = acquire services dispatch.node ready := ⟨_, rfl⟩
    have steady : Steady (without shard state) waited := waited_eq ▸
      (Steady.lasting services _).acquire dispatch.node (Steady.prepared (without_prepared prepares))
    rw [← waited_eq]
    have count : dispatched (reap (depart dispatch waited)) = dispatched before + 1 := by
      rw [(Steady.reap _).dispatched, ← same]
      exact congrArg (· + 1) steady.dispatched
    have newest : (reap (depart dispatch waited)).1.inFlight =
        waited.1.inFlight ++ [⟨dispatch, false⟩] := inFlight_reap _
    refine ⟨?_, count⟩
    rw [sent, if_neg (by omega), newest, List.getLast?_concat]
    rfl

theorem of_granted {dispatch : Dispatch} (closed : Closed services state shard requests after)
    (waits : state.1.pending.find? (·.shard == shard) = some dispatch)
    (granted : refusal services state shard = []) : requests = [dispatch] := by
  cases closed with
  | idle nothing =>
    rw [nothing] at waits
    cases waits
  | refused _ error ready _ prepares =>
    simp only [refusal, waits] at granted
    rw [prepares] at granted
    cases granted
  | departed _ _ here =>
    rw [here] at waits
    cases waits
    rfl

end Closed

/-- Whatever waits for a shard is sent, unless its index is refused. -/
theorem close_sends {before state : State σ} {shard : ShardId} {dispatch : Dispatch}
    (same : dispatched state = dispatched before)
    (waits : state.1.pending.find? (·.shard == shard) = some dispatch)
    (granted : refusal services state shard = []) :
    Sends before (close services state shard) [dispatch] := by
  obtain ⟨requests, closed⟩ := close_closed services state shard
  obtain rfl := closed.of_granted waits granted
  exact closed.sends same

theorem close_pending (services : Services σ) (state : State σ) (shard : ShardId) :
    (close services state shard).1.pending = state.1.pending.eraseP (·.shard == shard) :=
  (Steady.reap _).pending.trans (flush_pending shard state)

theorem finish_dispatched (services : Services σ) (state : State σ) :
    dispatched (finish services state).2 =
      dispatched ((waitingShards state).foldl (close services) state) := by
  let closed := (waitingShards state).foldl (close services) state
  have awaited := (Steady.lasting services closed).awaitAll (.refl closed)
  exact (Steady.reap (awaitAll services closed)).dispatched.trans awaited.dispatched

/-! ### What holds of the requests that were sent -/

/-- What goes on holding of a writer and the requests that it sent, whatever it does. Waiting and the
creation of indices send nothing. -/
structure Following (services : Services σ) (inv : List Dispatch → State σ → Prop) : Prop where
  congr : ∀ {requests before after}, inv requests before → after.1.config = before.1.config →
    after.1.inFlight = before.1.inFlight → after.2.node.services = before.2.node.services →
      inv requests after
  arriving : ∀ requests, Arriving services (inv requests)
  create : ∀ {requests writer job index answer state},
    services.createIndex index job.node.services = (answer, state) →
      inv requests (writer, job) → inv requests (writer, job.withServices state)
  depart : ∀ {requests state} dispatch, inv requests state →
    inv (requests ++ [dispatch]) (depart dispatch state)

namespace Following

variable {inv : List Dispatch → State σ → Prop} {past : List Dispatch} {before state : State σ}

theorem lasting (following : Following services inv) (past : List Dispatch) :
    Lasting services (inv past) where
  toArriving := following.arriving past
  withAdmission _ _ _ holds := following.congr holds rfl rfl rfl
  report _ _ _ _ holds := following.congr holds rfl rfl rfl

theorem prepared (following : Following services inv) {index : String} {writer : BulkWriter}
    {job : Job σ} {result : Except ExecutionError Unit}
    (prepared : Prepared services index writer job (result, state))
    (holds : inv past (writer, job)) : inv past state := by
  cases prepared with
  | spared | there => exact following.congr holds rfl rfl rfl
  | refused _ _ _ asked => exact following.congr (following.create asked holds) rfl rfl rfl
  | created _ _ _ _ _ asked =>
    have waited := (following.arriving past).exchange (following.create asked holds)
    exact following.congr waited rfl rfl rfl

theorem reap (following : Following services inv) (holds : inv past state) :
    inv past (reap state) := by
  obtain ⟨job', reaped, counted⟩ := reap_apply state.1 state.2
  rw [show BulkWriter.reap state = _ from reaped]
  exact following.congr holds rfl rfl counted.services

theorem merge (following : Following services inv) (outcome : BulkOutcome)
    (holds : inv past state) : inv past (merge outcome state) := by
  obtain ⟨job', merged, counted⟩ := merge_apply outcome state.1 state.2
  rw [show BulkWriter.merge outcome state = _ from merged]
  exact following.congr holds rfl rfl counted.services

theorem close (following : Following services inv) (shard : ShardId)
    (same : dispatched state = dispatched before) (holds : inv past state) :
    inv (past ++ sent before (close services state shard)) (close services state shard) := by
  obtain ⟨new, closed⟩ := close_closed services state shard
  have hand : inv past (without shard state) := following.congr holds rfl rfl rfl
  rw [(closed.sends same).sent]
  generalize BulkWriter.close services state shard = after at closed
  cases closed with
  | idle =>
    rw [List.append_nil]
    exact following.reap holds
  | refused _ _ _ _ prepares =>
    rw [List.append_nil]
    exact following.reap (following.merge _ (following.prepared (without_prepared prepares) hand))
  | departed dispatch _ _ prepares =>
    have ready := following.prepared (without_prepared prepares) hand
    have waited := (following.lasting past).acquire dispatch.node ready
    exact following.reap (following.depart dispatch waited)

theorem unsent (holds : inv past state) (same : dispatched state = dispatched before) :
    inv (past ++ sent before state) state := by
  rwa [show sent before state = [] from if_pos same, List.append_nil]

theorem call (following : Following services inv) (call : Call) (holds : inv past state) :
    inv (past ++ sent state (call.apply services state)) (call.apply services state) := by
  cases call with
  | add target id routing operation origin =>
    have waits : inv past (join target id routing operation origin state) :=
      following.congr holds rfl rfl rfl
    simp only [Call.apply_add]
    split
    · exact following.close target.shard rfl waits
    · exact unsent (following.reap waits) (Steady.reap _).dispatched
  | reject => exact unsent (following.congr holds rfl rfl rfl) rfl
  | pause =>
    have steady := (Steady.lasting services state).exchange (.refl state)
    exact unsent ((following.arriving past).exchange holds) steady.dispatched

theorem observed {ε : Type} {step : State σ → ε → State σ}
    (each : ∀ {past state} event, inv past state →
      inv (past ++ sent state (step state event)) (step state event))
    (events : List ε) (holds : inv past state) :
    inv (past ++ observed (fun state event => step state event)
      (fun state event => sent state (step state event)) state events) (events.foldl step state) := by
  induction events generalizing past state with
  | nil => rwa [RowPipeline.observed, List.append_nil]
  | cons event rest ih =>
    rw [RowPipeline.observed, ← List.append_assoc, List.foldl_cons]
    exact ih (each event holds)

/-- Once a writer finished, nothing that it sent is on its way. -/
theorem finish (following : Following services inv) (calls : List Call) (holds : inv [] state) :
    let last := (finish services (calls.foldl (Call.apply services) state)).2
    inv (requests services state calls) last ∧ last.1.inFlight = [] := by
  intro last
  let called := calls.foldl (Call.apply services) state
  let closed := (waitingShards called).foldl (BulkWriter.close services) called
  have afterCalls := observed (fun call => following.call call) calls holds
  have afterCloses := observed (fun shard => following.close shard rfl) (waitingShards called) afterCalls
  have awaited := following.reap ((following.arriving _).awaitAll afterCloses)
  have silent : sent closed last = [] := if_pos (finish_dispatched services called)
  have all : requests services state calls = _ :=
    (congrArg (_ ++ ·) silent).trans (List.append_nil _)
  refine ⟨?_, (inFlight_reap _).trans (awaitAll_inFlight closed)⟩
  rw [all]
  exact following.congr awaited rfl rfl rfl

end Following

end BulkWriter

end RowPipeline
