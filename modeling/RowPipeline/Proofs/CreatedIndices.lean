import Mathlib.Data.List.Dedup
import RowPipeline.Proofs.Compilation
import RowPipeline.Proofs.CreationCalls
import RowPipeline.Proofs.ForeseenWrites
import RowPipeline.Proofs.RecordedRequests

/-!
Writers that create what is missing. Whatever several writers do on one cluster, every request finds
its index there, and an index that was missing is created once.
-/

namespace RowPipeline

/-! ### What serving requests leaves alone -/

/-- The indices that there are, and what was asked for others, are the same. -/
structure Simulation.SameIndices (before after : Simulation) : Prop where
  refusals : after.faults.refusals = before.faults.refusals
  exists_iff : ∀ index, after.cluster.indexExists index = before.cluster.indexExists index
  createCalls : after.cluster.createCalls = before.cluster.createCalls

namespace Simulation.SameIndices

theorem accept (node : NodeName) (simulation : Simulation) :
    SameIndices simulation (services.accept node simulation) where
  refusals := rfl
  exists_iff index := by
    have same := (simulation.cluster.accept_alike node).2
    exact congrArg (Dictionary.contains index) same
  createCalls := by
    simp only [services, Simulation.accept, LocalCluster.accept]
    split <;> rfl

private theorem createCalls_applyBulk (cluster : LocalCluster) (node : NodeName) (request : BulkRequest) :
    (cluster.applyBulk node request).2.createCalls = cluster.createCalls := by
  unfold LocalCluster.applyBulk
  dsimp only
  split
  · rfl
  · split <;> rfl

theorem bulk (node : NodeName) (timeout : Nat) (request : BulkRequest) (simulation : Simulation) :
    SameIndices simulation (services.bulk node timeout request simulation).2 where
  refusals := rfl
  exists_iff := simulation.cluster.indexExists_executeBulk node timeout request
  createCalls := by
    have served : (simulation.cluster.serve node).createCalls = simulation.cluster.createCalls := by
      unfold LocalCluster.serve
      split <;> rfl
    show (simulation.cluster.executeBulk node timeout request).2.createCalls = _
    unfold LocalCluster.executeBulk
    dsimp only
    split
    · exact served
    · exact (createCalls_applyBulk _ node request).trans served

end Simulation.SameIndices

namespace BulkWriter

private theorem indicesCreated_merge {σ : Type} (outcome : BulkOutcome) (state : State σ) :
    (merge outcome state).2.node.metrics.indicesCreated = state.2.node.metrics.indicesCreated := by
  unfold merge reportFailure
  dsimp only
  split <;> rfl

private theorem indicesCreated_reap {σ : Type} (state : State σ) :
    (reap state).2.node.metrics.indicesCreated = state.2.node.metrics.indicesCreated := by
  have merged (outcomes : List BulkOutcome) (state : State σ) :
      (outcomes.foldl (fun state outcome => merge outcome state) state).2.node.metrics.indicesCreated =
        state.2.node.metrics.indicesCreated := by
    induction outcomes generalizing state with
    | nil => rfl
    | cons outcome rest ih => exact (ih _).trans (indicesCreated_merge outcome state)
  exact merged state.1.arrived _

/-! ### What is known of the indices -/

/-- Since the start of a job indices of the given names were created, of which some number is counted
already. -/
structure Created (start : Job Simulation) (names : List String) (noted : Nat) (job : Job Simulation) :
    Prop where
  unrefused : job.node.services.faults.refusals = []
  stands : ∀ index, job.node.services.cluster.indexExists index =
    (start.node.services.cluster.indexExists index || names.contains index)
  asked : job.node.services.cluster.createCalls =
    start.node.services.cluster.createCalls + names.length
  counted : job.node.metrics.indicesCreated = start.node.metrics.indicesCreated + noted
  distinct : names.Nodup
  missing : ∀ name ∈ names, start.node.services.cluster.indexExists name = false
  known : ∀ index ∈ job.node.creation.created,
    job.node.services.cluster.indexExists index = true

/-- What a writer takes to exist does exist. -/
def Trusts (writer : BulkWriter) (job : Job Simulation) : Prop :=
  ∀ index ∈ writer.ensured, job.node.services.cluster.indexExists index = true

variable {start : Job Simulation} {names : List String} {noted : Nat}

namespace Created

variable {job : Job Simulation} {index : String}

theorem congr (created : Created start names noted job) {job' : Job Simulation}
    (services : job'.node.services = job.node.services)
    (creation : job'.node.creation.created = job.node.creation.created)
    (counted : job'.node.metrics.indicesCreated = job.node.metrics.indicesCreated) :
    Created start names noted job' where
  unrefused := services ▸ created.unrefused
  stands := services ▸ created.stands
  asked := services ▸ created.asked
  counted := counted.trans created.counted
  distinct := created.distinct
  missing := created.missing
  known index member := services ▸ created.known index (creation ▸ member)

/-- Requests that are served leave all that. -/
theorem withServices (created : Created start names noted job) {simulation : Simulation}
    (same : Simulation.SameIndices job.node.services simulation) :
    Created start names noted (job.withServices simulation) where
  unrefused := same.refusals.trans created.unrefused
  stands index := (same.exists_iff index).trans (created.stands index)
  asked := same.createCalls.trans created.asked
  counted := created.counted
  distinct := created.distinct
  missing := created.missing
  known index member := (same.exists_iff index).trans (created.known index member)

theorem createIndex (created : Created start names noted job) (index : String) :
    Simulation.services.createIndex index job.node.services =
      (.ok (), { job.node.services with
        cluster := job.node.services.cluster.createIndex index }) := by
  simp [Simulation.services, Simulation.createIndex, created.unrefused]

theorem create (created : Created start names noted job)
    (missing : job.node.services.cluster.indexExists index = false) :
    Created start (names ++ [index]) noted (job.withServices { job.node.services with
      cluster := job.node.services.cluster.createIndex index }) := by
  have before : start.node.services.cluster.indexExists index = false ∧ index ∉ names := by
    simpa [created.stands] using missing
  have grown := LocalCluster.indexExists_createIndex missing
  constructor
  · exact created.unrefused
  · intro other
    simp only [Job.withServices, grown, created.stands]
    by_cases same : other = index <;> simp [same]
  · have asked := created.asked
    simp only [Job.withServices, LocalCluster.createIndex, LocalCluster.addIndex, List.length_append,
      List.length_singleton] at asked ⊢
    omega
  · exact created.counted
  · exact (List.perm_append_singleton _ _).nodup_iff.mpr
      (List.nodup_cons.mpr ⟨before.2, created.distinct⟩)
  · intro name member
    rcases List.mem_append.mp member with old | new
    · exact created.missing name old
    · obtain rfl := List.mem_singleton.mp new
      exact before.1
  · intro other member
    simp only [Job.withServices, grown, created.known other member, Bool.true_or]

private theorem note {writer : BulkWriter} (created : Created start (names ++ [index]) names.length job)
    {before : List String} {creation : IndexCreation}
    (known : ∀ other ∈ before ++ [index],
      job.node.services.cluster.indexExists other = true)
    (noted : creation.created = before ++ [index]) :
    Created start (names ++ [index]) (names ++ [index]).length
      (noteCreation index creation (writer, job)).2 where
  unrefused := created.unrefused
  stands := created.stands
  asked := created.asked
  counted := by
    rw [List.length_append, ← Nat.add_assoc, ← created.counted]
    rfl
  distinct := created.distinct
  missing := created.missing
  known other member := known other (noted ▸ member)

end Created

/-- What is known while a writer works: the indices that were created, and what it takes to exist. -/
structure Prepares (start : Job Simulation) (names : List String) (noted : Nat)
    (state : State Simulation) : Prop where
  created : Created start names noted state.2
  trusts : Trusts state.1 state.2

namespace Prepares

variable {writer : BulkWriter} {job : Job Simulation}

theorem congr {state : State Simulation} (prepares : Prepares start names noted state)
    {after : State Simulation} (services : after.2.node.services = state.2.node.services)
    (creation : after.2.node.creation.created = state.2.node.creation.created)
    (counted : after.2.node.metrics.indicesCreated = state.2.node.metrics.indicesCreated)
    (ensured : ∀ index ∈ after.1.ensured, index ∈ state.1.ensured) :
    Prepares start names noted after where
  created := prepares.created.congr services creation counted
  trusts index member := services ▸ prepares.trusts index (ensured index member)

theorem withServices (prepares : Prepares start names noted (writer, job)) {simulation : Simulation}
    (same : Simulation.SameIndices job.node.services simulation) :
    Prepares start names noted (writer, job.withServices simulation) where
  created := prepares.created.withServices same
  trusts index member := (same.exists_iff index).trans (prepares.trusts index member)

theorem reach (prepares : Prepares start names noted (writer, job)) (transit : Transit) :
    Prepares start names noted (writer, reach Simulation.services transit job) := by
  unfold BulkWriter.reach
  split
  · exact prepares
  · exact prepares.withServices (.accept _ _)

theorem lasting : Lasting Simulation.services (Prepares start names noted) where
  arrive := by
    intro (writer, job) position _ prepares
    cases sent : writer.inFlight[position]? with
    | none => rwa [arrive_of_none sent]
    | some transit =>
      rw [arrive_answered sent rfl]
      exact ((prepares.reach transit).withServices (.bulk ..)).congr rfl rfl rfl fun _ member => member
  age := by
    intro (writer, job) prepares
    have reached (transits : List Transit) : Prepares start names noted
        (writer, transits.foldl
          (fun job transit => BulkWriter.reach Simulation.services transit job) job) := by
      induction transits generalizing job with
      | nil => exact prepares
      | cons transit rest ih => exact ih _ (prepares.reach transit)
    exact (reached writer.inFlight).congr rfl rfl rfl fun _ member => member
  withAdmission _ _ _ prepares := prepares.congr rfl rfl rfl fun _ member => member
  report _ _ _ _ prepares := prepares.congr rfl rfl rfl fun _ member => member

theorem reap {state : State Simulation} (prepares : Prepares start names noted state) :
    Prepares start names noted (reap state) := by
  obtain ⟨job', reaped, counted⟩ := reap_apply state.1 state.2
  rw [show BulkWriter.reap state = _ from reaped]
  have noted := indicesCreated_reap state
  rw [show BulkWriter.reap state = _ from reaped] at noted
  exact prepares.congr counted.services (congrArg _ counted.creation) noted fun _ member => member

theorem ensure {index : String} (prepares : Prepares start names noted (writer, job))
    (found : job.node.services.cluster.indexExists index = true) :
    Prepares start names noted (ensure index (writer, job)) where
  created := prepares.created
  trusts other member := by
    rcases List.mem_cons.mp member with rfl | old
    · exact found
    · exact prepares.trusts other old

/-- The index of a request in hand is created if it has to be, and then it exists. -/
theorem prepareIndex {state : State Simulation} (index : String)
    (prepares : Prepares start names names.length state) :
    ∃ names' prepared,
      BulkWriter.prepareIndex Simulation.services index state = (.ok (), prepared) ∧
      Prepares start names' names'.length prepared ∧
      (names' = names ∨ names' = names ++ [index] ∧ state.1.config.createsIndices = true) ∧
      (state.1.config.createsIndices = true →
        prepared.2.node.services.cluster.indexExists index = true) := by
  obtain ⟨writer, job⟩ := state
  have prepared : Prepared Simulation.services index writer job _ :=
    prepareIndex_prepared index writer job
  generalize BulkWriter.prepareIndex Simulation.services index (writer, job) = result at prepared
  cases prepared with
  | spared known =>
    exact ⟨names, _, rfl, prepares, .inl rfl, fun asked => prepares.trusts index (known asked)⟩
  | there asked found =>
    have stands : job.node.services.cluster.indexExists index = true := by
      rcases found with found | known
      · exact found
      · exact prepares.created.known index known
    exact ⟨names, _, rfl, prepares.ensure stands, .inl rfl, fun _ => stands⟩
  | refused error state creation asked =>
    rw [prepares.created.createIndex] at asked
    cases asked
  | created state creation asked missing unknown done noted =>
    rw [prepares.created.createIndex] at done
    cases done
    let cluster := job.node.services.cluster.createIndex index
    let asking : State Simulation :=
      (writer, job.withServices { job.node.services with cluster := cluster })
    have stands (other : String) : cluster.indexExists other =
        (job.node.services.cluster.indexExists other || other == index) :=
      LocalCluster.indexExists_createIndex missing other
    have grown : Prepares start (names ++ [index]) names.length asking := by
      refine ⟨prepares.created.create missing, fun other member => ?_⟩
      show cluster.indexExists other = true
      rw [stands, prepares.trusts other member, Bool.true_or]
    have waited := lasting.exchange grown
    have there : (exchange Simulation.services asking).2.node.services.cluster.indexExists index =
        true := by
      rw [waited.created.stands]
      simp
    refine ⟨names ++ [index], _, rfl, ?_, .inr ⟨rfl, ‹_›⟩, fun _ => there⟩
    refine Prepares.ensure ⟨waited.created.note ?_ noted, waited.trusts⟩ there
    intro other member
    rcases List.mem_append.mp member with old | new
    · have found := prepares.created.known other old
      simp only [prepares.created.stands, waited.created.stands, Bool.or_eq_true,
        List.contains_iff_mem, List.mem_append] at found ⊢
      exact found.imp_right .inl
    · obtain rfl := List.mem_singleton.mp new
      exact there

end Prepares

/-! ### One writer -/

/-- What a writer is told to do. Finishing is made of steps between which others may go on. -/
inductive Duty where
  | call (call : Call)
  | close (shard : ShardId)
  /-- All answers are taken in, and the summary is given away. -/
  | settle
  | abandon
  | cancel

namespace Duty

variable {σ : Type}

def apply (services : Services σ) (state : State σ) : Duty → State σ
  | .call asked => asked.apply services state
  | .close shard => BulkWriter.close services state shard
  | .settle =>
    let state := reap (awaitAll services state)
    ({ state.1 with summary := {} }, state.2)
  | .abandon => BulkWriter.abandon services state
  | .cancel => BulkWriter.cancel state

private theorem config_apply (services : Services σ) (state : State σ) (duty : Duty) :
    (duty.apply services state).1.config = state.1.config := by
  have closes (state : State σ) (shard : ShardId) :
      (BulkWriter.close services state shard).1.config = state.1.config := by
    obtain ⟨_, closed⟩ := close_closed services state shard
    exact closed.kept.1
  have awaits (state : State σ) : (awaitAll services state).1.config = state.1.config :=
    ((Steady.lasting services state).awaitAll (.refl state)).config
  cases duty with
  | call asked =>
    cases asked with
    | add target id routing operation origin =>
      simp only [apply, Call.apply_add]
      split
      · exact closes _ target.shard
      · exact (Steady.reap _).config
    | reject => rfl
    | pause => exact ((Steady.lasting services state).exchange (.refl state)).config
  | close shard => exact closes state shard
  | settle => exact (Steady.reap _).config.trans (awaits state)
  | abandon => exact awaits ({ state.1 with pending := [] }, state.2)
  | cancel => rfl

end Duty

/-- The cluster is asked what a writer sent, whatever the writer is told to do. -/
theorem Recorded.duty {earlier : List BulkRecord} {requests : List Dispatch}
    {state : State Simulation} (recorded : Recorded earlier requests state) (duty : Duty) :
    Recorded earlier (requests ++ sent state (duty.apply Simulation.services state))
      (duty.apply Simulation.services state) := by
  have awaits {state : State Simulation} (recorded : Recorded earlier requests state) :
      Recorded earlier requests (awaitAll Simulation.services state) :=
    (following.arriving requests).awaitAll recorded
  cases duty with
  | call asked => exact following.call asked recorded
  | close shard => exact following.close shard rfl recorded
  | settle =>
    refine .mono ?_ (List.subset_append_left _ _)
    exact (following.reap (awaits recorded)).congr rfl fun _ member => member
  | abandon =>
    refine .mono ?_ (List.subset_append_left _ _)
    have emptied : Recorded earlier requests ({ state.1 with pending := [] }, state.2) :=
      recorded.congr rfl fun _ member => member
    exact (awaits emptied).congr rfl fun _ member => member
  | cancel =>
    refine .mono ?_ (List.subset_append_left _ _)
    exact recorded.congr rfl (List.nil_subset _)

/-- A step leaves known which indices were created. Only the index of a request that it sent is among
those it created, and that exists. -/
structure Advances (start : Job Simulation) (names : List String) (before after : State Simulation)
    (names' : List String) : Prop where
  prepares : Prepares start names' names'.length after
  kept : names ⊆ names'
  created : ∀ name ∈ names', name ∈ names ∨ before.1.config.createsIndices = true ∧
    ∃ dispatch ∈ sent before after, dispatch.shard.index = name
  found : before.1.config.createsIndices = true → ∀ dispatch ∈ sent before after,
    after.2.node.services.cluster.indexExists dispatch.shard.index = true

namespace Advances

variable {after : State Simulation} (before state : State Simulation)

theorem of_unsent (unsent : dispatched after = dispatched before)
    (prepares : Prepares start names names.length after) : Advances start names before after names := by
  have none_sent : sent before after = [] := if_pos unsent
  exact ⟨prepares, fun _ member => member, fun _ member => .inl member, by simp [none_sent]⟩

/-- Closing a shard sends what waits for it, and creates its index if that is missing. -/
theorem close (config : state.1.config = before.1.config) (unsent : dispatched state = dispatched before)
    (prepares : Prepares start names names.length state) (shard : ShardId) :
    ∃ names', Advances start names before (BulkWriter.close Simulation.services state shard) names' := by
  have hand : Prepares start names names.length (without shard state) :=
    prepares.congr rfl rfl rfl fun _ member => member
  obtain ⟨names', prepared, answer, ready, names_eq, found⟩ := hand.prepareIndex shard.index
  obtain ⟨requests, closed⟩ := close_closed Simulation.services state shard
  have sends := closed.sends unsent
  generalize BulkWriter.close Simulation.services state shard = after at closed sends ⊢
  cases closed with
  | idle => exact ⟨names, of_unsent _ ((Steady.reap state).dispatched.trans unsent) prepares.reap⟩
  | refused _ _ _ _ refusal =>
    rw [answer] at refusal
    cases refusal
  | departed dispatch _ waits granted =>
    rw [answer] at granted
    cases granted
    obtain rfl : dispatch.shard = shard := by simpa using List.find?_some waits
    have departed : Prepares start names' names'.length
        (depart dispatch (acquire Simulation.services dispatch.node prepared)) :=
      (Prepares.lasting.acquire dispatch.node ready).congr rfl rfl rfl fun _ member => member
    rw [show (without dispatch.shard state).1.config = before.1.config from config] at names_eq found
    refine ⟨names', departed.reap, ?_, ?_, ?_⟩
    · rcases names_eq with rfl | ⟨rfl, -⟩
      · exact fun _ member => member
      · exact fun _ member => List.mem_append_left _ member
    · intro name member
      rcases names_eq with rfl | ⟨rfl, asked⟩
      · exact .inl member
      rcases List.mem_append.mp member with old | new
      · exact .inl old
      · obtain rfl := List.mem_singleton.mp new
        exact .inr ⟨asked, dispatch, by rw [sends.sent]; exact .head _, rfl⟩
    · intro asked other member
      rw [sends.sent] at member
      obtain rfl := List.mem_singleton.mp member
      rw [departed.reap.created.stands, ← ready.created.stands]
      exact found asked

/-- Whatever a writer is told to do. -/
theorem duty (prepares : Prepares start names names.length before) (duty : Duty) :
    ∃ names', Advances start names before (duty.apply Simulation.services before) names' := by
  cases duty with
  | call asked =>
    cases asked with
    | add target id routing operation origin =>
      let joined := join target id routing operation origin before
      have waits : Prepares start names names.length joined :=
        prepares.congr rfl rfl rfl fun _ member => member
      simp only [Duty.apply, Call.apply_add]
      split
      · exact close before joined rfl rfl waits target.shard
      · exact ⟨names, of_unsent _ (Steady.reap joined).dispatched waits.reap⟩
    | reject origin message =>
      exact ⟨names, of_unsent _ rfl (prepares.congr rfl rfl rfl fun _ member => member)⟩
    | pause =>
      have steady := (Steady.lasting Simulation.services before).exchange (.refl before)
      exact ⟨names, of_unsent _ steady.dispatched (Prepares.lasting.exchange prepares)⟩
  | close shard => exact close before before rfl rfl prepares shard
  | settle =>
    have steady := (Steady.lasting Simulation.services before).awaitAll (.refl before)
    have awaited := (Prepares.lasting.awaitAll prepares).reap
    exact ⟨names, of_unsent _ ((Steady.reap _).dispatched.trans steady.dispatched)
      (awaited.congr rfl rfl rfl fun _ member => member)⟩
  | abandon =>
    let emptied : State Simulation := ({ before.1 with pending := [] }, before.2)
    have steady := (Steady.lasting Simulation.services emptied).awaitAll (.refl emptied)
    have waits : Prepares start names names.length emptied :=
      prepares.congr rfl rfl rfl fun _ member => member
    exact ⟨names, of_unsent _ steady.dispatched
      ((Prepares.lasting.awaitAll waits).congr rfl rfl rfl fun _ member => member)⟩
  | cancel => exact ⟨names, of_unsent _ rfl (prepares.congr rfl rfl rfl fun _ member => member)⟩

end Advances

/-! ### Several writers -/

/-- Writers that share a node, each by its number. -/
abbrev Writers := (Nat → BulkWriter) × Job Simulation

namespace Duty

/-- One of several writers does what it is told to. -/
def applyTo : Writers → Nat × Duty → Writers
  | (writers, job), (who, duty) =>
    let (writer, job) := duty.apply Simulation.services (writers who, job)
    (Function.update writers who writer, job)

/-- What a writer that creates indices sends, with the cluster that it sends it to. -/
def sentBy : Writers → Nat × Duty → List (Dispatch × LocalCluster)
  | (writers, job), (who, duty) =>
    let after := duty.apply Simulation.services (writers who, job)
    if (writers who).config.createsIndices then
      (sent (writers who, job) after).map fun dispatch => (dispatch, after.2.node.services.cluster)
    else []

section Runs

variable (job : Job Simulation) (configs : Nat → BulkConfig) (duties : List (Nat × Duty))

/-- New writers that do one thing after the other. -/
def run : Writers := duties.foldl applyTo (fun who => { config := configs who }, job)

def sentOver : List (Dispatch × LocalCluster) :=
  observed applyTo sentBy (fun who => { config := configs who }, job) duties

private theorem config_run (who : Nat) : ((run job configs duties).1 who).config = configs who := by
  induction duties using List.reverseRecOn with
  | nil => rfl
  | append_singleton duties duty ih =>
    rw [run, List.foldl_append]
    by_cases same : who = duty.1
    · subst same
      simpa [applyTo] using (config_apply ..).trans ih
    · simpa [run, applyTo, same] using ih

/-- The indices that requests were sent for and that there were not at the start. -/
def missingTargets : List String :=
  ((sentOver job configs duties).map (·.1.shard.index)).dedup.filter fun index =>
    !job.node.services.cluster.indexExists index

end Runs

end Duty

/-- Writers that create indices find every index there when they send a request for it, and each that
was missing is created by one request for that. -/
structure CreatesMissing (job : Job Simulation) (configs : Nat → BulkConfig)
    (duties : List (Nat × Duty)) : Prop where
  existing : ∀ request ∈ Duty.sentOver job configs duties,
    request.2.indexExists request.1.shard.index = true
  stands : ∀ index, (Duty.run job configs duties).2.node.services.cluster.indexExists index =
    (job.node.services.cluster.indexExists index ||
      (Duty.missingTargets job configs duties).contains index)
  asked : (Duty.run job configs duties).2.node.services.cluster.createCalls =
    job.node.services.cluster.createCalls + (Duty.missingTargets job configs duties).length
  counted : (Duty.run job configs duties).2.node.metrics.indicesCreated =
    job.node.metrics.indicesCreated + (Duty.missingTargets job configs duties).length
  /-- If all writers create indices, the cluster is asked no other requests. -/
  served : (∀ who, (configs who).createsIndices = true) →
    ∃ served, (Duty.run job configs duties).2.node.services.cluster.bulkRecords =
        served ++ job.node.services.cluster.bulkRecords ∧
      ∀ record ∈ served, ∃ request ∈ Duty.sentOver job configs duties, record = request.1.record

/-- What is known of several writers after what they were told to do. -/
structure Together (start : Job Simulation) (names : List String)
    (sent : List (Dispatch × LocalCluster)) (state : Writers) : Prop where
  created : Created start names names.length state.2
  trusts : ∀ who, Trusts (state.1 who) state.2
  targeted : ∀ name ∈ names, name ∈ sent.map (·.1.shard.index)
  existed : ∀ request ∈ sent, request.2.indexExists request.1.shard.index = true
  existing : ∀ index ∈ sent.map (·.1.shard.index),
    state.2.node.services.cluster.indexExists index = true
  recorded : (∀ who, (state.1 who).config.createsIndices = true) →
    ∀ who, Recorded start.node.services.cluster.bulkRecords (sent.map (·.1)) (state.1 who, state.2)

theorem Duty.sentBy_found {state : Writers} {duty : Nat × Duty} {request : Dispatch × LocalCluster}
    (member : request ∈ Duty.sentBy state duty) :
    let before : State Simulation := (state.1 duty.1, state.2)
    let after := duty.2.apply Simulation.services before
    before.1.config.createsIndices = true ∧ ∃ dispatch ∈ sent before after,
      request = (dispatch, after.2.node.services.cluster) := by
  simp only [Duty.sentBy] at member
  split at member
  next asked =>
    obtain ⟨dispatch, there, rfl⟩ := List.mem_map.mp member
    exact ⟨asked, dispatch, there, rfl⟩
  next => cases member

namespace Together

variable {job : Job Simulation} {sent : List (Dispatch × LocalCluster)} {state : Writers}

theorem nil (fresh : job.node.creation = {}) (unrefused : job.node.services.faults.refusals = [])
    (configs : Nat → BulkConfig) :
    Together job [] [] (fun who => { config := configs who }, job) where
  created := ⟨unrefused, by simp, rfl, rfl, List.nodup_nil, nofun, by simp [fresh]⟩
  trusts _ := nofun
  targeted := nofun
  existed := nofun
  existing := nofun
  recorded _ _ := ⟨nofun, [], rfl, nofun⟩

/-- What one of several writers sends is on its way with it, or the cluster was asked it. -/
theorem recorded_step (together : Together job names sent state) (who : Nat) (duty : Duty)
    (creates : ∀ other, ((Duty.applyTo state (who, duty)).1 other).config.createsIndices = true)
    (other : Nat) :
    Recorded job.node.services.cluster.bulkRecords
      ((sent ++ Duty.sentBy state (who, duty)).map (·.1))
      ((Duty.applyTo state (who, duty)).1 other, (Duty.applyTo state (who, duty)).2) := by
  obtain ⟨writers, now⟩ := state
  have created (other : Nat) : (writers other).config.createsIndices = true := by
    have asked := creates other
    by_cases same : other = who
    · subst same
      simpa [Duty.applyTo, Duty.config_apply] using asked
    · simpa [Duty.applyTo, same] using asked
  have recorded := together.recorded created
  have stepped := (recorded who).duty duty
  have new : (Duty.sentBy (writers, now) (who, duty)).map (·.1) =
      BulkWriter.sent (writers who, now) (duty.apply Simulation.services (writers who, now)) := by
    simp [Duty.sentBy, created who, Function.comp_def]
  rw [List.map_append, new]
  by_cases same : other = who
  · subst same
    simpa [Duty.applyTo] using stepped
  · refine ⟨?_, stepped.asked⟩
    simpa [Duty.applyTo, same] using ((recorded other).mono (List.subset_append_left _ _)).way

theorem step (together : Together job names sent state) (duty : Nat × Duty) :
    ∃ names', Together job names' (sent ++ Duty.sentBy state duty) (Duty.applyTo state duty) := by
  obtain ⟨writers, now⟩ := state
  obtain ⟨who, duty⟩ := duty
  obtain ⟨names', advances⟩ :=
    Advances.duty (writers who, now) ⟨together.created, together.trusts who⟩ duty
  have grown {index : String} (found : now.node.services.cluster.indexExists index = true) :
      (duty.apply Simulation.services (writers who, now)).2.node.services.cluster.indexExists index =
        true := by
    simp only [together.created.stands, advances.prepares.created.stands, Bool.or_eq_true,
      List.contains_iff_mem] at found ⊢
    exact found.imp_right (advances.kept ·)
  refine ⟨names', advances.prepares.created, ?_, ?_, ?_, ?_, ?_⟩
  · intro other
    by_cases same : other = who
    · subst same
      simpa [Duty.applyTo] using advances.prepares.trusts
    · simp only [Duty.applyTo, Function.update_of_ne same]
      exact fun index member => grown (together.trusts other index member)
  · intro name member
    rw [List.map_append]
    rcases advances.created name member with old | ⟨asked, dispatch, there, rfl⟩
    · exact List.mem_append_left _ (together.targeted name old)
    · refine List.mem_append_right _ ?_
      simp only [Duty.sentBy, if_pos asked, List.map_map]
      exact List.mem_map.mpr ⟨dispatch, there, rfl⟩
  · intro request member
    rcases List.mem_append.mp member with old | new
    · exact together.existed request old
    · obtain ⟨asked, dispatch, there, rfl⟩ := Duty.sentBy_found new
      exact advances.found asked dispatch there
  · intro index member
    rw [List.map_append] at member
    rcases List.mem_append.mp member with old | new
    · exact grown (together.existing index old)
    · obtain ⟨request, there, rfl⟩ := List.mem_map.mp new
      obtain ⟨asked, dispatch, newest, rfl⟩ := Duty.sentBy_found there
      exact advances.found asked dispatch newest
  · exact together.recorded_step who duty

theorem history (fresh : job.node.creation = {}) (unrefused : job.node.services.faults.refusals = [])
    (configs : Nat → BulkConfig) (duties : List (Nat × Duty)) :
    ∃ names, Together job names (Duty.sentOver job configs duties) (Duty.run job configs duties) := by
  induction duties using List.reverseRecOn with
  | nil => exact ⟨[], .nil fresh unrefused configs⟩
  | append_singleton duties duty ih =>
    obtain ⟨names, together⟩ := ih
    obtain ⟨names', later⟩ := together.step duty
    refine ⟨names', ?_⟩
    unfold Duty.sentOver Duty.run at later ⊢
    rwa [observed_concat, List.foldl_append]

/-- The indices that were created are those that were missing and that requests were sent for. -/
theorem perm_missingTargets {configs : Nat → BulkConfig} {duties : List (Nat × Duty)}
    (together :
      Together job names (Duty.sentOver job configs duties) (Duty.run job configs duties)) :
    names.Perm (Duty.missingTargets job configs duties) := by
  refine (List.perm_ext_iff_of_nodup together.created.distinct ((List.nodup_dedup _).filter _)).mpr ?_
  intro index
  rw [List.mem_filter, List.mem_dedup]
  constructor
  · intro member
    exact ⟨together.targeted index member, by simp [together.created.missing index member]⟩
  · rintro ⟨target, missing⟩
    have found := together.existing index target
    rw [together.created.stands] at found
    simp_all

end Together

/-- However calls for indices and the answers to them follow each other, a single call creates an
index. Where a cluster refuses no index, writers that create indices send requests for no other index
than those that are there, each of which was created once at most. -/
theorem indices_created_once {job : Job Simulation} (fresh : job.node.creation = {})
    (events : List CreationEvent) (configs : Nat → BulkConfig) (duties : List (Nat × Duty)) :
    CreationEvent.SingleWinner job events ∧
      (job.node.services.faults.refusals = [] → CreatesMissing job configs duties) := by
  refine ⟨CreationEvent.singleWinner fresh events, fun unrefused => ?_⟩
  obtain ⟨names, together⟩ := Together.history fresh unrefused configs duties
  have targets := together.perm_missingTargets
  refine ⟨together.existed, fun index => ?_, ?_, ?_, fun creates => ?_⟩
  · rw [together.created.stands, targets.contains_eq]
  · rw [together.created.asked, targets.length_eq]
  · rw [together.created.counted, targets.length_eq]
  · have recorded := together.recorded (fun who => by rw [Duty.config_run, creates who]) 0
    obtain ⟨served, records, known⟩ := recorded.asked
    refine ⟨served, records, fun record member => ?_⟩
    obtain ⟨dispatch, sent, same⟩ := known record member
    obtain ⟨request, there, rfl⟩ := List.mem_map.mp sent
    exact ⟨request, there, same⟩

/-- The second of two calls succeeds after the first has failed, and two writers need one index. -/
theorem indices_created_once_shared :
    let refused : ExecutionError := .transport (.createRefused "t")
    let events : List CreationEvent :=
      [.call "t", .call "t", .answer "t" (.error refused), .answer "t" (.ok ()), .call "t"]
    let configs : Nat → BulkConfig := fun _ => ⟨1, 1, 100, true, {}⟩
    let add (id : String) : Duty := .call (.add ⟨⟨"t", 0⟩, "node-0"⟩ id none .delete none)
    let duties := [(0, add "a"), (1, add "b"), (0, add "c")]
    (Job.alone.node.creation = {} ∧ Job.alone.node.services.faults.refusals = []) ∧
      (CreationEvent.answers Job.alone events).length = 2 ∧
      (CreationEvent.run Job.alone events).2.node.metrics.indicesCreated = 1 ∧
      (Duty.sentOver Job.alone configs duties).length = 3 ∧
      (Duty.run Job.alone configs duties).2.node.services.cluster.createCalls = 1 := by
  intro refused events configs add duties
  have fresh : Job.alone.node.creation = {} := rfl
  have unrefused : Job.alone.node.services.faults.refusals = [] := rfl
  obtain ⟨winner, created⟩ := indices_created_once fresh events configs duties
  have creates := created unrefused
  have answered : (CreationEvent.answers Job.alone events).countP (·.succeeded) = 1 := by
    decide +kernel
  have targets : (Duty.missingTargets Job.alone configs duties).length = 1 := by decide +kernel
  refine ⟨⟨fresh, unrefused⟩, by decide +kernel, ?_, by decide +kernel, ?_⟩
  · rw [winner.counted, answered]
    rfl
  · rw [creates.asked, targets]
    rfl

end BulkWriter

end RowPipeline
