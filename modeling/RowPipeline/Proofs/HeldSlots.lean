import RowPipeline.Proofs.Slots
import RowPipeline.Proofs.WriterCalls

/-!
The slots of a writer among others. A request has a slot of its node as long as it is on its way,
whatever comes of it; a writer that finds none waits, for its own answers and then for the others.
-/

namespace RowPipeline

variable {σ : Type}

namespace Admission

variable {admission : Admission}

/-! ### Slots that some keep elsewhere -/

/-- The slots that those who wait can get and those who have permits give back, where some permits are
kept elsewhere. -/
structure Tracked (asked : NodeName → Nat → Prop) (base : List SlotChange) (elsewhere : List NodeName)
    (admission : Admission) : Prop where
  waiting : ∀ waiter ∈ admission.waiting, asked waiter.node waiter.limit
  counts : admission.loads.Counts (admission.holders ++ elsewhere)
  evolved : ∃ more, NodeLoads.Evolved asked (base ++ more) admission.loads

namespace Tracked

variable {asked : NodeName → Nat → Prop} {base : List SlotChange} {elsewhere rest : List NodeName}
variable {node : NodeName} {limit : Nat}

theorem start : Tracked asked [] [] {} :=
  ⟨nofun, fun _ => rfl, [], .nil⟩

theorem perm (tracked : Tracked asked base elsewhere admission) (same : elsewhere.Perm rest) :
    Tracked asked base rest admission :=
  ⟨tracked.waiting, tracked.counts.perm (same.append_left _), tracked.evolved⟩

theorem changed (tracked : Tracked asked base elsewhere admission) (change : SlotChange)
    (allowed : change.Allowed asked admission.loads) :
    ∃ more, NodeLoads.Evolved asked (base ++ more) (change.apply admission.loads) := by
  obtain ⟨more, evolved⟩ := tracked.evolved
  exact ⟨more ++ [change], by rw [← List.append_assoc]; exact evolved.concat allowed⟩

theorem taken (tracked : Tracked asked base elsewhere admission)
    (held : node ∈ admission.holders ++ elsewhere) : 0 < (admission.loads.load node).inFlight := by
  rw [tracked.counts node]
  exact List.count_pos_iff.mpr held

theorem release (tracked : Tracked asked base (node :: rest) admission) :
    Tracked asked base rest { admission with loads := admission.loads.release node } where
  waiting := tracked.waiting
  counts := NodeLoads.Counts.release (tracked.counts.perm List.perm_middle)
  evolved := tracked.changed (.release node) (tracked.taken (by simp))

theorem grant (tracked : Tracked asked base elsewhere admission) (asks : asked node limit)
    (room : (admission.loads.load node).inFlight < max limit 1) :
    Tracked asked base (node :: elsewhere) { admission with loads := admission.loads.grant node } where
  waiting := tracked.waiting
  counts := (tracked.counts.grant node).perm List.perm_middle.symm
  evolved := tracked.changed (.grant node limit) ⟨asks, room⟩

theorem happens {event : AdmissionEvent} {after : Admission}
    (tracked : Tracked asked base elsewhere admission) (happens : Happens admission event after)
    (asks : ∀ label node limit, event = .acquire label node limit → asked node limit) :
    Tracked asked base elsewhere after where
  waiting waiter waits := by
    have requested := happens.requests.subset (List.mem_map_of_mem waits)
    rcases List.mem_append.mp requested with before | now
    · obtain ⟨earlier, waited, same⟩ := List.mem_map.mp before
      obtain ⟨-, node, limit⟩ : earlier.label = waiter.label ∧ earlier.node = waiter.node ∧
          earlier.limit = waiter.limit := by simpa [Waiter.request] using same
      rw [← node, ← limit]
      exact tracked.waiting earlier waited
    · cases event with
      | acquire label node limit =>
        obtain ⟨-, rfl, rfl⟩ : waiter.label = label ∧ waiter.node = node ∧ waiter.limit = limit := by
          simpa [AdmissionEvent.request?, Waiter.request] using now
        exact asks label _ _ rfl
      | release | attempt => simp [AdmissionEvent.request?] at now
  counts := happens.counts elsewhere tracked.counts
  evolved := by
    cases happens with
    | arrival | giveUp | idle | inVain => exact tracked.evolved
    | return_ label node before after held =>
      exact tracked.changed (.release node) (tracked.taken (by simp [holders, held]))
    | granted position waiter waits awake room =>
      have asks := tracked.waiting waiter (List.mem_of_getElem? waits)
      exact tracked.changed (.grant waiter.node waiter.limit) ⟨asks, room⟩

theorem giveBack (tracked : Tracked asked base elsewhere admission) (held : node ∈ admission.holders) :
    Tracked asked base elsewhere (admission.giveBack node) where
  waiting waiter waits := by
    obtain ⟨earlier, waited, rfl⟩ := List.mem_map.mp waits
    have asks := tracked.waiting earlier waited
    unfold wake
    split <;> exact asks
  counts := by
    obtain ⟨permit, present, own⟩ := List.mem_map.mp held
    obtain ⟨first, before, after, -, own, all, left⟩ :=
      List.exists_of_eraseP (p := (·.2 == node)) present (beq_iff_eq.mpr own)
    obtain rfl : first.2 = node := beq_iff_eq.mp own
    refine NodeLoads.Counts.release (tracked.counts.perm ?_)
    simp only [holders, Admission.giveBack, left]
    rw [all, List.map_append, List.map_append, List.map_cons, List.append_assoc, List.append_assoc]
    exact List.perm_middle
  evolved := tracked.changed (.release node)
    (tracked.taken (List.mem_append_left _ held))

/-- Once enough others gave way, there is room. -/
theorem giveWay {fuel : Nat} (tracked : Tracked asked base [] admission)
    (enough : (admission.loads.load node).inFlight ≤ fuel) :
    Tracked asked base [] (admission.giveWay node limit fuel) ∧
      ((admission.giveWay node limit fuel).loads.load node).inFlight < max limit 1 := by
  induction fuel generalizing admission with
  | zero => exact ⟨tracked, Nat.lt_of_le_of_lt enough (Nat.lt_of_lt_of_le Nat.one_pos (Nat.le_max_right _ _))⟩
  | succ fuel ih =>
    unfold Admission.giveWay
    by_cases room : admission.loads.hasRoom node limit
    · rw [if_pos room]
      exact ⟨tracked, of_decide_eq_true room⟩
    · rw [if_neg room]
      have full : max limit 1 ≤ (admission.loads.load node).inFlight :=
        Nat.le_of_not_lt fun less => room (decide_eq_true less)
      have some : 0 < (admission.loads.load node).inFlight :=
        Nat.lt_of_lt_of_le Nat.one_pos (Nat.le_trans (Nat.le_max_right _ _) full)
      have held : node ∈ admission.holders := by
        rw [tracked.counts node, List.append_nil] at some
        exact List.count_pos_iff.mp some
      refine ih (tracked.giveBack held) ?_
      rw [Admission.giveBack, NodeLoads.load_release, if_pos rfl]
      exact Nat.sub_le_of_le_add enough

end Tracked

private theorem run_tracked {asked : NodeName → Nat → Prop} (log : Log) {events : List AdmissionEvent}
    (asks : ∀ label node limit, .acquire label node limit ∈ events → asked node limit) :
    Tracked asked [] [] (run ({}, log) events).1 := by
  induction events using List.reverseRecOn with
  | nil => exact .start
  | append_singleton events event ih =>
    rw [run_concat]
    refine (ih fun label node limit member =>
      asks label node limit (List.mem_append_left _ member)).happens (apply_happens _ event) ?_
    rintro label node limit rfl
    exact asks label node limit (List.mem_append_right _ List.mem_cons_self)

private theorem run_bounded (log : Log) {events : List AdmissionEvent} {node : NodeName} {limit : Nat}
    (common : ∀ label asked, .acquire label node asked ∈ events → asked = limit) :
    ((run ({}, log) events).1.loads.load node).inFlight ≤ max limit 1 := by
  have tracked := @run_tracked (fun other asking => other = node → asking = limit) log events
    (by rintro label _ asking member rfl; exact common label asking member)
  obtain ⟨_, evolved⟩ := tracked.evolved
  exact evolved.bounded fun _ asks => asks rfl

end Admission

namespace BulkWriter

variable {services : Services σ} {asked : NodeName → Nat → Prop} {base : List SlotChange}
variable {state : State σ}

/-- The nodes that requests are on their way to, each as often as there are. -/
def slots (writer : BulkWriter) : List NodeName := writer.inFlight.map (·.dispatch.node)

/-- A writer that asks for slots like the others and has one for each request on its way. -/
structure Admitted (asked : NodeName → Nat → Prop) (base : List SlotChange) (state : State σ) :
    Prop where
  asks : ∀ node, asked node state.1.config.requestsPerNode
  tracked : state.2.node.admission.Tracked asked base state.1.slots

private theorem length_await_le (state : State σ) :
    (await services state).1.inFlight.length ≤ state.1.inFlight.length - 1 := by
  unfold await
  dsimp only
  split
  next fewer => exact Nat.le_sub_one_of_lt fewer
  next =>
    refine Nat.le_trans (length_settle_le _ _ _) ?_
    rw [length_arrive]
    by_cases none : state.1.inFlight = []
    · simp [age, none]
    · have aged : (age services state).1.inFlight ≠ [] := by simpa [age] using none
      rw [List.length_eraseIdx_of_lt (nextPosition_lt aged)]
      simp [age]

namespace Admitted

theorem arriving : Arriving services (Admitted asked base) where
  arrive := by
    rintro ⟨writer, job⟩ position - admitted
    cases sent : writer.inFlight[position]? with
    | none => rwa [arrive_of_none sent]
    | some transit =>
      obtain ⟨before, after, all, left, _⟩ := eraseIdx_split sent
      obtain ⟨_, reached⟩ := reach_apply services transit job
      have own : writer.slots.Perm
          (transit.dispatch.node :: (writer.inFlight.eraseIdx position).map (·.dispatch.node)) := by
        rw [slots, left, all, List.map_append, List.map_append, List.map_cons]
        exact List.perm_middle
      rw [arrive_answered sent rfl, reached]
      exact ⟨admitted.asks, (admitted.tracked.perm own).release⟩
  age := by
    rintro ⟨writer, job⟩ admitted
    obtain ⟨_, aged⟩ := age_apply services writer job
    have same : (writer.inFlight.map ({ · with overdue := true })).map (·.dispatch.node) =
        writer.slots := by
      rw [List.map_map]
      rfl
    rw [aged]
    exact ⟨admitted.asks, admitted.tracked.perm (.of_eq same.symm)⟩

/-- Whoever waits for a slot gets one in the end, when there is room. -/
theorem awaitSlot (node : NodeName) (fuel : Nat) (admitted : Admitted asked base state)
    (enough : state.1.inFlight.length ≤ fuel) :
    let after := BulkWriter.awaitSlot services node fuel state
    (∀ node, asked node after.1.config.requestsPerNode) ∧
      after.2.node.admission.Tracked asked base (node :: after.1.slots) := by
  induction fuel generalizing state with
  | zero =>
    have none : state.1.inFlight = [] := List.length_eq_zero_iff.mp (Nat.le_zero.mp enough)
    have idle : state.1.slots = [] := by rw [slots, none, List.map_nil]
    have alone := admitted.tracked
    rw [idle] at alone
    obtain ⟨tracked, room⟩ := alone.giveWay (Nat.le_refl _)
    have granted := tracked.grant (admitted.asks node) room
    rw [← idle] at granted
    exact ⟨admitted.asks, granted⟩
  | succ fuel ih =>
    unfold BulkWriter.awaitSlot
    split
    next loads granted =>
      unfold NodeLoads.grant? at granted
      split at granted
      next room =>
        obtain rfl := Option.some.inj granted
        exact ⟨admitted.asks, admitted.tracked.grant (admitted.asks node) (of_decide_eq_true room)⟩
      next => cases granted
    next =>
      have fewer : (await services state).1.inFlight.length ≤ fuel :=
        Nat.le_trans (length_await_le state) (Nat.sub_le_of_le_add enough)
      exact ih (arriving.await admitted) fewer

theorem depart (dispatch : Dispatch) (admitted : Admitted asked base state) :
    Admitted asked base (BulkWriter.depart dispatch (acquire services dispatch.node state)) := by
  have granted : (∀ node, asked node (acquire services dispatch.node state).1.config.requestsPerNode) ∧
      (acquire services dispatch.node state).2.node.admission.Tracked asked base
        (dispatch.node :: (acquire services dispatch.node state).1.slots) := by
    unfold acquire
    dsimp only
    split
    · exact admitted.awaitSlot dispatch.node _ (Nat.le_refl _)
    · exact awaitSlot dispatch.node _ ⟨admitted.asks, admitted.tracked⟩ (Nat.le_refl _)
  refine ⟨granted.1, granted.2.perm ?_⟩
  simp only [slots, BulkWriter.depart, List.map_append, List.map_cons, List.map_nil]
  exact (List.perm_append_singleton _ _).symm

theorem merge (outcome : BulkOutcome) (admitted : Admitted asked base state) :
    Admitted asked base (BulkWriter.merge outcome state) := by
  obtain ⟨job', merged, counted⟩ := merge_apply outcome state.1 state.2
  rw [show BulkWriter.merge outcome state = _ from merged]
  exact ⟨admitted.asks, counted.admission.symm ▸ admitted.tracked⟩

theorem reap (admitted : Admitted asked base state) :
    Admitted asked base (BulkWriter.reap state) := by
  obtain ⟨job', reaped, counted⟩ := reap_apply state.1 state.2
  rw [show BulkWriter.reap state = _ from reaped]
  exact ⟨admitted.asks, counted.admission.symm ▸ admitted.tracked⟩

/-- However a writer sends its requests, nothing else takes a slot. -/
theorem keeping : Keeping services fun _ => Admitted (σ := σ) asked base where
  arriving _ := arriving
  take _ _ _ _ admitted := ⟨admitted.asks, admitted.tracked⟩
  there _ _ _ _ _ admitted := ⟨admitted.asks, admitted.tracked⟩
  create _ writer job cluster _ _ _ _ _ _ admitted := by
    have exchanged : Admitted asked base (exchange services (writer, job.withServices cluster)) :=
      Arriving.exchange arriving ⟨admitted.asks, admitted.tracked⟩
    exact ⟨exchanged.asks, exchanged.tracked⟩
  refuse dispatch writer job error cluster creation _ admitted :=
    merge ⟨dispatch, .error error⟩ ⟨admitted.asks, admitted.tracked⟩
  depart dispatch _ _ _ admitted := depart dispatch admitted
  reap _ admitted := admitted.reap

theorem call (call : Call) (admitted : Admitted asked base state) :
    Admitted asked base (call.apply services state) := by
  cases call with
  | add => exact keeping.add ⟨admitted.asks, admitted.tracked⟩
  | reject => exact ⟨admitted.asks, admitted.tracked⟩
  | pause => exact arriving.exchange admitted

end Admitted

/-! ### A writer among others -/

/-- What happens to slots that a writer shares with others. -/
inductive Shared where
  | call (call : Call)
  | elsewhere (event : AdmissionEvent)

namespace Shared

def apply (services : Services σ) : State σ → Shared → State σ
  | state, .call asked => asked.apply services state
  | (writer, job), .elsewhere event =>
    let (admission, log) := Admission.apply (job.node.admission, job.node.log) event
    (writer, { job with node := { job.node with admission := admission, log := log } })

theorem admitted (services : Services σ) (event : Shared)
    (asks : ∀ label node limit, event = .elsewhere (.acquire label node limit) → asked node limit)
    (admitted : Admitted asked base state) : Admitted asked base (apply services state event) := by
  cases event with
  | call call => exact admitted.call call
  | elsewhere event =>
    obtain ⟨writer, job⟩ := state
    have happens := Admission.apply_happens (job.node.admission, job.node.log) event
    refine ⟨admitted.asks, admitted.tracked.happens happens fun label node limit same => ?_⟩
    exact asks label node limit (congrArg elsewhere same)

private theorem run_admitted (services : Services σ) {events : List Shared}
    (asks : ∀ label node limit, .elsewhere (.acquire label node limit) ∈ events → asked node limit)
    (start : Admitted asked base state) :
    Admitted asked base (events.foldl (apply services) state) := by
  induction events generalizing state with
  | nil => exact start
  | cons event rest ih =>
    refine ih (fun label node limit member => asks label node limit (List.mem_cons_of_mem _ member)) ?_
    refine admitted services event ?_ start
    rintro label node limit rfl
    exact asks label node limit List.mem_cons_self

/-- The writer asks for slots of every node with one limit, the others with those that they name. -/
def Asked (config : BulkConfig) (shared : List Shared) (node : NodeName) (limit : Nat) : Prop :=
  limit = config.requestsPerNode ∨ ∃ label, .elsewhere (.acquire label node limit) ∈ shared

end Shared

/-- A writer that finishes has nothing on its way, so that only others have slots. -/
theorem Admitted.finish (services : Services σ) (admitted : Admitted asked base state) :
    (BulkWriter.finish services state).2.1.inFlight = [] ∧
      (BulkWriter.finish services state).2.2.node.admission.Tracked asked base [] := by
  obtain ⟨writer, job, finished, kept, _, none, _⟩ := keeping.finish admitted
  have idle : writer.slots = [] := by rw [slots, none, List.map_nil]
  rw [finished]
  exact ⟨none, idle ▸ kept.tracked⟩

end BulkWriter

/-- Slots are accounted for. Whatever events happen on the slots of nodes, those of a node that are
taken are as many as there are permits for it; no event adds a permit but a try that finds fewer taken
than was asked for, so that within a common limit there are never more; the most that were ever taken
are the greatest number at any time; and an event about one node leaves the others alone. A writer that
shares slots with others has one for each request on its way, and none once it finished, whatever the
cluster answers. Also within its calls a slot is taken only below the limit of who takes it, and the
most that were ever taken are the greatest number at any time, calls included. -/
theorem slots_accounted (log : Log) (events : List AdmissionEvent) (services : Services σ)
    (config : BulkConfig) (job : Job σ) (shared : List BulkWriter.Shared) :
    (let admission := (Admission.run ({}, log) events).1;
      (∀ node, (admission.loads.load node).inFlight = admission.holders.count node) ∧
      (∀ event,
        let after := (Admission.apply (Admission.run ({}, log) events) event).1
        (after.permits.Sublist admission.permits ∨
          ∃ waiter ∈ admission.waiting,
            .acquire waiter.label waiter.node waiter.limit ∈ events ∧
              after.permits = admission.permits ++ [(waiter.label, waiter.node)] ∧
              (admission.loads.load waiter.node).inFlight < max waiter.limit 1) ∧
        ∀ node, admission.nodeOf event ≠ some node →
          after.loads.load node = admission.loads.load node) ∧
      (∀ node limit, (∀ label asked, .acquire label node asked ∈ events → asked = limit) →
        (admission.loads.load node).inFlight ≤ max limit 1) ∧
      ∀ node, IsGreatest
        (amountsOver Admission.apply
          (fun state : Admission.Logged => (state.1.loads.load node).inFlight) ({}, log) events)
        (admission.loads.load node).highWater) ∧
    (let start : BulkWriter.State σ := ({ config := config }, job.withAdmission {})
      let state := shared.foldl (BulkWriter.Shared.apply services) start
      let finished := (BulkWriter.finish services state).2
      let asked := BulkWriter.Shared.Asked config shared
      let taken (node : NodeName) (loads : NodeLoads) := (loads.load node).inFlight;
      (∀ node, taken node state.2.node.loads =
        state.2.node.admission.holders.count node + state.1.slots.count node) ∧
      (∃ changes more,
        NodeLoads.Evolved asked changes state.2.node.loads ∧
        NodeLoads.Evolved asked (changes ++ more) finished.2.node.loads ∧
        ∀ node,
          IsGreatest (amountsOver SlotChange.apply (taken node) [] changes)
              (state.2.node.loads.load node).highWater ∧
            IsGreatest (amountsOver SlotChange.apply (taken node) [] (changes ++ more))
              (finished.2.node.loads.load node).highWater) ∧
      (∀ node limit, (∀ asking, asked node asking → asking = limit) →
        (state.2.node.loads.load node).highWater ≤ max limit 1 ∧
          (finished.2.node.loads.load node).highWater ≤ max limit 1) ∧
      finished.1.inFlight = [] ∧
      ∀ node, taken node finished.2.node.loads = finished.2.node.admission.holders.count node) := by
  constructor
  · intro admission
    have sound := Admission.run_sound log events
    refine ⟨sound.counts, fun event => ?_, fun node limit common => ?_, fun node => ?_⟩
    · have happens := Admission.apply_happens (Admission.run ({}, log) events) event
      refine ⟨happens.grants.imp_right ?_, fun node apart => happens.load_eq apart⟩
      rintro ⟨waiter, waits, granted, room⟩
      exact ⟨waiter, waits, sound.asked waits, granted, room⟩
    · exact Admission.run_bounded log common
    · exact Admission.isGreatest_highWater log events node
  · intro start state finished asked taken
    have new : BulkWriter.Admitted asked [] start := ⟨fun _ => .inl rfl, .start⟩
    have admitted : BulkWriter.Admitted asked [] state :=
      BulkWriter.Shared.run_admitted services (fun label _ _ member => .inr ⟨label, member⟩) new
    obtain ⟨changes, evolved⟩ := admitted.tracked.evolved
    have now : BulkWriter.Admitted asked changes state :=
      ⟨admitted.asks, admitted.tracked.waiting, admitted.tracked.counts, [], by simpa using evolved⟩
    obtain ⟨none, after⟩ := now.finish services
    obtain ⟨more, evolved'⟩ := after.evolved
    refine ⟨fun node => ?_, ⟨changes, more, evolved, evolved', fun node => ?_⟩, ?_, none, fun node => ?_⟩
    · exact (admitted.tracked.counts node).trans List.count_append
    · exact ⟨evolved.isGreatest node, evolved'.isGreatest node⟩
    · intro node limit common
      exact ⟨evolved.highWater_le common, evolved'.highWater_le common⟩
    · exact (after.counts node).trans (by rw [List.append_nil])

end RowPipeline
