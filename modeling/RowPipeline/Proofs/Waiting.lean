import RowPipeline.Bulk.Writer

/-!
Writers that wait. Waiting is made of answers that come in and of time that passes, however long it
takes and whatever is waited for.
-/

namespace RowPipeline

variable {σ : Type}

private theorem IndexCreation.arrive_pursued {creation : IndexCreation} {index : String} {caller : Nat}
    (missing : index ∉ creation.created) :
    ∃ asking role, creation.arrive index caller = (asking, role) ∧ role ≠ .done ∧
      asking.created = creation.created := by
  have unknown : creation.created.contains index = false := by simpa using missing
  unfold arrive
  rw [unknown, if_neg Bool.false_ne_true]
  split
  · exact ⟨_, .waiter, rfl, nofun, rfl⟩
  · exact ⟨_, .winner, rfl, nofun, rfl⟩

/-- The outcome of a request; one that is not answered in time failed. -/
def BulkOutcome.ofAnswer (timeout : Nat) (dispatch : Dispatch)
    (answer : Option (Except ExecutionError (List ItemResult))) : BulkOutcome :=
  ⟨dispatch, answer.getD (.error (.transport (.timedOut dispatch.shard timeout)))⟩

namespace BulkWriter

variable {services : Services σ} {inv : State σ → Prop}

/-- A position on the way that can be the next to be answered. -/
def Answerable (services : Services σ) (state : State σ) (position : Nat) : Prop :=
  (∃ pause, nextArrival services pause state = some position) ∨ position = nextPosition services state

/-- What goes on holding of a writer while answers come in and time passes. -/
structure Arriving (services : Services σ) (inv : State σ → Prop) : Prop where
  arrive : ∀ state position, Answerable services state position → inv state →
    inv (arrive services position state)
  age : ∀ state, inv state → inv (age services state)

namespace Arriving

theorem settle (arriving : Arriving services inv) (pause : Pause) (fuel : Nat) {state : State σ}
    (holds : inv state) : inv (BulkWriter.settle services pause fuel state) := by
  induction fuel generalizing state with
  | zero => exact holds
  | succ fuel ih =>
    unfold BulkWriter.settle
    cases next : nextArrival services pause state with
    | none => exact holds
    | some position => exact ih (arriving.arrive state position (.inl ⟨pause, next⟩) holds)

theorem exchange (arriving : Arriving services inv) {state : State σ} (holds : inv state) :
    inv (BulkWriter.exchange services state) :=
  arriving.age _ (arriving.settle .exchange _ holds)

theorem await (arriving : Arriving services inv) {state : State σ} (holds : inv state) :
    inv (BulkWriter.await services state) := by
  unfold BulkWriter.await
  dsimp only
  split
  · exact arriving.settle .turn burst holds
  · have aged := arriving.age state holds
    exact arriving.settle .standstill _ (arriving.arrive _ _ (.inr rfl) aged)

theorem arriveAll (arriving : Arriving services inv) (fuel : Nat) {state : State σ}
    (holds : inv state) : inv (BulkWriter.arriveAll services fuel state) := by
  induction fuel generalizing state with
  | zero => exact holds
  | succ fuel ih =>
    unfold BulkWriter.arriveAll
    split
    · exact holds
    · exact ih (arriving.arrive _ _ (.inr rfl) holds)

theorem awaitAll (arriving : Arriving services inv) {state : State σ} (holds : inv state) :
    inv (BulkWriter.awaitAll services state) :=
  arriving.arriveAll _ (arriving.age _ (arriving.settle .turn _ holds))

end Arriving

/-- What goes on holding of a writer however long it waits for a slot. -/
structure Lasting (services : Services σ) (inv : State σ → Prop) : Prop
    extends Arriving services inv where
  withAdmission : ∀ writer job admission,
    inv (writer, job) → inv (writer, job.withAdmission admission)
  report : ∀ writer job event fields, inv (writer, job) → inv (writer, job.report event fields)

namespace Lasting

theorem awaitSlot (lasting : Lasting services inv) (node : NodeName) (fuel : Nat) {state : State σ}
    (holds : inv state) : inv (BulkWriter.awaitSlot services node fuel state) := by
  induction fuel generalizing state with
  | zero => exact lasting.withAdmission state.1 state.2 _ holds
  | succ fuel ih =>
    unfold BulkWriter.awaitSlot
    split
    · exact lasting.withAdmission state.1 state.2 _ holds
    · exact ih (lasting.await holds)

theorem acquire (lasting : Lasting services inv) (node : NodeName) {state : State σ}
    (holds : inv state) : inv (BulkWriter.acquire services node state) := by
  unfold BulkWriter.acquire
  dsimp only
  split
  · exact lasting.awaitSlot node _ holds
  · exact lasting.awaitSlot node _ (lasting.report state.1 state.2 _ _ holds)

end Lasting

/-! ### Waiting for everything -/

theorem reach_apply (services : Services σ) (transit : Transit) (job : Job σ) :
    ∃ state, reach services transit job = job.withServices state := by
  unfold reach
  split
  · exact ⟨job.node.services, rfl⟩
  · exact ⟨_, rfl⟩

/-- Time that passes changes nothing but the cluster, and leaves no request new. -/
theorem age_apply (services : Services σ) (writer : BulkWriter) (job : Job σ) :
    ∃ state, age services (writer, job) =
      ({ writer with inFlight := writer.inFlight.map ({ · with overdue := true }) },
        job.withServices state) := by
  have reached (transits : List Transit) (job : Job σ) :
      ∃ state, transits.foldl (fun job transit => reach services transit job) job =
        job.withServices state := by
    induction transits generalizing job with
    | nil => exact ⟨job.node.services, rfl⟩
    | cons transit rest ih =>
      obtain ⟨first, here⟩ := reach_apply services transit job
      obtain ⟨state, there⟩ := ih (job.withServices first)
      exact ⟨state, by rw [List.foldl_cons, here, there]; rfl⟩
  obtain ⟨state, same⟩ := reached writer.inFlight job
  exact ⟨state, congrArg (Prod.mk _) same⟩

theorem nextPosition_lt {state : State σ} (busy : state.1.inFlight ≠ []) :
    nextPosition services state < state.1.inFlight.length := by
  unfold nextPosition
  dsimp only
  split
  · assumption
  · exact List.length_pos_iff.mpr busy

theorem arrive_of_none {position : Nat} {writer : BulkWriter} {job : Job σ}
    (nothing : writer.inFlight[position]? = none) :
    arrive services position (writer, job) = (writer, job) := by
  simp only [arrive, nothing]

/-- A request that arrives is asked of the cluster as it is then, and frees its slot. -/
theorem arrive_answered {position : Nat} {transit : Transit} {writer : BulkWriter} {job : Job σ}
    {answer : Option (Except ExecutionError (List ItemResult))} {state : σ}
    (sent : writer.inFlight[position]? = some transit)
    (answered : services.bulk transit.dispatch.node writer.config.timeout
      (transit.dispatch.request writer.config.options) (reach services transit job).node.services =
        (answer, state)) :
    arrive services position (writer, job) =
      ({ writer with
          inFlight := writer.inFlight.eraseIdx position
          arrived := writer.arrived ++ [.ofAnswer writer.config.timeout transit.dispatch answer] },
        ((reach services transit job).withServices state).withLoads
          ((reach services transit job).node.loads.release transit.dispatch.node)) := by
  simp only [arrive, sent, deliver, answered]
  rfl

theorem length_arrive (position : Nat) (state : State σ) :
    (arrive services position state).1.inFlight.length = (state.1.inFlight.eraseIdx position).length := by
  obtain ⟨writer, job⟩ := state
  cases sent : writer.inFlight[position]? with
  | none =>
    have past : writer.inFlight.length ≤ position := List.getElem?_eq_none_iff.mp sent
    rw [arrive_of_none sent, List.eraseIdx_of_length_le past]
  | some transit => rw [arrive_answered sent rfl]

theorem arriveAll_inFlight (fuel : Nat) {state : State σ} (enough : state.1.inFlight.length ≤ fuel) :
    (arriveAll services fuel state).1.inFlight = [] := by
  induction fuel generalizing state with
  | zero => exact List.length_eq_zero_iff.mp (Nat.le_zero.mp enough)
  | succ fuel ih =>
    unfold arriveAll
    split
    next done => exact List.isEmpty_iff.mp done
    next busy =>
      have some : state.1.inFlight ≠ [] := fun none => busy (List.isEmpty_iff.mpr none)
      have here : nextPosition services state < _ := nextPosition_lt some
      refine ih ?_
      rw [length_arrive, List.length_eraseIdx_of_lt here]
      omega

theorem length_settle_le (pause : Pause) (fuel : Nat) (state : State σ) :
    (settle services pause fuel state).1.inFlight.length ≤ state.1.inFlight.length := by
  induction fuel generalizing state with
  | zero => exact Nat.le_refl _
  | succ fuel ih =>
    unfold settle
    split
    · exact Nat.le_refl _
    · refine Nat.le_trans (ih _) ?_
      rw [length_arrive, List.length_eraseIdx]
      split <;> omega

theorem awaitAll_inFlight (state : State σ) : (awaitAll services state).1.inFlight = [] := by
  refine arriveAll_inFlight _ ?_
  simp only [age, List.length_map]
  exact length_settle_le .turn _ state

/-! ### Indices -/

/-- An index is known to exist. -/
def ensure (index : String) : State σ → State σ
  | (writer, job) => ({ writer with ensured := index :: writer.ensured }, job)

def noteCreation (index : String) (creation : IndexCreation) : State σ → State σ
  | (writer, job) =>
    (writer,
      ((withCreation creation job).count fun metrics =>
        { metrics with indicesCreated := metrics.indicesCreated + 1 }).report .indexCreated
          [("index", index)])

/-- What can come of making sure that an index exists. -/
inductive Prepared (services : Services σ) (index : String) (writer : BulkWriter) (job : Job σ) :
    Except ExecutionError Unit × State σ → Prop
  /-- Nobody asks for it, or it was looked at before. -/
  | spared (known : writer.config.createsIndices = true → index ∈ writer.ensured) :
    Prepared services index writer job (.ok (), (writer, job))
  /-- It is there, or someone created it. -/
  | there (asked : writer.config.createsIndices = true)
      (found : services.indexExists job.node.services index = true ∨
        index ∈ job.node.creation.created) :
    Prepared services index writer job (.ok (), ensure index (writer, job))
  | refused (error : ExecutionError) (state : σ) (creation : IndexCreation)
      (asked : services.createIndex index job.node.services = (.error error, state)) :
    Prepared services index writer job
      (.error error, (writer, withCreation creation (job.withServices state)))
  | created (state : σ) (creation : IndexCreation) (asked : writer.config.createsIndices = true)
      (missing : services.indexExists job.node.services index = false)
      (unknown : index ∉ job.node.creation.created)
      (done : services.createIndex index job.node.services = (.ok (), state))
      (noted : creation.created = job.node.creation.created ++ [index]) :
    Prepared services index writer job
      (.ok (), ensure index
        (noteCreation index creation (exchange services (writer, job.withServices state))))

private theorem ensureIndex_prepared (index : String) (writer : BulkWriter) (job : Job σ)
    (asked : writer.config.createsIndices = true)
    (missing : services.indexExists job.node.services index = false) :
    Prepared services index writer job
      (match ensureIndex services index (writer, job) with
      | (.ok (), state) => (.ok (), ensure index state)
      | (.error error, state) => (.error error, state)) := by
  unfold ensureIndex
  dsimp only
  by_cases done : index ∈ job.node.creation.created
  · simp only [IndexCreation.arrive, List.contains_iff_mem.mpr done, if_true]
    exact .there asked (.inr done)
  obtain ⟨asking, role, arrival, role_ne, same⟩ := IndexCreation.arrive_pursued done
  have noted : (asking.succeed index).1.created = job.node.creation.created ++ [index] := by
    rw [IndexCreation.succeed, same]
  rw [arrival]
  rcases answer : services.createIndex index job.node.services with ⟨_ | _, state⟩
  · cases role with
    | done => exact absurd rfl role_ne
    | winner | waiter => exact .refused _ state _ answer
  · cases role with
    | done => exact absurd rfl role_ne
    | winner | waiter => exact .created state _ asked missing done answer noted

theorem prepareIndex_prepared (index : String) (writer : BulkWriter) (job : Job σ) :
    Prepared services index writer job (prepareIndex services index (writer, job)) := by
  unfold prepareIndex
  dsimp only
  by_cases known : (!writer.config.createsIndices || writer.ensured.contains index) = true
  · rw [if_pos known]
    exact .spared fun asked => by simpa [asked] using known
  rw [if_neg known]
  have asked : writer.config.createsIndices = true := by
    cases given : writer.config.createsIndices with
    | false => simp [given] at known
    | true => rfl
  cases found : services.indexExists job.node.services index with
  | true => exact .there asked (.inl found)
  | false =>
    have prepared := ensureIndex_prepared index writer job asked found
    rcases result : ensureIndex services index (writer, job) with ⟨_ | _, state⟩
    · simpa [result] using prepared
    · simpa [result, ensure] using prepared

end BulkWriter

end RowPipeline
