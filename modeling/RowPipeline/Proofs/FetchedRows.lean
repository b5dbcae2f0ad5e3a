import Mathlib.Data.List.Perm.Basic
import RowPipeline.Proofs.DrivenStages
import RowPipeline.Proofs.FetchBatches
import RowPipeline.Proofs.Outcome
import RowPipeline.Proofs.Success

/-!
What a stage emits that fetches documents, and what it records of the rows that it passes over. Each
row comes to one of the two, and a row of a batch that asks for the document of an earlier one is
passed over.
-/

namespace RowPipeline

open Turn

variable {σ δ : Type}

/-- A receiver that wants every row and leaves alone what the stages in front of it work on. Of its
states, `gets` says which rows it was given. -/
structure Receiver.Patient (next : Receiver σ δ) (gets : List Row → δ → Prop) (holds : σ → Prop) :
    Prop where
  takeRow : ∀ rows row below (job : Job σ), gets rows below → holds job.node.services →
    ∃ below' job', next.takeRow row (below, job) = (.ok .more, (below', job')) ∧
      gets (rows ++ [row]) below' ∧ job'.failures = job.failures ∧ holds job'.node.services
  meanwhile : ∀ rows below (job : Job σ), gets rows below → holds job.node.services →
    ∃ below' job', next.meanwhile (below, job) = (below', job') ∧
      gets rows below' ∧ job'.failures = job.failures ∧ holds job'.node.services

/-- The collector at the end of a chain, as long as nothing was delivered. -/
theorem Terminal.patient (holds : σ → Prop) :
    (Terminal.receiver : Receiver σ Terminal).Patient
      (fun rows terminal => terminal = .collecting ⟨rows.reverse, none⟩) holds where
  takeRow := by
    rintro rows row _ job rfl held
    exact ⟨_, job, rfl, by simp, rfl, held⟩
  meanwhile := by
    rintro rows _ job rfl held
    exact ⟨_, job, rfl, rfl, rfl, held⟩

private theorem Job.failures_recordFailure (job : Job σ) (stage : StageKind) (message : String) :
    (job.recordFailure stage message).failures = job.failures ++ [⟨stage, message⟩] := by
  simp [recordFailure, failures]

namespace FetchStage

/-- What is recorded of a row that came to nothing. -/
def failure? : Except FetchFault Row → Option RowFailure
  | .ok _ => none
  | .error fault => some ⟨.fetch, fault.message⟩

def emitted (outcomes : List (Except FetchFault Row)) : List Row := outcomes.filterMap Except.toOption

def recorded (outcomes : List (Except FetchFault Row)) : List RowFailure :=
  outcomes.filterMap failure?

@[simp]
theorem emitted_append (first second : List (Except FetchFault Row)) :
    emitted (first ++ second) = emitted first ++ emitted second :=
  List.filterMap_append

@[simp]
theorem emitted_ok (row : Row) : emitted [.ok row] = [row] := rfl

@[simp]
theorem emitted_error (fault : FetchFault) : emitted [.error fault] = [] := rfl

@[simp]
theorem recorded_append (first second : List (Except FetchFault Row)) :
    recorded (first ++ second) = recorded first ++ recorded second :=
  List.filterMap_append

@[simp]
theorem recorded_ok (row : Row) : recorded [.ok row] = [] := rfl

@[simp]
theorem recorded_error (fault : FetchFault) : recorded [.error fault] = [⟨.fetch, fault.message⟩] := rfl

/-- The rows with the given outcomes were emitted or recorded by a stage that is otherwise as it is
told, and nothing else was. -/
structure Told (gets : List Row → δ → Prop) (holds : σ → Prop) (failures : List RowFailure)
    (stage : FetchStage) (outcomes : List (Except FetchFault Row))
    (state : (FetchStage × δ) × Job σ) : Prop where
  stage : ∃ share, state.1.1 = { stage with share := share }
  emitted : ∃ rows, gets rows state.1.2 ∧ rows.Perm (emitted outcomes)
  recorded : state.2.failures.Perm (failures ++ recorded outcomes)
  holds : holds state.2.node.services

variable {gets : List Row → δ → Prop} {holds : σ → Prop} {failures : List RowFailure}
variable {stage : FetchStage} {outcomes : List (Except FetchFault Row)} {below : δ} {job : Job σ}

namespace Told

theorem perm {state : (FetchStage × δ) × Job σ} {outcomes' : List (Except FetchFault Row)}
    (told : Told gets holds failures stage outcomes state) (same : outcomes.Perm outcomes') :
    Told gets holds failures stage outcomes' state where
  stage := told.stage
  emitted := by
    obtain ⟨rows, given, alike⟩ := told.emitted
    exact ⟨rows, given, alike.trans (same.filterMap _)⟩
  recorded := told.recorded.trans ((same.filterMap _).append_left _)
  holds := told.holds

/-- A change of the job that nothing here depends on. -/
theorem onJob {own : FetchStage} {job' : Job σ}
    (told : Told gets holds failures stage outcomes ((own, below), job))
    (same : job'.failures = job.failures) (held : holds job'.node.services) :
    Told gets holds failures stage outcomes ((own, below), job') :=
  ⟨told.stage, told.emitted, same ▸ told.recorded, held⟩

theorem record {own : FetchStage} (told : Told gets holds failures stage outcomes ((own, below), job))
    (fault : FetchFault) :
    Told gets holds failures stage (outcomes ++ [.error fault]) ((own, below), record fault job) where
  stage := told.stage
  emitted := by
    obtain ⟨rows, given, alike⟩ := told.emitted
    exact ⟨rows, given, by simpa using alike⟩
  recorded := by
    have recorded := told.recorded.append_right [⟨.fetch, fault.message⟩]
    simpa [FetchStage.record, Job.failures_recordFailure] using recorded
  holds := told.holds

theorem free {own : FetchStage} (told : Told gets holds failures stage outcomes ((own, below), job))
    (row : FetchRow) :
    Told gets holds failures stage outcomes
      (((free row (own, job)).1, below), (free row (own, job)).2) where
  stage := by
    obtain ⟨share, rfl⟩ := told.stage
    exact ⟨_, rfl⟩
  emitted := told.emitted
  recorded := told.recorded
  holds := told.holds

theorem emit {next : Receiver σ δ} (patient : next.Patient gets holds) {own : FetchStage}
    (told : Told gets holds failures stage outcomes ((own, below), job)) (row : Row) :
    ∃ below' job', next.takeRow row (below, job) = (.ok .more, (below', job')) ∧
      Told gets holds failures stage (outcomes ++ [.ok row]) ((own, below'), job') := by
  obtain ⟨rows, given, alike⟩ := told.emitted
  obtain ⟨below', job', took, given', same, held⟩ := patient.takeRow rows row below job given told.holds
  refine ⟨below', job', took, told.stage, ⟨rows ++ [row], given', ?_⟩, ?_, held⟩
  · simpa using alike.append_right [row]
  · simpa [same] using told.recorded

theorem meanwhile {next : Receiver σ δ} (patient : next.Patient gets holds) {own : FetchStage}
    (told : Told gets holds failures stage outcomes ((own, below), job)) :
    Told gets holds failures stage outcomes
      ((own, (next.meanwhile (below, job)).1), (next.meanwhile (below, job)).2) := by
  obtain ⟨rows, given, alike⟩ := told.emitted
  obtain ⟨below', job', went, given', same, held⟩ := patient.meanwhile rows below job given told.holds
  rw [went]
  exact ⟨told.stage, ⟨rows, given', alike⟩, same ▸ told.recorded, held⟩

theorem refuse {own : FetchStage} (told : Told gets holds failures stage outcomes ((own, below), job))
    (node : NodeName) (error : ExecutionError) (rows : List FetchRow) :
    Told gets holds failures stage
      (outcomes ++ rows.map fun row => .error (.request row.id node error))
      (((refuse node error rows (own, job)).1, below), (refuse node error rows (own, job)).2) := by
  induction rows generalizing outcomes own job with
  | nil => simpa [FetchStage.refuse] using told
  | cons row rest ih =>
    simpa [FetchStage.refuse] using ih ((told.record (.request row.id node error)).free row)

end Told

/-! ### Rows that are joined -/

section Joining

variable {next : Receiver σ δ} {archive : Archive} {earlier asked : List Nat}

/-- A row is joined with its cells, if an earlier row did not take them. -/
theorem joinRow_told (patient : next.Patient gets holds) {row : FetchRow} {joining : Joining}
    {state : (FetchStage × δ) × Job σ} (told : Told gets holds failures stage outcomes state)
    (answers : archive.failing.contains row.node = false) (wanted : row.id ∈ asked)
    (flowing : joining.flow = .more)
    (leaves : joining.response.Leaves archive stage.columns asked earlier) :
    Runs (joinRow next row.node row joining) (fun _ => False)
      (fun joining last => joining.flow = .more ∧
        joining.response.Leaves archive stage.columns asked (earlier ++ [row.id]) ∧
        Told gets holds failures stage
          (outcomes ++ [row.outcome archive stage.columns earlier]) last) state := by
  obtain ⟨⟨own, below⟩, job⟩ := state
  have told := told.free row
  refine Runs.aboveState_bind ?_
  generalize free row (own, job) = freed at told ⊢
  obtain ⟨own, job⟩ := freed
  obtain ⟨share, rfl⟩ : ∃ share, own = { stage with share := share } := told.stage
  have outcome := FetchRow.outcome_of_leaves archive stage.columns leaves wanted answers
  refine Runs.own_bind ?_
  dsimp only
  cases found : joining.response.get? row.id with
  | none =>
    rw [found] at outcome
    exact Runs.modifyJob_bind (Runs.pure ⟨flowing, leaves.missed found, outcome ▸ told.record _⟩)
  | some cells =>
    rw [found] at outcome
    have width : (cells.length != stage.columns.length) = false := by
      simp [leaves.length wanted found]
    obtain ⟨below', job', took, emitted⟩ := told.emit patient (row.cells ++ cells)
    simp only [width, flowing]
    have pushed : Turn.below (next.takeRow (row.cells ++ cells))
        (({ stage with share := share }, below), job) =
          (.ok .more, (({ stage with share := share }, below'), job')) := by
      simp only [Turn.below, took]
    refine Runs.of_eq (bind_of_ok pushed) ?_
    exact ⟨rfl, leaves.erase, outcome ▸ emitted⟩

private theorem joinRows_told (patient : next.Patient gets holds) {node : NodeName} {rows : List FetchRow}
    {joining : Joining} {state : (FetchStage × δ) × Job σ}
    (told : Told gets holds failures stage outcomes state)
    (answers : archive.failing.contains node = false)
    (wanted : ∀ row ∈ rows, row.node = node ∧ row.id ∈ asked) (flowing : joining.flow = .more)
    (leaves : joining.response.Leaves archive stage.columns asked earlier) :
    Runs (joinRows next node rows joining) (fun _ => False)
      (fun joining last => joining.flow = .more ∧
        Told gets holds failures stage
          (outcomes ++ FetchRow.outcomes archive stage.columns earlier rows) last) state := by
  induction rows generalizing outcomes earlier joining state with
  | nil => exact Runs.pure ⟨flowing, by simpa [FetchRow.outcomes] using told⟩
  | cons row rest ih =>
    obtain ⟨rfl, own⟩ := wanted row List.mem_cons_self
    refine (joinRow_told patient told answers own flowing leaves).bind ?_
    rintro joining last ⟨flowing, leaves, told⟩
    refine (ih told (fun row member => wanted row (.tail _ member)) flowing leaves).weaken ?_
    rintro joining last ⟨flowing, told⟩
    exact ⟨flowing, by simpa [FetchRow.outcomes] using told⟩

/-! ### Batches -/

variable {services : Services σ}

theorem Told.reportMissing {own : FetchStage}
    (told : Told gets holds failures stage outcomes ((own, below), job)) (missing : Nat)
    (node : NodeName) :
    Told gets holds failures stage outcomes ((own, below), reportMissing missing node job) := by
  unfold FetchStage.reportMissing
  split
  · exact told
  · exact told.onJob rfl told.holds

/-- The rows of a batch come to what they come to without the other batches. -/
theorem fetchBatch_told (patient : next.Patient gets holds)
    (fetches : services.FetchFrom archive holds) {batch : FetchBatch}
    (own : ∀ row ∈ batch.rows, row.node = batch.node) {state : (FetchStage × δ) × Job σ}
    (told : Told gets holds failures stage outcomes state) :
    Runs (fetchBatch services next batch .more) (fun _ => False)
      (fun flow last => flow = .more ∧
        Told gets holds failures stage (outcomes ++ batch.outcomes archive stage.columns) last)
      state := by
  obtain ⟨⟨stage', below⟩, job⟩ := state
  obtain ⟨share, rfl⟩ : ∃ share, stage' = { stage with share := share } := told.stage
  have answered := fetches.answers (batch.request stage.columns) _ told.holds
  have held := fetches.fetch (batch.request stage.columns) _ told.holds
  obtain ⟨after, served⟩ : ∃ after, services.fetch (batch.request stage.columns) job.node.services =
      (archive.answer (batch.request stage.columns), after) := ⟨_, Prod.ext answered rfl⟩
  rw [served] at held
  have told : Told gets holds failures stage outcomes (({ stage with share := share }, below),
      (job.withServices after).count fun metrics =>
        { metrics with fetchRequests := metrics.fetchRequests + 1 }) := told.onJob rfl held
  refine Runs.own_bind (Runs.job_bind ?_)
  cases fails : archive.failing.contains batch.node with
  | true =>
    have refused : archive.answer (batch.request stage.columns) =
        .error (.transport (.nodeUnavailable batch.node)) := if_pos fails
    simp only [served, refused]
    refine Runs.modifyJob_bind (Runs.aboveState_bind ?_)
    rw [FetchBatch.outcomes, FetchRow.outcomes_of_failing archive stage.columns fails own]
    exact ⟨rfl, told.refuse batch.node _ batch.rows⟩
  | false =>
    obtain ⟨response, answered, leaves⟩ :=
      @FetchResponse.Leaves.of_answer archive (batch.request stage.columns) fails
    have wanted : ∀ row ∈ batch.rows, row.node = batch.node ∧ row.id ∈ batch.rows.map FetchRow.id :=
      fun row member => ⟨own row member, List.mem_map_of_mem member⟩
    simp only [served, answered]
    refine Runs.modifyJob_bind ((joinRows_told patient told fails wanted rfl leaves).bind ?_)
    rintro joining ⟨⟨stage', below'⟩, job'⟩ ⟨flowing, told⟩
    exact Runs.modifyJob_bind (Runs.pure ⟨flowing, told.reportMissing _ _⟩)

theorem nextBatch_lt (services : Services σ) {batches : List FetchBatch} (some_ : batches ≠ [])
    (own : FetchStage) (job : Job σ) : nextBatch services own batches job < batches.length := by
  have := List.length_pos_iff.mpr some_
  unfold nextBatch
  dsimp only
  split <;> assumption

private theorem fetchAll_told (patient : next.Patient gets holds)
    (fetches : services.FetchFrom archive holds) {fuel : Nat} {batches : List FetchBatch}
    (enough : batches.length = fuel)
    (own : ∀ batch ∈ batches, ∀ row ∈ batch.rows, row.node = batch.node)
    {state : (FetchStage × δ) × Job σ} (told : Told gets holds failures stage outcomes state) :
    Runs (fetchAll services next fuel batches .more) (fun _ => False)
      (fun flow last => flow = .more ∧
        Told gets holds failures stage
          (outcomes ++ batches.flatMap (·.outcomes archive stage.columns)) last) state := by
  induction fuel generalizing batches outcomes state with
  | zero =>
    obtain rfl := List.eq_nil_of_length_eq_zero enough
    exact Runs.pure ⟨rfl, by simpa using told⟩
  | succ fuel ih =>
    refine Runs.own_bind (Runs.job_bind ?_)
    have place := nextBatch_lt services (List.ne_nil_of_length_eq_add_one enough) state.1.1 state.2
    dsimp only
    rw [List.getElem?_eq_getElem place]
    generalize nextBatch services state.1.1 batches state.2 = position at place ⊢
    refine (fetchBatch_told patient fetches (own _ (List.getElem_mem place)) told).bind ?_
    rintro _ last ⟨rfl, told⟩
    have shorter : (batches.eraseIdx position).length = fuel := by
      rw [List.length_eraseIdx_of_lt place, enough]
      rfl
    refine (ih shorter (fun batch member => own batch (List.mem_of_mem_eraseIdx member)) told).weaken ?_
    rintro flow last ⟨flowing, told⟩
    refine ⟨flowing, told.perm ?_⟩
    rw [List.append_assoc]
    exact ((List.getElem_cons_eraseIdx_perm place).flatMap_right _).append_left outcomes

private theorem holds_accept (fetches : services.FetchFrom archive holds) (batches : List FetchBatch)
    {state : σ} (held : holds state) :
    holds (batches.foldl (fun state batch => services.accept batch.node state) state) := by
  induction batches generalizing state with
  | nil => exact held
  | cons batch rest ih => exact ih (fetches.accept batch.node state held)

theorem flush_told (patient : next.Patient gets holds) (fetches : services.FetchFrom archive holds)
    {waiting : List FetchRow}
    (alike : ∀ row ∈ waiting, ∀ other ∈ waiting, row.id = other.id → row.node = other.node)
    {state : (FetchStage × δ) × Job σ}
    (told : Told gets holds failures { stage with newest := waiting.reverse } outcomes state) :
    Runs (flush services next) (fun _ => False)
      (fun flow last => flow = .more ∧
        Told gets holds failures { stage with newest := [] }
          (outcomes ++ FetchRow.outcomes archive stage.columns [] waiting) last) state := by
  obtain ⟨⟨own, below⟩, job⟩ := state
  obtain ⟨share, rfl⟩ : ∃ share, own = { stage with share := share, newest := waiting.reverse } :=
    told.stage
  have batched := FetchBatch.outcomes_ofRows archive stage.columns alike
  have told : Told gets holds failures { stage with newest := [] } outcomes
      (({ stage with share := share, newest := [] }, below),
        accept services (FetchBatch.ofRows waiting) job) :=
    ⟨⟨share, rfl⟩, told.emitted, told.recorded, holds_accept fetches _ told.holds⟩
  refine Runs.own_bind (Runs.setOwn_bind (Runs.modifyJob_bind ?_))
  simp only [List.reverse_reverse]
  generalize accept services _ job = job at told ⊢
  have fetched : ∀ state : (FetchStage × δ) × Job σ,
      Told gets holds failures { stage with newest := [] } outcomes state →
      Runs (fetchAll services next (FetchBatch.ofRows waiting).length (FetchBatch.ofRows waiting) .more)
        (fun _ => False)
        (fun flow last => flow = .more ∧ Told gets holds failures { stage with newest := [] }
          (outcomes ++ FetchRow.outcomes archive stage.columns [] waiting) last) state := by
    intro state told
    refine (fetchAll_told patient fetches rfl FetchBatch.node_of_mem_ofRows told).weaken ?_
    rintro flow last ⟨flowing, told⟩
    exact ⟨flowing, told.perm (batched.append_left _)⟩
  split
  · exact fetched _ (told.meanwhile patient)
  · exact fetched _ told

end Joining

/-! ### What becomes of rows -/

section Rows

variable (stage : FetchStage) (archive : Archive)

/-- What the fetch id of a row leads to: nothing if it cannot be read, or else a row that waits or
the reason why it does not. -/
def triage (row : Row) : Option (Except FetchFault FetchRow) :=
  match stage.readId row with
  | .error _ => none
  | .ok none => some (.error .noId)
  | .ok (some id) =>
    match stage.nodeOf (FetchId.reader id) with
    | none => some (.error (.unknownReader (FetchId.reader id) id))
    | some node => some (.ok ⟨node, id, row⟩)

/-- The rows that documents are fetched for. -/
def asking (rows : List Row) : List FetchRow :=
  rows.filterMap fun row =>
    match stage.triage row with
    | some (.ok waiting) => some waiting
    | _ => none

/-- The rows of which it is known from their fetch ids that there is no document for them. -/
def turnedAway (rows : List Row) : List (Except FetchFault Row) :=
  rows.filterMap fun row =>
    match stage.triage row with
    | some (.error fault) => some (.error fault)
    | _ => none

/-- What rows come to that are given to a stage. -/
def results (rows : List Row) : List (Except FetchFault Row) :=
  stage.turnedAway rows ++
    (FetchRow.rounds stage.size (stage.asking rows)).flatMap
      (FetchRow.outcomes archive stage.columns [])

/-- What a row would come to that is given to a stage alone. -/
def resultAlone (row : Row) : Option (Except FetchFault Row) :=
  (stage.triage row).map fun led => led >>= FetchRow.outcome archive stage.columns []

/-- What a stage answers to a row. -/
def answer (row : Row) : Except ExecutionError Flow :=
  match stage.readId row with
  | .error fault => .error (.evaluation fault)
  | .ok _ => .ok .more

variable {stage} in
private theorem node_of_asking {rows : List Row} {row : FetchRow} (member : row ∈ stage.asking rows) :
    stage.nodeOf (FetchId.reader row.id) = some row.node := by
  obtain ⟨cells, -, led⟩ := List.mem_filterMap.mp member
  split at led
  next waiting triaged =>
    cases led
    unfold triage at triaged
    split at triaged
    · cases triaged
    · cases triaged
    · split at triaged
      · cases triaged
      next found =>
        cases triaged
        exact found
  next => cases led

variable {stage} in
private theorem alike_of_asking {rows : List Row} {waiting : List FetchRow}
    (asking : ∀ row ∈ waiting, row ∈ stage.asking rows) :
    ∀ row ∈ waiting, ∀ other ∈ waiting, row.id = other.id → row.node = other.node := by
  intro row member other member' same
  have node := node_of_asking (asking row member)
  rw [same] at node
  exact Option.some.inj (node.symm.trans (node_of_asking (asking other member')))

/-- If no two rows of a round ask for the same document, every row comes to what it would come to
alone. -/
theorem results_perm {rows : List Row} (wait : 0 < stage.size)
    (distinct : ∀ round ∈ FetchRow.rounds stage.size (stage.asking rows),
      (round.map FetchRow.id).Nodup) :
    (stage.results archive rows).Perm (rows.filterMap (stage.resultAlone archive)) := by
  have apart : (FetchRow.rounds stage.size (stage.asking rows)).flatMap
      (FetchRow.outcomes archive stage.columns []) =
        (stage.asking rows).map (FetchRow.outcome archive stage.columns []) := by
    conv_rhs => rw [← FetchRow.flatten_rounds wait (stage.asking rows), List.map_flatten]
    rw [List.flatMap_def]
    exact congrArg List.flatten (List.map_congr_left fun round member =>
      FetchRow.outcomes_of_nodup archive stage.columns (distinct round member))
  rw [results, apart]
  clear distinct apart
  induction rows with
  | nil => rfl
  | cons row rest ih =>
    cases led : stage.triage row with
    | none => simpa [turnedAway, asking, resultAlone, led] using ih
    | some led' =>
      cases led' with
      | error fault => simpa [turnedAway, asking, resultAlone, led, bind, Except.bind] using ih
      | ok waiting =>
        have later := List.perm_middle.trans
          (ih.cons (FetchRow.outcome archive stage.columns [] waiting))
        simpa [turnedAway, asking, resultAlone, led, bind, Except.bind] using later

private theorem isSome_triage (row : Row) :
    (stage.triage row).isSome = (stage.readId row).toOption.isSome := by
  unfold triage
  rcases stage.readId row with _ | _ | id
  · rfl
  · rfl
  · dsimp only
    cases stage.nodeOf (FetchId.reader id) <;> rfl

private theorem length_results (wait : 0 < stage.size) (rows : List Row) :
    (stage.results archive rows).length =
      rows.countP fun row => (stage.readId row).toOption.isSome := by
  have fetched : ((FetchRow.rounds stage.size (stage.asking rows)).flatMap
      (FetchRow.outcomes archive stage.columns [])).length = (stage.asking rows).length := by
    conv_rhs => rw [← FetchRow.flatten_rounds wait (stage.asking rows)]
    simp only [List.length_flatMap, List.length_flatten, FetchRow.length_outcomes]
  rw [results, List.length_append, fetched]
  clear fetched
  induction rows with
  | nil => rfl
  | cons row rest ih =>
    rw [List.countP_cons, ← ih, ← isSome_triage]
    rcases led : stage.triage row with _ | _ | waiting <;> simp [turnedAway, asking, led] <;> omega

end Rows

/-! ### Rows that are taken -/

section Taking

variable {services : Services σ} {next : Receiver σ δ} {archive : Archive}

/-- A stage was given rows: it fetched for those in full rounds and lets the others wait. -/
structure Fed (gets : List Row → δ → Prop) (holds : σ → Prop) (failures : List RowFailure)
    (archive : Archive) (stage : FetchStage) (rows : List Row) (full : List (List FetchRow))
    (waiting : List FetchRow) (state : (FetchStage × δ) × Job σ) : Prop where
  asking : stage.asking rows = full.flatten ++ waiting
  rounds : ∀ round ∈ full, round.length = stage.size
  short : waiting.length < stage.size
  told : Told gets holds failures { stage with newest := waiting.reverse }
    (stage.turnedAway rows ++ full.flatMap (FetchRow.outcomes archive stage.columns [])) state

variable {rows : List Row} {full : List (List FetchRow)} {waiting : List FetchRow}

private theorem keep_told {own : FetchStage} (row : FetchRow)
    (told : Told gets holds failures { stage with newest := waiting.reverse } outcomes
      ((own, below), job)) :
    Runs (above (keep row)) ExecutionError.IsRefusal
      (fun _ last => Told gets holds failures { stage with newest := (waiting ++ [row]).reverse }
        outcomes last) ((own, below), job) := by
  obtain ⟨share, rfl⟩ : ∃ share, own = { stage with share := share, newest := waiting.reverse } :=
    told.stage
  have kept : Runs (keep row) ExecutionError.IsRefusal
      (fun _ last => ∃ share memory, last =
        ({ stage with share := share, newest := (waiting ++ [row]).reverse },
          { job with memory := memory }))
      ({ stage with share := share, newest := waiting.reverse }, job) := by
    refine Runs.own_bind ((Runs.charge_memory fun _ refused => refused).bind ?_)
    rintro share last ⟨memory, rfl⟩
    exact ⟨share, memory, by simp⟩
  refine (kept.above below).weaken ?_
  rintro _ ⟨⟨own, below'⟩, job'⟩ ⟨same, share, memory, kept⟩
  obtain rfl : below' = below := same
  obtain ⟨rfl, rfl⟩ := Prod.mk.inj kept
  exact ⟨⟨share, rfl⟩, told.emitted, told.recorded, told.holds⟩

namespace Fed

private theorem skip {state : (FetchStage × δ) × Job σ} {row : Row}
    (fed : Fed gets holds failures archive stage rows full waiting state)
    (unread : stage.triage row = none) :
    Fed gets holds failures archive stage (rows ++ [row]) full waiting state where
  asking := by simpa [FetchStage.asking, unread] using fed.asking
  rounds := fed.rounds
  short := fed.short
  told := by simpa [turnedAway, unread] using fed.told

theorem turnAway {own : FetchStage} {row : Row} {fault : FetchFault}
    (fed : Fed gets holds failures archive stage rows full waiting ((own, below), job))
    (away : stage.triage row = some (.error fault)) :
    Fed gets holds failures archive stage (rows ++ [row]) full waiting
      ((own, below), record fault job) where
  asking := by simpa [FetchStage.asking, away] using fed.asking
  rounds := fed.rounds
  short := fed.short
  told := by
    refine (fed.told.record fault).perm ?_
    have last : stage.turnedAway (rows ++ [row]) = stage.turnedAway rows ++ [.error fault] := by
      simp [turnedAway, away]
    rw [last, List.append_assoc, List.append_assoc]
    exact List.perm_append_comm.append_left _

/-- A row that waits is fetched for as soon as a round is full. -/
theorem wait (patient : next.Patient gets holds) (fetches : services.FetchFrom archive holds)
    {own : FetchStage} {row : Row} {asked : FetchRow}
    (fed : Fed gets holds failures archive stage rows full waiting ((own, below), job))
    (waits : stage.triage row = some (.ok asked)) :
    Runs (do
        Turn.above (keep asked)
        let (own, _) ← Turn.own
        if own.size ≤ own.newest.length then flush services next else return .more)
      ExecutionError.IsRefusal
      (fun flow last => flow = .more ∧ ∃ full waiting,
        Fed gets holds failures archive stage (rows ++ [row]) full waiting last)
      ((own, below), job) := by
  have asking : stage.asking (rows ++ [row]) = full.flatten ++ (waiting ++ [asked]) := by
    rw [← List.append_assoc, ← fed.asking]
    simp [FetchStage.asking, waits]
  have away : stage.turnedAway (rows ++ [row]) = stage.turnedAway rows := by
    simp [turnedAway, waits]
  refine (keep_told asked fed.told).bind ?_
  rintro _ ⟨⟨own, below⟩, job⟩ told
  obtain ⟨share, rfl⟩ : ∃ share,
    own = { stage with share := share, newest := (waiting ++ [asked]).reverse } := told.stage
  refine Runs.own_bind ?_
  dsimp only
  rw [List.length_reverse]
  have short := fed.short
  split
  next enough =>
    have alike := alike_of_asking fun asked member =>
      (asking ▸ List.mem_append_right _ member : asked ∈ stage.asking (rows ++ [row]))
    refine ((flush_told patient fetches alike told).excuse fun _ => False.elim).weaken ?_
    rintro flow last ⟨flowing, told⟩
    refine ⟨flowing, full ++ [waiting ++ [asked]], [], by simpa using asking, ?_, ?_, ?_⟩
    · intro round member
      rcases List.mem_append.mp member with earlier | latest
      · exact fed.rounds round earlier
      · obtain rfl := List.mem_singleton.mp latest
        rw [List.length_append, List.length_singleton] at enough ⊢
        omega
    · exact Nat.zero_lt_of_lt short
    · simpa [away] using told
  next few =>
    refine ⟨rfl, full, waiting ++ [asked], asking, fed.rounds, Nat.lt_of_not_le few, ?_⟩
    simpa [away] using told

end Fed

/-- What a stage does with a row, unless memory is refused. -/
theorem takeRow_fed (patient : next.Patient gets holds) (fetches : services.FetchFrom archive holds)
    {state : (FetchStage × δ) × Job σ}
    (fed : Fed gets holds failures archive stage rows full waiting state) (row : Row)
    (granted : MemoryGranted (takeRow services next row state).1) :
    (takeRow services next row state).1 = stage.answer row ∧
      ∃ full waiting, Fed gets holds failures archive stage (rows ++ [row]) full waiting
        (takeRow services next row state).2 := by
  obtain ⟨⟨own, below⟩, job⟩ := state
  obtain ⟨share, rfl⟩ : ∃ share, own = { stage with share := share, newest := waiting.reverse } :=
    fed.told.stage
  have looked : FetchStage.readId { stage with share := share, newest := waiting.reverse } row =
    stage.readId row := rfl
  have lookedUp : ∀ reader,
      FetchStage.nodeOf { stage with share := share, newest := waiting.reverse } reader =
        stage.nodeOf reader := fun _ => rfl
  unfold takeRow at granted ⊢
  simp only [Turn.own_bind, looked, lookedUp] at granted ⊢
  cases read : stage.readId row with
  | error fault =>
    exact ⟨by rw [answer, read]; rfl, full, waiting, fed.skip (by simp only [triage, read])⟩
  | ok id =>
  rw [answer, read]
  rw [read, evaluated_ok, pure_bind] at granted
  rw [evaluated_ok, pure_bind]
  cases id with
  | none => exact ⟨rfl, full, waiting, fed.turnAway (by simp only [triage, read])⟩
  | some id =>
  cases place : stage.nodeOf (FetchId.reader id) with
  | none =>
    have away : stage.triage row = some (.error (.unknownReader (FetchId.reader id) id)) := by
      simp only [triage, read, place]
    simp only [place]
    exact ⟨rfl, full, waiting, fed.turnAway away⟩
  | some node =>
    have waits : stage.triage row = some (.ok ⟨node, id, row⟩) := by
      simp only [triage, read, place]
    simp only [place] at granted ⊢
    obtain ⟨flow, last, run, flowing, further⟩ := (fed.wait patient fetches waits).granted granted
    rw [run]
    exact ⟨congrArg Except.ok flowing, further⟩

theorem Fed.results {state : (FetchStage × δ) × Job σ}
    (fed : Fed gets holds failures archive stage rows full waiting state) :
    stage.results archive rows = stage.turnedAway rows ++
      full.flatMap (FetchRow.outcomes archive stage.columns []) ++
        FetchRow.outcomes archive stage.columns [] waiting := by
  have last : (FetchRow.rounds stage.size waiting).flatMap
      (FetchRow.outcomes archive stage.columns []) =
        FetchRow.outcomes archive stage.columns [] waiting := by
    cases waiting with
    | nil => rw [FetchRow.rounds, if_pos (.inr rfl)]; rfl
    | cons row rest => simp [FetchRow.rounds_of_short (List.cons_ne_nil row rest) fed.short]
  rw [FetchStage.results, fed.asking,
    FetchRow.rounds_append (Nat.zero_lt_of_lt fed.short) fed.rounds, List.flatMap_append, last,
    List.append_assoc]

theorem finish_fed (patient : next.Patient gets holds) (fetches : services.FetchFrom archive holds)
    {state : (FetchStage × δ) × Job σ}
    (fed : Fed gets holds failures archive stage rows full waiting state) :
    ∃ last, finish services next state = (Turn.below next.finish) last ∧
      Told gets holds failures { stage with newest := [] } (stage.results archive rows) last := by
  have alike := alike_of_asking fun asked member =>
    (fed.asking ▸ List.mem_append_right _ member : asked ∈ stage.asking rows)
  obtain ⟨flow, last, run, -, told⟩ := (flush_told patient fetches alike fed.told).value
  exact ⟨last, bind_of_ok run, fed.results ▸ told⟩

end Taking

end FetchStage

/-! ### Stages that are driven -/

namespace Stage

variable {services : Services σ} {next : Receiver σ δ} {archive : Archive}
variable {gets : List Row → δ → Prop} {holds : σ → Prop} {failures : List RowFailure}

/-- A stage that fetches was given rows, and takes more. -/
structure Fetching (gets : List Row → δ → Prop) (holds : σ → Prop) (failures : List RowFailure)
    (archive : Archive) (fetching : FetchStage) (rows : List Row) (state : (Stage × δ) × Job σ) :
    Prop where
  unended : state.1.1.phase.isTerminal = false
  fed : ∃ own full waiting, state.1.1.body = .fetch own ∧
    FetchStage.Fed gets holds failures archive fetching rows full waiting
      ((own, state.1.2), state.2)

variable {fetching : FetchStage} {rows : List Row} {state : (Stage × δ) × Job σ}

private theorem takeRow_fetching (patient : next.Patient gets holds)
    (fetches : services.FetchFrom archive holds)
    (taking : Fetching gets holds failures archive fetching rows state) (row : Row)
    (granted : MemoryGranted (takeRow services next row state).1) :
    (takeRow services next row state).1 = fetching.answer row ∧
      Fetching gets holds failures archive fetching (rows ++ [row])
        (takeRow services next row state).2 := by
  obtain ⟨⟨⟨kind, _, phase⟩, below⟩, job⟩ := state
  obtain ⟨unended, own, full, waiting, rfl, fed⟩ := taking
  have taken : takeRow services next row ((⟨kind, .fetch own, phase⟩, below), job) =
      Turn.within (fun own => ⟨kind, .fetch own, .running⟩) own
        (FetchStage.takeRow services next row) ((⟨kind, .fetch own, phase⟩, below), job) :=
    takeRow_apply services next row _ below job unended
  rw [taken] at granted ⊢
  obtain ⟨answered, full, waiting, fed⟩ :=
    FetchStage.takeRow_fed patient fetches fed row granted
  exact ⟨answered, rfl, _, full, waiting, rfl, fed⟩

/-- A stage that fetches takes all rows that it can read, unless memory is refused. -/
theorem drive_fetching (patient : next.Patient gets holds)
    (fetches : services.FetchFrom archive holds) {visits : List Visit}
    (taking : Fetching gets holds failures archive fetching rows state)
    (granted : ∀ answer ∈ (drive services next visits state).1, MemoryGranted answer) :
    (drive services next visits state).1 = (Visit.rows visits).map fetching.answer ∧
      Fetching gets holds failures archive fetching (rows ++ Visit.rows visits)
        (drive services next visits state).2 := by
  induction visits generalizing rows state with
  | nil => exact ⟨rfl, by simpa [Visit.rows, drive] using taking⟩
  | cons visit rest ih =>
    cases visit with
    | row row =>
      obtain ⟨answered, further⟩ := takeRow_fetching patient fetches taking row
        (granted _ List.mem_cons_self)
      obtain ⟨answers, last⟩ := ih further fun answer member => granted answer (.tail _ member)
      refine ⟨congr (congrArg List.cons answered) answers, ?_⟩
      rw [List.append_assoc] at last
      exact last
    | pause =>
      obtain ⟨⟨⟨kind, _, phase⟩, below⟩, job⟩ := state
      obtain ⟨unended, own, full, waiting, rfl, fed⟩ := taking
      exact ih ⟨unended, own, full, waiting, rfl, fed⟩ granted

private theorem finish_fetching (patient : next.Patient gets holds)
    (fetches : services.FetchFrom archive holds)
    (taking : Fetching gets holds failures archive fetching rows state) :
    ∃ last own, finish services next state = (Turn.below next.finish) last ∧
      FetchStage.Told gets holds failures { fetching with newest := [] }
        (fetching.results archive rows) ((own, last.1.2), last.2) := by
  obtain ⟨⟨⟨kind, _, phase⟩, below⟩, job⟩ := state
  obtain ⟨unended, own, full, waiting, rfl, fed⟩ := taking
  obtain ⟨⟨⟨own', below'⟩, job'⟩, run, told⟩ := FetchStage.finish_fed patient fetches fed
  refine ⟨((⟨kind, .fetch own', .completed⟩, below'), job'), own', ?_, told⟩
  have ended : finish services next ((⟨kind, .fetch own, phase⟩, below), job) =
      Turn.within (fun own => ⟨kind, .fetch own, .completed⟩) own
        (FetchStage.finish services next) ((⟨kind, .fetch own, phase⟩, below), job) :=
    finish_apply services next _ below job unended
  rw [ended]
  simp only [Turn.within, run, Turn.below]
  rcases next.finish (below', job') with ⟨_, _, _⟩
  rfl

end Stage

namespace Projection

private theorem fetching_of_compileBody {services : Services σ} {settings : Settings} {parameters : Fetch}
    {job : Job σ} {body : StageBody}
    (compiled : (Projection.fetch parameters).compileBody services settings job = .ok body) :
    ∃ fetching : FetchStage, body = .fetch fetching ∧ 0 < fetching.size ∧ fetching.newest = [] := by
  obtain ⟨_, allowed, compiled⟩ := ok_of_bind compiled
  cases compiled
  refine ⟨_, rfl, Nat.pos_of_ne_zero fun none_ => ?_, rfl⟩
  have none_ : parameters.size.getD settings.fetchSize = 0 := none_
  rw [none_] at allowed
  cases allowed

/-- A stage that fetches from a cluster in memory takes all rows whose fetch ids can be read, and each
comes to one result: it is emitted with the columns of its document, or the reason why it is not is
recorded. Rows of which no two in a round ask for the same document come to what each would come to
alone, however many wait for each other. -/
theorem fetches_rows (nextFetch : List FetchRequest → Simulation → Nat) (settings : Settings)
    (parameters : Fetch) (compiling compiled job : Job Simulation) (stage : Stage)
    (next : Receiver Simulation δ) (gets : List Row → δ → Prop) (below : δ) (visits : List Visit)
    (done : (Projection.fetch parameters).compile (Simulation.fetchingIn nextFetch) settings
      compiling = (.ok stage, compiled))
    (faultless : job.node.services.faults.fetchedRow = none)
    (patient : next.Patient gets (Simulation.Has job.node.services.cluster.archive))
    (given : gets [] below)
    (granted : ∀ answer ∈ (Stage.drive (Simulation.fetchingIn nextFetch) next visits
      ((stage, below), job)).1, MemoryGranted answer) :
    ∃ (fetching : FetchStage) (fed ended : (Stage × δ) × Job Simulation) (emitted : List Row),
      stage.body = .fetch fetching ∧
        Stage.drive (Simulation.fetchingIn nextFetch) next visits ((stage, below), job) =
          ((Visit.rows visits).map fetching.answer, fed) ∧
        Stage.finish (Simulation.fetchingIn nextFetch) next fed = (Turn.below next.finish) ended ∧
        gets emitted ended.1.2 ∧
        emitted.Perm (FetchStage.emitted
          (fetching.results job.node.services.cluster.archive (Visit.rows visits))) ∧
        ended.2.failures.Perm (job.failures ++ FetchStage.recorded
          (fetching.results job.node.services.cluster.archive (Visit.rows visits))) ∧
        (fetching.results job.node.services.cluster.archive (Visit.rows visits)).length =
          (Visit.rows visits).countP (fun row => (fetching.readId row).toOption.isSome) ∧
        ((∀ round ∈ FetchRow.rounds fetching.size (fetching.asking (Visit.rows visits)),
            (round.map FetchRow.id).Nodup) →
          (fetching.results job.node.services.cluster.archive (Visit.rows visits)).Perm
            ((Visit.rows visits).filterMap
              (fetching.resultAlone job.node.services.cluster.archive))) := by
  obtain ⟨body, built, rfl⟩ := compile_ok done
  obtain ⟨fetching, rfl, wait, fresh⟩ := fetching_of_compileBody built
  have fetches := Simulation.fetchFrom nextFetch job.node.services.cluster.archive
  have told : FetchStage.Told gets (Simulation.Has job.node.services.cluster.archive) job.failures
      { fetching with newest := [] } [] ((fetching, below), job) :=
    ⟨⟨fetching.share, by rw [← fresh]⟩, ⟨[], given, .refl _⟩, by simp [FetchStage.recorded],
      ⟨rfl, faultless⟩⟩
  have start : Stage.Fetching gets (Simulation.Has job.node.services.cluster.archive) job.failures
      job.node.services.cluster.archive fetching [] (((⟨.fetch, .fetch fetching, .created⟩ : Stage),
        below), job) :=
    ⟨rfl, fetching, [], [], rfl, ⟨rfl, by simp, wait, told⟩⟩
  obtain ⟨answers, fed⟩ := Stage.drive_fetching patient fetches start granted
  obtain ⟨ended, own, finished, told⟩ := Stage.finish_fetching patient fetches fed
  obtain ⟨emitted, got, alike⟩ := told.emitted
  exact ⟨fetching, _, ended, emitted, rfl, Prod.ext answers rfl, finished, got, alike,
    told.recorded, fetching.length_results _ wait _, fetching.results_perm _ wait⟩

/-- A job on a cluster that has one document, with the fetch id that readers of number 1 give it. -/
def jobWithDocument : Job Simulation :=
  let cluster : LocalCluster :=
    { LocalCluster.ofSize 1 1 with
      fetchDocuments := [(FetchId.ofParts 1 1, Dictionary.ofList [("name", .text "a")])] }
  { Job.alone with node := { services := { cluster := cluster } } }

def nameOfDocument : Fetch := ⟨0, ["name"], [⟨1, "node-0"⟩], some 2⟩

/-- A row that has a document is emitted with it, and one without a fetch id is recorded. -/
theorem fetches_rows_recorded :
    let projection : Projection := .fetch nameOfDocument
    let visits : List Visit := [.row [.null], .pause, .row [.long 4294967297]]
    let services := Simulation.fetchingIn fun _ _ => 0
    ∃ stage compiled fed ended,
      projection.compile services {} Job.alone = (.ok stage, compiled) ∧
        Stage.drive services Terminal.receiver visits
            ((stage, .collecting {}), jobWithDocument) = ([.ok .more, .ok .more], fed) ∧
          Stage.finish services Terminal.receiver fed =
            (Turn.below Terminal.receiver.finish) ended ∧
          ended.1.2 = .collecting ⟨[[.long 4294967297, .text "a"]], none⟩ ∧
          ended.2.failures = [⟨.fetch, "row without fetch id"⟩] := by
  intro projection visits services
  let stage : Stage := ⟨.fetch, .fetch ⟨0, ["name"], [⟨1, "node-0"⟩], 2, {}, []⟩, .created⟩
  have answers : (Stage.drive services Terminal.receiver visits
      ((stage, .collecting {}), jobWithDocument)).1 = [.ok .more, .ok .more] := by rfl
  have granted : ∀ answer ∈ (Stage.drive services Terminal.receiver visits
      ((stage, .collecting {}), jobWithDocument)).1, MemoryGranted answer := by
    rw [answers]
    intro answer member
    obtain rfl : answer = .ok .more := by simpa using member
    exact .of_ok rfl
  obtain ⟨fetching, fed, ended, emitted, body, driven, finished, got, alike, recorded, -⟩ :=
    fetches_rows (fun _ _ => 0) {} nameOfDocument Job.alone _ jobWithDocument stage Terminal.receiver _
      (.collecting {}) visits rfl rfl (Terminal.patient _) rfl granted
  cases body
  have results : FetchStage.results ⟨0, ["name"], [⟨1, "node-0"⟩], 2, {}, []⟩
      jobWithDocument.node.services.cluster.archive (Visit.rows visits) =
        [.error .noId, .ok [.long 4294967297, .text "a"]] := by decide +kernel
  rw [results] at alike recorded
  refine ⟨_, _, fed, ended, rfl, driven, finished, ?_, List.perm_singleton.mp recorded⟩
  rw [got, List.perm_singleton.mp alike]
  rfl

/-- Of two rows that ask for the same document in one round, the second is not emitted, though it
would be alone. -/
theorem not_fetches_rows_repeated :
    let rows : List Row := [[.long 4294967297], [.long 4294967297]]
    let stage : FetchStage := ⟨0, ["name"], [⟨1, "node-0"⟩], 2, {}, []⟩
    let outcome := Plan.execute Simulation.services {} [.fetch nameOfDocument] rows jobWithDocument
    outcome.1.toOption.map List.length = some 1 ∧
      outcome.2.failures =
        [⟨.fetch, "document for fetch id 4294967297 missing on node node-0"⟩] ∧
      ¬ ∃ emitted, outcome.1 = .ok emitted ∧ emitted.Perm (FetchStage.emitted
        (rows.filterMap (stage.resultAlone jobWithDocument.node.services.cluster.archive))) := by
  intro rows stage outcome
  have one : outcome.1.toOption.map List.length = some 1 := by decide +kernel
  have two : (FetchStage.emitted (rows.filterMap
      (stage.resultAlone jobWithDocument.node.services.cluster.archive))).length = 2 := by
    decide +kernel
  refine ⟨one, by decide +kernel, ?_⟩
  rintro ⟨emitted, got, alike⟩
  rw [got] at one
  have single : emitted.length = 1 := Option.some.inj one
  exact absurd (single.symm.trans (alike.length_eq.trans two)) (by decide)

end Projection

end RowPipeline
