import RowPipeline.Proofs.Delivery
import RowPipeline.Proofs.Success

/-!
What a compiled plan can fail with. A stage that keeps to the protocol fails on its data or passes on
what is behind it, so nothing but data ends a run: an expression that has no value on a row, memory
that is refused, and, where rows are exported, the files.
-/

namespace RowPipeline

open Turn Progress

variable {σ τ τ' β γ δ δ' α ε : Type}

/-- Failures that come from the rows and what is held of them. -/
def ExecutionError.IsData : ExecutionError → Prop
  | .evaluation _ | .memoryLimitExceeded _ _ _ _ => True
  | _ => False

theorem ExecutionError.IsRefusal.isData {error : ExecutionError} (refused : error.IsRefusal) :
    error.IsData := by
  obtain ⟨label, requested, used, limit, rfl, -⟩ := refused
  exact trivial

/-! ### Turns that fail for excused reasons only -/

namespace Turn

/-- Whatever state a turn starts from, it fails for an excused reason only. -/
def Excuses (excused : ExecutionError → Prop) (turn : Turn σ τ α) : Prop :=
  ∀ state, Runs turn excused (fun _ _ => True) state

namespace Excuses

variable {excused : ExecutionError → Prop}

theorem error {turn : Turn σ τ α} (excuses : Excuses excused turn) {state last : τ × Job σ}
    {error : ExecutionError} (failed : turn state = (.error error, last)) : excused error :=
  (excuses state).error failed

theorem pure (value : α) : Excuses excused (Pure.pure value : Turn σ τ α) := fun _ => trivial

theorem own : Excuses excused (Turn.own : Turn σ τ τ) := fun _ => trivial

theorem setOwn (receiver : τ) : Excuses excused (Turn.setOwn receiver : Turn σ τ Unit) :=
  fun _ => trivial

theorem job : Excuses excused (Turn.job : Turn σ τ (Job σ)) := fun _ => trivial

theorem modifyJob (change : Job σ → Job σ) :
    Excuses excused (Turn.modifyJob change : Turn σ τ Unit) := fun _ => trivial

theorem ofState (step : τ × Job σ → α × (τ × Job σ)) : Excuses excused (Turn.ofState step) :=
  fun _ => trivial

theorem bind {turn : Turn σ τ β} {next : β → Turn σ τ α} (first : Excuses excused turn)
    (rest : ∀ value, Excuses excused (next value)) : Excuses excused (turn >>= next) :=
  fun state => (first state).bind fun value last _ => rest value last

theorem throw {error : ExecutionError} (reason : excused error) :
    Excuses excused (MonadExcept.throw error : Turn σ τ α) := fun _ => reason

theorem ofExcept {result : Except ExecutionError α}
    (reasons : ∀ error, result = .error error → excused error) :
    Excuses excused (Turn.ofExcept result : Turn σ τ α) := by
  cases result with
  | ok value => exact .pure value
  | error error => exact .throw (reasons error rfl)

theorem below {turn : Turn σ δ α} (excuses : Excuses excused turn) :
    Excuses excused (Turn.below turn : Turn σ (β × δ) α) := by
  rintro ⟨⟨receiver, next⟩, job⟩
  exact ((excuses (next, job)).below receiver).weaken fun _ _ _ => trivial

theorem above {turn : Turn σ β α} (excuses : Excuses excused turn) :
    Excuses excused (Turn.above turn : Turn σ (β × δ) α) := by
  rintro ⟨⟨receiver, next⟩, job⟩
  exact ((excuses (receiver, job)).above next).weaken fun _ _ _ => trivial

theorem within {turn : Turn σ (β × δ) α} (excuses : Excuses excused turn) (wrap : β → γ)
    (receiver : β) : Excuses excused (Turn.within wrap receiver turn) := by
  rintro ⟨⟨own, next⟩, job⟩
  exact ((excuses ((receiver, next), job)).within wrap own).weaken fun _ _ _ => trivial

/-- What is attempted may fail later, for the same reason. -/
theorem attempt_bind {turn : Turn σ τ β} {next : Except ExecutionError β → Turn σ τ α}
    (first : Excuses excused turn)
    (rest : ∀ result, (∀ error, result = .error error → excused error) →
      Excuses excused (next result)) :
    Excuses excused (Turn.attempt turn >>= next) := by
  refine fun state => (first state).attempt.bind fun result last reason => rest result ?_ last
  rintro error rfl
  exact reason

variable (data : ∀ error : ExecutionError, error.IsData → excused error)

include data

theorem evaluated (result : Except EvaluationFault α) :
    Excuses excused (Turn.evaluated result : Turn σ τ α) := by
  cases result with
  | ok value => exact .pure value
  | error fault => exact .throw (data _ trivial)

theorem charge (share : MemoryShare) (bytes : Nat) :
    Excuses excused (Turn.onJob (Job.charge share bytes) : Turn σ τ MemoryShare) := fun _ =>
  (Runs.charge fun _ refused => data _ refused.isData).weaken fun _ _ _ => trivial

end Excuses

end Turn

/-- A receiver that always has something to push rows into and fails for excused reasons only. -/
structure Receiver.Excuses (excused : ExecutionError → Prop) (receiver : Receiver σ τ) : Prop where
  attached : ∀ state, receiver.attached state = true
  takeRow : ∀ row, Turn.Excuses excused (receiver.takeRow row)
  finish : Turn.Excuses excused receiver.finish

namespace Receiver.Excuses

variable {excused : ExecutionError → Prop} {next : Receiver σ δ}

theorem feed (excuses : next.Excuses excused) (rows : List Row) :
    Turn.Excuses excused (next.feed rows) := by
  induction rows with
  | nil => exact .pure ()
  | cons row rest ih =>
    refine .bind (excuses.takeRow row) fun flow => ?_
    cases flow with
    | more => exact ih
    | stop => exact .pure ()

theorem drain (excuses : next.Excuses excused) (rows : List Row) :
    Turn.Excuses excused (next.drain rows) :=
  .bind (excuses.feed rows) fun _ => excuses.finish

theorem run (excuses : next.Excuses excused) {kinds : List StageKind} {rows : List Row}
    {state last : δ × Job σ} {error : ExecutionError}
    (failed : next.run kinds rows state = (.error error, last)) : excused error := by
  unfold Receiver.run at failed
  rcases drained : next.drain rows state with ⟨reason | _, after⟩
  · rw [drained] at failed
    obtain rfl := Except.error.inj (congrArg Prod.fst failed)
    exact (excuses.drain rows).error drained
  · rw [drained] at failed
    cases failed

theorem pushAll (excuses : next.Excuses excused) (rows : List Row) :
    Turn.Excuses excused (next.pushAll rows) := by
  refine .bind .own fun state => ?_
  rw [if_pos (excuses.attached state)]
  exact excuses.feed rows

/-! ### The ends of stages -/

theorem emitOne (excuses : next.Excuses excused) (row : β → Row) :
    Turn.Excuses excused (next.emitOne row) :=
  .bind .own fun _ => .bind (.below (excuses.takeRow _)) fun _ => .below excuses.finish

theorem emitAll (excuses : next.Excuses excused) (rows : β → List Row)
    (clear : β × Job σ → β × Job σ) : Turn.Excuses excused (next.emitAll rows clear) := by
  refine .bind .own fun _ => .attempt_bind (.below (excuses.pushAll _)) fun result reasons => ?_
  refine .bind (.above (.ofState _)) fun _ => .bind (.ofExcept reasons) fun _ => ?_
  exact .below excuses.finish

theorem emitLast (excuses : next.Excuses excused) {last : Turn σ β (List Row)}
    (ends : Turn.Excuses excused last) : Turn.Excuses excused (next.emitLast last) :=
  .bind (.above ends) fun rows => .bind (.below (excuses.pushAll rows)) fun _ => .below excuses.finish

end Receiver.Excuses

/-! ### Stages -/

section Stages

variable {excused : ExecutionError → Prop} {next : Receiver σ δ}
variable (data : ∀ error : ExecutionError, error.IsData → excused error)
variable (excuses : next.Excuses excused)

include data

theorem SortStage.takeRow_excuses (row : Row) :
    Turn.Excuses excused (SortStage.takeRow row : Turn σ SortStage Flow) :=
  .bind .own fun _ => .bind (.evaluated data _) fun _ => .bind (.charge data _ _) fun _ =>
    .bind (.setOwn _) fun _ => .pure _

private theorem TopStage.keep_excuses (kept : Row) :
    Turn.Excuses excused (TopStage.keep kept : Turn σ TopStage Unit) :=
  .bind .own fun _ => .bind (.charge data _ _) fun _ => .setOwn _

theorem TopStage.takeRow_excuses (row : Row) :
    Turn.Excuses excused (TopStage.takeRow row : Turn σ TopStage Flow) := by
  refine .bind .own fun stage => .bind (.evaluated data _) fun kept => ?_
  cases stage.offer kept with
  | declined => exact .pure _
  | accepted => exact .bind (keep_excuses data kept) fun _ => .pure _
  | replacing last =>
    exact .bind (.ofState _) fun _ => .bind (keep_excuses data kept) fun _ => .pure _

private theorem GroupStage.ensureGroup_excuses (key : Row) :
    Turn.Excuses excused (GroupStage.ensureGroup key : Turn σ GroupStage Unit) := by
  refine .bind .own fun stage => ?_
  dsimp only
  split
  · exact .pure ()
  · exact .bind (.charge data _ _) fun _ => .setOwn _

theorem GroupStage.takeRow_excuses (row : Row) :
    Turn.Excuses excused (GroupStage.takeRow row : Turn σ GroupStage Flow) := by
  refine .bind .own fun _ => .bind (.evaluated data _) fun key => ?_
  refine .bind (ensureGroup_excuses data key) fun _ => .bind .own fun stage => ?_
  rcases stepGroup key row stage.groups with ⟨groups, _ | fault⟩
  · exact .bind (.setOwn _) fun _ => .pure _
  · exact .bind (.setOwn _) fun _ => .throw (data _ trivial)

theorem AggregateStage.takeRow_excuses (row : Row) :
    Turn.Excuses excused (AggregateStage.takeRow row : Turn σ AggregateStage Flow) := by
  refine .bind .own fun stage => ?_
  rcases Aggregate.stepAll row stage.states with ⟨states, _ | fault⟩
  · exact .bind (.setOwn _) fun _ => .pure _
  · exact .bind (.setOwn _) fun _ => .throw (data _ trivial)

theorem CountStage.takeRow_excuses (row : Row) :
    Turn.Excuses excused (CountStage.takeRow row : Turn σ CountStage Flow) :=
  .bind .own fun _ => .bind (.evaluated data _) fun _ => .bind (.setOwn _) fun _ => .pure _

theorem SystemUpdateStage.takeRow_excuses (services : Services σ) (row : Row) :
    Turn.Excuses excused (SystemUpdateStage.takeRow services row) := by
  refine .bind .own fun _ => .bind (.evaluated data _) fun _ => .bind (.evaluated data _) fun _ => ?_
  refine .bind .job fun _ => .bind (.modifyJob _) fun _ => ?_
  split
  · exact .bind (.setOwn _) fun _ => .pure _
  · exact .pure _

include excuses

theorem FilterStage.takeRow_excuses (row : Row) :
    Turn.Excuses excused (FilterStage.takeRow next row) := by
  refine .bind .own fun _ => .bind (.evaluated data _) fun admitted => ?_
  cases admitted with
  | false => exact .pure _
  | true => exact .below (excuses.takeRow row)

theorem EvalStage.takeRow_excuses (row : Row) :
    Turn.Excuses excused (EvalStage.takeRow next row) :=
  .bind .own fun _ => .bind (.evaluated data _) fun _ => .below (excuses.takeRow _)

omit data in
theorem SliceStage.takeRow_excuses (row : Row) :
    Turn.Excuses excused (SliceStage.takeRow next row) := by
  refine .bind .own fun _ => ?_
  dsimp only
  split
  · exact .bind (.setOwn _) fun _ => .pure _
  · split
    · exact .pure _
    · exact .bind (.setOwn _) fun _ => .bind (.below (excuses.takeRow row)) fun _ => .pure _

/-! A fetch records what goes wrong with a request, and goes on. -/

namespace FetchStage

omit data in
private theorem joinRow_excuses (node : NodeName) (row : FetchRow) (joining : Joining) :
    Turn.Excuses excused (joinRow next node row joining) := by
  refine .bind (.above (.ofState _)) fun _ => .bind .own fun _ => ?_
  dsimp only
  split
  · exact .bind (.modifyJob _) fun _ => .pure _
  · split
    · exact .bind (.modifyJob _) fun _ => .pure _
    · split
      · exact .pure _
      · exact .bind (.below (excuses.takeRow _)) fun _ => .pure _

omit data in
private theorem joinRows_excuses (node : NodeName) (rows : List FetchRow) (joining : Joining) :
    Turn.Excuses excused (joinRows next node rows joining) := by
  induction rows generalizing joining with
  | nil => exact .pure _
  | cons row rest ih => exact .bind (joinRow_excuses excuses node row joining) ih

omit data in
private theorem fetchBatch_excuses (services : Services σ) (batch : FetchBatch) (flow : Flow) :
    Turn.Excuses excused (fetchBatch services next batch flow) := by
  refine .bind .own fun stage => .bind .job fun job => .bind (.modifyJob _) fun _ => ?_
  cases (services.fetch (batch.request stage.1.columns) job.node.services).1 with
  | error error => exact .bind (.above (.ofState _)) fun _ => .pure _
  | ok response =>
    exact .bind (joinRows_excuses excuses batch.node batch.rows _) fun _ =>
      .bind (.modifyJob _) fun _ => .pure _

omit data in
private theorem fetchAll_excuses (services : Services σ) (fuel : Nat) (batches : List FetchBatch)
    (flow : Flow) : Turn.Excuses excused (fetchAll services next fuel batches flow) := by
  induction fuel generalizing batches flow with
  | zero => exact .pure _
  | succ fuel ih =>
    refine .bind .own fun stage => .bind .job fun job => ?_
    dsimp only
    split
    · exact .pure _
    · exact .bind (fetchBatch_excuses excuses services _ flow) (ih _)

omit data in
private theorem flush_excuses (services : Services σ) : Turn.Excuses excused (flush services next) := by
  refine .bind .own fun _ => .bind (.setOwn _) fun _ => .bind (.modifyJob _) fun _ => ?_
  dsimp only
  split
  · exact .bind (.below (.ofState _)) fun _ => fetchAll_excuses excuses services _ _ _
  · exact fetchAll_excuses excuses services _ _ _

omit data in
theorem finish_excuses (services : Services σ) : Turn.Excuses excused (finish services next) :=
  .bind (flush_excuses excuses services) fun _ => .below excuses.finish

theorem takeRow_excuses (services : Services σ) (row : Row) :
    Turn.Excuses excused (takeRow services next row) := by
  refine .bind .own fun _ => .bind (.evaluated data _) fun id => ?_
  cases id with
  | none => exact .bind (.modifyJob _) fun _ => .pure _
  | some id =>
    dsimp only
    split
    · exact .bind (.modifyJob _) fun _ => .pure _
    · have kept (row : FetchRow) : Turn.Excuses excused (keep row : Turn σ FetchStage Unit) :=
        .bind .own fun _ => .bind (.charge data _ _) fun _ => .setOwn _
      refine .bind (.above (kept _)) fun _ => .bind .own fun _ => ?_
      split
      · exact flush_excuses excuses services
      · exact .pure _

end FetchStage

end Stages

/-! Only where rows are exported are there files that can fail. -/

namespace ExportStage

variable {excused : ExecutionError → Prop} (files : ∀ detail, excused (.io detail))

include files

theorem answered_excuses (result : Except FileTree.Fault α) :
    Turn.Excuses excused (answered result : Turn σ ExportStage α) := by
  cases result with
  | ok value => exact .pure value
  | error fault => exact .throw (files _)

private theorem ensureOpen_excuses : Turn.Excuses excused (ensureOpen : Turn σ ExportStage FilePath) := by
  refine .bind .own fun stage => ?_
  cases stage.output with
  | some path => exact .pure path
  | none =>
    refine .bind .job fun _ => .bind (.modifyJob _) fun _ => ?_
    exact .bind (answered_excuses files _) fun _ => .bind (.setOwn _) fun _ => .pure _

theorem takeRow_excuses (data : ∀ error : ExecutionError, error.IsData → excused error) (row : Row) :
    Turn.Excuses excused (takeRow row : Turn σ ExportStage Flow) := by
  refine .bind .own fun _ => .bind (.evaluated data _) fun _ => ?_
  refine .bind (ensureOpen_excuses files) fun _ => .bind .job fun _ => ?_
  refine .bind (answered_excuses files _) fun _ => .bind (.modifyJob _) fun _ => ?_
  exact .bind .own fun _ => .bind (.setOwn _) fun _ => .pure _

theorem finish_excuses {next : Receiver σ δ} (excuses : next.Excuses excused) :
    Turn.Excuses excused (finish next) := by
  have closed : Turn.Excuses excused (close : Turn σ ExportStage Unit) := by
    refine .bind (ensureOpen_excuses files) fun _ => .bind .own fun _ => .bind (.setOwn _) fun _ => ?_
    exact .bind .job fun _ => .bind (answered_excuses files _) fun _ => .modifyJob _
  exact .bind (.above closed) fun _ => excuses.emitOne _

end ExportStage

namespace StageBody

/-- Whether rows are exported. -/
def exports : StageBody → Bool
  | .exporting _ => true
  | _ => false

variable {excused : ExecutionError → Prop} {next : Receiver σ δ}

/-- A stage stays of its kind whatever its turns come to. -/
theorem exports_takeRow (services : Services σ) (next : Receiver σ δ) (row : Row) (body : StageBody)
    (below : δ) (job : Job σ) :
    (takeRow services next row ((body, below), job)).2.1.1.exports = body.exports := by
  cases body <;> rfl

theorem exports_finish (services : Services σ) (next : Receiver σ δ) (body : StageBody) (below : δ)
    (job : Job σ) : (finish services next ((body, below), job)).2.1.1.exports = body.exports := by
  cases body <;> rfl

private theorem exports_meanwhile (services : Services σ) (body : StageBody) (job : Job σ) :
    (meanwhile services (body, job)).1.exports = body.exports := by
  cases body <;> rfl

variable (data : ∀ error : ExecutionError, error.IsData → excused error)
variable (excuses : next.Excuses excused) {body : StageBody}
variable (files : body.exports = true → ∀ detail, excused (.io detail))

include data excuses files

private theorem takeRow_runs (services : Services σ) (row : Row) (below : δ) (job : Job σ) :
    Runs (takeRow services next row) excused (fun _ _ => True) ((body, below), job) := by
  refine Runs.own_bind ?_
  cases body with
  | filter => exact (FilterStage.takeRow_excuses data excuses row).within _ _ _
  | eval => exact (EvalStage.takeRow_excuses data excuses row).within _ _ _
  | slice => exact (SliceStage.takeRow_excuses excuses row).within _ _ _
  | sort => exact (SortStage.takeRow_excuses data row).above.within _ _ _
  | top => exact (TopStage.takeRow_excuses data row).above.within _ _ _
  | group => exact (GroupStage.takeRow_excuses data row).above.within _ _ _
  | aggregate => exact (AggregateStage.takeRow_excuses data row).above.within _ _ _
  | count => exact (CountStage.takeRow_excuses data row).above.within _ _ _
  | systemUpdate => exact (SystemUpdateStage.takeRow_excuses data services row).above.within _ _ _
  | exporting => exact (ExportStage.takeRow_excuses (files rfl) data row).above.within _ _ _
  | indexWrite => exact (Turn.Excuses.ofState _).above.within _ _ _
  | shardWrite => exact (Turn.Excuses.ofState _).above.within _ _ _
  | fetch => exact (FetchStage.takeRow_excuses data excuses services row).within _ _ _

omit data in
private theorem finish_runs (services : Services σ) (below : δ) (job : Job σ) :
    Runs (finish services next) excused (fun _ _ => True) ((body, below), job) := by
  refine Runs.own_bind ?_
  cases body with
  | filter => exact excuses.finish.below _
  | eval => exact excuses.finish.below _
  | slice => exact excuses.finish.below _
  | sort => exact (excuses.emitAll _ _).within _ _ _
  | top => exact (excuses.emitAll _ _).within _ _ _
  | group => exact (excuses.emitAll _ _).within _ _ _
  | aggregate => exact (excuses.emitOne _).within _ _ _
  | count => exact (excuses.emitOne _).within _ _ _
  | systemUpdate => exact (excuses.emitOne _).within _ _ _
  | exporting => exact (ExportStage.finish_excuses (files rfl) excuses).within _ _ _
  | indexWrite => exact (excuses.emitLast (.ofState _)).within _ _ _
  | shardWrite => exact (excuses.emitLast (.ofState _)).within _ _ _
  | fetch => exact (FetchStage.finish_excuses excuses services).within _ _ _

end StageBody

/-! ### Chains -/

/-- The same turn, which goes on with a value where it would fail without an excuse. -/
noncomputable def Turn.guarded (excused : ExecutionError → Prop) (instead : α) (turn : Turn σ τ α) :
    Turn σ τ α := fun state =>
  match turn state with
  | (.ok value, after) => (.ok value, after)
  | (.error error, after) =>
    open Classical in
    if excused error then (.error error, after) else (.ok instead, after)

namespace Turn

variable {excused : ExecutionError → Prop} {turn : Turn σ τ α}

theorem guarded_excuses (instead : α) : Excuses excused (turn.guarded excused instead) := by
  intro state
  unfold Runs guarded
  rcases turn state with ⟨error | value, after⟩
  · by_cases excuse : excused error <;> simp [excuse]
  · trivial

/-- Guarding changes nothing of a turn that does not fail without an excuse. -/
theorem guarded_apply (instead : α) {after : α → τ × Job σ → Prop} {state : τ × Job σ}
    (runs : Runs turn excused after state) : turn.guarded excused instead state = turn state := by
  unfold guarded
  unfold Runs at runs
  rcases done : turn state with ⟨error | value, last⟩
  · rw [done] at runs
    exact if_pos runs
  · rfl

end Turn

namespace Receiver

/-- The same receiver, which does not fail without an excuse. -/
noncomputable def guarded (excused : ExecutionError → Prop) (inner : Receiver σ τ) :
    Receiver σ τ where
  attached _ := true
  takeRow row := (inner.takeRow row).guarded excused .stop
  finish := inner.finish.guarded excused ()
  meanwhile := inner.meanwhile
  fail := inner.fail

theorem guarded_excuses (excused : ExecutionError → Prop) (inner : Receiver σ τ) :
    (inner.guarded excused).Excuses excused :=
  ⟨fun _ => rfl, fun _ => Turn.guarded_excuses _, Turn.guarded_excuses _⟩

variable {receiver : Receiver σ τ} {receiver' : Receiver σ τ'} {excused : ExecutionError → Prop}
variable {related : Progress → τ → τ' → Prop}

/-- What a receiver keeps of itself whatever it is called with is kept in front of related ones. -/
theorem Alike.keeping {holds : τ → Prop} (alike : receiver.Alike receiver' related)
    (takes : ∀ row state, holds state.1 → holds (receiver.takeRow row state).2.1)
    (ends : ∀ state, holds state.1 → holds (receiver.finish state).2.1)
    (waits : ∀ state, holds state.1 → holds (receiver.meanwhile state).1)
    (fails : ∀ error state, holds state.1 → holds (receiver.fail error state).1) :
    receiver.Alike receiver' fun progress state state' => related progress state state' ∧ holds state where
  attached start := alike.attached start.1
  takeRow row := by
    intro state state' job start
    obtain ⟨outcome, next, next', job', run, run', reached⟩ := alike.takeRow row _ _ job start.1
    have kept := takes row (state, job) start.2
    rw [run] at kept
    exact ⟨outcome, next, next', job', run, run', reached, kept⟩
  finish := by
    intro progress unended state state' job start
    obtain ⟨outcome, next, next', job', run, run', reached⟩ := alike.finish unended _ _ job start.1
    have kept := ends (state, job) start.2
    rw [run] at kept
    exact ⟨outcome, next, next', job', run, run', reached, kept⟩
  meanwhile := by
    intro progress state state' job start
    obtain ⟨next, next', job', run, run', reached⟩ := alike.meanwhile _ _ job start.1
    have kept := waits (state, job) start.2
    rw [run] at kept
    exact ⟨next, next', job', run, run', reached, kept⟩
  fail := by
    intro progress unfailed error state state' job start
    obtain ⟨next, next', job', run, run', reached⟩ := alike.fail unfailed error _ _ job start.1
    have kept := fails error (state, job) start.2
    rw [run] at kept
    exact ⟨next, next', job', run, run', reached, kept⟩

/-- A receiver that is only driven where it has an excuse for failing need not be guarded. -/
theorem Alike.guarded (alike : receiver.Alike receiver' related)
    (takes : ∀ state state' row job, related .taking state state' →
      Runs (receiver'.takeRow row) excused (fun _ _ => True) (state', job))
    (ends : ∀ progress state state' job, Behind .closed progress → related progress state state' →
      Runs receiver'.finish excused (fun _ _ => True) (state', job)) :
    receiver.Alike (receiver'.guarded excused) related where
  attached start := ⟨(alike.attached start).1, rfl⟩
  takeRow row := by
    intro state state' job start
    have same := Turn.guarded_apply Flow.stop (takes state state' row job start)
    obtain ⟨outcome, next, next', job', run, run', reached⟩ := alike.takeRow row _ _ job start
    exact ⟨outcome, next, next', job', run, same.trans run', reached⟩
  finish := by
    intro progress unended state state' job start
    have same := Turn.guarded_apply () (ends progress state state' job unended start)
    obtain ⟨outcome, next, next', job', run, run', reached⟩ := alike.finish unended _ _ job start
    exact ⟨outcome, next, next', job', run, same.trans run', reached⟩
  meanwhile := alike.meanwhile
  fail := alike.fail

end Receiver

namespace Stage

variable {services : Services σ} {next : Receiver σ δ} {next' : Receiver σ δ'}
variable {related : Progress → δ → δ' → Prop} {excused : ExecutionError → Prop}

theorem exports_takeRow (row : Row) (state : (Stage × δ) × Job σ) :
    (takeRow services next row state).2.1.1.body.exports = state.1.1.body.exports := by
  obtain ⟨⟨stage, below⟩, job⟩ := state
  cases ended : stage.phase.isTerminal with
  | true => simp only [takeRow, own_bind, Phase.row, ended]; rfl
  | false =>
    rw [takeRow_apply services next row stage below job ended]
    exact StageBody.exports_takeRow services next row stage.body below job

theorem exports_finish (state : (Stage × δ) × Job σ) :
    (finish services next state).2.1.1.body.exports = state.1.1.body.exports := by
  obtain ⟨⟨stage, below⟩, job⟩ := state
  cases ended : stage.phase.isTerminal with
  | true => simp only [finish, own_bind, Phase.finish, ended]; rfl
  | false =>
    rw [finish_apply services next stage below job ended]
    exact StageBody.exports_finish services next stage.body below job

private theorem exports_fail (error : ExecutionError) (state : (Stage × δ) × Job σ) :
    (fail services next error state).1.1.body.exports = state.1.1.body.exports := by
  obtain ⟨⟨⟨kind, body, phase⟩, below⟩, job⟩ := state
  cases failing : phase.fail? with
  | none => simp only [fail, failing]
  | some after =>
    simp only [fail, failing]
    cases body <;> rfl

/-- Related receivers behind a stage that only fails for excused reasons make it one in front of which
nothing else has to be expected. -/
theorem receiver_alike_guarded (alike : next.Alike next' related) (excuses : next'.Excuses excused)
    (data : ∀ error : ExecutionError, error.IsData → excused error) :
    (receiver services next).Alike ((receiver services next').guarded excused)
      fun progress state state' => Together related progress state state' ∧
        (state.1.body.exports = true → ∀ detail, excused (.io detail)) := by
  have keeps : (receiver services next).Alike (receiver services next') fun progress state state' =>
      Together related progress state state' ∧
        (state.1.body.exports = true → ∀ detail, excused (.io detail)) := by
    let holds : Stage × δ → Prop := fun state =>
      state.1.body.exports = true → ∀ detail, excused (.io detail)
    refine (receiver_alike alike services).keeping
      (fun row state (files : holds state.1) => ?_) (fun state files => ?_)
      (fun state files => ?_) (fun error state files => ?_)
    · rw [show (receiver services next).takeRow row = takeRow services next row from rfl,
        exports_takeRow]
      exact files
    · rw [show (receiver services next).finish = finish services next from rfl, exports_finish]
      exact files
    · exact StageBody.exports_meanwhile services state.1.1.body state.2 ▸ files
    · rw [show (receiver services next).fail = fail services next from rfl, exports_fail]
      exact files
  refine keeps.guarded ?_ ?_
  · rintro ⟨stage, below⟩ ⟨stage', below'⟩ row job ⟨⟨same, unended, _, _⟩, files⟩
    obtain rfl : stage = stage' := same
    have runs := StageBody.takeRow_runs data excuses files services row below' job
    exact (runs_takeRow unended runs).weaken fun _ _ _ => trivial
  · rintro progress ⟨stage, below⟩ ⟨stage', below'⟩ job unended ⟨⟨same, fits, _, _⟩, files⟩
    obtain rfl : stage = stage' := same
    let good : δ' → Prop := fun _ => True
    have runs : Runs (StageBody.finish services next') excused (fun _ last => good last.1.2)
        ((stage.body, below'), job) :=
      StageBody.finish_runs excuses files services below' job
    exact (runs_finish (fits.unended unended) runs).weaken fun _ _ _ => trivial

end Stage

theorem Terminal.receiver_alike_guarded {excused : ExecutionError → Prop} :
    (Terminal.receiver : Receiver σ Terminal).Alike (Terminal.receiver.guarded excused)
      fun progress terminal terminal' => terminal = terminal' ∧ terminal.At progress := by
  refine Terminal.receiver_alike.guarded ?_ ?_
  · rintro terminal _ row job ⟨rfl, reached⟩
    cases terminal with
    | unattached => exact reached.elim
    | collecting collector =>
      obtain ⟨newest, delivered⟩ := collector
      obtain rfl : delivered = none := reached
      exact trivial
  · rintro progress terminal _ job unended ⟨rfl, reached⟩
    cases terminal with
    | unattached => cases progress <;> exact reached.elim
    | collecting collector => exact trivial

namespace Chain

/-- A chain of new stages is like a receiver that fails for excused reasons only. -/
theorem alike_excusing {services : Services σ} {excused : ExecutionError → Prop}
    (data : ∀ error : ExecutionError, error.IsData → excused error) {stages : List Stage}
    (created : ∀ stage ∈ stages, stage.phase = .created)
    (files : ∀ stage ∈ stages, stage.body.exports = true → ∀ detail, excused (.io detail)) :
    ∃ (receiver' : Receiver σ (Chain stages.length))
      (related : Progress → Chain stages.length → Chain stages.length → Prop),
      (receiver services stages.length).Alike receiver' related ∧ receiver'.Excuses excused ∧
        related .taking (ofStages (.collecting {}) stages) (ofStages (.collecting {}) stages) := by
  induction stages with
  | nil =>
    exact ⟨_, _, Terminal.receiver_alike_guarded, Receiver.guarded_excuses excused _, rfl, rfl⟩
  | cons stage rest ih =>
    obtain ⟨receiver', related, alike, excuses, ready⟩ :=
      ih (fun other member => created other (List.mem_cons_of_mem _ member))
        fun other member => files other (List.mem_cons_of_mem _ member)
    have fits : Progress.taking.Fits stage.phase := by
      rw [created stage List.mem_cons_self]
      exact rfl
    refine ⟨_, _, Stage.receiver_alike_guarded alike excuses data, Receiver.guarded_excuses excused _,
      ⟨rfl, fits, .here ready, fun stopped => by cases stopped⟩, ?_⟩
    exact files stage List.mem_cons_self

end Chain

/-! ### Plans -/

namespace Projection

variable {services : Services σ} {settings : Settings}

/-- Only a projection that says so has its rows exported. -/
theorem writer_of_exports {projection : Projection} {job : Job σ} {body : StageBody}
    (compiled : projection.compileBody services settings job = .ok body)
    (exports : body.exports = true) : projection.kind = .writer := by
  cases starts_of_compileBody compiled with
  | exporting => rfl
  | _ => cases exports

theorem Compiled.writer_of_exports {plan : List Projection} {stages : List Stage}
    (compiled : Compiled services settings plan stages) :
    ∀ stage ∈ stages, stage.body.exports = true →
      ∃ projection ∈ plan, projection.kind = .writer := by
  induction compiled with
  | nil => simp
  | cons compiled _ ih =>
    intro stage member exports
    rcases List.mem_cons.mp member with rfl | member
    · exact ⟨_, List.mem_cons_self, Projection.writer_of_exports compiled exports⟩
    · obtain ⟨projection, listed, same⟩ := ih stage member exports
      exact ⟨projection, List.mem_cons_of_mem _ listed, same⟩

end Projection

namespace Plan

variable {services : Services σ} {settings : Settings}

/-- A plan that compiled fails on its data or, if it exports rows, on the files it exports them to,
whatever the cluster answers. -/
theorem execute_error_isData (services : Services σ) (settings : Settings) (plan : List Projection)
    (stages : List Stage) (rows : List Row) (job : Job σ) (error : ExecutionError)
    (compiled : (Projection.compileAll services settings plan job).1 = .ok stages)
    (failed : (execute services settings plan rows job).1 = .error error) :
    error.IsData ∨
      (∃ projection ∈ plan, projection.kind = .writer) ∧ ∃ detail, error = .io detail := by
  have chained := Projection.compileAll_compiled compiled
  let excused (error : ExecutionError) : Prop :=
    error.IsData ∨ (∃ projection ∈ plan, projection.kind = .writer) ∧ ∃ detail, error = .io detail
  have data (error : ExecutionError) (isData : error.IsData) : excused error := .inl isData
  have files : ∀ stage ∈ stages, stage.body.exports = true → ∀ detail, excused (.io detail) := by
    intro stage member exports detail
    obtain ⟨projection, listed, same⟩ := chained.writer_of_exports stage member exports
    exact .inr ⟨⟨projection, listed, same⟩, detail, rfl⟩
  obtain ⟨receiver', related, (alike : (Chain.receiver services stages.length).Alike receiver' related),
    excuses, ready⟩ := Chain.alike_excusing data chained.created files
  obtain ⟨after, same⟩ := execute_compiled compiled rows
  rw [same] at failed
  obtain ⟨outcome, last, last', job', run, run', _⟩ :=
    alike.run (stages.map Stage.kind) rows _ _ after ready
  cases outcome with
  | ok _ =>
    obtain ⟨emitted, result⟩ := collected_of_run chained.created run
    simp only [runStages, Chain.run, run, result] at failed
    cases failed
  | error reason =>
    simp only [runStages, Chain.run, run] at failed
    obtain rfl := Except.error.inj failed
    exact excuses.run run'

/-- Deleting on a shard that cannot be reached does not fail the stage; its count is no truth value,
which fails the next one. -/
theorem execute_error_isData_unreachable :
    let shard : ShardId := ⟨"t", 0⟩
    let cluster : LocalCluster := { LocalCluster.ofSize 1 1 with failingShards := [shard] }
    let job : Job Simulation :=
      { Job.alone with shard := some shard, node := { services := ⟨cluster, [], {}⟩ } }
    let plan : List Projection := [.delete ⟨.input 0, none⟩, .filter (.input 0)]
    let error : ExecutionError := .evaluation (.predicateType .long)
    (execute Simulation.services {} plan [[.text "1"]] job).1 = .error error ∧
      (error.IsData ∨ (∃ projection ∈ plan, projection.kind = .writer) ∧
        ∃ detail, error = .io detail) := by
  intro shard cluster job plan error
  have failed : (execute Simulation.services {} plan [[.text "1"]] job).1 = .error error := rfl
  exact ⟨failed, execute_error_isData Simulation.services {} plan _ [[.text "1"]] job error rfl failed⟩

end Plan

end RowPipeline
