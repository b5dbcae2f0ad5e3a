import RowPipeline.Proofs.ChainProtocol
import RowPipeline.Proofs.SharedMemory
import RowPipeline.Proofs.WriterSteps

/-!
The balance of the memory of a job. Whatever a stage is asked for and however that ends, what it
charges and gives back is what the account of the job tells, so that a plan leaves the account as it
found it.
-/

namespace RowPipeline

variable {σ τ β γ δ α : Type}

/-! ### What turns leave -/

namespace Turn

/-- However a turn ends, something holds of the state that it leaves. -/
def Leaves (turn : Turn σ τ α) (holds : τ × Job σ → Prop) (state : τ × Job σ) : Prop :=
  holds (turn state).2

theorem onJob_bind (step : Job σ → Except ExecutionError β × Job σ) (next : β → Turn σ τ α)
    (receiver : τ) (job : Job σ) :
    (onJob step >>= next) (receiver, job) =
      match step job with
      | (.ok value, job) => next value (receiver, job)
      | (.error error, job) => (.error error, (receiver, job)) := by
  simp only [bind_apply, onJob]
  rcases step job with ⟨error | value, job'⟩ <;> rfl

end Turn

/-- The account of a job tells a limit and what is used. -/
structure Job.Tells (job : Job σ) (limit used : Nat) : Prop where
  limit : job.memory.limit = limit
  used : job.memory.used = used

theorem Job.Tells.of_memory {job job' : Job σ} {limit used : Nat} (tells : job.Tells limit used)
    (same : job'.memory = job.memory) : job'.Tells limit used :=
  ⟨same ▸ tells.limit, same ▸ tells.used⟩

/-- Giving back what a share has. -/
theorem Job.Tells.releaseAll {job : Job σ} {limit others : Nat} {share : MemoryShare}
    (tells : job.Tells limit (others + share.charged)) :
    (job.releaseAll share).2.Tells limit others :=
  ⟨tells.limit, Nat.sub_eq_of_eq_add tells.used⟩

theorem Job.Tells.release {job : Job σ} {limit others : Nat} {share : MemoryShare}
    (tells : job.Tells limit (others + share.charged)) (bytes : Nat) :
    (job.release share bytes).2.Tells limit (others + (job.release share bytes).1.charged) := by
  have given : min bytes share.charged ≤ share.charged := Nat.min_le_right ..
  refine ⟨tells.limit, ?_⟩
  show job.memory.used - min bytes share.charged = others + (share.charged - min bytes share.charged)
  rw [tells.used]
  omega

/-- A share that was granted more has all of it. -/
theorem Job.Tells.share_of_charge {job job' : Job σ} {limit others bytes : Nat}
    {share share' : MemoryShare} (tells : job.Tells limit (others + share.charged))
    (finite : limit < MemoryAccount.unlimited)
    (granted : job.charge share bytes = (.ok share', job')) : share' = ⟨share.charged + bytes⟩ := by
  obtain ⟨rfl, used⟩ := tells
  by_cases fits : job.memory.used + bytes ≤ job.memory.limit
  · rw [Job.charge_of_le finite (used ▸ Nat.le_add_left ..) fits] at granted
    cases granted
    rfl
  · rw [Job.charge_of_lt finite (Nat.lt_of_not_le fits)] at granted
    cases granted

/-- The account of a job tells what others have, whoever they are, and what is charged here. -/
def Accounted (limit others : Nat) (charged : τ → Nat) (state : τ × Job σ) : Prop :=
  state.2.Tells limit (others + charged state.1)

/-- What is charged to the first of two receivers and to the one behind it. -/
def chargedBoth (own : β → Nat) (behind : δ → Nat) (state : β × δ) : Nat :=
  own state.1 + behind state.2

namespace Accounted

variable {limit others : Nat} {own : β → Nat} {behind : δ → Nat}

theorem above_iff {receiver : β} {next : δ} {job : Job σ} :
    Accounted limit others (chargedBoth own behind) ((receiver, next), job) ↔
      Accounted limit (others + behind next) own (receiver, job) := by
  unfold Accounted chargedBoth
  rw [Nat.add_assoc, Nat.add_comm (behind next)]

theorem below_iff {receiver : β} {next : δ} {job : Job σ} :
    Accounted limit others (chargedBoth own behind) ((receiver, next), job) ↔
      Accounted limit (others + own receiver) behind (next, job) := by
  unfold Accounted chargedBoth
  rw [Nat.add_assoc]

end Accounted

namespace Turn

namespace Leaves

variable {holds : τ × Job σ → Prop} {state : τ × Job σ}

theorem pure {value : α} (there : holds state) : Leaves (Pure.pure value : Turn σ τ α) holds state :=
  there

theorem throw {error : ExecutionError} (there : holds state) :
    Leaves (MonadExcept.throw error : Turn σ τ α) holds state := there

theorem bind {turn : Turn σ τ β} {next : β → Turn σ τ α} (first : Leaves turn holds state)
    (rest : ∀ value last, holds last → Leaves (next value) holds last) :
    Leaves (turn >>= next) holds state := by
  unfold Leaves at *
  rw [bind_apply]
  rcases run : turn state with ⟨error | value, last⟩ <;> rw [run] at first
  · exact first
  · exact rest value last first

theorem bind_of_ok {turn : Turn σ τ β} {next : β → Turn σ τ α} {value : β} {last : τ × Job σ}
    (done : turn state = (.ok value, last)) (rest : Leaves (next value) holds last) :
    Leaves (turn >>= next) holds state := by
  unfold Leaves
  rw [Turn.bind_of_ok done]
  exact rest

theorem own_bind {next : τ → Turn σ τ α} (rest : Leaves (next state.1) holds state) :
    Leaves (own >>= next) holds state := rest

theorem setOwn {receiver : τ} (there : holds (receiver, state.2)) :
    Leaves (Turn.setOwn receiver : Turn σ τ Unit) holds state := there

theorem setOwn_bind {receiver : τ} {next : Unit → Turn σ τ α}
    (rest : Leaves (next ()) holds (receiver, state.2)) :
    Leaves (Turn.setOwn receiver >>= next) holds state := rest

theorem ofState_bind {step : τ × Job σ → β × (τ × Job σ)} {next : β → Turn σ τ α}
    (rest : Leaves (next (step state).1) holds (step state).2) :
    Leaves (ofState step >>= next) holds state := rest

/-- What has no value fails and leaves the state alone. -/
theorem evaluated_bind {result : Except EvaluationFault β} {next : β → Turn σ τ α}
    (there : holds state) (rest : ∀ value, result = .ok value → Leaves (next value) holds state) :
    Leaves (evaluated result >>= next) holds state := by
  cases result with
  | error fault => exact there
  | ok value => exact rest value rfl

theorem ofExcept_bind {result : Except ExecutionError β} {next : β → Turn σ τ α}
    (there : holds state) (rest : ∀ value, result = .ok value → Leaves (next value) holds state) :
    Leaves (ofExcept result >>= next) holds state := by
  cases result with
  | error error => exact there
  | ok value => exact rest value rfl

/-- A charge that is refused changes neither the share nor the account. -/
theorem charge_bind {share : MemoryShare} {bytes limit others : Nat}
    {next : MemoryShare → Turn σ τ α} (finite : limit < MemoryAccount.unlimited)
    (tells : state.2.Tells limit (others + share.charged))
    (refused : ∀ job, job.Tells limit (others + share.charged) → holds (state.1, job))
    (granted : ∀ job, Job.charge share bytes state.2 = (.ok ⟨share.charged + bytes⟩, job) →
      job.Tells limit (others + (share.charged + bytes)) →
        Leaves (next ⟨share.charged + bytes⟩) holds (state.1, job)) :
    Leaves (onJob (Job.charge share bytes) >>= next) holds state := by
  obtain ⟨receiver, job⟩ := state
  obtain ⟨rfl, used⟩ := tells
  have held : share.charged ≤ job.memory.used := used ▸ Nat.le_add_left ..
  unfold Leaves
  rw [onJob_bind]
  by_cases fits : job.memory.used + bytes ≤ job.memory.limit
  · have charged := Job.charge_of_le finite held fits
    rw [charged]
    refine granted _ charged ⟨rfl, ?_⟩
    rw [← Nat.add_assoc, ← used]
  · rw [Job.charge_of_lt finite (Nat.lt_of_not_le fits)]
    exact refused _ ⟨rfl, used⟩

theorem above {turn : Turn σ β α} {receiver : β} {next : δ} {job : Job σ} {limit others : Nat}
    {own : β → Nat} {behind : δ → Nat}
    (leaves : Leaves turn (Accounted limit (others + behind next) own) (receiver, job)) :
    Leaves (above turn) (Accounted limit others (chargedBoth own behind)) ((receiver, next), job) :=
  Accounted.above_iff.mpr leaves

theorem below {turn : Turn σ δ α} {receiver : β} {next : δ} {job : Job σ} {limit others : Nat}
    {own : β → Nat} {behind : δ → Nat}
    (leaves : Leaves turn (Accounted limit (others + own receiver) behind) (next, job)) :
    Leaves (below turn) (Accounted limit others (chargedBoth own behind)) ((receiver, next), job) :=
  Accounted.below_iff.mpr leaves

/-- What a part leaves is left of the whole. -/
theorem within {wrap : β → γ} {receiver : β} {turn : Turn σ (β × δ) α} {own : γ} {next : δ}
    {job : Job σ} {holds : (γ × δ) × Job σ → Prop}
    (leaves : Leaves turn (fun last => holds ((wrap last.1.1, last.1.2), last.2))
      ((receiver, next), job)) :
    Leaves (within wrap receiver turn) holds ((own, next), job) := leaves

end Leaves

/-- Whoever else has memory of the job, what a turn charges and gives back is what the account
tells. -/
def Balances (limit : Nat) (charged : τ → Nat) (turn : Turn σ τ α) : Prop :=
  ∀ others state, Accounted limit others charged state →
    Leaves turn (Accounted limit others charged) state

namespace Balances

variable {limit : Nat} {charged : τ → Nat}

theorem pure (value : α) : Balances limit charged (Pure.pure value : Turn σ τ α) :=
  fun _ _ start => start

theorem throw (error : ExecutionError) :
    Balances limit charged (MonadExcept.throw error : Turn σ τ α) := fun _ _ start => start

theorem own : Balances limit charged (Turn.own : Turn σ τ τ) := fun _ _ start => start

theorem job : Balances limit charged (Turn.job : Turn σ τ (Job σ)) := fun _ _ start => start

theorem modifyJob {change : Job σ → Job σ} (same : ∀ job, (change job).memory = job.memory) :
    Balances limit charged (Turn.modifyJob change : Turn σ τ Unit) :=
  fun _ state start => start.of_memory (same state.2)

theorem bind {turn : Turn σ τ β} {next : β → Turn σ τ α} (first : Balances limit charged turn)
    (rest : ∀ value, Balances limit charged (next value)) : Balances limit charged (turn >>= next) :=
  fun others state start => (first others state start).bind fun value last => rest value others last

theorem ofExcept (result : Except ExecutionError α) :
    Balances limit charged (Turn.ofExcept result : Turn σ τ α) := by
  cases result with
  | ok value => exact .pure value
  | error error => exact .throw error

theorem evaluated (result : Except EvaluationFault α) :
    Balances limit charged (Turn.evaluated result : Turn σ τ α) := by
  cases result with
  | ok value => exact .pure value
  | error fault => exact .throw (.evaluation fault)

theorem attempt {turn : Turn σ τ α} (balances : Balances limit charged turn) :
    Balances limit charged (Turn.attempt turn) := balances

theorem above {turn : Turn σ β α} {own : β → Nat} {behind : δ → Nat}
    (balances : Balances limit own turn) :
    Balances limit (chargedBoth own behind) (Turn.above turn) :=
  fun _ _ start => .above (balances _ _ (Accounted.above_iff.mp start))

theorem below {turn : Turn σ δ α} {own : β → Nat} {behind : δ → Nat}
    (balances : Balances limit behind turn) :
    Balances limit (chargedBoth own behind) (Turn.below turn) :=
  fun _ _ start => .below (balances _ _ (Accounted.below_iff.mp start))

/-- A receiver without a share can become any other. -/
theorem setOwn (receiver : τ) :
    Balances limit (fun _ => 0) (Turn.setOwn receiver : Turn σ τ Unit) := fun _ _ start => start

end Balances

end Turn

/-! ### Receivers -/

/-- A receiver that always charges and gives back what the account tells. -/
structure Receiver.Balances (limit : Nat) (charged : τ → Nat) (receiver : Receiver σ τ) : Prop where
  takeRow : ∀ row, Turn.Balances limit charged (receiver.takeRow row)
  finish : Turn.Balances limit charged receiver.finish
  meanwhile : Turn.Balances limit charged (.ofState fun state => ((), receiver.meanwhile state))
  fail : ∀ error, Turn.Balances limit charged (.ofState fun state => ((), receiver.fail error state))

namespace Receiver.Balances

variable {limit : Nat} {behind : δ → Nat} {next : Receiver σ δ} {own : β → Nat}

theorem feed (balances : next.Balances limit behind) (rows : List Row) :
    Turn.Balances limit behind (next.feed rows) := by
  induction rows with
  | nil => exact .pure ()
  | cons row rest ih =>
    refine .bind (balances.takeRow row) fun flow => ?_
    cases flow with
    | more => exact ih
    | stop => exact .pure ()

theorem pushAll (balances : next.Balances limit behind) (rows : List Row) :
    Turn.Balances limit behind (next.pushAll rows) := by
  refine .bind .own fun state => ?_
  split
  · exact balances.feed rows
  · exact .throw _

theorem emitOne (balances : next.Balances limit behind) (row : β → Row) :
    Turn.Balances limit (chargedBoth own behind) (next.emitOne row) :=
  .bind .own fun _ => .bind (.below (balances.takeRow _)) fun _ => .below balances.finish

theorem emitAll (balances : next.Balances limit behind) (rows : β → List Row)
    {clear : β × Job σ → β × Job σ}
    (clears : Turn.Balances limit own (.ofState fun state => ((), clear state))) :
    Turn.Balances limit (chargedBoth own behind) (next.emitAll rows clear) := by
  refine .bind .own fun _ => .bind (.attempt (.below (balances.pushAll _))) fun result => ?_
  exact .bind (.above clears) fun _ => .bind (.ofExcept result) fun _ => .below balances.finish

theorem emitLast (balances : next.Balances limit behind) {last : Turn σ β (List Row)}
    (ends : Turn.Balances limit own last) :
    Turn.Balances limit (chargedBoth own behind) (next.emitLast last) :=
  .bind (.above ends) fun rows => .bind (.below (balances.pushAll rows)) fun _ =>
    .below balances.finish

end Receiver.Balances

/-- A stage that gives up what it has as it emits its rows does so whatever becomes of them. -/
theorem Receiver.emitAll_own {own cleared : β} (next : Receiver σ δ) (rows : β → List Row)
    {clear : β × Job σ → β × Job σ} (clears : ∀ job, (clear (own, job)).1 = cleared) (below : δ)
    (job : Job σ) : (next.emitAll rows clear ((own, below), job)).2.1.1 = cleared := by
  rcases pushed : next.pushAll (rows own) (below, job) with ⟨result, below', job'⟩
  have attempted : Turn.attempt (Turn.below (next.pushAll (rows own))) ((own, below), job) =
      (.ok result, ((own, below'), job')) := by
    simp only [Turn.attempt, Turn.below, pushed]
  show Turn.Leaves (next.emitAll rows clear) (fun last => last.1.1 = cleared) ((own, below), job)
  refine .own_bind ?_
  refine .bind_of_ok attempted (.bind (clears job') fun _ last held => ?_)
  exact .ofExcept_bind held fun _ _ => held

/-! ### Writers -/

namespace BulkWriter

variable {services : Services σ}

theorem memory_lasting (memory : MemoryAccount) :
    Lasting services fun state : State σ => state.2.memory = memory where
  arrive := by
    rintro ⟨writer, job⟩ position - same
    cases sent : writer.inFlight[position]? with
    | none => rwa [arrive_of_none sent]
    | some transit =>
      obtain ⟨_, reached⟩ := reach_apply services transit job
      rw [arrive_answered sent rfl, reached]
      exact same
  age := by
    rintro ⟨writer, job⟩ same
    obtain ⟨_, aged⟩ := age_apply services writer job
    rw [aged]
    exact same
  withAdmission _ _ _ same := same
  report _ _ _ _ same := same

private theorem memory_merge (outcome : BulkOutcome) (state : State σ) :
    (merge outcome state).2.memory = state.2.memory := by
  obtain ⟨job', merged, counted⟩ := merge_apply outcome state.1 state.2
  rw [show merge outcome state = _ from merged]
  exact counted.memory

private theorem memory_reap (state : State σ) : (reap state).2.memory = state.2.memory := by
  obtain ⟨job', reaped, counted⟩ := reap_apply state.1 state.2
  rw [show reap state = _ from reaped]
  exact counted.memory

/-- A writer sends what it is given without memory of the job. -/
theorem memory_keeping (memory : MemoryAccount) :
    Keeping services fun _ (state : State σ) => state.2.memory = memory where
  arriving _ := (memory_lasting memory).toArriving
  take _ _ _ _ same := same
  there _ _ _ _ _ same := same
  create _ writer job cluster _ _ _ _ _ _ same :=
    @Arriving.exchange _ _ _ (memory_lasting memory).toArriving (writer, job.withServices cluster) same
  refuse _ _ _ _ _ _ _ same := (memory_merge _ _).trans same
  depart _ _ _ known same :=
    (memory_lasting memory).depart (fun state => state.2.memory = memory) (fun _ _ _ same => same)
      known same
  reap _ same := (memory_reap _).trans same

theorem memory_exchange (state : State σ) :
    (exchange services state).2.memory = state.2.memory :=
  (memory_lasting state.2.memory).exchange rfl

private theorem memory_add (target : ShardTarget) (id : String) (routing : Option String)
    (operation : BulkOperation) (origin : Option String) (writer : BulkWriter) (job : Job σ) :
    (add services target id routing operation origin (writer, job)).2.memory = job.memory :=
  (memory_keeping job.memory).add rfl

theorem memory_finish (state : State σ) :
    (finish services state).2.2.memory = state.2.memory := by
  obtain ⟨writer, job, finished, same, _⟩ :=
    (memory_keeping state.2.memory : Keeping services _).finish (rfl : state.2.memory = _)
  rw [finished]
  exact same

theorem memory_abandon (state : State σ) :
    (abandon services state).2.memory = state.2.memory :=
  @Arriving.awaitAll _ _ _ (memory_lasting state.2.memory).toArriving
    ({ state.1 with pending := [] }, state.2) rfl

end BulkWriter

namespace IndexWriteStage

private theorem memory_takeId (stage : IndexWriteStage) (job : Job σ) :
    (stage.takeId job).2.memory = job.memory := by
  unfold takeId
  split <;> rfl

theorem memory_write (services : Services σ) (row : Row) (stage : IndexWriteStage) (job : Job σ) :
    (stage.write services row job).2.memory = job.memory := by
  unfold write
  split
  · rfl
  · have taken := stage.memory_takeId job
    dsimp only
    split
    · exact taken
    · split
      · exact taken
      · exact (BulkWriter.memory_add ..).trans taken

end IndexWriteStage

theorem ShardWriteStage.memory_write (services : Services σ) (row : Row) (stage : ShardWriteStage)
    (job : Job σ) : (stage.write services row job).2.memory = job.memory := by
  unfold write
  split
  · rfl
  · exact BulkWriter.memory_add ..

end RowPipeline
