import RowPipeline.Plan.Execution
import RowPipeline.Proofs.Calls
import RowPipeline.Proofs.Compilation
import RowPipeline.Proofs.StageProtocol

/-!
Chains keep the protocol: whatever the rows are and whatever the cluster and the files answer, the
receivers of a chain get orderly calls, and either all of them are finished or all are failed with
the same error.
-/

namespace RowPipeline

open Progress Turn

variable {σ δ δ' : Type}

/-! ### Stages -/

namespace Progress

/-- The phases of a stage that got so far. -/
def Fits : Progress → Phase → Prop
  | .taking, phase | .closed, phase => phase.isTerminal = false
  | .broken, phase => phase ≠ .failed
  | .finished, phase => phase = .completed
  | .failed _, phase => phase = .failed

theorem fits_afterRow (answer : Except ExecutionError Flow) : (afterRow answer).Fits .running := by
  rcases answer with _ | _ | _
  · exact Phase.noConfusion
  · exact rfl
  · exact rfl

private theorem fits_afterFinish (answer : Except ExecutionError Unit) :
    (afterFinish answer).Fits .completed := by
  cases answer with
  | error => exact Phase.noConfusion
  | ok => exact rfl

theorem Fits.unended {progress : Progress} {phase : Phase} (unended : Behind .closed progress)
    (fits : progress.Fits phase) : phase.isTerminal = false := by
  cases unended <;> exact fits

theorem Fits.unfailed {progress : Progress} {phase : Phase} (unfailed : Behind .broken progress)
    (fits : progress.Fits phase) : phase ≠ .failed := by
  rintro rfl
  cases unfailed with
  | same => exact fits rfl
  | takingBroken => cases fits
  | closedBroken => cases fits

end Progress

namespace Stage

variable {next : Receiver σ δ} {next' : Receiver σ δ'} {related : Progress → δ → δ' → Prop}

theorem takeRow_apply (services : Services σ) (next : Receiver σ δ) (row : Row) (stage : Stage)
    (below : δ) (job : Job σ) (unended : stage.phase.isTerminal = false) :
    takeRow services next row ((stage, below), job) =
      within (fun body => { stage with phase := .running, body := body }) stage.body
        (StageBody.takeRow services next row) ((stage, below), job) := by
  have entered : stage.phase.row stage.kind.name = .ok .running := by simp [Phase.row, unended]
  simp only [takeRow, own_bind, entered, ofExcept_ok]
  rfl

theorem finish_apply (services : Services σ) (next : Receiver σ δ) (stage : Stage) (below : δ)
    (job : Job σ) (unended : stage.phase.isTerminal = false) :
    finish services next ((stage, below), job) =
      within (fun body => { stage with phase := .completed, body := body }) stage.body
        (StageBody.finish services next) ((stage, below), job) := by
  have entered : stage.phase.finish stage.kind.name = .ok .completed := by
    simp [Phase.finish, unended]
  simp only [finish, own_bind, entered, ofExcept_ok]
  rfl

/-- The same stage in front of related receivers. -/
structure Together (related : Progress → δ → δ' → Prop) (progress : Progress) (state : Stage × δ)
    (state' : Stage × δ') : Prop where
  same : state.1 = state'.1
  fits : progress.Fits state.1.phase
  behind : Lagging related progress state.2 state'.2
  /-- A stage that stopped has nothing left to emit. -/
  spent : progress = .closed → related .taking state.2 state'.2 ∨ state.1.body.Exhausted

theorem takeRow_alike (alike : next.Alike next' related) (services : Services σ) (row : Row) :
    Related (Together related .taking) (takeRow services next row) (takeRow services next' row)
      (fun answer => Together related (afterRow answer)) := by
  rintro ⟨stage, below⟩ ⟨stage', below'⟩ job ⟨same, fits, behind, _⟩
  obtain rfl : stage = stage' := same
  rw [takeRow_apply services next row stage below job fits,
    takeRow_apply services next' row stage below' job fits]
  refine Related.within (StageBody.takeRow_alike alike services row)
    (fun _ _ start => Anyhow.of _ (Lagging.taking start)) ?_ _ _ job behind
  rintro answer body body' next next' ⟨rfl, ready | ⟨spent, behind⟩⟩
  · exact ⟨rfl, fits_afterRow answer, .idle ready, fun _ => .inl ready⟩
  · exact ⟨rfl, fits_afterRow answer, behind, fun _ => .inr spent⟩

theorem finish_alike (alike : next.Alike next' related) (services : Services σ)
    {progress : Progress} (unended : Behind .closed progress) :
    Related (Together related progress) (finish services next) (finish services next')
      (fun answer => Together related (afterFinish answer)) := by
  rintro ⟨stage, below⟩ ⟨stage', below'⟩ job ⟨same, fits, behind, spent⟩
  obtain rfl : stage = stage' := same
  rw [finish_apply services next stage below job (fits.unended unended),
    finish_apply services next' stage below' job (fits.unended unended)]
  have driven : Driven StageBody.Exhausted related .closed (stage.body, below)
      (stage.body, below') := by
    cases unended with
    | same =>
      refine ⟨rfl, ?_⟩
      rcases spent rfl with ready | spent
      · exact .inl ready
      · exact .inr ⟨spent, behind⟩
    | takingClosed => exact ⟨rfl, .inl behind.taking⟩
  refine Related.within (StageBody.finish_alike alike services)
    (fun state state' (start : Driven _ _ _ (stage.body, state.2) (stage.body, state'.2)) => start)
    ?_ _ _ job driven
  rintro answer body body' next next' ⟨rfl, _, behind⟩
  exact ⟨rfl, fits_afterFinish answer, behind, fun same => by cases answer <;> cases same⟩

private theorem meanwhile_exhausted (services : Services σ) (body : StageBody) (job : Job σ)
    (spent : body.Exhausted) : (StageBody.meanwhile services (body, job)).1.Exhausted := by
  cases body <;> exact spent

private theorem meanwhile_alike (alike : next.Alike next' related) (services : Services σ)
    {progress : Progress} :
    RelatedSteps (Together related progress) (meanwhile services next) (meanwhile services next')
      (Together related progress) := by
  rintro ⟨stage, below⟩ ⟨stage', below'⟩ job ⟨same, fits, behind, spent⟩
  obtain rfl : stage = stage' := same
  obtain ⟨lower, lag, start, left⟩ : ∃ lower, Behind progress lower ∧ related lower below below' ∧
      (progress = .closed → lower = .taking ∨ stage.body.Exhausted) := by
    obtain ⟨lower, lag, start⟩ := behind
    by_cases closed : progress = .closed
    · subst closed
      rcases spent rfl with ready | spent
      · exact ⟨.taking, .takingClosed, ready, fun _ => .inl rfl⟩
      · exact ⟨lower, lag, start, fun _ => .inr spent⟩
    · exact ⟨lower, lag, start, fun same => absurd same closed⟩
  obtain ⟨next, next', job', run, run', reached⟩ :=
    alike.meanwhile below below' (StageBody.meanwhile services (stage.body, job)).2 start
  let after : Stage := { stage with body := (StageBody.meanwhile services (stage.body, job)).1 }
  refine ⟨(after, next), (after, next'), job', by simp only [meanwhile, run, after],
    by simp only [meanwhile, run', after], rfl, fits, ⟨lower, lag, reached⟩, fun closed => ?_⟩
  rcases left closed with rfl | spent
  · exact .inl reached
  · exact .inr (meanwhile_exhausted services stage.body job spent)

private theorem fail_alike (alike : next.Alike next' related) (services : Services σ)
    {progress : Progress} (unfailed : Behind .broken progress) (error : ExecutionError) :
    RelatedSteps (Together related progress) (fail services next error)
      (fail services next' error) (Together related (.failed error)) := by
  rintro ⟨stage, below⟩ ⟨stage', below'⟩ job ⟨same, fits, behind, _⟩
  obtain rfl : stage = stage' := same
  have once : stage.phase.fail? = some .failed := by simp [Phase.fail?, fits.unfailed unfailed]
  obtain ⟨next, next', job', run, run', reached⟩ := alike.failLagging error below below'
    (StageBody.clear services (stage.body, job)).2 (behind.unfailed unfailed)
  let after : Stage :=
    { stage with phase := .failed, body := (StageBody.clear services (stage.body, job)).1 }
  exact ⟨(after, next), (after, next'), job', by simp only [fail, once, run, after],
    by simp only [fail, once, run', after], rfl, rfl, .here reached, fun closed => by cases closed⟩

/-- A stage cannot tell receivers apart that are alike, so neither can what is in front of it. -/
theorem receiver_alike (alike : next.Alike next' related) (services : Services σ) :
    (receiver services next).Alike (receiver services next') (Together related) where
  attached _ := ⟨rfl, rfl⟩
  takeRow row := takeRow_alike alike services row
  finish unended := finish_alike alike services unended
  meanwhile := meanwhile_alike alike services
  fail unfailed error := fail_alike alike services unfailed error

end Stage

/-! ### What is behind the last stage -/

namespace Terminal

/-- A collector that got so far. -/
def At : Progress → Terminal → Prop
  | _, .unattached => False
  | .taking, .collecting collector | .closed, .collecting collector
  | .broken, .collecting collector => collector.delivered = none
  | .finished, .collecting collector => ∃ rows, collector.delivered = some (.ok rows)
  | .failed error, .collecting collector => collector.delivered = some (.error error)

theorem At.rows {terminal : Terminal} (reached : terminal.At .finished) :
    ∃ rows, terminal.result = .ok rows := by
  cases terminal with
  | unattached => exact reached.elim
  | collecting collector =>
    obtain ⟨rows, delivered⟩ := reached
    exact ⟨rows, by rw [result, Collector.result, delivered]; rfl⟩

theorem At.error {terminal : Terminal} {error : ExecutionError} (reached : terminal.At (.failed error)) :
    terminal.result = .error error := by
  cases terminal with
  | unattached => exact reached.elim
  | collecting collector =>
    have delivered : collector.delivered = some (.error error) := reached
    rw [result, Collector.result, delivered]
    rfl

theorem receiver_alike : (receiver : Receiver σ Terminal).Alike receiver
    fun progress terminal terminal' => terminal = terminal' ∧ terminal.At progress where
  attached := by
    rintro progress terminal _ ⟨rfl, reached⟩
    cases terminal with
    | unattached => cases progress <;> exact reached.elim
    | collecting => exact ⟨rfl, rfl⟩
  takeRow row := by
    rintro terminal _ job ⟨rfl, reached⟩
    cases terminal with
    | unattached => exact reached.elim
    | collecting collector =>
      obtain ⟨newest, delivered⟩ := collector
      obtain rfl : delivered = none := reached
      exact ⟨.ok .more, _, _, job, rfl, rfl, rfl, rfl⟩
  finish := by
    rintro progress unended terminal _ job ⟨rfl, reached⟩
    cases terminal with
    | unattached => cases progress <;> exact reached.elim
    | collecting collector =>
      obtain ⟨newest, delivered⟩ := collector
      obtain rfl : delivered = none := by cases unended <;> exact reached
      exact ⟨.ok (), _, _, job, rfl, rfl, rfl, newest.reverse, rfl⟩
  meanwhile := by
    rintro progress terminal _ job ⟨rfl, reached⟩
    exact ⟨terminal, terminal, job, rfl, rfl, rfl, reached⟩
  fail := by
    rintro progress unfailed error terminal _ job ⟨rfl, reached⟩
    cases terminal with
    | unattached => cases progress <;> exact reached.elim
    | collecting collector =>
      obtain ⟨newest, delivered⟩ := collector
      obtain rfl : delivered = none := by cases unfailed <;> exact reached
      exact ⟨_, _, job, rfl, rfl, rfl, rfl⟩

end Terminal

/-! ### Runs -/

namespace Receiver

variable {τ τ' : Type} {receiver : Receiver σ τ} {receiver' : Receiver σ τ'}
variable {related : Progress → τ → τ' → Prop}

/-- How far the head of a chain is when a run is over. -/
def afterRun : Except ExecutionError Unit → Progress
  | .ok () => .finished
  | .error error => .failed error

theorem Alike.drain (alike : receiver.Alike receiver' related) (rows : List Row) :
    Related (related .taking) (receiver.drain rows) (receiver'.drain rows)
      (fun answer => related (afterFinish answer)) :=
  .bind (alike.feed rows) (fun _ => alike.finishLagging) fun _ _ _ failed => failed

theorem Alike.run (alike : receiver.Alike receiver' related) (kinds : List StageKind)
    (rows : List Row) :
    Related (related .taking) (receiver.run kinds rows) (receiver'.run kinds rows)
      (fun outcome => related (afterRun outcome)) := by
  intro state state' job start
  obtain ⟨outcome, next, next', job', run, run', reached⟩ := alike.drain rows state state' job start
  cases outcome with
  | ok =>
    exact ⟨.ok (), next, next', job', by simp only [Receiver.run, run],
      by simp only [Receiver.run, run'], reached⟩
  | error error =>
    obtain ⟨last, last', job'', failed, failed', ended⟩ := alike.fail .same error next next'
      (job'.report .stageFailed (failureFields kinds error)) reached
    exact ⟨.error error, last, last', job'', by simp only [Receiver.run, run, failed],
      by simp only [Receiver.run, run', failed'], ended⟩

end Receiver

/-! ### Chains that record their calls -/

/-- A chain of which every receiver records its calls. -/
def RecordedChain : Nat → Type
  | 0 => Recorded Terminal
  | length + 1 => Recorded (Stage × RecordedChain length)

namespace RecordedChain

def ofStages (terminal : Terminal) : (stages : List Stage) → RecordedChain stages.length
  | [] => (⟨terminal, []⟩ : Recorded Terminal)
  | stage :: rest => (⟨(stage, ofStages terminal rest), []⟩ : Recorded _)

/-- The chain without the records. -/
def chain : (length : Nat) → RecordedChain length → Chain length
  | 0, state => Recorded.receiver state
  | length + 1, state =>
    ((Recorded.receiver state).1, chain length (Recorded.receiver state).2)

/-- The calls of all receivers, the head first and the collector last. -/
def logs : (length : Nat) → RecordedChain length → List (List Call)
  | 0, state => [Recorded.calls state]
  | length + 1, state => Recorded.calls state :: logs length (Recorded.receiver state).2

def receiver (services : Services σ) : (length : Nat) → Receiver σ (RecordedChain length)
  | 0 => Terminal.receiver.recorded
  | length + 1 => (Stage.receiver services (receiver services length)).recorded

/-- A chain and a recorded one whose heads got so far. -/
def Follows : (length : Nat) → Progress → Chain length → RecordedChain length → Prop
  | 0, progress, terminal, state =>
    (terminal = Recorded.receiver state ∧ Terminal.At progress terminal) ∧
      Seen progress (Recorded.calls state)
  | length + 1, progress, chain, state =>
    Stage.Together (Follows length) progress chain (Recorded.receiver state) ∧
      Seen progress (Recorded.calls state)

theorem receiver_alike (services : Services σ) (length : Nat) :
    (Chain.receiver services length).Alike (receiver services length) (Follows length) := by
  induction length with
  | zero => exact Terminal.receiver_alike.recorded
  | succ length ih => exact (Stage.receiver_alike ih services).recorded

private theorem logs_length {length : Nat} (state : RecordedChain length) :
    (logs length state).length = length + 1 := by
  induction length with
  | zero => rfl
  | succ length ih => exact congrArg (· + 1) (ih _)

theorem Follows.chain_eq {length : Nat} {progress : Progress} {plain : Chain length}
    {state : RecordedChain length} (follows : Follows length progress plain state) :
    state.chain length = plain := by
  induction length generalizing progress with
  | zero => exact follows.1.1.symm
  | succ length ih =>
    obtain ⟨lower, _, below⟩ := follows.1.behind
    exact Prod.ext follows.1.same.symm (ih below)

theorem Follows.orderly {length : Nat} {progress : Progress} {plain : Chain length}
    {state : RecordedChain length} (follows : Follows length progress plain state) :
    ∀ calls ∈ state.logs length, Call.Orderly calls := by
  induction length generalizing progress with
  | zero =>
    intro calls member
    obtain rfl := List.mem_singleton.mp member
    exact follows.2.orderly
  | succ length ih =>
    intro calls member
    rcases List.mem_cons.mp member with rfl | member
    · exact follows.2.orderly
    · obtain ⟨lower, _, below⟩ := follows.1.behind
      exact ih below calls member

/-- Once the head is finished or failed, so is everything behind it. -/
theorem Follows.ended {length : Nat} {outcome : Except ExecutionError Unit} {plain : Chain length}
    {state : RecordedChain length} (follows : Follows length (Receiver.afterRun outcome) plain state) :
    (∀ calls ∈ state.logs length, Seen (Receiver.afterRun outcome) calls) ∧
      (Chain.terminal length plain).At (Receiver.afterRun outcome) := by
  induction length with
  | zero =>
    refine ⟨fun calls member => ?_, follows.1.2⟩
    obtain rfl := List.mem_singleton.mp member
    exact follows.2
  | succ length ih =>
    have below : Follows length (Receiver.afterRun outcome) plain.2 (Recorded.receiver state).2 := by
      obtain ⟨lower, behind, below⟩ := follows.1.behind
      cases outcome <;> cases behind <;> exact below
    obtain ⟨seen, at_⟩ := ih below
    refine ⟨fun calls member => ?_, at_⟩
    rcases List.mem_cons.mp member with rfl | member
    · exact follows.2
    · exact seen calls member

theorem follows_ofStages {stages : List Stage} (created : ∀ stage ∈ stages, stage.phase = .created) :
    Follows stages.length .taking (Chain.ofStages (.collecting {}) stages)
      (ofStages (.collecting {}) stages) := by
  induction stages with
  | nil => exact ⟨⟨rfl, rfl⟩, .nothing⟩
  | cons stage rest ih =>
    have below := ih fun other member => created other (List.mem_cons_of_mem _ member)
    have fits : Progress.taking.Fits stage.phase := by
      rw [created stage List.mem_cons_self]
      exact rfl
    exact ⟨⟨rfl, fits, .here below, fun stopped => by cases stopped⟩, .nothing⟩

/-- What the calls of a run come to: they are orderly, and either every receiver was finished once
and the collector has the rows, or every receiver was failed once with the error of the run. -/
structure Settled {length : Nat} (outcome : Except ExecutionError Unit)
    (last : RecordedChain length) : Prop where
  orderly : ∀ calls ∈ last.logs length, Call.Orderly calls
  finished : outcome = .ok () →
    (∀ calls ∈ last.logs length, Call.finishes calls = 1 ∧ Call.failures calls = []) ∧
      ∃ rows, (Chain.terminal length (last.chain length)).result = .ok rows
  failed : ∀ error, outcome = .error error →
    (∀ calls ∈ last.logs length, Call.failures calls = [error]) ∧
      (Chain.terminal length (last.chain length)).result = .error error

theorem Follows.settled {length : Nat} {outcome : Except ExecutionError Unit} {plain : Chain length}
    {state : RecordedChain length} (follows : Follows length (Receiver.afterRun outcome) plain state) :
    Settled outcome state := by
  obtain ⟨seen, last⟩ := follows.ended
  refine ⟨follows.orderly, ?_, ?_⟩ <;> rw [follows.chain_eq]
  · rintro rfl
    exact ⟨fun calls member => (seen calls member).ofFinished, last.rows⟩
  · rintro error rfl
    exact ⟨fun calls member => (seen calls member).ofFailed, last.error⟩

end RecordedChain

namespace Plan

variable {services : Services σ} {settings : Settings}

/-- A plan that compiles is run through its stages. -/
theorem execute_compiled {plan : List Projection} {stages : List Stage} {job : Job σ}
    (compiled : (Projection.compileAll services settings plan job).1 = .ok stages)
    (rows : List Row) :
    ∃ after, execute services settings plan rows job = runStages services stages rows after := by
  unfold execute
  rcases done : Projection.compileAll services settings plan job with ⟨outcome, after⟩
  rw [done] at compiled
  obtain rfl : outcome = .ok stages := compiled
  exact ⟨after, rfl⟩

/-- Unless a run fails, its collector has the rows. -/
theorem collected_of_run {stages : List Stage} {rows : List Row} {job after : Job σ}
    {last : Chain stages.length} (created : ∀ stage ∈ stages, stage.phase = .created)
    (run : Chain.run services (stages.map Stage.kind) stages.length rows
      (Chain.ofStages (.collecting {}) stages, job) = (.ok (), (last, after))) :
    ∃ rows, (Chain.terminal stages.length last).result = .ok rows := by
  obtain ⟨outcome, plain, recorded, _, run', _, follows⟩ :=
    (RecordedChain.receiver_alike services stages.length).run (stages.map Stage.kind) rows _ _ job
      (RecordedChain.follows_ofStages created)
  cases run'.symm.trans run
  rw [← follows.chain_eq]
  exact (follows.settled.finished rfl).2

end Plan

/-- The receivers of a compiled chain get orderly calls, whatever the rows are and whatever the
cluster and the files answer. The recorded run is the run of the chain, with the same outcome, the
same job and the same chain after it. -/
theorem Chain.run_settled (services : Services σ) (settings : Settings) (plan : List Projection)
    (stages : List Stage) (compiling : Job σ)
    (compiled : (Projection.compileAll services settings plan compiling).1 = .ok stages)
    (rows : List Row) (job : Job σ) :
    ∃ (outcome : Except ExecutionError Unit) (last : RecordedChain stages.length) (after : Job σ),
      (RecordedChain.receiver services stages.length).run (stages.map Stage.kind) rows
          (RecordedChain.ofStages (.collecting {}) stages, job) = (outcome, (last, after)) ∧
        Chain.run services (stages.map Stage.kind) stages.length rows
          (Chain.ofStages (.collecting {}) stages, job) =
            (outcome, (last.chain stages.length, after)) ∧
        (last.logs stages.length).length = stages.length + 1 ∧ RecordedChain.Settled outcome last := by
  have created := (Projection.compileAll_compiled compiled).created
  obtain ⟨outcome, plain, last, after, run, recorded, follows⟩ :=
    (RecordedChain.receiver_alike services stages.length).run (stages.map Stage.kind) rows _ _ job
      (RecordedChain.follows_ofStages created)
  refine ⟨outcome, last, after, recorded, ?_, last.logs_length, follows.settled⟩
  rw [follows.chain_eq]
  exact run

theorem Chain.run_settled_counts :
    let plan := [Projection.topN 2 0, .mergeCount]
    let stages : List Stage :=
      [⟨.topN, .slice ⟨0, 2⟩, .created⟩, ⟨.mergeCount, .count {}, .created⟩]
    let rows : List Row := [[.long 3], [.long 4], [.long 5]]
    (Projection.compileAll Simulation.services {} plan Job.alone).1 = .ok stages ∧
      ∃ (outcome : Except ExecutionError Unit) (last : RecordedChain 2) (after : Job Simulation),
        (RecordedChain.receiver Simulation.services 2).run (stages.map Stage.kind) rows
            (RecordedChain.ofStages (.collecting {}) stages, Job.alone) =
              (outcome, (last, after)) ∧ RecordedChain.Settled outcome last := by
  refine ⟨rfl, ?_⟩
  obtain ⟨outcome, last, after, recorded, _, _, settled⟩ :=
    Chain.run_settled Simulation.services {} [.topN 2 0, .mergeCount] _ Job.alone rfl
      [[.long 3], [.long 4], [.long 5]] Job.alone
  exact ⟨outcome, last, after, recorded, settled⟩

end RowPipeline
