import RowPipeline.Proofs.HeldMemory

/-!
Stages that give back their memory. A stage in front of a chain is asked for whatever may come, while
others use the memory of the job as well: its share stays the size of what it holds, as long as no
fetch for its rows fails, and nothing is left of it once it ended well or failed.
-/

namespace RowPipeline

open Turn

variable {σ τ δ : Type}

/-! ### What receivers are asked for -/

inductive Demand where
  | row (row : Row)
  /-- Something is asked of the cluster in front of the receiver. -/
  | pause
  | finish
  | fail (error : ExecutionError)

namespace Receiver

def serve (receiver : Receiver σ τ) : Demand → τ × Job σ → Except ExecutionError Unit × (τ × Job σ)
  | .row row, state =>
    let (answer, state) := receiver.takeRow row state
    (answer.map fun _ => (), state)
  | .pause, state => (.ok (), receiver.meanwhile state)
  | .finish, state => receiver.finish state
  | .fail error, state => (.ok (), receiver.fail error state)

theorem Balances.serve {limit others : Nat} {charged : τ → Nat} {receiver : Receiver σ τ}
    (balances : receiver.Balances limit charged) (demand : Demand) {state : τ × Job σ}
    (start : Accounted limit others charged state) :
    Accounted limit others charged (receiver.serve demand state).2 := by
  cases demand with
  | row row => exact balances.takeRow row others state start
  | pause => exact balances.meanwhile others state start
  | finish => exact balances.finish others state start
  | fail error => exact balances.fail error others state start

end Receiver

namespace Stage

/-- Whether a stage fetches for the rows that wait when it is asked for something. -/
def fetches (stage : Stage) (job : Job σ) : Demand → Bool
  | .row row => !stage.phase.isTerminal && stage.body.fills row job
  | .finish => !stage.phase.isTerminal && stage.body.isFetch
  | _ => false

/-- What a stage in front of a chain comes to in its job, and whether no fetch for its rows failed so
far. -/
inductive Reached (services : Services σ) {length : Nat} (start : Chain (length + 1) × Job σ) :
    Bool → Chain (length + 1) × Job σ → Prop where
  | start : Reached services start true start
  /-- Others use the job, and with it what of its memory does not belong to the chain. -/
  | elsewhere {intact chain job} (other : Job σ) (reached : Reached services start intact (chain, job))
      (limit : other.memory.limit = job.memory.limit)
      (room : Chain.charged (length + 1) chain ≤ other.memory.used) :
      Reached services start intact (chain, other)
  | served {intact state answer after} (demand : Demand) (reached : Reached services start intact state)
      (served : (Chain.receiver services (length + 1)).serve demand state = (answer, after)) :
      Reached services start (intact && (answer.isOk || !state.1.1.fetches state.2 demand)) after

/-- What holds of a stage in front of a chain, whatever it is asked for. -/
structure Sound (limit : Nat) {length : Nat} (intact : Bool) (state : Chain (length + 1) × Job σ) :
    Prop where
  limit : state.2.memory.limit = limit
  room : Chain.charged (length + 1) state.1 ≤ state.2.memory.used
  exact : intact = true → state.1.1.body.Exact
  failed : state.1.1.phase = .failed → state.1.1.body.charged = 0
  other : state.1.1.body.isFetch = false → intact = true

variable {services : Services σ} {next : Receiver σ δ} {stage : Stage} {below : δ} {job : Job σ}

private theorem takeRow_ended (row : Row) (ended : stage.phase.isTerminal = true) :
    takeRow services next row ((stage, below), job) =
      (.error (.invalidState (.rowAfterEnd stage.kind.name stage.phase)), ((stage, below), job)) := by
  simp only [takeRow, Turn.own_bind, Phase.row, ended]
  rfl

theorem finish_ended (ended : stage.phase.isTerminal = true) :
    finish services next ((stage, below), job) =
      (.error (.invalidState (.finishAfterEnd stage.kind.name stage.phase)),
        ((stage, below), job)) := by
  simp only [finish, Turn.own_bind, Phase.finish, ended]
  rfl

private theorem takeRow_cases (row : Row) {motive : Stage → Prop} (ended : motive stage)
    (unended : stage.phase.isTerminal = false →
      motive { stage with
        phase := .running
        body := (StageBody.takeRow services next row ((stage.body, below), job)).2.1.1 }) :
    motive (takeRow services next row ((stage, below), job)).2.1.1 := by
  cases before : stage.phase.isTerminal with
  | true =>
    rw [takeRow_ended row before]
    exact ended
  | false =>
    rw [takeRow_apply services next row stage below job before]
    exact unended before

private theorem finish_cases {motive : Stage → Prop} (ended : motive stage)
    (unended : stage.phase.isTerminal = false →
      motive { stage with
        phase := .completed
        body := (StageBody.finish services next ((stage.body, below), job)).2.1.1 }) :
    motive (finish services next ((stage, below), job)).2.1.1 := by
  cases before : stage.phase.isTerminal with
  | true =>
    rw [finish_ended before]
    exact ended
  | false =>
    rw [finish_apply services next stage below job before]
    exact unended before

/-- A stage that ended takes nothing any more; any other keeps no more of a row than it charges. -/
theorem takeRow_exact {limit others : Nat} (finite : limit < MemoryAccount.unlimited) (row : Row)
    (tells : job.Tells limit (others + stage.body.charged)) (was : stage.body.Exact)
    (fetched : (takeRow services next row ((stage, below), job)).1.isOk = true ∨
      stage.fetches job (.row row) = false) :
    (takeRow services next row ((stage, below), job)).2.1.1.body.Exact := by
  cases ended : stage.phase.isTerminal with
  | true =>
    rw [takeRow_ended row ended]
    exact was
  | false =>
    simp only [fetches, ended] at fetched
    rw [takeRow_apply services next row stage below job ended] at fetched ⊢
    exact StageBody.takeRow_exact finite services next row tells was fetched

theorem finish_emptied (was : stage.body.Exact) (unended : stage.phase.isTerminal = false)
    (fetched : (finish services next ((stage, below), job)).1.isOk = true ∨
      stage.body.isFetch = false) :
    (finish services next ((stage, below), job)).2.1.1.body.Emptied := by
  rw [finish_apply services next stage below job unended] at fetched ⊢
  exact StageBody.finish_emptied services next below job was fetched

/-- A stage that failed once was cleared then; any other is cleared now. -/
theorem charged_fail (error : ExecutionError) (failed : stage.phase = .failed → stage.body.charged = 0) :
    (fail services next error ((stage, below), job)).1.1.body.charged = 0 := by
  unfold fail Phase.fail?
  dsimp only
  by_cases before : stage.phase = .failed
  · simp only [before, beq_self_eq_true, if_true]
    exact failed before
  · simp only [beq_iff_eq, before, if_false]
    exact (StageBody.clear_emptied services stage.body job).charged

private theorem fail_exact (error : ExecutionError) (was : stage.body.Exact) :
    (fail services next error ((stage, below), job)).1.1.body.Exact := by
  unfold fail
  dsimp only
  split
  · exact was
  · exact (StageBody.clear_emptied services stage.body job).exact

private theorem serve_exact {limit others : Nat} (finite : limit < MemoryAccount.unlimited)
    (tells : job.Tells limit (others + stage.body.charged)) (was : stage.body.Exact)
    (demand : Demand)
    (fetched : ((receiver services next).serve demand ((stage, below), job)).1.isOk = true ∨
      stage.fetches job demand = false) :
    ((receiver services next).serve demand ((stage, below), job)).2.1.1.body.Exact := by
  cases demand with
  | row row =>
    refine takeRow_exact finite row tells was (fetched.imp_left fun done => ?_)
    have done : ((takeRow services next row ((stage, below), job)).1.map fun _ => ()).isOk = true := done
    revert done
    cases (takeRow services next row ((stage, below), job)).1 with
    | ok _ => exact fun _ => rfl
    | error _ => exact id
  | pause => exact StageBody.meanwhile_exact services job was
  | finish =>
    cases ended : stage.phase.isTerminal with
    | true =>
      show (finish services next ((stage, below), job)).2.1.1.body.Exact
      rw [finish_ended ended]
      exact was
    | false =>
      simp only [fetches, ended] at fetched
      exact (finish_emptied was ended fetched).exact
  | fail error => exact fail_exact error was

private theorem serve_failed (failed : stage.phase = .failed → stage.body.charged = 0) (demand : Demand) :
    let after := ((receiver services next).serve demand ((stage, below), job)).2.1.1
    after.phase = .failed → after.body.charged = 0 := by
  cases demand with
  | row row =>
    exact takeRow_cases row (motive := fun after => after.phase = .failed → after.body.charged = 0)
      failed fun _ => nofun
  | pause => exact fun after => (StageBody.charged_meanwhile services stage.body job).trans (failed after)
  | finish =>
    exact finish_cases (motive := fun after => after.phase = .failed → after.body.charged = 0)
      failed fun _ => nofun
  | fail error => exact fun _ => charged_fail error failed

private theorem isFetch_serve (demand : Demand) :
    ((receiver services next).serve demand ((stage, below), job)).2.1.1.body.isFetch =
      stage.body.isFetch := by
  cases demand with
  | row row =>
    exact takeRow_cases row (motive := fun after => after.body.isFetch = stage.body.isFetch) rfl
      fun _ => StageBody.isFetch_takeRow services next row stage.body below job
  | pause => exact StageBody.isFetch_meanwhile services stage.body job
  | finish =>
    exact finish_cases (motive := fun after => after.body.isFetch = stage.body.isFetch) rfl
      fun _ => StageBody.isFetch_finish services next stage.body below job
  | fail error =>
    show (fail services next error ((stage, below), job)).1.1.body.isFetch = _
    unfold fail
    dsimp only
    split
    · rfl
    · exact StageBody.isFetch_clear services stage.body job

private theorem isFetch_of_fetches {demand : Demand} (fetches : stage.fetches job demand = true) :
    stage.body.isFetch = true := by
  obtain ⟨kind, body, phase⟩ := stage
  cases demand with
  | row row =>
    have fills := (Bool.and_eq_true_iff.mp fetches).2
    cases body <;> first | rfl | cases fills
  | finish => exact (Bool.and_eq_true_iff.mp fetches).2
  | pause | fail => cases fetches

theorem Sound.accounted {limit length : Nat} {intact : Bool} {state : Chain (length + 1) × Job σ}
    (sound : Sound limit intact state) :
    Accounted limit (state.2.memory.used - Chain.charged (length + 1) state.1)
      (Chain.charged (length + 1)) state :=
  ⟨sound.limit, (Nat.sub_add_cancel sound.room).symm⟩

/-- Whatever a stage is asked for, it stays sound. -/
theorem Sound.serve (services : Services σ) {limit length : Nat} {intact : Bool}
    {state : Chain (length + 1) × Job σ} (finite : limit < MemoryAccount.unlimited)
    (sound : Sound limit intact state) (demand : Demand) :
    let served := (Chain.receiver services (length + 1)).serve demand state
    Sound limit (intact && (served.1.isOk || !state.1.1.fetches state.2 demand)) served.2 := by
  have start := sound.accounted
  have balanced := (Chain.receiver_balances finite services (length + 1)).serve demand start
  obtain ⟨⟨stage, below⟩, job⟩ := state
  refine ⟨balanced.limit, balanced.used ▸ Nat.le_add_left .., fun holds => ?_,
    serve_failed sound.failed demand, fun other => ?_⟩
  · simp only [Bool.and_eq_true, Bool.or_eq_true, Bool.not_eq_true'] at holds
    have whole : Accounted limit _ (chargedFrom (Chain.charged length)) ((stage, below), job) := start
    exact serve_exact finite (Accounted.above_iff.mp whole) (sound.exact holds.1) demand holds.2
  · have other : stage.body.isFetch = false := (isFetch_serve demand).symm.trans other
    have unfetched : stage.fetches job demand = false :=
      Bool.eq_false_iff.mpr fun fetches => by simp [isFetch_of_fetches fetches] at other
    simp [unfetched, sound.other other]

theorem Reached.sound {limit length : Nat} {intact : Bool} {start state : Chain (length + 1) × Job σ}
    (finite : limit < MemoryAccount.unlimited) (fresh : Sound limit true start)
    (reached : Reached services start intact state) : Sound limit intact state := by
  induction reached with
  | start => exact fresh
  | elsewhere other _ same room sound =>
    exact ⟨same.trans sound.limit, room, sound.exact, sound.failed, sound.other⟩
  | served demand _ served sound =>
    have stays := sound.serve services finite demand
    rw [served] at stays
    exact stays

theorem Reached.isFetch {length : Nat} {intact : Bool} {start state : Chain (length + 1) × Job σ}
    (reached : Reached services start intact state) :
    state.1.1.body.isFetch = start.1.1.body.isFetch := by
  induction reached with
  | start => rfl
  | elsewhere _ _ _ _ ih => exact ih
  | @served _ state _ _ demand _ served ih =>
    obtain ⟨⟨stage, below⟩, job⟩ := state
    have same := @isFetch_serve _ _ services (Chain.receiver services length) stage below job demand
    have served : (receiver services (Chain.receiver services length)).serve demand
      ((stage, below), job) = _ := served
    rw [served] at same
    exact same.trans ih

/-- A stage that ends well has nothing left, and one that was failed either. -/
theorem Sound.emptied (services : Services σ) {limit length : Nat} {intact : Bool}
    {state : Chain (length + 1) × Job σ} (sound : Sound limit intact state) (demand : Demand) :
    let (answer, after) := (Chain.receiver services (length + 1)).serve demand state
    (demand = .finish → answer = .ok () → intact = true → after.1.1.body.charged = 0) ∧
      ∀ error, demand = .fail error → after.1.1.body.charged = 0 := by
  obtain ⟨⟨stage, below⟩, job⟩ := state
  let next : Receiver σ (Chain length) := Chain.receiver services length
  constructor
  · rintro rfl (done : (finish services next ((stage, below), job)).1 = .ok ()) whole
    cases ended : stage.phase.isTerminal with
    | true =>
      rw [finish_ended ended] at done
      cases done
    | false => exact (finish_emptied (sound.exact whole) ended (.inl (by rw [done]; rfl))).charged
  · rintro error rfl
    exact charged_fail error sound.failed

theorem Sound.balanced (services : Services σ) {limit length : Nat} {intact : Bool}
    {state : Chain (length + 1) × Job σ} (finite : limit < MemoryAccount.unlimited)
    (sound : Sound limit intact state) (demand : Demand) :
    let after := ((Chain.receiver services (length + 1)).serve demand state).2
    after.2.memory.used + Chain.charged (length + 1) state.1 =
      state.2.memory.used + Chain.charged (length + 1) after.1 := by
  intro after
  have balances := Chain.receiver_balances finite services (length + 1)
  have before := sound.accounted.used
  have used : after.2.memory.used = _ + Chain.charged (length + 1) after.1 :=
    (balances.serve demand sound.accounted).used
  omega

end Stage

theorem Projection.Starts.isFetch {projection : Projection} {body : StageBody}
    (starts : projection.Starts body) (other : projection.kind ≠ .fetch) : body.isFetch = false := by
  cases starts with
  | fetch => exact absurd rfl other
  | _ => rfl

/-- Memory is charged for what is held and given back. In front of any chain and whatever it is asked
for, a stage moves the account of its job by what it charges and gives back. What is charged to it is
the size of what it holds, until a fetch for its rows fails, and one with a limit holds no more rows
than that and its offset; nothing is charged to it once it ended well or failed. However a plan ends,
the account of its job tells what it told before. -/
theorem memory_given_back (services : Services σ) (settings : Settings) (job : Job σ)
    (finite : job.memory.limit < MemoryAccount.unlimited) :
    (∀ plan rows, (Plan.execute services settings plan rows job).2.memory.used = job.memory.used) ∧
    ∀ (projection : Projection) (compiling : Job σ) (stage : Stage) (length : Nat)
      (below : Chain length) (intact : Bool) (state : Chain (length + 1) × Job σ),
      (projection.compile services settings compiling).1 = .ok stage →
      Chain.charged length below ≤ job.memory.used →
      Stage.Reached services ((stage, below), job) intact state →
        (projection.kind ≠ .fetch → intact = true) ∧
        (intact = true → state.1.1.body.charged = state.1.1.body.held ∧
          ∀ top, state.1.1.body = .top top → top.best.length ≤ top.limit + top.sorting.offset) ∧
        ∀ demand,
          let (answer, after) := (Chain.receiver services (length + 1)).serve demand state
          after.2.memory.used + Chain.charged (length + 1) state.1 =
              state.2.memory.used + Chain.charged (length + 1) after.1 ∧
            (demand = .finish → answer = .ok () → intact = true → after.1.1.body.charged = 0) ∧
            ∀ error, demand = .fail error → after.1.1.body.charged = 0 := by
  refine ⟨fun plan rows => (Plan.execute_tells finite services settings plan rows ⟨rfl, rfl⟩).used, ?_⟩
  intro projection compiling stage length below intact state compiled room reached
  rcases done : projection.compile services settings compiling with ⟨_ | _, after⟩
  · rw [done] at compiled
    cases compiled
  rw [done] at compiled
  cases compiled
  obtain ⟨body, built, rfl⟩ := Projection.compile_ok done
  have starts := Projection.starts_of_compileBody built
  have fresh : Stage.Sound job.memory.limit true
      (((⟨projection.kind, body, .created⟩, below) : Chain (length + 1)), job) := by
    refine ⟨rfl, ?_, fun _ => starts.emptied.exact, nofun, fun _ => rfl⟩
    show body.charged + Chain.charged length below ≤ job.memory.used
    rw [starts.emptied.charged, Nat.zero_add]
    exact room
  have sound := reached.sound finite fresh
  refine ⟨fun other => sound.other (reached.isFetch.trans (starts.isFetch other)), ?_, ?_⟩
  · intro whole
    refine ⟨(sound.exact whole).charged, fun top same => ?_⟩
    have exact_ := sound.exact whole
    rw [same] at exact_
    exact Nat.le_trans exact_.fits (Nat.min_le_left ..)
  · exact fun demand => ⟨sound.balanced services finite demand, sound.emptied services demand⟩

/-- A row that comes first takes the place of another one, for which too little memory is left: the
other row is given back, the one that comes first is not kept, and what others have stays. -/
theorem memory_given_back_evicted :
    let job : Job Simulation := { Job.alone with memory := { label := "a", limit := 100, used := 10 } }
    let projection : Projection :=
      .orderedTopN ⟨[.input 0], [.input 0], [false], [false], some 1, 0⟩
    let short : Row := [.text "b"]
    let long : Row := [.text "aaaaaaaaaaaaaaaaaaaa"]
    let result := Plan.execute Simulation.services {} [projection] [short, long] job
    job.memory.limit < MemoryAccount.unlimited ∧ result.1.isOk = false ∧ result.2.memory.used = 10 ∧
      ∃ stage, (projection.compile Simulation.services {} job).1 = .ok stage ∧
        let head : Receiver Simulation (Chain 1) := Chain.receiver Simulation.services 1
        let (kept, first) := head.serve (.row short) ((stage, .collecting {}), job)
        let (refused, second) := head.serve (.row long) first
        kept.isOk = true ∧ first.1.1.body.charged = 66 ∧ refused.isOk = false ∧
          second.1.1.body.charged = second.1.1.body.held ∧ second.1.1.body.held = 0 := by
  intro job projection short long result
  have finite : job.memory.limit < MemoryAccount.unlimited := by decide
  obtain ⟨executed, staged⟩ := memory_given_back Simulation.services {} job finite
  refine ⟨finite, by decide +kernel, executed _ _, _, rfl, by decide +kernel, by decide +kernel,
    by decide +kernel, ?_, by decide +kernel⟩
  obtain ⟨whole, exact, _⟩ := staged projection job _ 0 (.collecting {}) _ _ rfl (Nat.zero_le _)
    (.served (.row long) (.served (.row short) .start rfl) rfl)
  exact (exact (whole (by decide))).1

end RowPipeline
