import RowPipeline.Proofs.StageShares

/-!
The memory of plans. Whatever a stage is asked for, what its chain charges and gives back is what the
account of the job tells, and its share is the size of what it holds; once it ended or failed it holds
nothing, so that a plan leaves the account of its job as it was.
-/

namespace RowPipeline

open Turn

variable {σ τ δ α : Type}

/-! ### Stages that hold nothing -/

section Stages

variable {limit : Nat} {behind : δ → Nat} {next : Receiver σ δ}

theorem FilterStage.takeRow_balances (balances : next.Balances limit behind) (row : Row) :
    Balances limit (chargedBoth (fun _ => 0) behind) (FilterStage.takeRow next row) := by
  refine .bind .own fun _ => .bind (.evaluated _) fun admitted => ?_
  cases admitted with
  | false => exact .pure _
  | true => exact .below (balances.takeRow row)

theorem EvalStage.takeRow_balances (balances : next.Balances limit behind) (row : Row) :
    Balances limit (chargedBoth (fun _ => 0) behind) (EvalStage.takeRow next row) :=
  .bind .own fun _ => .bind (.evaluated _) fun _ => .below (balances.takeRow _)

theorem SliceStage.takeRow_balances (balances : next.Balances limit behind) (row : Row) :
    Balances limit (chargedBoth (fun _ => 0) behind) (SliceStage.takeRow next row) := by
  intro others state start
  refine .own_bind ?_
  dsimp only
  split
  · exact .setOwn_bind (.pure start)
  · split
    · exact .pure start
    · refine .setOwn_bind (.bind (Balances.below (balances.takeRow row) others _ start) ?_)
      exact fun _ _ held => .pure held

variable (limit)

theorem AggregateStage.takeRow_balances (row : Row) :
    Balances limit (fun _ => 0) (AggregateStage.takeRow row : Turn σ AggregateStage Flow) := by
  refine .bind .own fun stage => ?_
  rcases Aggregate.stepAll row stage.states with ⟨states, _ | fault⟩
  · exact .bind (.setOwn _) fun _ => .pure _
  · exact .bind (.setOwn _) fun _ => .throw _

theorem CountStage.takeRow_balances (row : Row) :
    Balances limit (fun _ => 0) (CountStage.takeRow row : Turn σ CountStage Flow) :=
  .bind .own fun _ => .bind (.evaluated _) fun _ => .bind (.setOwn _) fun _ => .pure _

theorem SystemUpdateStage.takeRow_balances (services : Services σ) (row : Row) :
    Balances limit (fun _ => 0) (SystemUpdateStage.takeRow services row) := by
  refine .bind .own fun _ => .bind (.evaluated _) fun _ => .bind (.evaluated _) fun _ => ?_
  refine .bind .job fun _ => .bind (.modifyJob fun _ => rfl) fun _ => ?_
  split
  · exact .bind (.setOwn _) fun _ => .pure _
  · exact .pure _

theorem IndexWriteStage.takeRow_balances (services : Services σ) (row : Row) :
    Balances limit (fun _ => 0) (IndexWriteStage.takeRow services row) :=
  fun _ state start => start.of_memory (memory_write services row state.1 state.2)

theorem IndexWriteStage.summarize_balances (services : Services σ) :
    Balances limit (fun _ => 0) (IndexWriteStage.summarize services) :=
  fun _ state start => start.of_memory (BulkWriter.memory_finish (state.1.writer, state.2))

theorem ShardWriteStage.takeRow_balances (services : Services σ) (row : Row) :
    Balances limit (fun _ => 0) (ShardWriteStage.takeRow services row) :=
  fun _ state start => start.of_memory (memory_write services row state.1 state.2)

theorem ShardWriteStage.summarize_balances (services : Services σ) :
    Balances limit (fun _ => 0) (ShardWriteStage.summarize services) :=
  fun _ state start => start.of_memory (BulkWriter.memory_finish (state.1.writer, state.2))

namespace ExportStage

theorem answered_balances (result : Except FileTree.Fault α) :
    Balances limit (fun _ => 0) (answered result : Turn σ ExportStage α) := by
  cases result with
  | ok value => exact .pure value
  | error fault => exact .throw _

private theorem ensureOpen_balances :
    Balances limit (fun _ => 0) (ensureOpen : Turn σ ExportStage FilePath) := by
  refine .bind .own fun stage => ?_
  cases stage.output with
  | some path => exact .pure path
  | none =>
    refine .bind .job fun _ => .bind (.modifyJob fun _ => rfl) fun _ => ?_
    exact .bind (answered_balances limit _) fun _ => .bind (.setOwn _) fun _ => .pure _

theorem takeRow_balances (row : Row) :
    Balances limit (fun _ => 0) (takeRow row : Turn σ ExportStage Flow) := by
  refine .bind .own fun _ => .bind (.evaluated _) fun _ => ?_
  refine .bind (ensureOpen_balances limit) fun _ => .bind .job fun _ => ?_
  refine .bind (answered_balances limit _) fun _ => .bind (.modifyJob fun _ => rfl) fun _ => ?_
  exact .bind .own fun _ => .bind (.setOwn _) fun _ => .pure _

private theorem close_balances : Balances limit (fun _ => 0) (close : Turn σ ExportStage Unit) := by
  refine .bind (ensureOpen_balances limit) fun _ => .bind .own fun _ => .bind (.setOwn _) fun _ => ?_
  exact .bind .job fun _ => .bind (answered_balances limit _) fun _ => .modifyJob fun _ => rfl

end ExportStage

end Stages

/-! ### Stages of every kind -/

namespace StageBody

/-- What is charged to a stage. -/
def charged : StageBody → Nat
  | .sort stage => stage.charged
  | .top stage => stage.charged
  | .group stage => stage.charged
  | .fetch stage => stage.charged
  | _ => 0

/-- The size of the rows and groups that a stage holds. -/
def held : StageBody → Nat
  | .sort stage => stage.held
  | .top stage => stage.held
  | .group stage => stage.held
  | .fetch stage => stage.held
  | _ => 0

/-- What is charged to a stage is the size of what it holds, and it holds no more than it may. -/
def Exact : StageBody → Prop
  | .sort stage => stage.Exact
  | .top stage => stage.Exact
  | .group stage => stage.Exact
  | .fetch stage => stage.Exact
  | _ => True

theorem Exact.charged {body : StageBody} (exact : body.Exact) : body.charged = body.held := by
  cases body with
  | top => exact TopStage.Exact.charged exact
  | sort | group | fetch => exact exact
  | _ => rfl

variable {limit : Nat} {behind : δ → Nat} {next : Receiver σ δ}

theorem takeRow_balances (balances : next.Balances limit behind)
    (finite : limit < MemoryAccount.unlimited) (services : Services σ) (row : Row) :
    Balances limit (chargedBoth charged behind) (takeRow services next row) := by
  rintro others ⟨⟨body, below⟩, job⟩ start
  refine Leaves.own_bind ?_
  have own := Accounted.above_iff.mp start
  cases body with
  | filter => exact .within (FilterStage.takeRow_balances balances row others _ start)
  | eval => exact .within (EvalStage.takeRow_balances balances row others _ start)
  | slice => exact .within (SliceStage.takeRow_balances balances row others _ start)
  | sort stage =>
    exact .within (.above
      (@SortStage.takeRow_leaves _ False _ _ (stage, job) finite row ⟨own, False.elim⟩).1)
  | top stage =>
    exact .within (.above
      (@TopStage.takeRow_leaves _ False _ _ (stage, job) finite row ⟨own, False.elim⟩).1)
  | group stage =>
    exact .within (.above
      (@GroupStage.takeRow_leaves _ False _ _ (stage, job) finite row ⟨own, False.elim⟩).1)
  | aggregate => exact .within (.above (AggregateStage.takeRow_balances limit row _ _ own))
  | count => exact .within (.above (CountStage.takeRow_balances limit row _ _ own))
  | systemUpdate =>
    exact .within (.above (SystemUpdateStage.takeRow_balances limit services row _ _ own))
  | exporting => exact .within (.above (ExportStage.takeRow_balances limit row _ _ own))
  | indexWrite => exact .within (.above (IndexWriteStage.takeRow_balances limit services row _ _ own))
  | shardWrite => exact .within (.above (ShardWriteStage.takeRow_balances limit services row _ _ own))
  | fetch => exact .within (FetchStage.takeRow_balances balances finite services row others _ start)

theorem finish_balances (balances : next.Balances limit behind) (services : Services σ) :
    Balances limit (chargedBoth charged behind) (finish services next) := by
  rintro others ⟨⟨body, below⟩, job⟩ start
  refine Leaves.own_bind ?_
  cases body with
  | filter | eval | slice => exact Balances.below balances.finish others _ start
  | sort => exact .within (balances.emitAll _ (SortStage.clear_balances limit) others _ start)
  | top => exact .within (balances.emitAll _ (TopStage.clear_balances limit) others _ start)
  | group => exact .within (balances.emitAll _ (GroupStage.clear_balances limit) others _ start)
  | aggregate =>
    have ended : Balances limit (chargedBoth (fun _ => 0) behind) (AggregateStage.finish next) :=
      balances.emitOne _
    exact .within (ended others _ start)
  | count =>
    have ended : Balances limit (chargedBoth (fun _ => 0) behind) (CountStage.finish next) :=
      balances.emitOne _
    exact .within (ended others _ start)
  | systemUpdate =>
    have ended : Balances limit (chargedBoth (fun _ => 0) behind) (SystemUpdateStage.finish next) :=
      balances.emitOne _
    exact .within (ended others _ start)
  | exporting =>
    have ended : Balances limit (chargedBoth (fun _ => 0) behind) (ExportStage.finish next) :=
      .bind (.above (ExportStage.close_balances limit)) fun _ => balances.emitOne _
    exact .within (ended others _ start)
  | indexWrite =>
    exact .within (balances.emitLast (IndexWriteStage.summarize_balances limit services) others _ start)
  | shardWrite =>
    exact .within (balances.emitLast (ShardWriteStage.summarize_balances limit services) others _ start)
  | fetch =>
    have ended := Balances.bind (FetchStage.flush_balances balances services) fun _ =>
      .below balances.finish
    exact .within (ended others _ start)

theorem meanwhile_balances (limit : Nat) (services : Services σ) :
    Balances limit charged (.ofState fun state : StageBody × Job σ =>
      ((), meanwhile services state)) := by
  rintro others ⟨body, job⟩ start
  cases body with
  | indexWrite stage => exact start.of_memory (BulkWriter.memory_exchange (stage.writer, job))
  | shardWrite stage => exact start.of_memory (BulkWriter.memory_exchange (stage.writer, job))
  | _ => exact start

theorem clear_balances (limit : Nat) (services : Services σ) :
    Balances limit charged (.ofState fun state : StageBody × Job σ =>
      ((), clear services state)) := by
  rintro others ⟨body, job⟩ start
  cases body with
  | sort stage => exact SortStage.clear_balances limit others (stage, job) start
  | top stage => exact TopStage.clear_balances limit others (stage, job) start
  | group stage => exact GroupStage.clear_balances limit others (stage, job) start
  | fetch stage => exact FetchStage.clear_balances limit others (stage, job) start
  | indexWrite stage => exact start.of_memory (BulkWriter.memory_abandon (stage.writer, job))
  | shardWrite stage => exact start.of_memory (BulkWriter.memory_abandon (stage.writer, job))
  | _ => exact start

/-- A job gets back what a stage has that it lets go of. -/
theorem dispose_tells {limit others : Nat} {body : StageBody} {job : Job σ}
    (tells : job.Tells limit (others + body.charged)) : (body.dispose job).Tells limit others := by
  cases body with
  | sort | top | group | fetch => exact tells.releaseAll
  | indexWrite | shardWrite => exact tells.of_memory rfl
  | _ => exact tells

/-! What stages hold. -/

/-- Whether a stage fetches for the rows that wait when it is given a row. -/
def fills (row : Row) : StageBody → Job σ → Bool
  | .fetch stage, job => stage.fills row job
  | _, _ => false

def isFetch : StageBody → Bool
  | .fetch _ => true
  | _ => false

section Kinds

variable (services : Services σ) (next : Receiver σ δ) (row : Row) (body : StageBody) (below : δ)
  (job : Job σ)

theorem isFetch_takeRow :
    (takeRow services next row ((body, below), job)).2.1.1.isFetch = body.isFetch := by
  cases body <;> rfl

theorem isFetch_finish : (finish services next ((body, below), job)).2.1.1.isFetch = body.isFetch := by
  cases body <;> rfl

theorem isFetch_meanwhile : (meanwhile services (body, job)).1.isFetch = body.isFetch := by
  cases body <;> rfl

theorem isFetch_clear : (clear services (body, job)).1.isFetch = body.isFetch := by
  cases body <;> rfl

end Kinds

/-- A stage to which nothing is charged for that it holds nothing. -/
structure Emptied (body : StageBody) : Prop where
  charged : body.charged = 0
  exact : body.Exact

theorem takeRow_exact {limit others : Nat} {body : StageBody} {below : δ} {job : Job σ}
    (finite : limit < MemoryAccount.unlimited) (services : Services σ) (next : Receiver σ δ) (row : Row)
    (tells : job.Tells limit (others + body.charged)) (was : body.Exact)
    (fetched : (takeRow services next row ((body, below), job)).1.isOk = true ∨
      body.fills row job = false) :
    (takeRow services next row ((body, below), job)).2.1.1.Exact := by
  cases body with
  | sort stage =>
    exact (@SortStage.takeRow_leaves _ True _ _ (stage, job) finite row ⟨tells, fun _ => was⟩).2 trivial
  | top stage =>
    exact (@TopStage.takeRow_leaves _ True _ _ (stage, job) finite row ⟨tells, fun _ => was⟩).2 trivial
  | group stage =>
    exact (@GroupStage.takeRow_leaves _ True _ _ (stage, job) finite row ⟨tells, fun _ => was⟩).2 trivial
  | fetch stage => exact FetchStage.takeRow_exact finite services next row tells was fetched
  | _ => exact trivial

theorem finish_emptied {body : StageBody} (services : Services σ) (next : Receiver σ δ) (below : δ)
    (job : Job σ) (was : body.Exact)
    (fetched : (finish services next ((body, below), job)).1.isOk = true ∨ body.isFetch = false) :
    (finish services next ((body, below), job)).2.1.1.Emptied := by
  cases body with
  | sort stage =>
    let cleared : SortStage := { stage with share := {}, newest := [] }
    have ended := @Receiver.emitAll_own _ _ _ stage cleared next SortStage.rows SortStage.clear (fun _ => rfl)
    show Emptied (.sort (next.emitAll _ SortStage.clear ((stage, below), job)).2.1.1)
    rw [ended]
    exact ⟨rfl, rfl⟩
  | top stage =>
    let cleared : TopStage := { stage with share := {}, best := [] }
    have ended := @Receiver.emitAll_own _ _ _ stage cleared next TopStage.rows TopStage.clear (fun _ => rfl)
    show Emptied (.top (next.emitAll _ TopStage.clear ((stage, below), job)).2.1.1)
    rw [ended]
    exact ⟨rfl, ⟨rfl, Nat.zero_le _⟩⟩
  | group stage =>
    let cleared : GroupStage := { stage with share := {}, groups := [] }
    have ended := @Receiver.emitAll_own _ _ _ stage cleared next GroupStage.rows GroupStage.clear (fun _ => rfl)
    show Emptied (.group (next.emitAll _ GroupStage.clear ((stage, below), job)).2.1.1)
    rw [ended]
    exact ⟨rfl, rfl⟩
  | fetch stage =>
    have done : (FetchStage.finish services next ((stage, below), job)).1.isOk = true :=
      fetched.resolve_right nofun
    have owes := FetchStage.finish_frees services next was done
    exact ⟨owes.charged, owes.exact⟩
  | _ => exact ⟨rfl, trivial⟩

theorem meanwhile_exact (services : Services σ) {body : StageBody} (job : Job σ) (was : body.Exact) :
    (meanwhile services (body, job)).1.Exact := by
  cases body <;> exact was

theorem charged_meanwhile (services : Services σ) (body : StageBody) (job : Job σ) :
    (meanwhile services (body, job)).1.charged = body.charged := by
  cases body <;> rfl

theorem clear_emptied (services : Services σ) (body : StageBody) (job : Job σ) :
    (clear services (body, job)).1.Emptied := by
  cases body with
  | top => exact ⟨rfl, ⟨rfl, Nat.zero_le _⟩⟩
  | sort | group | fetch => exact ⟨rfl, rfl⟩
  | _ => exact ⟨rfl, trivial⟩

end StageBody

/-! ### Chains -/

namespace Stage

variable {limit : Nat} {behind : δ → Nat} {next : Receiver σ δ}

/-- What is charged to a stage and to what is behind it. -/
def chargedFrom (behind : δ → Nat) : Stage × δ → Nat :=
  chargedBoth (fun stage => stage.body.charged) behind

theorem takeRow_balances (balances : next.Balances limit behind)
    (finite : limit < MemoryAccount.unlimited) (services : Services σ) (row : Row) :
    Balances limit (chargedFrom behind) (takeRow services next row) := by
  intro others state start
  refine .own_bind (.ofExcept_bind start fun phase _ => .setOwn_bind (.own_bind (.within ?_)))
  exact StageBody.takeRow_balances balances finite services row others _ start

theorem finish_balances (balances : next.Balances limit behind) (services : Services σ) :
    Balances limit (chargedFrom behind) (finish services next) := by
  intro others state start
  refine .own_bind (.ofExcept_bind start fun phase _ => .setOwn_bind (.own_bind (.within ?_)))
  exact StageBody.finish_balances balances services others _ start

theorem meanwhile_balances (balances : next.Balances limit behind) (services : Services σ) :
    Balances limit (chargedFrom behind) (.ofState fun state => ((), meanwhile services next state)) := by
  rintro others ⟨⟨stage, below⟩, job⟩ start
  have own := StageBody.meanwhile_balances limit services _ (stage.body, job)
    (Accounted.above_iff.mp start)
  exact Accounted.below_iff.mpr (balances.meanwhile _ _ (Accounted.below_iff.mp
    (Accounted.above_iff.mpr own)))

private theorem fail_balances (balances : next.Balances limit behind) (services : Services σ)
    (error : ExecutionError) :
    Balances limit (chargedFrom behind)
      (.ofState fun state => ((), fail services next error state)) := by
  rintro others ⟨⟨⟨kind, body, phase⟩, below⟩, job⟩ start
  unfold Leaves ofState fail
  dsimp only
  cases phase.fail? with
  | none => exact start
  | some _ =>
    have own := StageBody.clear_balances limit services _ (body, job) (Accounted.above_iff.mp start)
    exact Accounted.below_iff.mpr (balances.fail error _ _ (Accounted.below_iff.mp
      (Accounted.above_iff.mpr own)))

theorem receiver_balances (balances : next.Balances limit behind)
    (finite : limit < MemoryAccount.unlimited) (services : Services σ) :
    (receiver services next).Balances limit (chargedFrom behind) where
  takeRow := takeRow_balances balances finite services
  finish := finish_balances balances services
  meanwhile := meanwhile_balances balances services
  fail := fail_balances balances services

end Stage

theorem Terminal.receiver_balances (limit : Nat) :
    (Terminal.receiver : Receiver σ Terminal).Balances limit fun _ => 0 where
  takeRow row := by
    refine .bind .own fun terminal => ?_
    cases terminal with
    | unattached => exact .throw _
    | collecting collector =>
      dsimp only
      split
      · exact .bind (.throw _) fun _ => .bind (.setOwn _) fun _ => .pure _
      · exact .bind (.setOwn _) fun _ => .pure _
  finish := by
    refine .bind .own fun terminal => ?_
    cases terminal with
    | unattached => exact .throw _
    | collecting collector => exact .setOwn _
  meanwhile _ _ start := start
  fail error := by
    rintro others ⟨terminal, job⟩ start
    cases terminal with
    | unattached => exact start
    | collecting collector => exact start

namespace Chain

/-- What is charged to the stages of a chain. -/
def charged : (length : Nat) → Chain length → Nat
  | 0, _ => 0
  | length + 1, (stage, rest) => stage.body.charged + charged length rest

theorem receiver_balances {limit : Nat} (finite : limit < MemoryAccount.unlimited)
    (services : Services σ) (length : Nat) :
    (receiver services length).Balances limit (charged length) := by
  induction length with
  | zero => exact Terminal.receiver_balances limit
  | succ length ih => exact Stage.receiver_balances ih finite services

theorem dispose_tells {limit others : Nat} {length : Nat} {chain : Chain length} {job : Job σ}
    (tells : job.Tells limit (others + charged length chain)) :
    (dispose length chain job).Tells limit others := by
  induction length generalizing job with
  | zero => exact tells
  | succ length ih =>
    obtain ⟨stage, rest⟩ := chain
    exact ih (StageBody.dispose_tells (Accounted.above_iff.mp tells))

private theorem charged_ofStages (terminal : Terminal) {stages : List Stage}
    (fresh : ∀ stage ∈ stages, stage.body.charged = 0) :
    charged stages.length (ofStages terminal stages) = 0 := by
  induction stages with
  | nil => rfl
  | cons stage rest ih =>
    have first := fresh stage List.mem_cons_self
    have others := ih fun other member => fresh other (List.mem_cons_of_mem _ member)
    show stage.body.charged + charged rest.length (ofStages terminal rest) = 0
    rw [first, others]

end Chain

/-! ### Plans -/

namespace Projection

variable {services : Services σ} {settings : Settings} {plan : List Projection}

theorem Starts.emptied {projection : Projection} {body : StageBody}
    (starts : projection.Starts body) : body.Emptied := by
  cases starts with
  | top => exact ⟨rfl, ⟨rfl, Nat.zero_le _⟩⟩
  | sort | group | fetch => exact ⟨rfl, rfl⟩
  | _ => exact ⟨rfl, trivial⟩

theorem Compiled.emptied {stages : List Stage} (compiled : Compiled services settings plan stages) :
    ∀ stage ∈ stages, stage.body.Emptied := by
  induction compiled with
  | nil => exact fun _ member => absurd member List.not_mem_nil
  | cons built _ ih =>
    exact List.forall_mem_cons.mpr ⟨(starts_of_compileBody built).emptied, ih⟩

variable (services settings)

private theorem memory_compile (projection : Projection) (job : Job σ) :
    (projection.compile services settings job).2.memory = job.memory := by
  unfold compile
  split <;> rfl

private theorem memory_compileAll (plan : List Projection) (job : Job σ) :
    (compileAll services settings plan job).2.memory = job.memory := by
  induction plan generalizing job with
  | nil => rfl
  | cons projection rest ih =>
    have first := memory_compile services settings projection job
    unfold compileAll
    rcases compiled : projection.compile services settings job with ⟨_ | stage, middle⟩ <;>
      rw [compiled] at first
    · exact first
    · have later := (ih middle).trans first
      rcases others : compileAll services settings rest middle with ⟨_ | stages, last⟩ <;>
        rw [others] at later <;> simp only [others] <;> exact later

end Projection

theorem Receiver.Balances.run {τ : Type} {limit others : Nat} {charged : τ → Nat}
    {head : Receiver σ τ} (balances : head.Balances limit charged) (kinds : List StageKind)
    (rows : List Row) {state : τ × Job σ} (start : Accounted limit others charged state) :
    Accounted limit others charged (head.run kinds rows state).2 := by
  have drained : Leaves (head.drain rows) (Accounted limit others charged) state :=
    (balances.feed rows others state start).bind fun _ last => balances.finish others last
  unfold Leaves at drained
  unfold Receiver.run
  rcases run : head.drain rows state with ⟨error | _, receiver, job⟩ <;> rw [run] at drained
  · exact balances.fail error others _ (Job.Tells.of_memory drained rfl)
  · exact drained

namespace Plan

variable {limit used : Nat}

private theorem runStages_tells (finite : limit < MemoryAccount.unlimited) (services : Services σ)
    {stages : List Stage} (fresh : ∀ stage ∈ stages, stage.body.charged = 0) (rows : List Row)
    {job : Job σ} (tells : job.Tells limit used) :
    (runStages services stages rows job).2.Tells limit used := by
  have start : Accounted limit used (Chain.charged stages.length)
      (Chain.ofStages (.collecting {}) stages, job) := by
    unfold Accounted
    rw [Chain.charged_ofStages _ fresh]
    exact tells
  have ended := (Chain.receiver_balances finite services stages.length).run
    (stages.map Stage.kind) rows start
  have disposed := Chain.dispose_tells ended
  unfold runStages
  dsimp only
  unfold Chain.run
  split
  · exact disposed
  · exact disposed
  · exact disposed.of_memory rfl

/-- However a plan ends, its job has the memory back. -/
theorem execute_tells (finite : limit < MemoryAccount.unlimited) (services : Services σ)
    (settings : Settings) (plan : List Projection) (rows : List Row) {job : Job σ}
    (tells : job.Tells limit used) :
    (execute services settings plan rows job).2.Tells limit used := by
  unfold execute
  have same := Projection.memory_compileAll services settings plan job
  rcases compiled : Projection.compileAll services settings plan job with ⟨_ | stages, middle⟩ <;>
    rw [compiled] at same
  · exact tells.of_memory same
  · have emptied := (Projection.compileAll_compiled (congrArg Prod.fst compiled)).emptied
    exact runStages_tells finite services (fun stage member => (emptied stage member).charged) rows
      (tells.of_memory same)

end Plan

end RowPipeline
