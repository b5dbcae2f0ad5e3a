import RowPipeline.Proofs.DrivenStages
import RowPipeline.Proofs.Success
import RowPipeline.Proofs.WriteHistory

/-!
A stage that writes rows counts every row once, whatever the cluster answers and in whichever order.
-/

namespace RowPipeline

variable {σ δ : Type}

private theorem exists_perm_map_eq {α β : Type} {f : α → β} {items : List α} {images : List β}
    (same : (items.map f).Perm images) : ∃ ordered : List α, ordered.Perm items ∧ ordered.map f = images := by
  induction images generalizing items with
  | nil => exact ⟨[], (List.map_eq_nil_iff.mp same.eq_nil) ▸ .refl _, rfl⟩
  | cons image rest ih =>
    obtain ⟨item, member, rfl⟩ := List.mem_map.mp (same.mem_iff.mpr List.mem_cons_self)
    obtain ⟨before, after, rfl⟩ := List.append_of_mem member
    have moved : (f item :: (before ++ after).map f).Perm (f item :: rest) := by
      rw [← List.map_cons]
      exact (List.perm_middle.symm.map f).trans same
    obtain ⟨ordered, permuted, mapped⟩ := ih moved.cons_inv
    exact ⟨item :: ordered, (permuted.cons item).trans List.perm_middle.symm, by simp [mapped]⟩

/-! ### Rows -/

namespace StageBody

/-- The origin under which a row is counted; a row whose origin cannot be told has none. -/
def uriOf (row : Row) : StageBody → Option String
  | .indexWrite stage =>
    match stage.originOf row with
    | .ok uri => uri
    | .error _ => none
  | _ => none

end StageBody

namespace BulkWriter.HasAccounts

variable {services : Services σ} {config : BulkConfig} {start : Job σ}
variable {uris : List (Option String)} {writer : BulkWriter} {job : Job σ}

theorem add (holds : HasAccounts services config start uris [] (writer, job)) (target : ShardTarget)
    (id : String) (routing : Option String) (operation : BulkOperation) (origin : Option String) :
    HasAccounts services config start (uris ++ [origin]) []
      (BulkWriter.add services target id routing operation origin (writer, job)) := by
  obtain ⟨steps, holds⟩ := holds
  exact keeping.add
    ⟨steps, holds.enqueue target ⟨⟨writer.nextLocation, id, routing, operation⟩, origin⟩ rfl⟩

theorem reject (holds : HasAccounts services config start uris [] (writer, job))
    (uri : Option String) (message : String) :
    HasAccounts services config start (uris ++ [uri]) []
      (BulkWriter.reject services uri message (writer, job)) := by
  obtain ⟨steps, holds⟩ := holds
  obtain ⟨steps', writer', job', rejected, holds'⟩ := holds.reject uri message
  exact ⟨steps', rejected ▸ holds'⟩

theorem indexWrite (stage : IndexWriteStage)
    (holds : HasAccounts services config start uris [] (stage.writer, job)) (row : Row) :
    HasAccounts services config start (uris ++ [StageBody.uriOf row (.indexWrite stage)]) []
      (stage.write services row job) := by
  have named : HasAccounts services config start uris [] (stage.writer, (stage.takeId job).2) := by
    obtain ⟨steps, holds⟩ := holds
    unfold IndexWriteStage.takeId
    split
    · exact ⟨steps, { holds with }⟩
    · exact ⟨steps, holds⟩
  unfold IndexWriteStage.write StageBody.uriOf
  dsimp only
  cases stage.originOf row with
  | error fault => exact holds.reject none _
  | ok origin =>
    dsimp only
    cases stage.itemOf (stage.takeId job).1 row with
    | error fault => exact named.reject origin _
    | ok item =>
      dsimp only
      cases services.resolve (stage.takeId job).2.node.services item.index item.address.routingKey with
      | none => exact named.reject origin _
      | some target => exact named.add target _ _ _ origin

theorem shardWrite (stage : ShardWriteStage)
    (holds : HasAccounts services config start uris [] (stage.writer, job)) (row : Row) :
    HasAccounts services config start (uris ++ [none]) [] (stage.write services row job) := by
  unfold ShardWriteStage.write
  cases stage.itemOf row with
  | error fault => exact holds.reject none _
  | ok item => exact holds.add stage.target _ none _ none

theorem writeRow {body : StageBody} {fresh : BulkWriter} (written : body.writer? = some fresh)
    (holds : HasAccounts services config start uris [] (writer, job)) (row : Row) :
    HasAccounts services config start (uris ++ [body.uriOf row]) []
      (body.writeRow services row (writer, job)) := by
  cases body with
  | indexWrite stage => exact indexWrite { stage with writer := writer } holds row
  | shardWrite stage => exact shardWrite { stage with writer := writer } holds row
  | _ => cases written

/-- However a stage is driven, its rows are accounted for. -/
theorem visits {body : StageBody} {fresh : BulkWriter} (written : body.writer? = some fresh)
    (visits : List Visit) {state : State σ} (holds : HasAccounts services config start uris [] state) :
    HasAccounts services config start (uris ++ (Visit.rows visits).map (body.uriOf ·)) []
      (visits.foldl (body.visit services) state) := by
  induction visits generalizing uris state with
  | nil => simpa [Visit.rows] using holds
  | cons visit rest ih =>
    cases visit with
    | row row => simpa [Visit.rows, Visit.row?, StageBody.visit] using ih (holds.writeRow written row)
    | pause => exact ih ((lasting []).exchange holds)

end BulkWriter.HasAccounts

/-! ### Accounts of rows -/

/-- How an account comes about: the row was rejected, or the request with its item was answered or
never sent because its index was refused. -/
inductive Account.Told (services : Services σ) (steps : List WriteStep) (account : Account) : Prop
  | rejected (member : .reject account ∈ steps) (node : account.node = services.localNode)
    (failed : account.failed = true)
  | refused (dispatch : Dispatch) (error : ExecutionError) (member : .refuse dispatch error ∈ steps)
    (own : account.label ∈ dispatch.labels) (node : account.node = dispatch.node)
    (failed : account.failed = true)
  /-- An item succeeds only if the answer to its request says so. -/
  | answered (dispatch : Dispatch) (answer : Option (Except ExecutionError (List ItemResult)))
    (member : .answer dispatch answer ∈ steps) (own : account.label ∈ dispatch.labels)
    (node : account.node = dispatch.node)
    (reported : account.succeeded = true →
      ∃ results, answer = some (.ok results) ∧ ⟨account.location, none⟩ ∈ results)

private theorem BulkWriter.result_of_itemError {results : List ItemResult} {location : Nat}
    (succeeded : itemError results location = none) : ⟨location, none⟩ ∈ results := by
  unfold itemError at succeeded
  split at succeeded
  next result found =>
    obtain rfl : result.location = location := by simpa using List.find?_some found
    have member := List.mem_reverse.mp (List.mem_of_find?_eq_some found)
    rwa [← succeeded]
  next => cases succeeded

private theorem BulkOutcome.mem_accounts {outcome : BulkOutcome} {account : Account}
    (member : account ∈ outcome.accounts) :
    account.label ∈ outcome.dispatch.labels ∧ account.node = outcome.dispatch.node ∧
      (account.succeeded = true →
        ∃ results, outcome.answer = .ok results ∧ ⟨account.location, none⟩ ∈ results) := by
  have label : account.label ∈ outcome.accounts.map Account.label := List.mem_map_of_mem member
  rw [accounts_label] at label
  simp only [accounts, BulkWriter.itemErrors, List.map_map, List.mem_map, Function.comp] at member
  obtain ⟨pending, -, rfl⟩ := member
  refine ⟨label, rfl, fun succeeded => ?_⟩
  cases answer : outcome.answer with
  | ok results =>
    simp only [Account.succeeded, answer, Option.isNone_iff_eq_none] at succeeded
    exact ⟨results, rfl, BulkWriter.result_of_itemError succeeded⟩
  | error error => simp [Account.succeeded, answer] at succeeded

private theorem WriteHistory.of_reject {services : Services σ} {config : BulkConfig} {before after : σ}
    {steps : List WriteStep} (history : WriteHistory services config before steps after)
    {account : Account} (member : .reject account ∈ steps) :
    account.node = services.localNode ∧ account.failed = true := by
  induction history with
  | start => cases member
  | step _ leads ih =>
    rcases List.mem_append.mp member with earlier | last
    · exact ih earlier
    · obtain rfl := List.mem_singleton.mp last
      cases leads with
      | reject _ _ local_ failed => exact ⟨local_, failed⟩

theorem WriteHistory.told {services : Services σ} {config : BulkConfig} {before after : σ}
    {steps : List WriteStep} (history : WriteHistory services config before steps after)
    {account : Account} (settled : account ∈ BulkWriter.settled config steps) :
    account.Told services steps := by
  obtain ⟨step, member, own⟩ := List.mem_flatMap.mp settled
  cases step with
  | reject other =>
    obtain rfl := List.mem_singleton.mp own
    obtain ⟨local_, failed⟩ := history.of_reject member
    exact .rejected member local_ failed
  | accept _ | create _ => cases own
  | refuse dispatch error =>
    obtain ⟨label, node, reported⟩ := BulkOutcome.mem_accounts own
    refine .refused dispatch error member label node ?_
    cases failed : account.error with
    | some message => simp [Account.failed, failed]
    | none =>
      obtain ⟨results, answer, _⟩ := reported (by simp [Account.succeeded, failed])
      cases answer
  | answer dispatch result =>
    obtain ⟨label, node, reported⟩ := BulkOutcome.mem_accounts own
    refine .answered dispatch result member label node fun succeeded => ?_
    obtain ⟨results, answer, listed⟩ := reported succeeded
    cases result with
    | none => cases answer
    | some result =>
      obtain rfl : result = .ok results := answer
      exact ⟨results, rfl, listed⟩

/-- What became of rows of the given origins between two states of a job: each has one account, in
the order of the rows. -/
structure RowAccounts (services : Services σ) (config : BulkConfig) (uris : List (Option String))
    (before after : Job σ) (steps : List WriteStep) (accounts : List Account) : Prop where
  history : WriteHistory services config before.node.services steps after.node.services
  origins : accounts.map (·.uri) = uris
  locations : accounts.map (·.location) = List.range uris.length
  settled : accounts.Perm (BulkWriter.settled config steps)
  told : ∀ account ∈ accounts, account.Told services steps
  succeeded : after.node.metrics.bulkItemsSucceeded =
    before.node.metrics.bulkItemsSucceeded + (BulkSummary.recordAll {} accounts).succeeded
  failed : after.node.metrics.bulkItemsFailed =
    before.node.metrics.bulkItemsFailed + (BulkSummary.recordAll {} accounts).failed

namespace BulkWriter

variable {services : Services σ} {config : BulkConfig} {start : Job σ} {uris : List (Option String)}

theorem HasAccounts.fresh (services : Services σ) (config : BulkConfig) (job : Job σ) :
    HasAccounts services config job [] [] ({ config := config }, job) :=
  ⟨[], rfl, .start, rfl, rfl, rfl, .refl _, rfl⟩

theorem HasAccounts.finish {state : State σ} (holds : HasAccounts services config start uris [] state) :
    ∃ accounts steps writer job, BulkWriter.finish services state =
        (BulkSummary.recordAll {} accounts, (writer, job)) ∧
      RowAccounts services config uris start job steps accounts := by
  obtain ⟨writer, job, finished, ⟨steps, held⟩, waiting, sent, arrived⟩ := keeping.finish holds
  have labelled := held.numbered
  simp only [open_, waiting, sent, List.map_nil, List.append_nil, List.flatMap_nil] at labelled
  obtain ⟨accounts, settled, labels⟩ := exists_perm_map_eq labelled
  have nothing : writer.arrivedAccounts = [] := by simp [arrivedAccounts, arrived]
  have summary : writer.summary = .recordAll {} accounts := by
    rw [BulkSummary.recordAll_perm settled, ← held.summary, nothing]
    rfl
  refine ⟨accounts, steps, _, job, summary ▸ finished, held.history, ?_, ?_, settled, ?_, ?_, ?_⟩
  · simpa [Account.label, Function.comp_def] using congrArg (List.map Prod.fst) labels
  · simpa [Account.label, Function.comp_def, List.range_eq_range'] using
      congrArg (List.map Prod.snd) labels
  · exact fun account member => held.history.told (settled.mem_iff.mp member)
  · have total := held.succeeded
    rw [nothing] at total
    simpa [BulkSummary.recordAll_succeeded, settled.countP_eq] using total
  · have total := held.failed
    rw [nothing] at total
    simpa [BulkSummary.recordAll_failed, settled.countP_eq] using total

end BulkWriter

/-! ### Compiled stages -/

namespace Projection

variable {services : Services σ} {settings : Settings} {projection : Projection}

/-- The projections whose stages write rows in batches. -/
def WritesRows (projection : Projection) : Prop :=
  projection.kind ∈ [.sourceIndexWriter, .columnIndexWriter, .update, .delete]

private theorem fresh_of_compileBody (writes : projection.WritesRows) {job : Job σ} {body : StageBody}
    (compiled : projection.compileBody services settings job = .ok body) :
    ∃ config : BulkConfig, body.writer? = some { config := config } := by
  cases starts_of_compileBody compiled with
  | sourceIndexWriter | columnIndexWriter | update | delete => exact ⟨_, rfl⟩
  | _ => simp [WritesRows, kind] at writes

/-- Whatever the cluster answers and whenever it does, a stage that writes rows wants every row and
ends with a summary that counts each of them once, as the metrics do. -/
theorem counts_rows (services : Services σ) (settings : Settings) (projection : Projection)
    (compiling compiled : Job σ) (stage : Stage) (next : Receiver σ δ) (below : δ)
    (visits : List Visit) (job : Job σ) (writes : projection.WritesRows)
    (done : projection.compile services settings compiling = (.ok stage, compiled)) :
    ∃ (config : BulkConfig) (fed ended : (Stage × δ) × Job σ) (steps : List WriteStep)
      (accounts : List Account),
      stage.body.writer? = some { config := config } ∧
        Stage.drive services next visits ((stage, below), job) =
          (List.replicate (Visit.rows visits).length (.ok .more), fed) ∧
        Stage.finish services next fed =
          (Turn.below (next.pushAll ((BulkSummary.recordAll {} accounts).rows stage.body.result) >>=
            fun _ => next.finish)) ended ∧
        RowAccounts services config ((Visit.rows visits).map (stage.body.uriOf ·)) job ended.2 steps
          accounts ∧
        (BulkSummary.recordAll {} accounts).succeeded + (BulkSummary.recordAll {} accounts).failed =
          (Visit.rows visits).length := by
  obtain ⟨body, built, rfl⟩ := compile_ok done
  obtain ⟨config, written⟩ := fresh_of_compileBody writes built
  let stage : Stage := ⟨projection.kind, body, .created⟩
  have fresh : stage.body.writer? = some { config := config } := written
  rcases visited : visits.foldl (stage.body.visit services) ({ config := config }, job)
    with ⟨after, middle⟩
  have held := (BulkWriter.HasAccounts.fresh services config job).visits fresh visits
  rw [visited, List.nil_append] at held
  obtain ⟨accounts, steps, writer, job', finished, counted⟩ := held.finish
  obtain ⟨phase, unended, driven⟩ := Stage.drive_written fresh rfl visited next below
  let driven' : Stage := { stage with body := stage.body.withWriter after, phase := phase }
  have kept : driven'.body.writer? = some after := StageBody.writer?_withWriter fresh after
  have ended := Stage.finish_written kept unended finished next below
  rw [StageBody.result_withWriter] at ended
  have total := congrArg List.length counted.origins
  refine ⟨config, _, _, steps, accounts, fresh, driven, ended, counted, ?_⟩
  rw [BulkSummary.recordAll_total]
  simpa using total

/-- A row of a missing index and one without a key are counted under their own origins. -/
theorem counts_rows_origins :
    let target : IndexTarget := ⟨"t", [.input 0], none, [], false⟩
    let projection : Projection :=
      .sourceIndexWriter ⟨target, .input 1, none, none, false, some (.input 2), some 1, .returnSummary⟩
    let visits : List Visit :=
      [.row [.text "1", .object [], .text "a"], .pause, .row [.null, .object [], .text "b"]]
    projection.WritesRows ∧ ∃ stage compiled,
      projection.compile Simulation.services {} Job.alone = (.ok stage, compiled) ∧
        ∃ fed ended accounts,
          Stage.drive Simulation.services Terminal.receiver visits
              ((stage, .collecting {}), Job.alone) = ([.ok .more, .ok .more], fed) ∧
            Stage.finish Simulation.services Terminal.receiver fed =
              (Turn.below (Terminal.receiver.pushAll
                ((BulkSummary.recordAll {} accounts).rows .returnSummary) >>=
                  fun _ => Terminal.receiver.finish)) ended ∧
            accounts.map (·.uri) = [some "a", some "b"] ∧
            (BulkSummary.recordAll {} accounts).succeeded +
              (BulkSummary.recordAll {} accounts).failed = 2 := by
  intro target projection visits
  have writes : projection.WritesRows := List.mem_cons_self
  refine ⟨writes, _, _, rfl, ?_⟩
  obtain ⟨_, fed, ended, _, accounts, _, driven, finished, counted, total⟩ :=
    counts_rows Simulation.services {} projection Job.alone _ _ Terminal.receiver (.collecting {}) visits
      Job.alone writes rfl
  exact ⟨fed, ended, accounts, driven, finished, counted.origins, total⟩

end Projection

end RowPipeline
