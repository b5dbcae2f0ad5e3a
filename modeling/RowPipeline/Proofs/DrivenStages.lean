import RowPipeline.Proofs.ChainProtocol

/-!
Stages driven by hand: rows are given one after the other whatever a stage answers, and its requests
go on in between. A stage that writes rows does nothing but drive its writer.
-/

namespace RowPipeline

open Turn

variable {σ δ : Type}

/-- What a stage is driven with. -/
inductive Visit where
  | row (row : Row)
  /-- Requests of the stage go on while the cluster is asked for something else. -/
  | pause

namespace Visit

def row? : Visit → Option Row
  | .row cells => some cells
  | .pause => none

def rows (visits : List Visit) : List Row := visits.filterMap row?

end Visit

/-- Drives a stage, and gives what it answers to the rows. -/
def Stage.drive (services : Services σ) (next : Receiver σ δ) :
    List Visit → (Stage × δ) × Job σ → List (Except ExecutionError Flow) × ((Stage × δ) × Job σ)
  | [], state => ([], state)
  | .row row :: rest, state =>
    let (answer, state) := takeRow services next row state
    let (answers, state) := drive services next rest state
    (answer :: answers, state)
  | .pause :: rest, ((stage, below), job) =>
    let (body, job) := StageBody.meanwhile services (stage.body, job)
    drive services next rest (({ stage with body := body }, below), job)

/-! ### Stages that write rows -/

namespace StageBody

def writer? : StageBody → Option BulkWriter
  | .indexWrite stage => some stage.writer
  | .shardWrite stage => some stage.writer
  | _ => none

def withWriter (writer : BulkWriter) : StageBody → StageBody
  | .indexWrite stage => .indexWrite { stage with writer := writer }
  | .shardWrite stage => .shardWrite { stage with writer := writer }
  | body => body

/-- What of its summary a stage emits. -/
def result : StageBody → WriterResult
  | .indexWrite stage => stage.result
  | _ => .rowCount

/-- What a row does to the writer of a stage. -/
def writeRow (services : Services σ) (row : Row) : StageBody → BulkWriter.State σ → BulkWriter.State σ
  | .indexWrite stage, (writer, job) => { stage with writer := writer }.write services row job
  | .shardWrite stage, (writer, job) => { stage with writer := writer }.write services row job
  | _, state => state

def visit (services : Services σ) (body : StageBody) (state : BulkWriter.State σ) :
    Visit → BulkWriter.State σ
  | .row row => body.writeRow services row state
  | .pause => BulkWriter.exchange services state

variable {services : Services σ} {next : Receiver σ δ} {body : StageBody}
variable {writer after : BulkWriter} {job job' : Job σ}

theorem writer?_withWriter (written : body.writer? = some writer) (after : BulkWriter) :
    (body.withWriter after).writer? = some after := by
  cases body <;> first | rfl | cases written

theorem withWriter_self (written : body.writer? = some writer) : body.withWriter writer = body := by
  cases body <;> cases written <;> rfl

private theorem withWriter_withWriter (first second : BulkWriter) :
    (body.withWriter first).withWriter second = body.withWriter second := by
  cases body <;> rfl

theorem result_withWriter (after : BulkWriter) : (body.withWriter after).result = body.result := by
  cases body <;> rfl

private theorem visit_withWriter (after : BulkWriter) :
    (body.withWriter after).visit services = body.visit services := by
  funext state visit
  cases visit <;> cases body <;> rfl

private theorem takeRow_written (written : body.writer? = some writer) {row : Row}
    (wrote : body.writeRow services row (writer, job) = (after, job')) (below : δ) :
    takeRow services next row ((body, below), job) =
      (.ok .more, ((body.withWriter after, below), job')) := by
  cases body with
  | indexWrite stage =>
    obtain rfl := Option.some.inj written
    have wrote : stage.write services row job = (after, job') := wrote
    simp only [takeRow, own_bind, Turn.within, Turn.above, IndexWriteStage.takeRow, ofState, wrote,
      withWriter]
  | shardWrite stage =>
    obtain rfl := Option.some.inj written
    have wrote : stage.write services row job = (after, job') := wrote
    simp only [takeRow, own_bind, Turn.within, Turn.above, ShardWriteStage.takeRow, ofState, wrote,
      withWriter]
  | _ => cases written

private theorem meanwhile_written (written : body.writer? = some writer)
    (went : BulkWriter.exchange services (writer, job) = (after, job')) :
    meanwhile services (body, job) = (body.withWriter after, job') := by
  cases body <;> cases written <;> simp only [meanwhile, went, withWriter]

theorem within_emitLast {β γ : Type} {last : Turn σ β (List Row)} {part part' : β} {rows : List Row}
    (ended : last (part, job) = (.ok rows, (part', job'))) (wrap : β → γ) (whole : γ) (below : δ) :
    Turn.within wrap part (next.emitLast last) ((whole, below), job) =
      (Turn.below (next.pushAll rows >>= fun _ => next.finish)) ((wrap part', below), job') := by
  have above : (Turn.above last : Turn σ (β × δ) (List Row)) ((part, below), job) =
      (.ok rows, ((part', below), job')) := by
    simp only [Turn.above, ended]
  have emitted : next.emitLast last ((part, below), job) =
      (Turn.below (next.pushAll rows) >>= fun _ => Turn.below next.finish) ((part', below), job') :=
    bind_of_ok above
  simp only [Turn.within, emitted, bind_apply, Turn.below]
  rcases next.pushAll rows (below, job') with ⟨_ | _, below', job''⟩ <;> rfl

theorem finish_written (written : body.writer? = some writer) {summary : BulkSummary}
    (done : BulkWriter.finish services (writer, job) = (summary, (after, job'))) (below : δ) :
    finish services next ((body, below), job) =
      (Turn.below (next.pushAll (summary.rows body.result) >>= fun _ => next.finish))
        ((body.withWriter after, below), job') := by
  cases body with
  | indexWrite stage =>
    obtain rfl := Option.some.inj written
    have ended : IndexWriteStage.summarize services (stage, job) =
        (.ok (summary.rows stage.result), ({ stage with writer := after }, job')) := by
      simp only [IndexWriteStage.summarize, ofState, done]
    exact within_emitLast ended indexWrite (indexWrite stage) below
  | shardWrite stage =>
    obtain rfl := Option.some.inj written
    have ended : ShardWriteStage.summarize services (stage, job) =
        (.ok (summary.rows .rowCount), ({ stage with writer := after }, job')) := by
      simp only [ShardWriteStage.summarize, ofState, done]
    exact within_emitLast ended shardWrite (shardWrite stage) below
  | _ => cases written

end StageBody

namespace Stage

variable {services : Services σ} {stage : Stage}
variable {writer after : BulkWriter} {job job' : Job σ}

/-- A stage that writes rows wants every row, and does to its writer what the visits say. -/
theorem drive_written (written : stage.body.writer? = some writer)
    (unended : stage.phase.isTerminal = false) {visits : List Visit}
    (visited : visits.foldl (stage.body.visit services) (writer, job) = (after, job'))
    (next : Receiver σ δ) (below : δ) :
    ∃ phase, phase.isTerminal = false ∧
      drive services next visits ((stage, below), job) =
        (List.replicate (Visit.rows visits).length (.ok .more),
          (({ stage with body := stage.body.withWriter after, phase := phase }, below), job')) := by
  induction visits generalizing stage writer job with
  | nil =>
    obtain ⟨rfl, rfl⟩ := Prod.mk.inj visited
    refine ⟨stage.phase, unended, ?_⟩
    rw [StageBody.withWriter_self written]
    rfl
  | cons visit rest ih =>
    rcases step : stage.body.visit services (writer, job) visit with ⟨next', middle⟩
    have kept := StageBody.writer?_withWriter written next'
    rw [List.foldl_cons, step, ← StageBody.visit_withWriter next'] at visited
    cases visit with
    | row row =>
      have taken : takeRow services next row ((stage, below), job) =
          (.ok .more, (({ stage with
            body := stage.body.withWriter next', phase := .running }, below), middle)) := by
        rw [takeRow_apply services next row stage below job unended]
        simp only [Turn.within, StageBody.takeRow_written written step]
      let running : Stage := { stage with body := stage.body.withWriter next', phase := .running }
      obtain ⟨phase, open_, driven⟩ := @ih running next' middle kept rfl visited
      refine ⟨phase, open_, ?_⟩
      simp only [drive, taken]
      rw [driven]
      simp only [StageBody.withWriter_withWriter, running]
      rfl
    | pause =>
      let paused : Stage := { stage with body := stage.body.withWriter next' }
      obtain ⟨phase, open_, driven⟩ := @ih paused next' middle kept unended visited
      refine ⟨phase, open_, ?_⟩
      simp only [drive, StageBody.meanwhile_written written step]
      rw [driven]
      simp only [StageBody.withWriter_withWriter, paused]
      rfl

/-- A stage that writes rows ends with the rows of its summary. -/
theorem finish_written (written : stage.body.writer? = some writer)
    (unended : stage.phase.isTerminal = false) {summary : BulkSummary}
    (done : BulkWriter.finish services (writer, job) = (summary, (after, job')))
    (next : Receiver σ δ) (below : δ) :
    finish services next ((stage, below), job) =
      (Turn.below (next.pushAll (summary.rows stage.body.result) >>= fun _ => next.finish))
        (({ stage with body := stage.body.withWriter after, phase := .completed }, below), job') := by
  rw [finish_apply services next stage below job unended]
  simp only [Turn.within, StageBody.finish_written written done, Turn.below]
  rfl

end Stage

end RowPipeline
