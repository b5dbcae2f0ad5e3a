import RowPipeline.Proofs.Protocol
import RowPipeline.Stage.Basic

/-!
Stages keep the protocol. Whatever is behind a stage is driven as the stage itself is: it gets rows
only while it wants them, is finished once the stage is, and is failed with what the stage is failed
with.
-/

namespace RowPipeline

open Progress Turn

variable {σ β δ δ' : Type} {next : Receiver σ δ} {next' : Receiver σ δ'}
variable {related : Progress → δ → δ' → Prop}

/-- The same receiver in front of related ones, whatever state it is in. -/
abbrev Anyhow : (δ → δ' → Prop) → β × δ → β × δ' → Prop := Beside fun _ => True

theorem Anyhow.of {behind : δ → δ' → Prop} {below : δ} {below' : δ'} (stage : β)
    (ready : behind below below') : Anyhow behind (stage, below) (stage, below') :=
  ⟨rfl, trivial, ready⟩

namespace Anyhow

variable {state : β × δ} {state' : β × δ'}

theorem here {progress : Progress} (start : Anyhow (related progress) state state') :
    Anyhow (Lagging related progress) state state' := ⟨start.same, trivial, .here start.related⟩

theorem answered {flow : Flow} (start : Anyhow (related (afterRow (.ok flow))) state state') :
    Anyhow (Lagging related .closed) state state' :=
  ⟨start.same, trivial, _, Behind.afterRow flow, start.related⟩

theorem unused (start : Anyhow (related .taking) state state') :
    Anyhow (Lagging related .broken) state state' :=
  ⟨start.same, trivial, .taking, .takingBroken, start.related⟩

end Anyhow

/-- The same stage in front of related receivers that are at most as far as it is. Receivers that it
did not get to yet still take rows; after that it has nothing to emit unless it is given more. -/
structure Driven (idle : β → Prop) (related : Progress → δ → δ' → Prop) (upper : Progress)
    (state : β × δ) (state' : β × δ') : Prop where
  same : state.1 = state'.1
  behind : related .taking state.2 state'.2 ∨
    idle state.1 ∧ Lagging related upper state.2 state'.2

/-! ### The ends of stages -/

namespace Receiver.Alike

theorem passFinish (alike : Alike next next' related) :
    Related (Anyhow (Lagging related .closed)) (below (β := β) next.finish) (below next'.finish)
      (fun answer => Anyhow (Lagging related (afterFinish answer))) :=
  .weaken (.below alike.finishLagging) (fun _ _ start => start) fun _ _ _ => .here

theorem emitOne (alike : Alike next next' related) (row : β → Row) :
    Related (Anyhow (related .taking)) (next.emitOne row) (next'.emitOne row)
      (fun answer => Anyhow (Lagging related (afterFinish answer))) := by
  refine .stage_bind fun stage _ _ _ _ => ?_
  refine .bind (.below (alike.takeRow _)) (fun flow => ?_) fun _ _ _ => .here
  exact .weaken alike.passFinish (fun _ _ => .answered) fun _ _ _ start => start

theorem emitAll (alike : Alike next next' related) (rows : β → List Row)
    (clear : β × Job σ → β × Job σ) :
    Related (Anyhow (related .taking)) (next.emitAll rows clear) (next'.emitAll rows clear)
      (fun answer => Anyhow (Lagging related (afterFinish answer))) := by
  refine .stage_bind fun stage _ _ _ _ => ?_
  refine .attempt_bind (.below (alike.pushAll _)) fun result => ?_
  refine .above_bind (fun _ _ => trivial) fun _ => ?_
  cases result with
  | error error => exact .throw fun _ _ => .here
  | ok value => exact alike.passFinish

theorem emitLast (alike : Alike next next' related) (last : Turn σ β (List Row)) :
    Related (Anyhow (related .taking)) (next.emitLast last) (next'.emitLast last)
      (fun answer => Anyhow (Lagging related (afterFinish answer))) := by
  refine .step (.above fun _ _ => trivial) (fun _ _ _ => .unused) fun rows => ?_
  exact .bind (.below (alike.pushAll rows)) (fun _ => alike.passFinish) fun _ _ _ => .here

end Receiver.Alike

/-! ### Stages that pass rows on -/

theorem Driven.closed {idle : β → Prop} {state : β × δ} {state' : β × δ'}
    (start : Driven idle related .closed state state') :
    Anyhow (Lagging related .closed) state state' := by
  refine ⟨start.same, trivial, ?_⟩
  rcases start.behind with ready | ⟨_, behind⟩
  · exact ⟨.taking, .takingClosed, ready⟩
  · exact behind

theorem Driven.untouched {idle : β → Prop} {upper : Progress} {state : β × δ} {state' : β × δ'}
    (start : Anyhow (related .taking) state state') : Driven idle related upper state state' :=
  ⟨start.same, .inl start.related⟩

theorem Driven.passed {upper : Progress} {state : β × δ} {state' : β × δ'}
    (start : Anyhow (related upper) state state') :
    Driven (fun _ => True) related upper state state' :=
  ⟨start.same, .inr ⟨trivial, .here start.related⟩⟩

theorem Driven.unspent {idle : β → Prop} {upper : Progress} {state : β × δ} {state' : β × δ'}
    (start : Driven idle related upper state state') (held : ¬ idle state.1) :
    Anyhow (related .taking) state state' :=
  ⟨start.same, trivial, start.behind.resolve_right fun drained => held drained.1⟩

theorem FilterStage.takeRow_alike (alike : next.Alike next' related) (row : Row) :
    Related (Anyhow (related .taking)) (FilterStage.takeRow next row) (FilterStage.takeRow next' row)
      (fun answer => Driven (fun _ => True) related (afterRow answer)) := by
  refine .stage_bind fun stage _ _ _ _ => ?_
  refine .step (.evaluated _) (fun _ _ _ => .untouched) fun admitted => ?_
  cases admitted
  · exact .pure fun _ _ => .untouched
  · exact .weaken (.below (alike.takeRow row)) (fun _ _ start => start) fun _ _ _ => .passed

theorem EvalStage.takeRow_alike (alike : next.Alike next' related) (row : Row) :
    Related (Anyhow (related .taking)) (EvalStage.takeRow next row) (EvalStage.takeRow next' row)
      (fun answer => Driven (fun _ => True) related (afterRow answer)) := by
  refine .stage_bind fun stage _ _ _ _ => ?_
  refine .step (.evaluated _) (fun _ _ _ => .untouched) fun outputs => ?_
  exact .weaken (.below (alike.takeRow outputs)) (fun _ _ start => start) fun _ _ _ => .passed

/-- A slice may stop although what is behind it would take more rows. -/
theorem SliceStage.takeRow_alike (alike : next.Alike next' related) (row : Row) :
    Related (Anyhow (related .taking)) (SliceStage.takeRow next row) (SliceStage.takeRow next' row)
      (fun answer => Driven (fun _ => True) related (afterRow answer)) := by
  refine .stage_bind fun stage below below' _ ready => ?_
  dsimp only
  by_cases skipping : 0 < stage.toSkip
  · rw [if_pos skipping, if_pos skipping]
    exact .setOwn_bind (Anyhow.of _ ready) (.pure fun _ _ => .untouched)
  rw [if_neg skipping, if_neg skipping]
  by_cases exhausted : stage.remaining = 0
  · rw [if_pos exhausted, if_pos exhausted]
    exact .pure fun _ _ => .untouched
  rw [if_neg exhausted, if_neg exhausted]
  refine .setOwn_bind (Anyhow.of _ ready) (.bind (.below (alike.takeRow row)) (fun flow => ?_) ?_)
  · by_cases last : stage.remaining = 1
    · rw [if_pos last]
      exact .pure fun _ _ start =>
        ⟨start.same, .inr ⟨trivial, _, Behind.afterRow flow, start.related⟩⟩
    · rw [if_neg last]
      exact .pure fun _ _ => .passed
  · exact fun _ _ _ => .passed

/-! ### Fetching -/

namespace FetchStage

/-- No row waits. -/
def Empty (stage : FetchStage) : Prop := stage.newest = []

private theorem free_empty (row : FetchRow) (state : FetchStage × Job σ) (empty : state.1.Empty) :
    (free row state).1.Empty := empty

private theorem refuse_empty (node : NodeName) (error : ExecutionError) (rows : List FetchRow)
    (state : FetchStage × Job σ) (empty : state.1.Empty) :
    (refuse node error rows state).1.Empty := by
  induction rows generalizing state with
  | nil => exact empty
  | cons row rest ih => exact ih _ (free_empty row (state.1, _) empty)

/-- The receiver behind a fetch is as far as the answers that the fetch goes by. -/
abbrev Answered {α : Type} (related : Progress → δ → δ' → Prop) (flow : α → Flow)
    (answer : Except ExecutionError α) : FetchStage × δ → FetchStage × δ' → Prop :=
  Beside Empty (Lagging related (afterRow (answer.map flow)))

private theorem joinRow_alike (alike : next.Alike next' related) (node : NodeName) (row : FetchRow)
    (joining : Joining) :
    Related (Answered related id (.ok joining.flow)) (joinRow next node row joining)
      (joinRow next' node row joining) (Answered related Joining.flow) := by
  refine .above_bind (fun _ empty => free_empty row _ empty) fun _ => ?_
  refine .stage_bind fun stage _ _ _ _ => ?_
  cases joining.response.get? row.id with
  | none => exact .modifyJob_bind (.pure fun _ _ start => start)
  | some values =>
    by_cases malformed : (values.length != stage.columns.length) = true
    · simp only [if_pos malformed]
      exact .modifyJob_bind (.pure fun _ _ start => start)
    simp only [if_neg malformed]
    cases wanted : joining.flow with
    | stop => exact .pure fun _ _ start => start
    | more =>
      have taken : Related (Lagging related .taking) (next.takeRow (row.cells ++ values))
          (next'.takeRow (row.cells ++ values)) (fun answer => Lagging related (afterRow answer)) :=
        .weaken (alike.takeRow _) (fun _ _ => Lagging.taking) fun _ _ _ => Lagging.here
      refine .bind (.below taken) (fun flow => ?_) fun _ _ _ start => start
      exact .pure fun _ _ start => start

private theorem joinRows_alike (alike : next.Alike next' related) (node : NodeName) (rows : List FetchRow)
    (joining : Joining) :
    Related (Answered related id (.ok joining.flow)) (joinRows next node rows joining)
      (joinRows next' node rows joining) (Answered related Joining.flow) := by
  induction rows generalizing joining with
  | nil => exact .pure fun _ _ start => start
  | cons row rest ih =>
    exact .bind (joinRow_alike alike node row joining) ih fun _ _ _ start => start

private theorem fetchBatch_alike (alike : next.Alike next' related) (services : Services σ)
    (batch : FetchBatch) (flow : Flow) :
    Related (Answered related id (.ok flow)) (fetchBatch services next batch flow)
      (fetchBatch services next' batch flow) (Answered related id) := by
  refine .stage_bind fun stage _ _ _ _ => ?_
  refine .job_bind fun job => .modifyJob_bind ?_
  cases (services.fetch (batch.request stage.columns) job.node.services).1 with
  | error error =>
    refine .above_bind (fun state empty => refuse_empty _ _ _ _ empty) fun _ => ?_
    exact .pure fun _ _ start => start
  | ok response =>
    refine .bind (joinRows_alike alike batch.node batch.rows ⟨response, 0, flow⟩)
      (fun joining => .modifyJob_bind ?_) fun _ _ _ start => start
    exact .pure fun _ _ start => start

private theorem fetchAll_alike (alike : next.Alike next' related) (services : Services σ) (fuel : Nat)
    (batches : List FetchBatch) (flow : Flow) :
    Related (Answered related id (.ok flow)) (fetchAll services next fuel batches flow)
      (fetchAll services next' fuel batches flow) (Answered related id) := by
  induction fuel generalizing batches flow with
  | zero => exact .pure fun _ _ start => start
  | succ fuel ih =>
    refine .stage_bind fun stage _ _ _ _ => .job_bind fun job => ?_
    dsimp only
    cases batches[nextBatch services stage batches job]? with
    | none => exact .pure fun _ _ start => start
    | some batch =>
      exact .bind (fetchBatch_alike alike services batch flow) (fun flow => ih _ flow)
        fun _ _ _ start => start

private theorem flush_alike (alike : next.Alike next' related) (services : Services σ) :
    Related (Anyhow (related .taking)) (flush services next) (flush services next')
      (Answered related id) := by
  refine .stage_bind fun stage below below' _ ready => ?_
  have emptied : Answered related id (.ok Flow.more) ({ stage with newest := [] }, below)
      ({ stage with newest := [] }, below') := ⟨rfl, rfl, .here ready⟩
  refine .setOwn_bind emptied (.modifyJob_bind ?_)
  have fetched := fetchAll_alike alike services (FetchBatch.ofRows stage.newest.reverse).length
    (FetchBatch.ofRows stage.newest.reverse) .more
  dsimp only
  split
  · refine .bind (.below (.ofState alike.meanwhileLagging)) (fun _ => fetched) fun _ _ _ start => ?_
    exact ⟨start.same, start.holds, .idle (Lagging.taking start.related)⟩
  · exact fetched

/-- With no row waiting there is nothing to fetch. -/
theorem flush_empty (services : Services σ) (next : Receiver σ δ) (stage : FetchStage) (below : δ)
    (job : Job σ) (empty : stage.Empty) :
    flush services next ((stage, below), job) = (.ok .more, ((stage, below), job)) := by
  obtain ⟨_, _, _, _, _, newest⟩ := stage
  obtain rfl : newest = [] := empty
  rfl

theorem finish_alike (alike : next.Alike next' related) (services : Services σ) :
    Related (Driven Empty related .closed) (finish services next) (finish services next')
      (fun answer => Anyhow (Lagging related (afterFinish answer))) := by
  rintro ⟨stage, below⟩ ⟨_, below'⟩ job ⟨rfl, ready | ⟨empty, behind⟩⟩
  · refine Related.bind (flush_alike alike services) (fun flow => ?_) ?_ _ _ job (Anyhow.of _ ready)
    · exact .weaken alike.passFinish
        (fun _ _ start => ⟨start.same, trivial, start.related.closed⟩) fun _ _ _ start => start
    · exact fun _ _ _ start => ⟨start.same, trivial, start.related⟩
  · rw [finish, finish, bind_of_ok (flush_empty services next stage below job empty),
      bind_of_ok (flush_empty services next' stage below' job empty)]
    exact alike.passFinish _ _ job (Anyhow.of _ behind)

theorem takeRow_alike (alike : next.Alike next' related) (services : Services σ) (row : Row) :
    Related (Anyhow (related .taking)) (takeRow services next row) (takeRow services next' row)
      (fun answer => Driven Empty related (afterRow answer)) := by
  refine .stage_bind fun stage _ _ _ _ => ?_
  refine .step (.evaluated _) (fun _ _ _ => .untouched) fun id => ?_
  cases id with
  | none => exact .modifyJob_bind (.pure fun _ _ => .untouched)
  | some id =>
    dsimp only
    cases stage.nodeOf (FetchId.reader id) with
    | none => exact .modifyJob_bind (.pure fun _ _ => .untouched)
    | some node =>
      refine .step (.above fun _ _ => trivial) (fun _ _ _ => .untouched) fun _ => ?_
      refine .stage_bind fun stage _ _ _ _ => ?_
      dsimp only
      split
      · refine .weaken (flush_alike alike services) (fun _ _ start => start) ?_
        intro answer _ _ start
        cases answer <;> exact ⟨start.same, .inr ⟨start.holds, start.related⟩⟩
      · exact .pure fun _ _ => .untouched

end FetchStage

/-! ### Stages of every kind -/

theorem ExportStage.finish_alike (alike : next.Alike next' related) :
    Related (Anyhow (related .taking)) (ExportStage.finish next) (ExportStage.finish next')
      (fun answer => Anyhow (Lagging related (afterFinish answer))) :=
  .step (.above fun _ _ => trivial) (fun _ _ _ => .unused) fun _ => alike.emitOne _

namespace StageBody

/-- Nothing is held that the end would emit. -/
def Exhausted : StageBody → Prop
  | .filter _ | .eval _ | .slice _ => True
  | .fetch stage => stage.Empty
  | _ => False

private theorem within_row {wrap : β → StageBody} {stage : β} {turn : Turn σ (β × δ) Flow}
    {turn' : Turn σ (β × δ') Flow} {idle : β → Prop}
    (driven : Related (Anyhow (related .taking)) turn turn'
      (fun answer => Driven idle related (afterRow answer)))
    (exhausted : ∀ part, idle part → (wrap part).Exhausted) :
    Related (Anyhow (related .taking)) (within wrap stage turn) (within wrap stage turn')
      (fun answer => Driven Exhausted related (afterRow answer)) := by
  refine .within driven (fun _ _ start => Anyhow.of _ start.related) ?_
  rintro _ part _ _ _ ⟨same, ready | ⟨done, behind⟩⟩
  · exact ⟨congrArg wrap same, .inl ready⟩
  · exact ⟨congrArg wrap same, .inr ⟨exhausted part done, behind⟩⟩

private theorem within_kept {wrap : β → StageBody} {stage : β} (turn : Turn σ β Flow) :
    Related (Anyhow (related .taking)) (within wrap stage (above turn))
      (within wrap stage (above turn)) (fun answer => Driven Exhausted related (afterRow answer)) :=
  within_row (.weaken (.above fun _ _ => trivial) (fun _ _ start => start) fun _ _ _ => .untouched)
    fun _ (impossible : False) => impossible.elim

theorem takeRow_alike (alike : next.Alike next' related) (services : Services σ) (row : Row) :
    Related (Anyhow (related .taking)) (takeRow services next row) (takeRow services next' row)
      (fun answer => Driven Exhausted related (afterRow answer)) := by
  refine .stage_bind fun body _ _ _ _ => ?_
  cases body with
  | filter => exact within_row (FilterStage.takeRow_alike alike row) fun _ done => done
  | eval => exact within_row (EvalStage.takeRow_alike alike row) fun _ done => done
  | slice => exact within_row (SliceStage.takeRow_alike alike row) fun _ done => done
  | fetch => exact within_row (FetchStage.takeRow_alike alike services row) fun _ done => done
  | sort => exact within_kept _
  | top => exact within_kept _
  | group => exact within_kept _
  | aggregate => exact within_kept _
  | count => exact within_kept _
  | systemUpdate => exact within_kept _
  | exporting => exact within_kept _
  | indexWrite => exact within_kept _
  | shardWrite => exact within_kept _

private theorem within_end {wrap : β → StageBody} {stage : β} {turn : Turn σ (β × δ) Unit}
    {turn' : Turn σ (β × δ') Unit}
    (ended : Related (Anyhow (related .taking)) turn turn'
      (fun answer => Anyhow (Lagging related (afterFinish answer)))) :
    Related (Anyhow (related .taking)) (within wrap stage turn) (within wrap stage turn')
      (fun answer => Anyhow (Lagging related (afterFinish answer))) :=
  .within ended (fun _ _ start => Anyhow.of _ start.related)
    fun _ _ _ _ _ start => ⟨congrArg wrap start.same, trivial, start.related⟩

private theorem fetch_end {stage : FetchStage} (alike : next.Alike next' related)
    (services : Services σ) :
    Related (fun state state' =>
        Driven FetchStage.Empty related .closed (stage, state.2) (stage, state'.2))
      (within StageBody.fetch stage (FetchStage.finish services next))
      (within StageBody.fetch stage (FetchStage.finish services next'))
      (fun answer => Anyhow (Lagging related (afterFinish answer))) :=
  .within (FetchStage.finish_alike alike services) (fun _ _ start => start)
    fun _ _ _ _ _ ended => ⟨congrArg _ ended.same, trivial, ended.related⟩

theorem finish_alike (alike : next.Alike next' related) (services : Services σ) :
    Related (Driven Exhausted related .closed) (finish services next) (finish services next')
      (fun answer => Anyhow (Lagging related (afterFinish answer))) := by
  rintro ⟨body, below⟩ ⟨body', below'⟩ job start
  obtain rfl : body = body' := start.same
  simp only [finish, Turn.own_bind]
  cases body with
  | filter => exact alike.passFinish _ _ job start.closed
  | eval => exact alike.passFinish _ _ job start.closed
  | slice => exact alike.passFinish _ _ job start.closed
  | fetch => exact fetch_end alike services _ _ job ⟨rfl, start.behind⟩
  | sort => exact within_end (alike.emitAll _ _) _ _ job (start.unspent id)
  | top => exact within_end (alike.emitAll _ _) _ _ job (start.unspent id)
  | group => exact within_end (alike.emitAll _ _) _ _ job (start.unspent id)
  | aggregate => exact within_end (alike.emitOne _) _ _ job (start.unspent id)
  | count => exact within_end (alike.emitOne _) _ _ job (start.unspent id)
  | systemUpdate => exact within_end (alike.emitOne _) _ _ job (start.unspent id)
  | exporting => exact within_end (ExportStage.finish_alike alike) _ _ job (start.unspent id)
  | indexWrite => exact within_end (alike.emitLast _) _ _ job (start.unspent id)
  | shardWrite => exact within_end (alike.emitLast _) _ _ job (start.unspent id)

end StageBody

end RowPipeline
