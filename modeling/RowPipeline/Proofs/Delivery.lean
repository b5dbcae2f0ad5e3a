import RowPipeline.Proofs.ChainProtocol
import RowPipeline.Proofs.Outcome

/-!
What comes out of a chain, told from its end: what a stage makes of its rows is what the receivers
behind it have to make the outcome of. Stages that pass rows on do so row by row, and stages that
gather rows emit them in the end.
-/

namespace RowPipeline

open Turn

variable {σ β δ τ : Type}

/-- Rows that are fed to a receiver, which is then finished, leave it as it should be. Between the
rows and the end, anything may happen to the job. -/
structure Receiver.Delivers (receiver : Receiver σ τ) (excused : ExecutionError → Prop)
    (good : τ → Prop) (state : τ) (rows : List Row) : Prop where
  attached : receiver.attached state = true
  fed : ∀ job, Runs (receiver.feed rows) excused
    (fun _ last => ∀ job, Runs receiver.finish excused (fun _ last => good last.1) (last.1, job))
    (state, job)

variable {next : Receiver σ δ} {excused : ExecutionError → Prop} {good : δ → Prop}
variable {below : δ} {job : Job σ}

namespace Receiver.Delivers

theorem pushAll {rows : List Row} (delivers : next.Delivers excused good below rows) (job : Job σ) :
    Runs (next.pushAll rows) excused
      (fun _ last => ∀ job, Runs next.finish excused (fun _ last => good last.1) (last.1, job))
      (below, job) := by
  unfold Receiver.pushAll
  refine Runs.own_bind ?_
  rw [if_pos delivers.attached]
  exact delivers.fed job

theorem weaken {rows : List Row} {better : δ → Prop}
    (delivers : next.Delivers excused good below rows) (implied : ∀ state, good state → better state) :
    next.Delivers excused better below rows :=
  ⟨delivers.attached, fun job => (delivers.fed job).weaken fun _ _ finishes job =>
    (finishes job).weaken fun _ last => implied last.1⟩

theorem drain {rows : List Row} (delivers : next.Delivers excused good below rows) (job : Job σ) :
    Runs (next.drain rows) excused (fun _ last => good last.1) (below, job) :=
  (delivers.fed job).bind fun _ last finishes => finishes last.2

/-- The ends of stages that emit what they gathered. -/
theorem emitAll {stage : β} {rows : β → List Row} {clear : β × Job σ → β × Job σ}
    (delivers : next.Delivers excused good below (rows stage)) (job : Job σ) :
    Runs (next.emitAll rows clear) excused (fun _ last => good last.1.2) ((stage, below), job) := by
  refine Runs.own_bind (((delivers.pushAll job).below stage).attempt.bind ?_)
  rintro (error | _) ⟨⟨own, rest⟩, after⟩ pushed
  · exact pushed
  · exact ((pushed.2 _).below (clear (own, after)).1).weaken fun _ _ done => done.2

theorem emitOne (stage : β) (row : β → Row) (delivers : next.Delivers excused good below [row stage])
    (job : Job σ) :
    Runs (next.emitOne row) excused (fun _ last => good last.1.2) ((stage, below), job) := by
  have fed := delivers.fed job
  rw [feed, Runs.bind_iff] at fed
  refine Runs.own_bind ((fed.below stage).bind ?_)
  rintro flow ⟨⟨own, rest⟩, after⟩ ⟨_, pushed⟩
  have finishes : Runs next.finish excused (fun _ last => good last.1) (rest, after) := by
    cases flow <;> exact pushed.ok rfl after
  exact (finishes.below own).weaken fun _ _ done => done.2

end Receiver.Delivers

/-! ### Stages -/

namespace Stage

variable {services : Services σ} {stage : Stage}

theorem runs_takeRow {row : Row} {after : Flow → (StageBody × δ) × Job σ → Prop}
    (unended : stage.phase.isTerminal = false)
    (runs : Runs (StageBody.takeRow services next row) excused after ((stage.body, below), job)) :
    Runs (takeRow services next row) excused
      (fun flow last => last.1.1.phase.isTerminal = false ∧
        after flow ((last.1.1.body, last.1.2), last.2))
      ((stage, below), job) := by
  have inner : Runs (within (fun body => { stage with phase := .running, body := body }) stage.body
      (StageBody.takeRow services next row)) excused _ ((stage, below), job) := runs.within _ stage
  rw [Runs, ← takeRow_apply services next row stage below job unended] at inner
  refine Runs.weaken inner ?_
  rintro flow ⟨⟨_, rest⟩, last⟩ ⟨body, rfl, holds⟩
  exact ⟨rfl, holds⟩

theorem runs_finish (unended : stage.phase.isTerminal = false)
    (runs : Runs (StageBody.finish services next) excused (fun _ last => good last.1.2)
      ((stage.body, below), job)) :
    Runs (finish services next) excused (fun _ last => good last.1.2) ((stage, below), job) := by
  have inner : Runs (within (fun body => { stage with phase := .completed, body := body }) stage.body
      (StageBody.finish services next)) excused _ ((stage, below), job) := runs.within _ stage
  rw [Runs, ← finish_apply services next stage below job unended] at inner
  refine Runs.weaken inner ?_
  rintro _ _ ⟨_, _, holds⟩
  exact holds

/-- A stage that gathers rows delivers what it emits in the end. What it promises is what the rows
that are still to come will make of it. -/
theorem delivers_gathered {wrap : β → StageBody} {turn : Row → Turn σ β Flow}
    {Promises : β → List Row → Prop} {gathering : β} {rows : List Row}
    (takes : ∀ row gathering below job,
      StageBody.takeRow services next row ((wrap gathering, below), job) =
        within wrap gathering (above (turn row)) ((wrap gathering, below), job))
    (step : ∀ gathering row rest, Promises gathering (row :: rest) → ∀ job,
      Runs (turn row) excused (fun flow last => flow = .more ∧ Promises last.1 rest)
        (gathering, job))
    (ends : ∀ gathering, Promises gathering [] → ∀ job,
      Runs (StageBody.finish services next) excused (fun _ last => good last.1.2)
        ((wrap gathering, below), job))
    (unended : stage.phase.isTerminal = false) (same : stage.body = wrap gathering)
    (promise : Promises gathering rows) :
    (receiver services next).Delivers excused (fun state => good state.2) (stage, below) rows := by
  refine ⟨rfl, fun job => ?_⟩
  induction rows generalizing stage gathering job with
  | nil =>
    exact Runs.pure fun job => runs_finish unended (same ▸ ends gathering promise job)
  | cons row rest ih =>
    have taken := ((step gathering row rest promise job).above below).within wrap (wrap gathering)
    rw [Runs, ← takes, ← same] at taken
    refine (runs_takeRow unended taken).bind ?_
    rintro flow ⟨⟨after, _⟩, last⟩ ⟨unended, gathered, same, rfl, rfl, promise⟩
    exact ih unended same promise last

end Stage

/-! ### Stages that pass rows on -/

namespace StageBody

/-- Stages that have nothing of their own to emit. -/
def IsPassing : StageBody → Prop
  | .filter _ | .eval _ | .slice _ => True
  | _ => False

theorem IsPassing.finish_apply {body : StageBody} (passing : body.IsPassing)
    (services : Services σ) (next : Receiver σ δ) (below : δ) (job : Job σ) :
    finish services next ((body, below), job) = Turn.below next.finish ((body, below), job) := by
  cases body <;> first | rfl | exact passing.elim

section

variable (services : Services σ) (next : Receiver σ δ)

/-- The rows that a stage passes on of those that it is given, row by row. -/
inductive Passes : StageBody → List Row → List Row → Prop where
  | nil {body} : body.IsPassing → Passes body [] []
  | drop {body body' row rest out} : body.IsPassing →
      (∀ below job, takeRow services next row ((body, below), job) =
        (.ok .more, ((body', below), job))) →
      Passes body' rest out → Passes body (row :: rest) out
  | pass {body body' row emitted rest out} : body.IsPassing →
      (∀ below job, takeRow services next row ((body, below), job) =
        Turn.below (next.takeRow emitted) ((body', below), job)) →
      Passes body' rest out → Passes body (row :: rest) (emitted :: out)
  /-- The last row that is passed on is answered with a stop, whatever is behind. -/
  | last {body body' row emitted rest} : body.IsPassing → body'.IsPassing →
      (∀ below job, takeRow services next row ((body, below), job) =
        (Turn.below (next.takeRow emitted) >>= fun _ => pure .stop) ((body', below), job)) →
      Passes body (row :: rest) [emitted]
  | stop {body row rest} : body.IsPassing →
      (∀ below job, takeRow services next row ((body, below), job) =
        (.ok .stop, ((body, below), job))) → Passes body (row :: rest) []

end

private theorem Passes.isPassing {services : Services σ} {body : StageBody} {rows passed : List Row}
    (passes : Passes services next body rows passed) : body.IsPassing := by
  cases passes <;> assumption

end StageBody

namespace Stage

variable {services : Services σ} {stage : Stage}

/-- A stage that passes rows on is fed as what is behind it is fed with the rows it passes on. -/
theorem feed_passes {rows passed : List Row} {after : Unit → δ × Job σ → Prop}
    (passes : StageBody.Passes services next stage.body rows passed)
    (unended : stage.phase.isTerminal = false)
    (fed : Runs (next.feed passed) excused after (below, job)) :
    Runs ((receiver services next).feed rows) excused
      (fun _ last => last.1.1.phase.isTerminal = false ∧ last.1.1.body.IsPassing ∧
        after () (last.1.2, last.2))
      ((stage, below), job) := by
  generalize same : stage.body = body at passes
  induction passes generalizing stage below job with
  | nil passing =>
    subst same
    exact Runs.pure ⟨unended, passing, fed⟩
  | @drop _ body' _ _ _ _ takes _ ih =>
    subst same
    have taken : Runs (StageBody.takeRow services next _) excused
        (fun flow last => flow = .more ∧ last = ((body', below), job)) ((stage.body, below), job) :=
      .of_eq (takes below job) ⟨rfl, rfl⟩
    refine (runs_takeRow unended taken).bind ?_
    rintro flow ⟨⟨after, _⟩, last⟩ ⟨unended, rfl, same⟩
    cases same
    exact ih unended fed rfl
  | @pass _ body' _ _ _ _ _ takes passes ih =>
    subst same
    have taken := (Runs.bind_iff.mp fed).below body'
    rw [Runs, ← takes] at taken
    refine (runs_takeRow unended taken).bind ?_
    rintro flow ⟨⟨after, _⟩, last⟩ ⟨unended, same, fed⟩
    cases flow with
    | more => exact ih unended fed same
    | stop =>
      obtain rfl : after.body = body' := same
      exact Runs.pure ⟨unended, passes.isPassing, fed⟩
  | @last _ body' _ emitted _ _ passing takes =>
    subst same
    have taken : Runs (Turn.below (next.takeRow emitted) >>= fun _ => pure Flow.stop) excused
        (fun flow last => flow = .stop ∧ last.1.1 = body' ∧ after () (last.1.2, last.2))
        ((body', below), job) := by
      refine ((Runs.bind_iff.mp fed).below body').bind ?_
      rintro flow ⟨⟨after, _⟩, last⟩ ⟨same, fed⟩
      cases flow <;> exact Runs.pure ⟨rfl, same, fed⟩
    rw [Runs, ← takes] at taken
    refine (runs_takeRow unended taken).bind ?_
    rintro flow ⟨⟨after, _⟩, last⟩ ⟨unended, rfl, same, fed⟩
    obtain rfl : after.body = body' := same
    exact Runs.pure ⟨unended, passing, fed⟩
  | stop passing takes =>
    subst same
    have taken : Runs (StageBody.takeRow services next _) excused
        (fun flow last => flow = .stop ∧ last = ((stage.body, below), job))
        ((stage.body, below), job) := .of_eq (takes below job) ⟨rfl, rfl⟩
    refine (runs_takeRow unended taken).bind ?_
    rintro flow ⟨⟨after, _⟩, last⟩ ⟨unended, rfl, same⟩
    simp only [Prod.mk.injEq] at same
    obtain ⟨⟨same, rfl⟩, rfl⟩ := same
    exact Runs.pure ⟨unended, same ▸ passing, fed⟩

theorem delivers_passed {rows passed : List Row}
    (passes : StageBody.Passes services next stage.body rows passed)
    (unended : stage.phase.isTerminal = false)
    (delivers : next.Delivers excused good below passed) :
    (receiver services next).Delivers excused (fun state => good state.2) (stage, below) rows := by
  refine ⟨rfl, fun job => ?_⟩
  refine (feed_passes passes unended (delivers.fed job)).weaken ?_
  rintro _ ⟨⟨after, rest⟩, last⟩ ⟨unended, passing, finishes⟩ job
  refine runs_finish unended ?_
  rw [Runs, passing.finish_apply]
  exact ((finishes job).below after.body).weaken fun _ _ done => done.2

end Stage

end RowPipeline
