import RowPipeline.Proofs.Turn
import RowPipeline.Stage.Basic

/-!
The protocol between receivers. A receiver is given rows until it wants no more, is then finished at
most once, and is failed at most once, which ends everything. Recording its calls changes nothing of
what a receiver does.
-/

namespace RowPipeline

/-- How far the calls of a receiver got. -/
inductive Progress where
  /-- Rows may come. -/
  | taking
  /-- A row was answered with a stop. -/
  | closed
  /-- A row or the end was answered with an error. -/
  | broken
  | finished
  | failed (error : ExecutionError)

namespace Progress

def afterRow : Except ExecutionError Flow → Progress
  | .ok .more => .taking
  | .ok .stop => .closed
  | .error _ => .broken

def afterFinish : Except ExecutionError Unit → Progress
  | .ok () => .finished
  | .error _ => .broken

/-- How far a receiver can be behind another one that is driven over it. -/
inductive Behind : Progress → Progress → Prop where
  | same : Behind progress progress
  | takingClosed : Behind .closed .taking
  | takingBroken : Behind .broken .taking
  | closedBroken : Behind .broken .closed

theorem Behind.trans {upper middle lower : Progress} (first : Behind upper middle)
    (second : Behind middle lower) : Behind upper lower := by
  cases first <;> cases second <;> constructor

/-- A receiver whose rows were answered `flow` is open. -/
theorem Behind.afterRow (flow : Flow) : Behind .closed (afterRow (.ok flow)) := by
  cases flow <;> constructor

end Progress

open Progress

/-- Related states of receivers that are at most as far as the progress of the one in front. -/
def Lagging {δ δ' : Type} (related : Progress → δ → δ' → Prop) (upper : Progress)
    (state : δ) (state' : δ') : Prop :=
  ∃ lower, Behind upper lower ∧ related lower state state'

namespace Lagging

variable {δ δ' : Type} {related : Progress → δ → δ' → Prop} {state : δ} {state' : δ'}

theorem here {progress : Progress} (start : related progress state state') :
    Lagging related progress state state' := ⟨progress, .same, start⟩

theorem idle {flow : Except ExecutionError Flow} (start : related .taking state state') :
    Lagging related (afterRow flow) state state' := by
  rcases flow with error | flow
  · exact ⟨.taking, .takingBroken, start⟩
  · cases flow
    · exact ⟨.taking, .same, start⟩
    · exact ⟨.taking, .takingClosed, start⟩

theorem closed {flow : Flow} (start : Lagging related (afterRow (.ok flow)) state state') :
    Lagging related .closed state state' := by
  obtain ⟨lower, behind, start⟩ := start
  cases flow <;> cases behind
  · exact ⟨.taking, .takingClosed, start⟩
  · exact ⟨.closed, .same, start⟩
  · exact ⟨.taking, .takingClosed, start⟩

theorem unfailed {progress : Progress} (start : Lagging related progress state state')
    (unfailed : Behind .broken progress) : Lagging related .broken state state' := by
  obtain ⟨lower, behind, start⟩ := start
  exact ⟨lower, unfailed.trans behind, start⟩

theorem taking (start : Lagging related .taking state state') :
    related .taking state state' := by
  obtain ⟨lower, behind, start⟩ := start
  cases behind
  exact start

end Lagging

/-- Receivers that cannot be told apart by anyone who keeps to the protocol: from related states they
answer all calls alike, and what they are related by afterwards is what the answer leads to. -/
structure Receiver.Alike {σ τ τ' : Type} (receiver : Receiver σ τ) (receiver' : Receiver σ τ')
    (related : Progress → τ → τ' → Prop) : Prop where
  attached : ∀ {progress state state'}, related progress state state' →
    receiver.attached state = true ∧ receiver'.attached state' = true
  takeRow : ∀ row, Turn.Related (related .taking) (receiver.takeRow row) (receiver'.takeRow row)
    (fun answer => related (afterRow answer))
  finish : ∀ {progress}, Behind .closed progress →
    Turn.Related (related progress) receiver.finish receiver'.finish
      (fun answer => related (afterFinish answer))
  meanwhile : ∀ {progress}, Turn.RelatedSteps (related progress) receiver.meanwhile
    receiver'.meanwhile (related progress)
  fail : ∀ {progress}, Behind .broken progress → ∀ error, Turn.RelatedSteps (related progress)
    (receiver.fail error) (receiver'.fail error) (related (.failed error))

/-! ### Feeding receivers -/

namespace Receiver.Alike

variable {σ τ τ' : Type} {receiver : Receiver σ τ} {receiver' : Receiver σ τ'}
variable {related : Progress → τ → τ' → Prop}

/-- What relates receivers after some rows were pushed. -/
def afterFeed (related : Progress → τ → τ' → Prop) : Except ExecutionError Unit → τ → τ' → Prop
  | .ok () => Lagging related .closed
  | .error _ => related .broken

theorem feed (alike : Alike receiver receiver' related) (rows : List Row) :
    Turn.Related (related .taking) (receiver.feed rows) (receiver'.feed rows)
      (afterFeed related) := by
  induction rows with
  | nil => exact .pure fun _ _ start => ⟨.taking, .takingClosed, start⟩
  | cons row rest ih =>
    refine .bind (alike.takeRow row) ?_ fun _ _ _ failed => failed
    rintro (_ | _)
    · exact ih
    · exact .pure fun _ _ start => .here start

theorem pushAll (alike : Alike receiver receiver' related) (rows : List Row) :
    Turn.Related (related .taking) (receiver.pushAll rows) (receiver'.pushAll rows)
      (afterFeed related) := by
  refine .own_bind fun state state' start => ?_
  rw [if_pos (alike.attached start).1, if_pos (alike.attached start).2]
  exact alike.feed rows

theorem finishLagging (alike : Alike receiver receiver' related) :
    Turn.Related (Lagging related .closed) receiver.finish receiver'.finish
      (fun answer => related (afterFinish answer)) := by
  rintro state state' job ⟨lower, behind, start⟩
  exact alike.finish behind state state' job start

theorem failLagging (alike : Alike receiver receiver' related) (error : ExecutionError) :
    Turn.RelatedSteps (Lagging related .broken) (receiver.fail error) (receiver'.fail error)
      (related (.failed error)) := by
  rintro state state' job ⟨lower, behind, start⟩
  exact alike.fail behind error state state' job start

theorem meanwhileLagging (alike : Alike receiver receiver' related) {upper : Progress} :
    Turn.RelatedSteps (Lagging related upper) receiver.meanwhile receiver'.meanwhile
      (Lagging related upper) := by
  rintro state state' job ⟨lower, behind, start⟩
  obtain ⟨next, next', job', run, run', reached⟩ := alike.meanwhile state state' job start
  exact ⟨next, next', job', run, run', lower, behind, reached⟩

end Receiver.Alike

end RowPipeline
