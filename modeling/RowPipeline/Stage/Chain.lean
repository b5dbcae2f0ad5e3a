import RowPipeline.Stage.Basic

/-!
Chains of stages. Rows enter at the head and leave at the terminal behind the last stage, which
collects them.
-/

namespace RowPipeline

/-- Collects rows and delivers them once. -/
structure Collector where
  newest : List Row := []
  delivered : Option (Except ExecutionError (List Row)) := none

namespace Collector

/-- Delivers an outcome unless one was delivered before. -/
def deliver (collector : Collector) (outcome : Except ExecutionError (List Row)) : Collector :=
  ⟨[], some (collector.delivered.getD outcome)⟩

/-- What was delivered; nothing counts as a cancelled execution. -/
def result (collector : Collector) : Except ExecutionError (List Row) :=
  collector.delivered.getD (.error .cancelled)

end Collector

/-- What is behind the last stage: a collector, or nothing. -/
inductive Terminal where
  | collecting (collector : Collector)
  | unattached

namespace Terminal

variable {σ : Type}

def takeRow (row : Row) : Turn σ Terminal Flow := do
  match ← Turn.own with
  | .unattached => throw (.invalidState .noDownstream)
  | .collecting collector =>
    if collector.delivered.isSome then throw (.invalidState .rowAfterDelivery)
    Turn.setOwn (.collecting { collector with newest := row :: collector.newest })
    return .more

def finish : Turn σ Terminal Unit := do
  match ← Turn.own with
  | .unattached => throw (.invalidState .noDownstream)
  | .collecting collector =>
    Turn.setOwn (.collecting (collector.deliver (.ok collector.newest.reverse)))

def fail (error : ExecutionError) : Terminal × Job σ → Terminal × Job σ
  | (.unattached, job) => (.unattached, job)
  | (.collecting collector, job) => (.collecting (collector.deliver (.error error)), job)

def receiver : Receiver σ Terminal where
  attached
    | .collecting _ => true
    | .unattached => false
  takeRow := takeRow
  finish := finish
  meanwhile := id
  fail := fail

def result : Terminal → Except ExecutionError (List Row)
  | .collecting collector => collector.result
  | .unattached => .error .cancelled

end Terminal

def Chain : Nat → Type
  | 0 => Terminal
  | length + 1 => Stage × Chain length

namespace Chain

variable {σ : Type}

def ofStages (terminal : Terminal) : (stages : List Stage) → Chain stages.length
  | [] => terminal
  | stage :: rest => (stage, ofStages terminal rest)

def terminal : (length : Nat) → Chain length → Terminal
  | 0, terminal => terminal
  | length + 1, (_, rest) => terminal length rest

def receiver (services : Services σ) : (length : Nat) → Receiver σ (Chain length)
  | 0 => Terminal.receiver
  | length + 1 => Stage.receiver services (receiver services length)

def dispose : (length : Nat) → Chain length → Job σ → Job σ
  | 0, _, job => job
  | length + 1, (stage, rest), job => dispose length rest (stage.body.dispose job)

end Chain

end RowPipeline
