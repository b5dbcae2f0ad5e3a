import RowPipeline.Job
import RowPipeline.Row

/-!
Receivers of rows. Each stage is a receiver built over the one behind it: it is given rows one by
one, then told that there are no more or that something failed.
-/

namespace RowPipeline

/-- What a receiver answers to a row. -/
inductive Flow where
  | more
  /-- No further rows are wanted, and the receiver is to be finished. -/
  | stop
  deriving DecidableEq, Repr

/-- What a receiver with state `τ` does when it is called. It may fail; what it did before stays
done. -/
abbrev Turn (σ τ α : Type) := ExceptT ExecutionError (StateM (τ × Job σ)) α

namespace Turn

variable {σ τ β γ δ α : Type}

def own : Turn σ τ τ := return (← get).1

def setOwn (receiver : τ) : Turn σ τ Unit := modify fun state => (receiver, state.2)

def job : Turn σ τ (Job σ) := return (← get).2

def modifyJob (change : Job σ → Job σ) : Turn σ τ Unit :=
  modify fun state => (state.1, change state.2)

def ofState (step : τ × Job σ → α × (τ × Job σ)) : Turn σ τ α := fun state =>
  let (result, state) := step state
  (.ok result, state)

def onJob (step : Job σ → Except ExecutionError α × Job σ) : Turn σ τ α := fun (receiver, job) =>
  let (result, job) := step job
  (result, (receiver, job))

def ofExcept : Except ExecutionError α → Turn σ τ α
  | .ok value => return value
  | .error error => throw error

def evaluated : Except EvaluationFault α → Turn σ τ α
  | .ok value => return value
  | .error fault => throw (.evaluation fault)

/-- Runs to the end and answers the outcome, which the caller may still fail with. -/
def attempt (turn : Turn σ τ α) : Turn σ τ (Except ExecutionError α) := fun state =>
  let (result, state) := turn state
  (.ok result, state)

def above (turn : Turn σ β α) : Turn σ (β × δ) α := fun ((receiver, next), job) =>
  let (result, (receiver, job)) := turn (receiver, job)
  (result, ((receiver, next), job))

def below (turn : Turn σ δ α) : Turn σ (β × δ) α := fun ((receiver, next), job) =>
  let (result, (next, job)) := turn (next, job)
  (result, ((receiver, next), job))

/-- A turn of a receiver that is a part or a case of a larger one. -/
def within (wrap : β → γ) (receiver : β) (turn : Turn σ (β × δ) α) : Turn σ (γ × δ) α :=
  fun ((_, next), job) =>
    let (result, ((receiver, next), job)) := turn ((receiver, next), job)
    (result, ((wrap receiver, next), job))

end Turn

structure Receiver (σ τ : Type) where
  /-- Whether there is anything that rows can be pushed into. -/
  attached : τ → Bool
  takeRow : Row → Turn σ τ Flow
  finish : Turn σ τ Unit
  /-- What goes on while the cluster is asked for something that the rows to come need. -/
  meanwhile : τ × Job σ → τ × Job σ
  /-- Something failed; there are no more rows either. -/
  fail : ExecutionError → τ × Job σ → τ × Job σ

namespace Receiver

variable {σ τ : Type}

def feed (receiver : Receiver σ τ) : List Row → Turn σ τ Unit
  | [] => return ()
  | row :: rest => do
    match ← receiver.takeRow row with
    | .more => receiver.feed rest
    | .stop => return ()

/-- Pushes a whole list of rows, which needs a receiver even if the list is empty. -/
def pushAll (receiver : Receiver σ τ) (rows : List Row) : Turn σ τ Unit := do
  if receiver.attached (← Turn.own) then receiver.feed rows
  else throw (.invalidState .noDownstream)

/-! ### The ends of stages in front of a receiver -/

variable {β : Type}

def emitOne (next : Receiver σ τ) (row : β → Row) : Turn σ (β × τ) Unit := do
  let (stage, _) ← Turn.own
  let _ ← Turn.below (next.takeRow (row stage))
  Turn.below next.finish

/-- Emits rows and passes the end on. What was held for the rows is given up in any case. -/
def emitAll (next : Receiver σ τ) (rows : β → List Row) (clear : β × Job σ → β × Job σ) :
    Turn σ (β × τ) Unit := do
  let (stage, _) ← Turn.own
  let result ← Turn.attempt (Turn.below (next.pushAll (rows stage)))
  Turn.above (Turn.ofState fun state => ((), clear state))
  Turn.ofExcept result
  Turn.below next.finish

/-- Emits the rows that a turn of the stage gives in the end, and passes the end on. -/
def emitLast (next : Receiver σ τ) (last : Turn σ β (List Row)) : Turn σ (β × τ) Unit := do
  let rows ← Turn.above last
  Turn.below (next.pushAll rows)
  Turn.below next.finish

end Receiver

end RowPipeline
