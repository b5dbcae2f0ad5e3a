import RowPipeline.Error.Basic

/-!
Creation of missing indices. However many ask for an index, one request to create it is on its way
at a time; the others wait for its outcome, and after a failure the next of them asks again.
-/

namespace RowPipeline

/-- The indices that were created, the requests that are on their way and who waits for them, each
by the name of the index. -/
structure IndexCreation where
  created : List String := []
  active : List (String × Nat) := []
  waiting : List (String × Nat) := []
  deriving DecidableEq, Repr

namespace IndexCreation

/-- What a caller who asks for an index has to do. -/
inductive Role where
  | done
  | winner
  | waiter
  deriving DecidableEq, Repr

def arrive (creation : IndexCreation) (name : String) (caller : Nat) : IndexCreation × Role :=
  if creation.created.contains name then (creation, .done)
  else if creation.active.any (·.1 == name) then
    ({ creation with waiting := creation.waiting ++ [(name, caller)] }, .waiter)
  else ({ creation with active := creation.active ++ [(name, caller)] }, .winner)

/-- The request for an index succeeded: the callers that are told so. -/
def succeed (creation : IndexCreation) (name : String) : IndexCreation × List Nat :=
  let told := creation.active.filter (·.1 == name) ++ creation.waiting.filter (·.1 == name)
  ({ created := creation.created ++ [name]
     active := creation.active.filter (·.1 != name)
     waiting := creation.waiting.filter (·.1 != name) },
    told.map (·.2))

/-- The request for an index failed: the callers that are told so, and the one whose turn it is to
send the next request. -/
def fail (creation : IndexCreation) (name : String) : IndexCreation × List Nat × Option Nat :=
  let told := (creation.active.filter (·.1 == name)).map (·.2)
  let active := creation.active.filter (·.1 != name)
  match creation.waiting.find? (·.1 == name) with
  | some (_, next) =>
    ({ creation with
        active := active ++ [(name, next)]
        waiting := creation.waiting.eraseP (·.1 == name) },
      told, some next)
  | none => ({ creation with active := active }, told, none)

end IndexCreation

end RowPipeline
