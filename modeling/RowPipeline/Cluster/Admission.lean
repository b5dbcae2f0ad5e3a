import RowPipeline.Dictionary
import RowPipeline.Log.Entry
import RowPipeline.Shard

/-!
Admission of requests to nodes. A request needs a slot of its node, of which there are as many as
the one who asks allows; who finds none waits until one is given back.
-/

namespace RowPipeline

structure NodeLoad where
  inFlight : Nat := 0
  highWater : Nat := 0
  deriving DecidableEq, Repr

abbrev NodeLoads := Dictionary NodeName NodeLoad

namespace NodeLoads

def load (loads : NodeLoads) (node : NodeName) : NodeLoad := (loads.get? node).getD {}

/-- A limit of zero counts as one, so that nobody waits for ever. -/
def capacity (limit : Nat) : Nat := max limit 1

def hasRoom (loads : NodeLoads) (node : NodeName) (limit : Nat) : Bool :=
  (loads.load node).inFlight < capacity limit

def grant (loads : NodeLoads) (node : NodeName) : NodeLoads :=
  let taken := (loads.load node).inFlight + 1
  loads.insert node ⟨taken, max (loads.load node).highWater taken⟩

/-- Takes a slot if the limit leaves one. -/
def grant? (loads : NodeLoads) (node : NodeName) (limit : Nat) : Option NodeLoads :=
  if loads.hasRoom node limit then some (loads.grant node) else none

def release (loads : NodeLoads) (node : NodeName) : NodeLoads :=
  let load := loads.load node
  loads.insert node { load with inFlight := load.inFlight - 1 }

end NodeLoads

structure Waiter where
  label : String
  node : NodeName
  limit : Nat
  /-- Whether something happened since the last try. -/
  awake : Bool := true
  /-- Whether a try was in vain. -/
  waited : Bool := false
  deriving DecidableEq, Repr

/-- The slots, who holds them and who waits for them, in order of arrival. -/
structure Admission where
  loads : NodeLoads := []
  permits : List (String × NodeName) := []
  waiting : List Waiter := []
  deriving Repr

namespace Admission

def acquire (admission : Admission) (label : String) (node : NodeName) (limit : Nat) : Admission :=
  { admission with waiting := admission.waiting ++ [⟨label, node, limit, true, false⟩] }

def wake (node : NodeName) (waiter : Waiter) : Waiter :=
  if waiter.node == node then { waiter with awake := true } else waiter

/-- Gives back the slot of a label and wakes all who wait for one of that node; a label without a
slot stops waiting. -/
def release (admission : Admission) (label : String) : Admission :=
  match admission.permits.find? (·.1 == label) with
  | some (_, node) =>
    { loads := admission.loads.release node
      permits := admission.permits.eraseP (·.1 == label)
      waiting := admission.waiting.map (wake node) }
  | none => { admission with waiting := admission.waiting.eraseP (·.label == label) }

/-- Someone who holds a slot of a node gives it back, whoever it is, and wakes all who wait for one. -/
def giveBack (node : NodeName) (admission : Admission) : Admission :=
  { loads := admission.loads.release node
    permits := admission.permits.eraseP (·.2 == node)
    waiting := admission.waiting.map (wake node) }

/-- Slots of a node are given back one after the other, at most `fuel` of them, until a limit leaves
one. -/
def giveWay (node : NodeName) (limit : Nat) : Nat → Admission → Admission
  | 0, admission => admission
  | fuel + 1, admission =>
    if admission.loads.hasRoom node limit then admission
    else giveWay node limit fuel (admission.giveBack node)

def waitFields (node : NodeName) (limit : Nat) : List (String × String) :=
  [("limit", toString (NodeLoads.capacity limit)), ("node", node)]

/-- One try: who is awake gets a slot or goes to sleep. The first try in vain is reported. -/
def poll (loads : NodeLoads) (waiter : Waiter) (log : Log) :
    NodeLoads × Option Waiter × Log :=
  if !waiter.awake then (loads, some waiter, log)
  else
    match loads.grant? waiter.node waiter.limit with
    | some loads => (loads, none, log)
    | none =>
      let log :=
        if waiter.waited then log
        else log.report .admissionWait (waitFields waiter.node waiter.limit)
      (loads, some { waiter with awake := false, waited := true }, log)

/-- Lets all who wait try once, in order of arrival: the slots after it, who got one, who still
waits, and the log. -/
def pollAll : List Waiter → NodeLoads → Log → NodeLoads × List Waiter × List Waiter × Log
  | [], loads, log => (loads, [], [], log)
  | waiter :: rest, loads, log =>
    match poll loads waiter log with
    | (loads, none, log) =>
      let (loads, granted, waiting, log) := pollAll rest loads log
      (loads, waiter :: granted, waiting, log)
    | (loads, some waiter, log) =>
      let (loads, granted, waiting, log) := pollAll rest loads log
      (loads, granted, waiter :: waiting, log)

/-- One round of tries, with the labels that got a slot. -/
def settle (admission : Admission) (log : Log) : Admission × List String × Log :=
  let (loads, granted, waiting, log) := pollAll admission.waiting admission.loads log
  let permits := admission.permits ++ granted.map fun waiter => (waiter.label, waiter.node)
  (⟨loads, permits, waiting⟩, granted.map (·.label), log)

end Admission

end RowPipeline
