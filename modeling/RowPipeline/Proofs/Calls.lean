import RowPipeline.Proofs.Protocol

/-!
Records of calls. A receiver that records its calls answers them as it would without, and whoever
keeps to the protocol leaves an orderly record.
-/

namespace RowPipeline

/-- A call of a receiver, with the answer if there is one. -/
inductive Call where
  | row (row : Row) (answer : Except ExecutionError Flow)
  | finish (answer : Except ExecutionError Unit)
  | fail (error : ExecutionError)

namespace Call

/-- Whether one call may come, at any time, before another. Rows come before the end and the end
before the failure; after a stop there are no rows, and after an error there is only the failure. -/
def MayPrecede : Call → Call → Prop
  | .row _ (.ok .more), _ => True
  | .row _ (.ok .stop), .row _ _ => False
  | .row _ (.ok .stop), _ => True
  | .row _ (.error _), .fail _ => True
  | .row _ (.error _), _ => False
  | .finish _, .fail _ => True
  | .finish _, _ => False
  | .fail _, _ => False

/-- Rows, then at most one end, then at most one failure, and no rows after a stop or an error. -/
def Orderly (calls : List Call) : Prop := calls.Pairwise MayPrecede

def isFinish : Call → Bool
  | .finish _ => true
  | _ => false

def error? : Call → Option ExecutionError
  | .fail error => some error
  | _ => none

def finishes (calls : List Call) : Nat := calls.countP isFinish

def failures (calls : List Call) : List ExecutionError := calls.filterMap error?

private theorem finishes_append (calls later : List Call) :
    finishes (calls ++ later) = finishes calls + finishes later := List.countP_append

theorem failures_append (calls later : List Call) :
    failures (calls ++ later) = failures calls ++ failures later := List.filterMap_append

private theorem mayPrecede_fail (call : Call) (other : call.error? = none) (error : ExecutionError) :
    call.MayPrecede (.fail error) := by
  cases call with
  | row _ answer => rcases answer with _ | _ | _ <;> exact trivial
  | finish => exact trivial
  | fail => cases other

theorem Orderly.concat {calls : List Call} {last : Call} (orderly : Orderly calls)
    (may : ∀ call ∈ calls, call.MayPrecede last) : Orderly (calls ++ [last]) := by
  refine List.pairwise_append.mpr ⟨orderly, List.pairwise_singleton _ _, ?_⟩
  intro call member next new
  rw [List.mem_singleton.mp new]
  exact may call member

end Call

open Progress

/-- The calls that get a receiver so far. -/
inductive Progress.Seen : Progress → List Call → Prop where
  | nothing : Seen .taking []
  | row : Seen .taking calls → Seen (afterRow answer) (calls ++ [.row row answer])
  | finish : Behind .closed progress → Seen progress calls →
      Seen (afterFinish answer) (calls ++ [.finish answer])
  | fail : Behind .broken progress → Seen progress calls →
      Seen (.failed error) (calls ++ [.fail error])

namespace Progress.Seen

variable {progress : Progress} {calls : List Call}

theorem ofTaking (seen : Seen .taking calls) : ∀ call ∈ calls, ∃ row, call = .row row (.ok .more) := by
  generalize same : Progress.taking = progress at seen
  induction seen with
  | nothing => simp
  | @row calls answer row _ ih =>
    cases answer with
    | error => cases same
    | ok flow =>
      cases flow with
      | stop => cases same
      | more =>
        intro call member
        rcases List.mem_append.mp member with earlier | last
        · exact ih rfl call earlier
        · exact ⟨row, List.mem_singleton.mp last⟩
  | @finish _ _ answer _ _ _ => cases answer <;> cases same
  | fail => cases same

/-- Before the end, all calls were rows, and none was answered with an error. -/
theorem ofOpen (unended : Behind .closed progress) (seen : Seen progress calls) :
    ∀ call ∈ calls, ∃ row flow, call = .row row (.ok flow) := by
  cases seen with
  | nothing => simp
  | @row calls answer row seen =>
    intro call member
    rcases List.mem_append.mp member with earlier | last
    · obtain ⟨earlierRow, same⟩ := seen.ofTaking call earlier
      exact ⟨earlierRow, .more, same⟩
    · cases answer with
      | error => cases unended
      | ok flow => exact ⟨row, flow, List.mem_singleton.mp last⟩
  | @finish _ _ answer => cases answer <;> cases unended
  | fail => cases unended

theorem ofUnfailed (unfailed : ∀ error, progress ≠ .failed error) (seen : Seen progress calls) :
    Call.failures calls = [] := by
  induction seen with
  | nothing => rfl
  | row _ ih =>
    have earlier := ih fun _ same => by cases same
    exact (Call.failures_append _ _).trans (by rw [earlier]; rfl)
  | finish unended _ ih =>
    have earlier := ih fun _ same => by cases same; cases unended
    exact (Call.failures_append _ _).trans (by rw [earlier]; rfl)
  | fail => exact absurd rfl (unfailed _)

theorem ofFinished (seen : Seen .finished calls) :
    Call.finishes calls = 1 ∧ Call.failures calls = [] := by
  refine ⟨?_, seen.ofUnfailed fun _ same => by cases same⟩
  generalize same : Progress.finished = progress at seen
  cases seen with
  | nothing => cases same
  | @row _ answer => rcases answer with _ | _ | _ <;> cases same
  | finish unended seen =>
    have unfinished : Call.finishes _ = 0 := List.countP_eq_zero.mpr fun call member => by
      obtain ⟨row, flow, rfl⟩ := seen.ofOpen unended call member
      exact Bool.false_ne_true
    rw [Call.finishes_append, unfinished]
    rfl
  | fail => cases same

theorem ofFailed {error : ExecutionError} (seen : Seen (.failed error) calls) :
    Call.failures calls = [error] := by
  generalize same : Progress.failed error = progress at seen
  cases seen with
  | nothing => cases same
  | @row _ answer => rcases answer with _ | _ | _ <;> cases same
  | @finish _ _ answer => cases answer <;> cases same
  | fail unfailed seen =>
    obtain rfl := Progress.failed.inj same
    have earlier := seen.ofUnfailed fun _ same => by cases same; cases unfailed
    rw [Call.failures_append, earlier]
    rfl

/-- Whoever keeps to the protocol leaves an orderly record. -/
theorem orderly (seen : Seen progress calls) : Call.Orderly calls := by
  induction seen with
  | nothing => exact List.Pairwise.nil
  | row seen ih =>
    refine ih.concat fun call member => ?_
    obtain ⟨row, rfl⟩ := seen.ofTaking call member
    exact trivial
  | finish unended seen ih =>
    refine ih.concat fun call member => ?_
    obtain ⟨row, flow, rfl⟩ := seen.ofOpen unended call member
    cases flow <;> exact trivial
  | fail unfailed seen ih =>
    refine ih.concat fun call member => ?_
    have earlier := seen.ofUnfailed fun _ same => by cases same; cases unfailed
    exact call.mayPrecede_fail (List.filterMap_eq_nil_iff.mp earlier call member) _

end Progress.Seen

/-! ### Recording -/

/-- A receiver with the calls it got, the first one first. -/
structure Recorded (τ : Type) where
  receiver : τ
  calls : List Call := []

namespace Receiver

variable {σ τ τ' : Type}

/-- The same receiver, which also records what it is called with and what it answers. -/
def recorded (inner : Receiver σ τ) : Receiver σ (Recorded τ) where
  attached state := inner.attached state.receiver
  takeRow row := fun (state, job) =>
    let (answer, (receiver, job)) := inner.takeRow row (state.receiver, job)
    (answer, (⟨receiver, state.calls ++ [.row row answer]⟩, job))
  finish := fun (state, job) =>
    let (answer, (receiver, job)) := inner.finish (state.receiver, job)
    (answer, (⟨receiver, state.calls ++ [.finish answer]⟩, job))
  meanwhile := fun (state, job) =>
    let (receiver, job) := inner.meanwhile (state.receiver, job)
    (⟨receiver, state.calls⟩, job)
  fail error := fun (state, job) =>
    let (receiver, job) := inner.fail error (state.receiver, job)
    (⟨receiver, state.calls ++ [.fail error]⟩, job)

/-- A recorded receiver cannot be told apart from one that it is like otherwise. -/
theorem Alike.recorded {receiver : Receiver σ τ} {receiver' : Receiver σ τ'}
    {related : Progress → τ → τ' → Prop} (alike : receiver.Alike receiver' related) :
    receiver.Alike receiver'.recorded fun progress state state' =>
      related progress state state'.receiver ∧ Seen progress state'.calls where
  attached start := alike.attached start.1
  takeRow row := by
    rintro state state' job ⟨start, seen⟩
    obtain ⟨outcome, next, next', job', run, run', reached⟩ := alike.takeRow row _ _ job start
    refine ⟨outcome, next, ⟨next', state'.calls ++ [.row row outcome]⟩, job', run, ?_, reached, ?_⟩
    · simp [Receiver.recorded, run']
    · exact .row seen
  finish := by
    rintro progress unended state state' job ⟨start, seen⟩
    obtain ⟨outcome, next, next', job', run, run', reached⟩ := alike.finish unended _ _ job start
    refine ⟨outcome, next, ⟨next', state'.calls ++ [.finish outcome]⟩, job', run, ?_, reached, ?_⟩
    · simp [Receiver.recorded, run']
    · exact .finish unended seen
  meanwhile := by
    rintro progress state state' job ⟨start, seen⟩
    obtain ⟨next, next', job', run, run', reached⟩ := alike.meanwhile _ _ job start
    refine ⟨next, ⟨next', state'.calls⟩, job', run, ?_, reached, seen⟩
    simp [Receiver.recorded, run']
  fail := by
    rintro progress unfailed error state state' job ⟨start, seen⟩
    obtain ⟨next, next', job', run, run', reached⟩ := alike.fail unfailed error _ _ job start
    refine ⟨next, ⟨next', state'.calls ++ [.fail error]⟩, job', run, ?_, reached, ?_⟩
    · simp [Receiver.recorded, run']
    · exact .fail unfailed seen

end Receiver

end RowPipeline
