import RowPipeline.Job
import RowPipeline.Proofs.Turn

/-!
What turns come to. A turn either gives a value and a state of which something holds, or fails for
one of the reasons that are excused; that the account of a job refused memory always is one.
-/

namespace RowPipeline

/-- The account of a job refused memory that exceeds its limit together with what is used. -/
def ExecutionError.IsRefusal (error : ExecutionError) : Prop :=
  ∃ label requested used limit,
    error = .memoryLimitExceeded label requested used limit ∧ limit < used + requested

/-- Whatever an outcome is, memory was not refused. -/
def MemoryGranted {α : Type} (outcome : Except ExecutionError α) : Prop :=
  ∀ error, outcome = .error error → ¬ error.IsRefusal

theorem MemoryGranted.of_ok {α : Type} {outcome : Except ExecutionError α} {value : α}
    (done : outcome = .ok value) : MemoryGranted outcome := by
  rintro error failed
  rw [done] at failed
  cases failed

theorem MemoryGranted.of_isOk {α : Type} {outcome : Except ExecutionError α}
    (done : outcome.isOk = true) : MemoryGranted outcome := by
  rintro error rfl
  cases done

/-- An account refuses nothing within its limit. -/
theorem MemoryAccount.lt_of_charge? {account : MemoryAccount} {bytes : Nat}
    (refused : account.charge? bytes = none) : account.limit < account.used + bytes := by
  unfold charge? after at refused
  dsimp only at refused
  split at refused
  · omega
  · cases refused

theorem MemoryShare.isRefusal_of_charge? {share : MemoryShare} {bytes : Nat} {account : MemoryAccount}
    (refused : share.charge? bytes account = none) : (account.refusal bytes).IsRefusal :=
  ⟨_, _, _, _, rfl, account.lt_of_charge? (Option.map_eq_none_iff.mp refused)⟩

theorem Job.isRefusal_of_charge {σ : Type} {share : MemoryShare} {bytes : Nat} {job last : Job σ}
    {error : ExecutionError} (refused : Job.charge share bytes job = (.error error, last)) :
    error.IsRefusal := by
  unfold Job.charge at refused
  cases charged : share.charge? bytes job.memory with
  | some account =>
    rw [charged] at refused
    cases refused
  | none =>
    rw [charged] at refused
    cases refused
    exact MemoryShare.isRefusal_of_charge? charged

namespace Turn

variable {σ τ β γ δ α ε : Type}

def Runs (turn : Turn σ τ α) (excused : ExecutionError → Prop) (after : α → τ × Job σ → Prop)
    (state : τ × Job σ) : Prop :=
  match turn state with
  | (.ok value, state) => after value state
  | (.error error, _) => excused error

namespace Runs

variable {excused : ExecutionError → Prop} {after : α → τ × Job σ → Prop} {state : τ × Job σ}

theorem ok {turn : Turn σ τ α} {value : α} {last : τ × Job σ} (runs : Runs turn excused after state)
    (done : turn state = (.ok value, last)) : after value last := by
  rw [Runs, done] at runs
  exact runs

theorem error {turn : Turn σ τ α} {error : ExecutionError} {last : τ × Job σ}
    (runs : Runs turn excused after state) (failed : turn state = (.error error, last)) :
    excused error := by
  rw [Runs, failed] at runs
  exact runs

/-- A turn that only a refusal could stop gives a value if memory is granted. -/
theorem granted {turn : Turn σ τ α} (runs : Runs turn ExecutionError.IsRefusal after state)
    (granted : MemoryGranted (turn state).1) :
    ∃ value last, turn state = (.ok value, last) ∧ after value last := by
  rcases run : turn state with ⟨error | value, last⟩
  · rw [run] at granted
    exact absurd (runs.error run) (granted error rfl)
  · exact ⟨value, last, rfl, runs.ok run⟩

/-- A turn that nothing excuses gives a value. -/
theorem value {turn : Turn σ τ α} (runs : Runs turn (fun _ => False) after state) :
    ∃ value last, turn state = (.ok value, last) ∧ after value last := by
  rcases run : turn state with ⟨error | value, last⟩
  · exact (runs.error run).elim
  · exact ⟨value, last, rfl, runs.ok run⟩

theorem of_eq {turn : Turn σ τ α} {value : α} {last : τ × Job σ}
    (done : turn state = (.ok value, last)) (holds : after value last) :
    Runs turn excused after state := by
  rw [Runs, done]
  exact holds

/-- Whatever a turn comes to. -/
theorem unconditional (turn : Turn σ τ α) : Runs turn (fun _ => True) (fun _ _ => True) state := by
  unfold Runs
  split <;> trivial

theorem weaken {turn : Turn σ τ α} {after' : α → τ × Job σ → Prop}
    (runs : Runs turn excused after state) (rest : ∀ value last, after value last → after' value last) :
    Runs turn excused after' state := by
  unfold Runs at *
  split
  · next done =>
    rw [done] at runs
    exact rest _ _ runs
  · next failed =>
    rw [failed] at runs
    exact runs

theorem excuse {excused' : ExecutionError → Prop} {turn : Turn σ τ α}
    (runs : Runs turn excused after state) (more : ∀ error, excused error → excused' error) :
    Runs turn excused' after state := by
  unfold Runs at *
  split
  · next done =>
    rw [done] at runs
    exact runs
  · next failed =>
    rw [failed] at runs
    exact more _ runs

theorem pure {value : α} (holds : after value state) :
    Runs (Pure.pure value : Turn σ τ α) excused after state := holds

theorem bind_iff {turn : Turn σ τ β} {next : β → Turn σ τ α} :
    Runs (turn >>= next) excused after state ↔
      Runs turn excused (fun value => Runs (next value) excused after) state := by
  unfold Runs
  rw [bind_apply]
  rcases turn state with ⟨error | value, last⟩ <;> rfl

theorem bind {middle : β → τ × Job σ → Prop} {turn : Turn σ τ β} {next : β → Turn σ τ α}
    (first : Runs turn excused middle state)
    (rest : ∀ value last, middle value last → Runs (next value) excused after last) :
    Runs (turn >>= next) excused after state :=
  bind_iff.mpr (first.weaken rest)

theorem own_bind {next : τ → Turn σ τ α} (rest : Runs (next state.1) excused after state) :
    Runs (own >>= next) excused after state := rest

theorem setOwn_bind {receiver : τ} {next : Unit → Turn σ τ α}
    (rest : Runs (next ()) excused after (receiver, state.2)) :
    Runs (setOwn receiver >>= next) excused after state := rest

theorem ofState_bind {step : τ × Job σ → β × (τ × Job σ)} {next : β → Turn σ τ α}
    (rest : Runs (next (step state).1) excused after (step state).2) :
    Runs (ofState step >>= next) excused after state := rest

theorem job_bind {next : Job σ → Turn σ τ α} (rest : Runs (next state.2) excused after state) :
    Runs (job >>= next) excused after state := rest

theorem modifyJob_bind {change : Job σ → Job σ} {next : Unit → Turn σ τ α}
    (rest : Runs (next ()) excused after (state.1, change state.2)) :
    Runs (modifyJob change >>= next) excused after state := rest

theorem aboveState_bind {step : β × Job σ → ε × (β × Job σ)} {next : ε → Turn σ (β × δ) α}
    {after : α → (β × δ) × Job σ → Prop} {receiver : β} {below : δ} {job : Job σ}
    (rest : Runs (next (step (receiver, job)).1) excused after
      (((step (receiver, job)).2.1, below), (step (receiver, job)).2.2)) :
    Runs (above (ofState step) >>= next) excused after ((receiver, below), job) := rest

/-- A charge that is not refused changes the account and nothing else. -/
theorem charge_memory {share : MemoryShare} {bytes : Nat}
    (refusal : ∀ error, error.IsRefusal → excused error) :
    Runs (onJob (Job.charge share bytes) : Turn σ τ MemoryShare) excused
      (fun _ last => ∃ memory, last = (state.1, { state.2 with memory := memory })) state := by
  obtain ⟨receiver, job⟩ := state
  unfold Runs onJob
  rcases charged : Job.charge share bytes job with ⟨error | after, job'⟩
  · simp only [charged]
    exact refusal error (Job.isRefusal_of_charge charged)
  · simp only [charged]
    unfold Job.charge at charged
    split at charged
    · cases charged
      exact ⟨_, rfl⟩
    · cases charged

theorem charge {share : MemoryShare} {bytes : Nat}
    (refusal : ∀ error, error.IsRefusal → excused error) :
    Runs (onJob (Job.charge share bytes) : Turn σ τ MemoryShare) excused
      (fun _ last => last.1 = state.1) state :=
  (charge_memory refusal).weaken fun _ _ ⟨_, charged⟩ => charged ▸ rfl

/-- What the second of two receivers comes to; the first stays as it is. -/
theorem below {turn : Turn σ δ α} {after : α → δ × Job σ → Prop} {next : δ} {job : Job σ}
    (runs : Runs turn excused after (next, job)) (receiver : β) :
    Runs (below turn) excused
      (fun value last => last.1.1 = receiver ∧ after value (last.1.2, last.2))
      ((receiver, next), job) := by
  unfold Runs Turn.below at *
  rcases run : turn (next, job) with ⟨error | value, last, job⟩ <;> simp only [run] at runs ⊢
  · exact runs
  · exact ⟨trivial, runs⟩

/-- What the first of two receivers comes to; the second stays as it is. -/
theorem above {turn : Turn σ β α} {after : α → β × Job σ → Prop} {receiver : β} {job : Job σ}
    (runs : Runs turn excused after (receiver, job)) (next : δ) :
    Runs (above turn) excused (fun value last => last.1.2 = next ∧ after value (last.1.1, last.2))
      ((receiver, next), job) := by
  unfold Runs Turn.above at *
  rcases run : turn (receiver, job) with ⟨error | value, last, job⟩ <;> simp only [run] at runs ⊢
  · exact runs
  · exact ⟨trivial, runs⟩

/-- What a part comes to. -/
theorem within {receiver : β} {turn : Turn σ (β × δ) α} {next : δ} {job : Job σ}
    {after : α → (β × δ) × Job σ → Prop} (runs : Runs turn excused after ((receiver, next), job))
    (wrap : β → γ) (own : γ) :
    Runs (within wrap receiver turn) excused
      (fun value last => ∃ part, last.1.1 = wrap part ∧ after value ((part, last.1.2), last.2))
      ((own, next), job) := by
  unfold Runs Turn.within at *
  rcases run : turn ((receiver, next), job) with ⟨error | value, ⟨last, rest⟩, job⟩ <;>
    simp only [run] at runs ⊢
  · exact runs
  · exact ⟨last, rfl, runs⟩

theorem attempt {turn : Turn σ τ α} (runs : Runs turn excused after state) :
    Runs (attempt turn) excused
      (fun result last =>
        match result with
        | .ok value => after value last
        | .error error => excused error)
      state := by
  unfold Runs Turn.attempt at *
  rcases run : turn state with ⟨error | value, last⟩ <;> simp only [run] at runs ⊢ <;> exact runs

end Runs

end Turn

end RowPipeline
