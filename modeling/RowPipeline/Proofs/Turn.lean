import RowPipeline.Stage.Receiver

/-!
What turns do, by the parts they are made of, and turns over different receivers that are alike: a
stage that is driven over either of two receivers cannot tell them apart as long as these answer the
same.
-/

namespace RowPipeline

namespace Turn

variable {σ τ τ' β γ δ δ' α ε : Type}

/-! ### What parts of turns do -/

theorem bind_apply (turn : Turn σ τ α) (next : α → Turn σ τ ε) (state : τ × Job σ) :
    (turn >>= next) state =
      match turn state with
      | (.ok value, state) => next value state
      | (.error error, state) => (.error error, state) := by
  change ExceptT.bindCont next (turn state).1 (turn state).2 = _
  rcases turn state with ⟨outcome, after⟩
  cases outcome <;> rfl

theorem bind_of_ok {turn : Turn σ τ α} {next : α → Turn σ τ ε} {state after : τ × Job σ}
    {value : α} (done : turn state = (.ok value, after)) :
    (turn >>= next) state = next value after := by
  rw [bind_apply, done]

theorem bind_of_error {turn : Turn σ τ α} {next : α → Turn σ τ ε} {state after : τ × Job σ}
    {error : ExecutionError} (failed : turn state = (.error error, after)) :
    (turn >>= next) state = (.error error, after) := by
  rw [bind_apply, failed]

@[simp]
theorem own_bind (next : τ → Turn σ τ ε) (state : τ × Job σ) :
    (own >>= next) state = next state.1 state := rfl

@[simp]
theorem setOwn_bind (receiver : τ) (next : Unit → Turn σ τ ε) (state : τ × Job σ) :
    (setOwn receiver >>= next) state = next () (receiver, state.2) := rfl

@[simp]
theorem evaluated_ok (value : α) : (evaluated (.ok value) : Turn σ τ α) = pure value := rfl

@[simp]
theorem evaluated_error (fault : EvaluationFault) :
    (evaluated (.error fault) : Turn σ τ α) = throw (.evaluation fault) := rfl

@[simp]
theorem ofExcept_ok (value : α) : (ofExcept (.ok value) : Turn σ τ α) = pure value := rfl

/-! ### Turns that are alike -/

/-- Two turns on receivers of which one stands for the other: from related states they have the same
outcome and leave the job alike, and the states after them are related as the outcome says. -/
def Related (before : τ → τ' → Prop) (turn : Turn σ τ α) (turn' : Turn σ τ' α)
    (after : Except ExecutionError α → τ → τ' → Prop) : Prop :=
  ∀ state state' job, before state state' →
    ∃ outcome next next' job', turn (state, job) = (outcome, (next, job')) ∧
      turn' (state', job) = (outcome, (next', job')) ∧ after outcome next next'

/-- The same of steps that cannot fail. -/
def RelatedSteps (before : τ → τ' → Prop) (step : τ × Job σ → τ × Job σ)
    (step' : τ' × Job σ → τ' × Job σ) (after : τ → τ' → Prop) : Prop :=
  ∀ state state' job, before state state' →
    ∃ next next' job', step (state, job) = (next, job') ∧ step' (state', job) = (next', job') ∧
      after next next'

/-- The same receiver, of which something holds, in front of related ones. -/
structure Beside (holds : β → Prop) (related : δ → δ' → Prop) (state : β × δ) (state' : β × δ') :
    Prop where
  same : state.1 = state'.1
  holds : holds state.1
  related : related state.2 state'.2

namespace Related

variable {before : τ → τ' → Prop} {after : Except ExecutionError α → τ → τ' → Prop}
variable {behind : δ → δ' → Prop} {behindAfter : Except ExecutionError α → δ → δ' → Prop}

theorem weaken {before' : τ → τ' → Prop} {after' : Except ExecutionError α → τ → τ' → Prop}
    {turn : Turn σ τ α} {turn' : Turn σ τ' α} (related : Related before turn turn' after)
    (first : ∀ state state', before' state state' → before state state')
    (last : ∀ outcome state state', after outcome state state' → after' outcome state state') :
    Related before' turn turn' after' := by
  intro state state' job start
  obtain ⟨outcome, next, next', job', run, run', finished⟩ := related state state' job (first _ _ start)
  exact ⟨outcome, next, next', job', run, run', last _ _ _ finished⟩

theorem pure {value : α} (kept : ∀ state state', before state state' → after (.ok value) state state') :
    Related before (Pure.pure value : Turn σ τ α) (Pure.pure value) after :=
  fun state state' job start => ⟨.ok value, state, state', job, rfl, rfl, kept _ _ start⟩

theorem throw {error : ExecutionError}
    (kept : ∀ state state', before state state' → after (.error error) state state') :
    Related before (MonadExcept.throw error : Turn σ τ α) (MonadExcept.throw error) after :=
  fun state state' job start => ⟨.error error, state, state', job, rfl, rfl, kept _ _ start⟩

theorem bind {middle : Except ExecutionError β → τ → τ' → Prop} {turn : Turn σ τ β}
    {turn' : Turn σ τ' β} {next : β → Turn σ τ α} {next' : β → Turn σ τ' α}
    (first : Related before turn turn' middle)
    (rest : ∀ value, Related (middle (.ok value)) (next value) (next' value) after)
    (failed : ∀ error state state', middle (.error error) state state' →
      after (.error error) state state') :
    Related before (turn >>= next) (turn' >>= next') after := by
  intro state state' job start
  obtain ⟨outcome, here, here', job', run, run', reached⟩ := first state state' job start
  cases outcome with
  | ok value =>
    rw [bind_of_ok run, bind_of_ok run']
    exact rest value here here' job' reached
  | error error =>
    rw [bind_of_error run, bind_of_error run']
    exact ⟨.error error, here, here', job', rfl, rfl, failed _ _ _ reached⟩

theorem ofState {steps : τ × Job σ → τ × Job σ} {steps' : τ' × Job σ → τ' × Job σ}
    {kept : τ → τ' → Prop} (related : RelatedSteps before steps steps' kept) :
    Related before (ofState fun state => ((), steps state))
      (Turn.ofState fun state => ((), steps' state)) (fun _ => kept) := by
  intro state state' job start
  obtain ⟨next, next', job', run, run', reached⟩ := related state state' job start
  exact ⟨.ok (), next, next', job', by simp [Turn.ofState, run], by simp [Turn.ofState, run'], reached⟩

/-- A first turn that leaves the states related as they were. -/
theorem step {turn : Turn σ τ β} {turn' : Turn σ τ' β} {next : β → Turn σ τ α}
    {next' : β → Turn σ τ' α} (first : Related before turn turn' (fun _ => before))
    (failed : ∀ error state state', before state state' → after (.error error) state state')
    (rest : ∀ value, Related before (next value) (next' value) after) :
    Related before (turn >>= next) (turn' >>= next') after :=
  first.bind rest failed

theorem evaluated (result : Except EvaluationFault α) :
    Related before (evaluated result : Turn σ τ α) (Turn.evaluated result) (fun _ => before) := by
  cases result with
  | error fault =>
    rw [evaluated_error, evaluated_error]
    exact .throw fun _ _ start => start
  | ok value => exact .pure fun _ _ start => start

/-- A turn that looks at its receiver goes on alike if it does so for all related states. -/
theorem own_bind {next : τ → Turn σ τ α} {next' : τ' → Turn σ τ' α}
    (rest : ∀ state state', before state state' → Related before (next state) (next' state') after) :
    Related before (own >>= next) (own >>= next') after :=
  fun state state' job start => rest state state' start state state' job start

theorem setOwn_bind {middle : τ → τ' → Prop} {receiver : τ} {receiver' : τ'}
    {next : Unit → Turn σ τ α} {next' : Unit → Turn σ τ' α} (start : middle receiver receiver')
    (rest : Related middle (next ()) (next' ()) after) :
    Related before (setOwn receiver >>= next) (setOwn receiver' >>= next') after :=
  fun _ _ job _ => rest receiver receiver' job start

theorem job_bind {next : Job σ → Turn σ τ α} {next' : Job σ → Turn σ τ' α}
    (rest : ∀ job, Related before (next job) (next' job) after) :
    Related before (job >>= next) (job >>= next') after :=
  fun state state' job start => rest job state state' job start

theorem modifyJob_bind {change : Job σ → Job σ} {next : Unit → Turn σ τ α}
    {next' : Unit → Turn σ τ' α} (rest : Related before (next ()) (next' ()) after) :
    Related before (modifyJob change >>= next) (modifyJob change >>= next') after :=
  fun state state' job start => rest state state' (change job) start

theorem above {holds : β → Prop} {turn : Turn σ β α}
    (kept : ∀ state, holds state.1 → holds (turn state).2.1) :
    Related (Beside holds behind) (above turn) (above turn) (fun _ => Beside holds behind) := by
  rintro ⟨own, below⟩ ⟨_, below'⟩ job ⟨rfl, start, related⟩
  exact ⟨_, _, _, _, rfl, rfl, rfl, kept (own, job) start, related⟩

theorem stage_bind {holds : β → Prop} {next : β × δ → Turn σ (β × δ) α}
    {next' : β × δ' → Turn σ (β × δ') α} {after : Except ExecutionError α → β × δ → β × δ' → Prop}
    (rest : ∀ stage below below', holds stage → behind below below' →
      Related (Beside holds behind) (next (stage, below)) (next' (stage, below')) after) :
    Related (Beside holds behind) (own >>= next) (own >>= next') after := by
  rintro ⟨stage, below⟩ ⟨_, below'⟩ job ⟨rfl, start, related⟩
  exact rest stage below below' start related _ _ job ⟨rfl, start, related⟩

/-- A step of the first receiver that cannot fail. -/
theorem above_bind {holds : β → Prop} {step : β × Job σ → ε × (β × Job σ)}
    {next : ε → Turn σ (β × δ) α} {next' : ε → Turn σ (β × δ') α}
    {after : Except ExecutionError α → β × δ → β × δ' → Prop}
    (kept : ∀ state, holds state.1 → holds (step state).2.1)
    (rest : ∀ value, Related (Beside holds behind) (next value) (next' value) after) :
    Related (Beside holds behind) (Turn.above (Turn.ofState step) >>= next)
      (Turn.above (Turn.ofState step) >>= next') after := by
  rintro ⟨own, below⟩ ⟨_, below'⟩ job ⟨rfl, start, related⟩
  exact rest _ _ _ _ ⟨rfl, kept (own, job) start, related⟩

theorem below {holds : β → Prop} {turn : Turn σ δ α} {turn' : Turn σ δ' α}
    (related : Related behind turn turn' behindAfter) :
    Related (Beside holds behind) (below turn) (below turn')
      (fun outcome => Beside holds (behindAfter outcome)) := by
  rintro ⟨own, next⟩ ⟨_, next'⟩ job ⟨rfl, held, start⟩
  obtain ⟨outcome, here, here', job', run, run', reached⟩ := related next next' job start
  exact ⟨outcome, (own, here), (own, here'), job', by simp [Turn.below, run],
    by simp [Turn.below, run'], rfl, held, reached⟩

/-- A turn of a part, if the states around the parts can be told to be related from the parts. -/
theorem within {wrap : β → γ} {receiver : β} {turn : Turn σ (β × δ) α} {turn' : Turn σ (β × δ') α}
    {partBefore : β × δ → β × δ' → Prop}
    {partAfter : Except ExecutionError α → β × δ → β × δ' → Prop}
    {before : γ × δ → γ × δ' → Prop} {after : Except ExecutionError α → γ × δ → γ × δ' → Prop}
    (related : Related partBefore turn turn' partAfter)
    (first : ∀ state state', before state state' →
      partBefore (receiver, state.2) (receiver, state'.2))
    (last : ∀ outcome part part' below below', partAfter outcome (part, below) (part', below') →
      after outcome (wrap part, below) (wrap part', below')) :
    Related before (within wrap receiver turn) (within wrap receiver turn') after := by
  rintro ⟨own, below⟩ ⟨own', below'⟩ job start
  obtain ⟨outcome, ⟨part, rest⟩, ⟨part', rest'⟩, job', run, run', reached⟩ :=
    related (receiver, below) (receiver, below') job (first _ _ start)
  exact ⟨outcome, (wrap part, rest), (wrap part', rest'), job', by simp [Turn.within, run],
    by simp [Turn.within, run'], last _ _ _ _ _ reached⟩

/-- An attempt goes on with whatever the outcome was. -/
theorem attempt_bind {middle : Except ExecutionError β → τ → τ' → Prop} {turn : Turn σ τ β}
    {turn' : Turn σ τ' β} {next : Except ExecutionError β → Turn σ τ α}
    {next' : Except ExecutionError β → Turn σ τ' α} (first : Related before turn turn' middle)
    (rest : ∀ result, Related (middle result) (next result) (next' result) after) :
    Related before (attempt turn >>= next) (attempt turn' >>= next') after := by
  intro state state' job start
  obtain ⟨outcome, here, here', job', run, run', reached⟩ := first state state' job start
  have done : attempt turn (state, job) = (.ok outcome, (here, job')) := by simp [attempt, run]
  have done' : attempt turn' (state', job) = (.ok outcome, (here', job')) := by simp [attempt, run']
  rw [bind_of_ok done, bind_of_ok done']
  exact rest outcome here here' job' reached

end Related

end Turn

end RowPipeline
