import RowPipeline.Proofs.PartialStates

/-!
Partial rows stand for the rows of shards: a call that merges the partial states of a column comes to
what the call itself comes to on all rows, one shard after the other.
-/

namespace RowPipeline

/-- The rows of a shard, and the partial rows that it gives for them. -/
structure ShardResult where
  rows : List Row
  partials : List Row

namespace AggregateCall

open AggregateState

/-- A sum finds nothing but integers and nulls in a row. -/
def AddsIntegers (call : AggregateCall) (row : Row) : Prop :=
  call.function = .sum → ∀ input ∈ call.inputs, ∀ value, input.evaluate row = .ok value →
    value = .null ∨ ∃ number, value = .long number

/-- The call that merges the partial states of a call, which it finds in a column. -/
def merging (call : AggregateCall) (column : Nat) : AggregateCall := ⟨call.function, [.input column]⟩

variable {call : AggregateCall} {mode : AggregateMode} {row : Row} {column : Nat}
variable {state after : AggregateState}

theorem iterate_of_step (rows : mode.consumesPartials = false)
    (stepped : call.step mode state row = .ok after) :
    ∃ value, call.inputs.head?.mapM (·.evaluate row) = .ok value ∧
      state.iterate call.function value = (after, none) := by
  obtain ⟨value, evaluated, taken⟩ := ok_of_bind stepped
  refine ⟨value, evaluated, ?_⟩
  simp only [take, rows, Bool.false_eq_true, if_false] at taken
  split at taken
  · next iterated =>
    obtain rfl := Except.ok.inj taken
    exact iterated
  · cases taken

theorem AddsIntegers.admits {value : Option Value} (integers : call.AddsIntegers row)
    (evaluated : call.inputs.head?.mapM (·.evaluate row) = .ok value) :
    call.function.Admits value := by
  rintro cell rfl
  cases given : call.inputs.head? with
  | none =>
    rw [given] at evaluated
    cases evaluated
  | some input =>
    rw [given] at evaluated
    obtain ⟨found, here, same⟩ := ok_of_bind evaluated
    obtain rfl : found = cell := by simpa [pure, Except.pure] using same
    by_cases absent : found = .null
    · exact .inl absent
    · refine .inr ⟨absent, fun sums => ?_⟩
      exact (integers sums input (List.mem_of_head? given) found here).resolve_left absent

private theorem take_of_reduce {value : Option Value} (partials : mode.consumesPartials = true)
    (reduced : state.reduce call.function (value.getD .null) = (after, none)) :
    call.take mode value state = .ok after := by
  simp only [take, partials, if_true, reduced]

private theorem step_merging {value : Value} (found : (Symbol.input column).evaluate row = .ok value)
    (reduced : state.reduce call.function value = (after, none)) :
    (call.merging column).step .partialFinal state row = .ok after := by
  have evaluated : (call.merging column).inputs.head?.mapM (·.evaluate row) =
      (.ok (some value) : Except EvaluationFault _) := by
    change (do return some (← (Symbol.input column).evaluate row)) = _
    rw [found]
    rfl
  rw [step, evaluated]
  exact take_of_reduce rfl reduced

private theorem reduce_of_foldlM {rows : List Row} {start merged last : AggregateState}
    (integers : ∀ row ∈ rows, call.AddsIntegers row) (exact : Exact call.function start)
    (partly : Exact call.function state)
    (reduced : start.reduce call.function state.partialValue = (merged, none))
    (aside : rows.foldlM (call.step .iterPartial) state = .ok after)
    (direct : rows.foldlM (call.step .iterFinal) merged = .ok last) :
    start.reduce call.function after.partialValue = (last, none) := by
  induction rows generalizing state merged with
  | nil =>
    obtain rfl := Except.ok.inj aside
    obtain rfl := Except.ok.inj direct
    exact reduced
  | cons row rest ih =>
    rw [List.foldlM_cons] at aside direct
    obtain ⟨state', stepped, aside⟩ := ok_of_bind aside
    obtain ⟨merged', moved, direct⟩ := ok_of_bind direct
    obtain ⟨value, evaluated, next⟩ := iterate_of_step rfl stepped
    obtain ⟨same, found, moved⟩ := iterate_of_step rfl moved
    obtain rfl := Except.ok.inj (evaluated.symm.trans found)
    have admits := (integers row List.mem_cons_self).admits evaluated
    have rest' : ∀ row ∈ rest, call.AddsIntegers row := fun row member =>
      integers row (List.mem_cons_of_mem _ member)
    exact ih rest' (iterate_exact partly admits next)
      (reduce_iterate exact partly admits reduced next moved) aside direct

private theorem foldlM_exact {rows : List Row} (integers : ∀ row ∈ rows, call.AddsIntegers row)
    (exact : Exact call.function state)
    (folded : rows.foldlM (call.step .iterFinal) state = .ok after) :
    Exact call.function after := by
  induction rows generalizing state with
  | nil =>
    obtain rfl := Except.ok.inj folded
    exact exact
  | cons row rest ih =>
    rw [List.foldlM_cons] at folded
    obtain ⟨middle, stepped, folded⟩ := ok_of_bind folded
    obtain ⟨value, evaluated, next⟩ := iterate_of_step rfl stepped
    have admits := (integers row List.mem_cons_self).admits evaluated
    exact ih (fun row member => integers row (List.mem_cons_of_mem _ member))
      (iterate_exact exact admits next) folded

/-! ### Shards -/

/-- A shard gives a partial row that has the partial state of its rows in a column, or has no rows and
gives none. -/
inductive StandsFor (call : AggregateCall) (column : Nat) : ShardResult → Prop where
  | none : StandsFor call column ⟨[], []⟩
  | one {rows : List Row} {row : Row} {state : AggregateState} :
      call.fold .iterPartial rows = .ok state →
      (Symbol.input column).evaluate row = .ok state.partialValue →
      StandsFor call column ⟨rows, [row]⟩

/-- Merging the partial rows is going over the rows of all shards. -/
theorem foldlM_merging {shards : List ShardResult} {last : AggregateState}
    (mergeable : call.function ≠ .avg) (stand : ∀ shard ∈ shards, call.StandsFor column shard)
    (integers : ∀ shard ∈ shards, ∀ row ∈ shard.rows, call.AddsIntegers row)
    (exact : Exact call.function state)
    (direct : (shards.flatMap (·.rows)).foldlM (call.step .iterFinal) state = .ok last) :
    (shards.flatMap (·.partials)).foldlM ((call.merging column).step .partialFinal) state =
      .ok last := by
  induction shards generalizing state with
  | nil => exact direct
  | cons shard rest ih =>
    rw [List.flatMap_cons, List.foldlM_append] at direct ⊢
    obtain ⟨middle, here, direct⟩ := ok_of_bind direct
    have whole := integers shard List.mem_cons_self
    have later := ih (fun shard member => stand shard (List.mem_cons_of_mem _ member))
      (fun shard member => integers shard (List.mem_cons_of_mem _ member))
      (foldlM_exact whole exact here) direct
    cases stand shard List.mem_cons_self with
    | none =>
      obtain rfl := Except.ok.inj here
      exact later
    | one folded found =>
      have reduced := reduce_of_foldlM whole exact (exact_initial mergeable)
        (reduce_initial exact) folded here
      rw [List.foldlM_cons, step_merging found reduced]
      exact later

/-- The calls that merge the partial states of calls, which they find in the columns from one on. -/
def mergingAll (calls : List AggregateCall) (offset : Nat) : List AggregateCall :=
  calls.mapIdx fun position call => call.merging (offset + position)

theorem folds_mergingAll {calls : List AggregateCall} {offset : Nat} {shards : List ShardResult}
    {states : List AggregateState} (mergeable : ∀ call ∈ calls, call.function ≠ .avg)
    (stand : ∀ shard ∈ shards, ∀ position (bound : position < calls.length),
      calls[position].StandsFor (offset + position) shard)
    (integers : ∀ shard ∈ shards, ∀ row ∈ shard.rows, ∀ call ∈ calls, call.AddsIntegers row)
    (direct : (calls.mapM fun call => call.fold .iterFinal (shards.flatMap (·.rows))) = .ok states) :
    ((mergingAll calls offset).mapM fun call =>
      call.fold .partialFinal (shards.flatMap (·.partials))) = .ok states := by
  rw [mapM_eq_ok_iff] at direct ⊢
  obtain ⟨lengths, folds⟩ := direct
  refine ⟨by rw [lengths, mergingAll, List.length_mapIdx], fun position bound bound' => ?_⟩
  have member : position < calls.length := by simpa [mergingAll] using bound
  have call := List.getElem_mem member
  simp only [mergingAll, List.getElem_mapIdx]
  exact foldlM_merging (mergeable _ call) (fun shard given => stand shard given position member)
    (fun shard given row here => integers shard given row here _ call)
    (exact_initial (mergeable _ call)) (folds position member bound')

end AggregateCall

end RowPipeline
