import RowPipeline.Proofs.PlanMeaning

/-!
Sorting with a limit is sorting and taking a slice. The stage that keeps only the rows that can still
be among the first emits the same rows as one that keeps all of them, as far as the limit goes.
-/

namespace RowPipeline

variable {σ : Type} {services : Services σ} {settings : Settings}

namespace OrderedTopN

/-- The same projection with no limit. -/
def unlimited (parameters : OrderedTopN) : OrderedTopN := { parameters with limit := none }

private theorem compile_unlimited {parameters : OrderedTopN} {body : StageBody}
    (compiled : Projection.compileOrderedTopN parameters = .ok body) :
    ∃ body, Projection.compileOrderedTopN parameters.unlimited = .ok body := by
  obtain ⟨_, keyed, compiled⟩ := ok_of_bind compiled
  obtain ⟨columns, expressions, compiled⟩ := ok_of_bind compiled
  obtain ⟨order, flags, compiled⟩ := ok_of_bind compiled
  refine ⟨.sort { sorting := ⟨columns, parameters.outputs.length, order, parameters.offset⟩ }, ?_⟩
  unfold Projection.compileOrderedTopN unlimited
  dsimp only
  rw [keyed, expressions, flags]
  rfl

end OrderedTopN

namespace Plan

/-- What a sorted slice emits, unless the memory of the job is refused. -/
theorem execute_sliceRows {parameters : OrderedTopN} {stages : List Stage} {rows out : List Row}
    {job : Job σ}
    (compiled : (Projection.compileAll services settings [.orderedTopN parameters] job).1 = .ok stages)
    (sliced : parameters.sliceRows rows = .ok out) (counted : rows.length ≤ Bucket.greatestSize)
    (granted : MemoryGranted (execute services settings [.orderedTopN parameters] rows job).1) :
    (execute services settings [.orderedTopN parameters] rows job).1 = .ok out := by
  have chained := Projection.compileAll_compiled compiled
  have uncounted : Projection.CountsBounded [.orderedTopN parameters] rows :=
    .of_absent rows (by simp)
  exact execute_delivers compiled (Chain.delivers chained (.cons rfl sliced .nil) uncounted counted)
    granted

/-- The rows that a sorted slice emits are those of the stable sort by the sort keys, without the
first ones and no more than the limit. They are the first that the projection without a limit emits. -/
theorem execute_orderedTopN (services : Services σ) (settings : Settings) (parameters : OrderedTopN)
    (limit : Nat) (stages : List Stage) (rows : List Row) (sorted : List (Row × Row)) (job : Job σ)
    (bound : parameters.limit = some limit)
    (compiled : (Projection.compileAll services settings [.orderedTopN parameters] job).1 = .ok stages)
    (sorts : parameters.sortRows rows = .ok sorted) (counted : rows.length ≤ Bucket.greatestSize)
    (granted : MemoryGranted (execute services settings [.orderedTopN parameters] rows job).1) :
    (execute services settings [.orderedTopN parameters] rows job).1 =
        .ok (((sorted.drop parameters.offset).take limit).map (·.1)) ∧
      ∀ other : Job σ,
        MemoryGranted (execute services settings [.orderedTopN parameters.unlimited] rows other).1 →
        ∃ all,
          (execute services settings [.orderedTopN parameters.unlimited] rows other).1 = .ok all ∧
            (execute services settings [.orderedTopN parameters] rows job).1 =
              .ok (all.take limit) := by
  have sliced : parameters.sliceRows rows =
      .ok (((sorted.drop parameters.offset).take limit).map (·.1)) := by
    rw [OrderedTopN.sliceRows, sorts, bound, List.map_take]
    rfl
  have emitted := execute_sliceRows compiled sliced counted granted
  refine ⟨emitted, fun other roomy => ?_⟩
  have whole : parameters.unlimited.sliceRows rows =
      .ok ((sorted.drop parameters.offset).map (·.1)) := by
    have same : parameters.unlimited.sortRows rows = .ok sorted := sorts
    rw [OrderedTopN.sliceRows, same]
    rfl
  obtain ⟨_, checked⟩ := Projection.compileBody_single compiled
  obtain ⟨body, checked⟩ := OrderedTopN.compile_unlimited checked
  have compiledWhole : (Projection.compileAll services settings
      [.orderedTopN parameters.unlimited] other).1 = .ok [⟨_, body, .created⟩] :=
    Projection.compileAll_single checked
  refine ⟨_, execute_sliceRows compiledWhole whole counted roomy, ?_⟩
  rw [emitted, List.map_take]

/-- Of two rows with the same key, the one that came first is emitted. -/
theorem execute_orderedTopN_ties :
    let parameters : OrderedTopN :=
      { outputs := [.input 1], orderBy := [.input 0], reverseFlags := [true], nullsFirst := []
        limit := some 1, offset := 1 }
    let rows : List Row :=
      [[.long 1, .text "a"], [.long 2, .text "b"], [.long 2, .text "c"], [.long 3, .text "d"]]
    let sorted : List (Row × Row) :=
      [([.text "d"], [.long 3]), ([.text "b"], [.long 2]), ([.text "c"], [.long 2]),
        ([.text "a"], [.long 1])]
    parameters.sortRows rows = .ok sorted ∧
      (execute Simulation.services {} [.orderedTopN parameters] rows Job.alone).1 =
        .ok [[.text "b"]] := by
  intro parameters rows sorted
  have ranked : rows.mapM parameters.rank =
      .ok [([.text "a"], [.long 1]), ([.text "b"], [.long 2]), ([.text "c"], [.long 2]),
        ([.text "d"], [.long 3])] := rfl
  have sorts : parameters.sortRows rows = .ok sorted := by
    let le := parameters.keyOrder.le
    have tied : le [.long 2] [.long 2] = true := by decide +kernel
    have apart : le [.long 1] [.long 2] = false ∧ le [.long 1] [.long 3] = false ∧
        le [.long 2] [.long 3] = false := by decide +kernel
    rw [OrderedTopN.sortRows, ranked]
    change Except.ok (List.mergeSort _ fun (left right : Row × Row) => le left.2 right.2) = _
    simp [List.mergeSort, tied, apart, sorted]
  have counted : rows.length ≤ Bucket.greatestSize := by decide
  have done : (execute Simulation.services {} [.orderedTopN parameters] rows Job.alone).1.isOk = true := by
    decide +kernel
  have sliced := execute_orderedTopN Simulation.services {} parameters 1 _ rows sorted Job.alone rfl
    rfl sorts counted (.of_isOk done)
  exact ⟨sorts, sliced.1⟩

end Plan

end RowPipeline
