import RowPipeline.Proofs.StageMeaning

/-!
What stages that sort make of their rows. Without a limit they sort all of them; with one they have
the first of the sorted rows at any time, and these are all that can be emitted.
-/

namespace RowPipeline

open Turn

variable {σ : Type}

namespace Sorting

/-- The rows that are emitted of kept ones, if there is no limit. -/
def emittedRows (sorting : Sorting) (kept : List Row) : List Row :=
  ((sorting.sorted kept).drop sorting.offset).map sorting.emitted

end Sorting

namespace SortStage

/-- What a stage emits once the rows to come are kept. -/
def Promises (out : List Row) (stage : SortStage) (rest : List Row) : Prop :=
  ∃ kept, rest.mapM stage.sorting.keep = .ok kept ∧
    stage.sorting.emittedRows (stage.newest.reverse ++ kept) = out

theorem takeRow_promises {excused : ExecutionError → Prop}
    (refusal : ∀ error, error.IsRefusal → excused error) {out : List Row} (stage : SortStage)
    (row : Row) (rest : List Row) (promise : stage.Promises out (row :: rest)) (job : Job σ) :
    Runs (takeRow row) excused (fun flow last => flow = .more ∧ last.1.Promises out rest)
      (stage, job) := by
  obtain ⟨kept, mapped, emitted⟩ := promise
  rw [List.mapM_cons] at mapped
  obtain ⟨first, here, mapped⟩ := ok_of_bind mapped
  obtain ⟨others, later, mapped⟩ := ok_of_bind mapped
  obtain rfl : first :: others = kept := Except.ok.inj mapped
  refine Runs.own_bind ?_
  rw [here, evaluated_ok, pure_bind]
  refine (Runs.charge refusal).bind ?_
  rintro share ⟨_, last⟩ rfl
  refine Runs.setOwn_bind (Runs.pure ⟨rfl, others, later, ?_⟩)
  simpa using emitted

theorem rows_of_promise {out : List Row} {stage : SortStage} (promise : stage.Promises out []) :
    stage.rows = out := by
  obtain ⟨kept, mapped, emitted⟩ := promise
  obtain rfl : [] = kept := Except.ok.inj mapped
  rw [List.append_nil] at emitted
  exact emitted

end SortStage

namespace TopStage

/-- What a stage emits once the rows to come are kept. It has the first of the rows that it saw, and
there are not more rows than can be counted. -/
def Promises (out : List Row) (stage : TopStage) (rest : List Row) : Prop :=
  ∃ seen kept, stage.best = (stage.sorting.sorted seen).take stage.capacity ∧
    rest.mapM stage.sorting.keep = .ok kept ∧ (seen ++ kept).length ≤ Bucket.greatestSize ∧
    (stage.sorting.emittedRows (seen ++ kept)).take stage.limit = out

theorem promises_of_offered {out rest : List Row} {seen others : List Row} {stage after : TopStage}
    {first : Row} (best : stage.best = (stage.sorting.sorted seen).take stage.capacity)
    (later : rest.mapM stage.sorting.keep = .ok others)
    (counted : (seen ++ first :: others).length ≤ Bucket.greatestSize)
    (emitted : (stage.sorting.emittedRows (seen ++ first :: others)).take stage.limit = out)
    (sorting : after.sorting = stage.sorting) (limit : after.limit = stage.limit)
    (offered : after.best = stage.sorting.offered stage.capacity first stage.best) :
    after.Promises out rest := by
  have capacity : after.capacity = stage.capacity := by rw [TopStage.capacity, sorting, limit]; rfl
  refine ⟨seen ++ [first], others, ?_, ?_, ?_, ?_⟩
  · rw [offered, best, Sorting.offered_sorted, sorting, capacity]
  · rw [sorting, later]
  · simpa using counted
  · rw [sorting, limit, List.append_assoc]
    exact emitted

private theorem runs_keep {excused : ExecutionError → Prop}
    (refusal : ∀ error, error.IsRefusal → excused error) (stage : TopStage) (kept : Row) (job : Job σ) :
    Runs (keep kept) excused
      (fun _ last => ∃ share,
        last.1 = { stage with share := share, best := stage.sorting.insert kept stage.best })
      (stage, job) := by
  refine Runs.own_bind ((Runs.charge refusal).bind ?_)
  rintro share ⟨_, last⟩ rfl
  exact ⟨share, rfl⟩

theorem takeRow_promises {excused : ExecutionError → Prop}
    (refusal : ∀ error, error.IsRefusal → excused error) {out : List Row} (stage : TopStage)
    (row : Row) (rest : List Row) (promise : stage.Promises out (row :: rest)) (job : Job σ) :
    Runs (takeRow row) excused (fun flow last => flow = .more ∧ last.1.Promises out rest)
      (stage, job) := by
  obtain ⟨seen, kept, best, mapped, counted, emitted⟩ := promise
  rw [List.mapM_cons] at mapped
  obtain ⟨first, here, mapped⟩ := ok_of_bind mapped
  obtain ⟨others, later, mapped⟩ := ok_of_bind mapped
  obtain rfl : first :: others = kept := Except.ok.inj mapped
  have offered := stage.offer_best first
  refine Runs.own_bind ?_
  rw [here, evaluated_ok, pure_bind]
  cases chosen : stage.offer first with
  | declined =>
    rw [chosen] at offered
    exact Runs.pure ⟨rfl, promises_of_offered best later counted emitted rfl rfl offered.symm⟩
  | accepted =>
    rw [chosen] at offered
    refine (runs_keep refusal stage first job).bind ?_
    rintro _ ⟨_, last⟩ ⟨share, rfl⟩
    exact Runs.pure ⟨rfl, promises_of_offered best later counted emitted rfl rfl offered.symm⟩
  | replacing last =>
    rw [chosen] at offered
    refine Runs.ofState_bind ?_
    refine (runs_keep refusal _ first _).bind ?_
    rintro _ ⟨_, last⟩ ⟨share, rfl⟩
    exact Runs.pure ⟨rfl, promises_of_offered best later counted emitted rfl rfl offered.symm⟩

theorem rows_of_promise {out : List Row} {stage : TopStage} (promise : stage.Promises out []) :
    stage.rows = out := by
  obtain ⟨seen, kept, best, mapped, counted, emitted⟩ := promise
  obtain rfl : [] = kept := Except.ok.inj mapped
  rw [List.append_nil] at emitted counted
  have length : (stage.sorting.sorted seen).length ≤ Bucket.greatestSize := by
    rw [Sorting.sorted, List.length_mergeSort]
    exact counted
  have uncapped : (stage.sorting.sorted seen).take stage.capacity =
      (stage.sorting.sorted seen).take (stage.limit + stage.sorting.offset) := by
    rw [capacity]
    by_cases fits : stage.limit + stage.sorting.offset ≤ Bucket.greatestSize
    · rw [Nat.min_eq_left fits]
    · have beyond := Nat.le_of_lt (Nat.lt_of_not_le fits)
      rw [Nat.min_eq_right beyond, List.take_of_length_le length,
        List.take_of_length_le (Nat.le_trans length beyond)]
  rw [← emitted, rows, best, uncapped, Sorting.emittedRows, List.drop_take, Nat.add_sub_cancel,
    List.take_take, Nat.min_self, List.map_take]

end TopStage

/-! ### The keys of rows -/

namespace OrderedTopN

/-- The columns that a compiled order looks at. -/
theorem order_of_flags {count outputs : Nat} {reverseFlags nullsFirst : List Bool}
    {order : SortOrder} (flags : SortOrder.ofFlags ((List.range count).map (outputs + ·)) reverseFlags
      nullsFirst = .ok order) :
    order = (List.range count).map fun position =>
      let reverse := reverseFlags.getD position false
      ⟨outputs + position, reverse, nullsFirst.getD position reverse⟩ := by
  obtain ⟨_, _, flags⟩ := ok_of_bind flags
  obtain ⟨_, _, flags⟩ := ok_of_bind flags
  obtain rfl := Except.ok.inj flags
  rw [List.length_map, List.length_range]
  refine List.map_congr_left fun position member => ?_
  have bound := List.mem_range.mp member
  simp [SortOrder.column, bound]

/-- Sorting of kept rows as the parameters have it. -/
structure SortedBy (parameters : OrderedTopN) (sorting : Sorting) : Prop where
  keep : ∀ row, sorting.keep row = (parameters.rank row).map fun ranked => ranked.1 ++ ranked.2
  outputs : sorting.outputs = parameters.outputs.length
  order : sorting.order = (List.range parameters.orderBy.length).map fun position =>
    { parameters.keyColumn position with index := parameters.outputs.length + position }
  offset : sorting.offset = parameters.offset

theorem sortedBy_of_compile {parameters : OrderedTopN} {body : StageBody}
    (compiled : Projection.compileOrderedTopN parameters = .ok body) :
    ∃ sorting, SortedBy parameters sorting ∧
      (parameters.limit = none → body = .sort { sorting := sorting }) ∧
      ∀ limit, parameters.limit = some limit → body = .top { sorting := sorting, limit := limit } := by
  obtain ⟨_, _, compiled⟩ := ok_of_bind compiled
  obtain ⟨columns, expressions, compiled⟩ := ok_of_bind compiled
  obtain ⟨order, flags, compiled⟩ := ok_of_bind compiled
  refine ⟨⟨columns, parameters.outputs.length, order, parameters.offset⟩,
    ⟨fun row => ?_, rfl, ?_, rfl⟩, fun unlimited => ?_, fun limit limited => ?_⟩
  · rw [Sorting.keep, Expression.evaluateAll_of_compileAll expressions, Symbol.evaluateAll_append,
      rank]
    cases Symbol.evaluateAll row parameters.outputs with
    | error => rfl
    | ok => cases Symbol.evaluateAll row parameters.orderBy <;> rfl
  · unfold Projection.parameter at flags
    split at flags
    · next found =>
      obtain rfl := Except.ok.inj flags
      exact order_of_flags found
    · cases flags
  · rw [unlimited] at compiled
    exact (Except.ok.inj compiled).symm
  · rw [limited] at compiled
    obtain ⟨_, _, compiled⟩ := ok_of_bind compiled
    exact (Except.ok.inj compiled).symm

private theorem compare_map (positions : List Nat) (near far : Nat → SortColumn)
    {left right left' right' : Row}
    (agree : ∀ position ∈ positions,
      (near position).compare left right = (far position).compare left' right') :
    SortOrder.compare (positions.map near) left right =
      SortOrder.compare (positions.map far) left' right' := by
  induction positions with
  | nil => rfl
  | cons position rest ih =>
    rw [List.map_cons, List.map_cons, SortOrder.compare, SortOrder.compare,
      agree position List.mem_cons_self, ih fun position member =>
        agree position (List.mem_cons_of_mem _ member)]

private theorem key_of_kept {outputs : Row} {count : Nat} (length : outputs.length = count)
    (keys : Row) (position : Nat) :
    (outputs ++ keys).getD (count + position) .null = keys.getD position .null := by
  subst length
  rw [List.getD, List.getD, List.getElem?_append_right (Nat.le_add_right _ _),
    Nat.add_sub_cancel_left]

namespace SortedBy

variable {parameters : OrderedTopN} {sorting : Sorting}

private theorem le_eq (sorted : SortedBy parameters sorting) {left right : Row × Row}
    (first : left.1.length = parameters.outputs.length)
    (second : right.1.length = parameters.outputs.length) :
    sorting.order.le (left.1 ++ left.2) (right.1 ++ right.2) =
      parameters.keyOrder.le left.2 right.2 := by
  unfold SortOrder.le keyOrder
  rw [sorted.order, compare_map _ _ parameters.keyColumn]
  intro position _
  unfold SortColumn.compare
  dsimp only [keyColumn]
  rw [key_of_kept first, key_of_kept second]
  rfl

theorem length_of_rank {row : Row} {ranked : Row × Row} (rank : parameters.rank row = .ok ranked) :
    ranked.1.length = parameters.outputs.length := by
  obtain ⟨outputs, evaluated, rank⟩ := ok_of_bind rank
  obtain ⟨keys, _, rank⟩ := ok_of_bind rank
  obtain rfl := Except.ok.inj rank
  exact Symbol.length_of_evaluateAll evaluated

private theorem kept_of_ranked (sorted : SortedBy parameters sorting) {rows : List Row}
    {ranked : List (Row × Row)} (ranks : rows.mapM parameters.rank = .ok ranked) :
    rows.mapM sorting.keep = .ok (ranked.map fun pair => pair.1 ++ pair.2) ∧
      ∀ pair ∈ ranked, pair.1.length = parameters.outputs.length := by
  induction rows generalizing ranked with
  | nil =>
    obtain rfl : [] = ranked := Except.ok.inj ranks
    exact ⟨rfl, by simp⟩
  | cons row rest ih =>
    rw [List.mapM_cons] at ranks
    obtain ⟨first, head, ranks⟩ := ok_of_bind ranks
    obtain ⟨others, tail, ranks⟩ := ok_of_bind ranks
    obtain rfl : first :: others = ranked := Except.ok.inj ranks
    obtain ⟨kept, lengths⟩ := ih tail
    refine ⟨?_, ?_⟩
    · rw [List.mapM_cons, sorted.keep, head, kept]
      rfl
    · intro pair member
      rcases List.mem_cons.mp member with rfl | member
      · exact length_of_rank head
      · exact lengths pair member

/-- Sorting what is kept of rows is sorting the rows by their keys. -/
theorem emittedRows_eq (sorted : SortedBy parameters sorting) {ranked : List (Row × Row)}
    (lengths : ∀ pair ∈ ranked, pair.1.length = parameters.outputs.length) :
    sorting.emittedRows (ranked.map fun pair => pair.1 ++ pair.2) =
      ((ranked.mergeSort fun left right => parameters.keyOrder.le left.2 right.2).drop
        parameters.offset).map (·.1) := by
  have ordered : sorting.sorted (ranked.map fun pair => pair.1 ++ pair.2) =
      (ranked.mergeSort fun left right => parameters.keyOrder.le left.2 right.2).map
        fun pair => pair.1 ++ pair.2 :=
    (List.map_mergeSort fun left first right second =>
      (sorted.le_eq (lengths left first) (lengths right second)).symm).symm
  rw [Sorting.emittedRows, ordered, sorted.offset, ← List.map_drop, List.map_map]
  refine List.map_congr_left fun pair member => ?_
  have kept := lengths pair (List.mem_mergeSort.mp (List.mem_of_mem_drop member))
  simp [Sorting.emitted, sorted.outputs, ← kept]

end SortedBy

theorem sort_promises {parameters : OrderedTopN} {sorting : Sorting}
    (sorted : SortedBy parameters sorting) (unlimited : parameters.limit = none)
    {rows out : List Row} (sliced : parameters.sliceRows rows = .ok out) :
    SortStage.Promises out { sorting := sorting } rows := by
  obtain ⟨inOrder, sorts, sliced⟩ := ok_of_bind sliced
  obtain ⟨ranked, ranks, sorts⟩ := ok_of_bind sorts
  obtain rfl := Except.ok.inj sorts
  obtain rfl := Except.ok.inj sliced
  obtain ⟨kept, lengths⟩ := sorted.kept_of_ranked ranks
  refine ⟨_, kept, ?_⟩
  rw [List.reverse_nil, List.nil_append, sorted.emittedRows_eq lengths, unlimited, limited]

theorem top_promises {parameters : OrderedTopN} {sorting : Sorting}
    (sorted : SortedBy parameters sorting) {limit : Nat} (bound : parameters.limit = some limit)
    {rows out : List Row} (sliced : parameters.sliceRows rows = .ok out)
    (counted : rows.length ≤ Bucket.greatestSize) :
    TopStage.Promises out { sorting := sorting, limit := limit } rows := by
  obtain ⟨inOrder, sorts, sliced⟩ := ok_of_bind sliced
  obtain ⟨ranked, ranks, sorts⟩ := ok_of_bind sorts
  obtain rfl := Except.ok.inj sorts
  obtain rfl := Except.ok.inj sliced
  obtain ⟨kept, lengths⟩ := sorted.kept_of_ranked ranks
  refine ⟨[], _, ?_, kept, ?_, ?_⟩
  · rw [Sorting.sorted, List.mergeSort_nil, List.take_nil]
  · rw [List.nil_append, List.length_map, length_of_mapM ranks]
    exact counted
  · rw [List.nil_append, sorted.emittedRows_eq lengths, bound, limited]

end OrderedTopN

end RowPipeline
